import MafwShared.Lib.Splice
import MafwShared.Proofs.PlayOrder

/-!
# Inserting, removing and moving items

What `pls_inserts`, `pls_remove` and `pls_move` do to the three arrays. The loops that renumber
`pidx` and `iidx` in place are first replaced by closed forms for the whole array. From
these follow the new item list and the new play order.
-/

namespace MafwShared
open CLib

/-! ### Making room -/

lemma doubleUntil_ge {wantsize fuel s t : Nat} (h : doubleUntil wantsize fuel s = some t) :
    wantsize ≤ t := by
  induction fuel generalizing s with
  | zero => simp [doubleUntil] at h
  | succ fuel ih =>
    rw [doubleUntil] at h
    by_cases hs : s < wantsize
    · rw [if_pos hs] at h
      exact ih h
    · rw [if_neg hs] at h
      cases h
      exact not_lt.mp hs

lemma doubleUntil_isSome {wantsize : Nat} (h : wantsize ≤ 2 ^ 31) (j fuel : Nat) (hj : j ≤ 31)
    (hf : j < fuel) : (doubleUntil wantsize fuel (2 ^ (31 - j))).isSome := by
  induction j generalizing fuel with
  | zero =>
    obtain ⟨fuel, rfl⟩ := Nat.exists_eq_succ_of_ne_zero (Nat.ne_zero_of_lt hf)
    rw [doubleUntil, if_neg (by simpa using h)]
    rfl
  | succ j ih =>
    obtain ⟨fuel, rfl⟩ := Nat.exists_eq_succ_of_ne_zero (Nat.ne_zero_of_lt hf)
    rw [doubleUntil]
    split
    · have hpow : 2 ^ (31 - (j + 1)) * 2 = 2 ^ (31 - j) := by
        rw [← Nat.pow_succ]
        congr 1
        omega
      have hlt : (2 : Nat) ^ (31 - j) < 2 ^ 32 := Nat.pow_lt_pow_right (by omega) (by omega)
      rw [hpow, Nat.mod_eq_of_lt hlt]
      exact ih fuel (by omega) (by omega)
    · rfl

lemma maybeRealloc_spec {p q : Pls} {n : Nat} (h : maybeRealloc p n = some q) :
    q = { p with alloc := q.alloc } ∧ p.alloc ≤ q.alloc ∧ (p.len + n) % 2 ^ 32 ≤ q.alloc := by
  unfold maybeRealloc at h
  dsimp only at h
  split at h
  · cases h
  · split at h
    · cases h
      exact ⟨rfl, le_rfl, by assumption⟩
    · rename_i hle
      obtain ⟨t, ht, rfl⟩ := Option.map_eq_some_iff.mp h
      have hge := doubleUntil_ge ht
      exact ⟨rfl, by dsimp only; omega, hge⟩

lemma maybeRealloc_isSome {p : Pls} {n : Nat} (hl : p.len ≤ p.alloc) (hn : p.len + n ≤ 2 ^ 31) :
    (maybeRealloc p n).isSome := by
  unfold maybeRealloc
  dsimp only
  rw [if_neg (not_lt.mpr hl)]
  split
  · rfl
  · rw [Option.isSome_map]
    have hmod : (p.len + n) % 2 ^ 32 ≤ 2 ^ 31 := (Nat.mod_le _ _).trans hn
    exact doubleUntil_isSome hmod 27 33 (by omega) (by omega)

/-! ### The loops in closed form -/

lemma raiseIndices_eq (idx n : Nat) (p : Pls) : raiseIndices idx n p =
    { p with
      pidx := fun c => if c < p.len ∧ p.pidx c ≥ idx then p.pidx c + n else p.pidx c
      iidx := forUpto p.len
        (fun i g => if p.pidx i ≥ idx then Function.update g (p.pidx i + n) i else g) p.iidx } := by
  have h : ∀ m, forUpto m (fun (i : Nat) (q : Pls) =>
      if q.pidx i ≥ idx then
        let pidx := Function.update q.pidx i (q.pidx i + n)
        { q with pidx := pidx, iidx := Function.update q.iidx (pidx i) i }
      else q) p =
    { p with
      pidx := fun c => if c < m ∧ p.pidx c ≥ idx then p.pidx c + n else p.pidx c
      iidx := forUpto m
        (fun i g => if p.pidx i ≥ idx then Function.update g (p.pidx i + n) i else g) p.iidx } := by
    intro m
    induction m with
    | zero => simp
    | succ m ih =>
      rw [forUpto_succ, ih, forUpto_succ]
      have hm : (if m < m ∧ p.pidx m ≥ idx then p.pidx m + n else p.pidx m) = p.pidx m :=
        if_neg (by omega)
      simp only [hm]
      by_cases hp : p.pidx m ≥ idx
      · rw [if_pos hp, if_pos hp, Function.update_self]
        congr 1
        funext c
        by_cases hc : c = m
        · subst hc
          rw [Function.update_self, if_pos ⟨Nat.lt_succ_self c, hp⟩]
        · rw [Function.update_of_ne hc]
          have he : (c < m + 1 ∧ p.pidx c ≥ idx) = (c < m ∧ p.pidx c ≥ idx) := by
            apply propext
            omega
          simp only [he]
      · rw [if_neg hp, if_neg hp]
        congr 1
        funext c
        by_cases hc : c = m
        · subst hc
          rw [if_neg (by omega), if_neg (by omega)]
        · have he : (c < m + 1 ∧ p.pidx c ≥ idx) = (c < m ∧ p.pidx c ≥ idx) := by
            apply propext
            omega
          simp only [he]
  exact h p.len

lemma appendIndices_eq (idx n : Nat) (p : Pls) : appendIndices idx n p =
    { p with
      pidx := fun c => if p.len ≤ c ∧ c < p.len + n then idx + (c - p.len) else p.pidx c
      iidx := fun c => if idx ≤ c ∧ c < idx + n then p.len + (c - idx) else p.iidx c } := by
  have h : appendIndices idx n p =
      { p with
        pidx := forUpto n (fun k b => Function.update b (p.len + k) (idx + k)) p.pidx
        iidx := forUpto n (fun k b => Function.update b (idx + k) (p.len + k)) p.iidx } := by
    unfold appendIndices
    induction n with
    | zero => rfl
    | succ n ih => rw [forUpto_succ, ih, forUpto_succ, forUpto_succ]
  rw [h]
  congr 1
  · funext c
    exact forUpto_store p.pidx p.len (fun k => idx + k) n c
  · funext c
    exact forUpto_store p.iidx idx (fun k => p.len + k) n c

lemma lowerIndices_eq (idx : Nat) (p : Pls) : lowerIndices idx p =
    { p with pidx := fun c => if c < p.len ∧ p.pidx c > idx then p.pidx c - 1 else p.pidx c } := by
  have h : ∀ m, forUpto m (fun (i : Nat) (q : Pls) =>
      if q.pidx i > idx then { q with pidx := Function.update q.pidx i (q.pidx i - 1) } else q) p =
    { p with pidx := fun c => if c < m ∧ p.pidx c > idx then p.pidx c - 1 else p.pidx c } := by
    intro m
    induction m with
    | zero => simp
    | succ m ih =>
      rw [forUpto_succ, ih]
      have hm : (if m < m ∧ p.pidx m > idx then p.pidx m - 1 else p.pidx m) = p.pidx m :=
        if_neg (by omega)
      simp only [hm]
      have hc : ∀ c, c ≠ m → (c < m + 1 ∧ p.pidx c > idx) = (c < m ∧ p.pidx c > idx) := by
        intro c hc
        apply propext
        omega
      by_cases hp : p.pidx m > idx
      · rw [if_pos hp]
        congr 1
        funext c
        by_cases he : c = m
        · subst he
          rw [Function.update_self, if_pos ⟨Nat.lt_succ_self c, hp⟩]
        · rw [Function.update_of_ne he]
          simp only [hc c he]
      · rw [if_neg hp]
        congr 1
        funext c
        by_cases he : c = m
        · subst he
          rw [if_neg (by omega), if_neg (by omega)]
        · simp only [hc c he]
  exact h p.len

lemma rebuildIidx_eq (n : Nat) (p : Pls) : rebuildIidx n p =
    { p with iidx := forUpto n (fun i g => Function.update g (p.pidx i) i) p.iidx } := by
  unfold rebuildIidx
  induction n with
  | zero => rfl
  | succ n ih => rw [forUpto_succ, ih, forUpto_succ]

lemma rebuildIidx_pair {n : Nat} {p : Pls} (hmaps : ∀ i < n, p.pidx i < n)
    (hinj : ∀ i < n, ∀ j < n, p.pidx i = p.pidx j → i = j) :
    InversePair n (rebuildIidx n p).pidx (rebuildIidx n p).iidx := by
  rw [rebuildIidx_eq]
  refine ⟨hmaps, fun i hi => ?_⟩
  have h := forUpto_scatter_hit (fun _ => True) p.pidx p.iidx
    (fun a ha b hb _ _ => hinj a ha b hb) hi trivial
  simpa using h

/-! ### Insertion -/

lemma cells_insert (a b : Nat → Bytes) (idx n : Nat) (oids : List Bytes) (hidx : idx ≤ n)
    (h1 : ∀ i < idx, b i = a i)
    (h2 : ∀ i (h : i < oids.length), b (idx + i) = oids[i])
    (h3 : ∀ i, idx ≤ i → i < n → b (i + oids.length) = a i) :
    cells b (n + oids.length) = (cells a n).take idx ++ oids ++ (cells a n).drop idx := by
  rw [cells_eq_iff]
  constructor
  · simp only [List.length_append, List.length_take, List.length_drop, length_cells]
    omega
  · intro i hi
    simp only [List.length_append, List.length_take, List.length_drop, length_cells] at hi
    by_cases hlt : i < idx
    · rw [List.getElem_append_left (by simp; omega), List.getElem_append_left (by simp; omega),
        List.getElem_take, getElem_cells]
      exact h1 i hlt
    · by_cases hmid : i < idx + oids.length
      · rw [List.getElem_append_left (by simp; omega), List.getElem_append_right (by simp; omega)]
        have h := h2 (i - idx) (by omega)
        rw [show idx + (i - idx) = i by omega] at h
        rw [h]
        congr 1
        simp
        omega
      · rw [List.getElem_append_right (by simp; omega), List.getElem_drop, getElem_cells]
        have h := h3 (i - oids.length) (by omega) (by omega)
        rw [show i - oids.length + oids.length = i by omega] at h
        rw [h]
        congr 1
        simp
        omega

/-- What an accepted insertion does to a playlist. -/
structure Inserted (p : Pls) (idx : Nat) (oids : List Bytes) (q : Pls) : Prop where
  frame : { q with
    len := p.len, alloc := p.alloc, vidx := p.vidx, pidx := p.pidx, iidx := p.iidx, dirty := p.dirty } = p
  len_eq : q.len = p.len + oids.length
  len_le : q.len ≤ q.alloc
  items : cells q.vidx q.len =
    (cells p.vidx p.len).take idx ++ oids ++ (cells p.vidx p.len).drop idx
  ordered : p.shuffled ≠ 0 → p.Ordered → q.Ordered

/-- The renumbered old order followed by the new items inverts the rewritten `iidx`. -/
lemma insertIndices_pair {p : Pls} (h : p.Ordered) {idx : Nat} (hidx : idx ≤ p.len) (n : Nat) :
    InversePair (p.len + n) (appendIndices idx n (raiseIndices idx n p)).pidx
      (appendIndices idx n (raiseIndices idx n p)).iidx := by
  rw [appendIndices_eq, raiseIndices_eq]
  dsimp only
  refine ⟨fun i hi => ?_, fun i hi => ?_⟩
  · by_cases hnew : p.len ≤ i
    · rw [if_pos ⟨hnew, hi⟩]
      omega
    · have hm := h.pair.maps i (by omega)
      rw [if_neg (by omega)]
      split <;> omega
  · by_cases hnew : p.len ≤ i
    · have hval : p.len ≤ i ∧ i < p.len + n := ⟨hnew, hi⟩
      simp only [hval, and_self, if_true]
      rw [if_pos (by omega)]
      omega
    · have hm := h.pair.maps i (by omega)
      have hlt : i < p.len := not_le.mp hnew
      simp only [hnew, false_and, if_false, hlt, true_and]
      by_cases hp : p.pidx i ≥ idx
      · simp only [hp, if_true]
        rw [if_neg (by omega)]
        exact forUpto_scatter_hit (fun k => p.pidx k ≥ idx) (fun k => p.pidx k + n) p.iidx
          (fun a ha b hb _ _ he => h.pair.inj ha hb (by omega)) (by omega) hp
      · simp only [hp, false_and, if_false]
        rw [forUpto_scatter_miss (fun k => p.pidx k ≥ idx) (fun k => p.pidx k + n) p.iidx
          (fun k _ hk => by omega)]
        exact h.pair.left i (by omega)

lemma plsInserts_spec {p p' : Pls} {idx : Nat} {oids : List Bytes} (hne : oids ≠ []) (hidx : idx ≤ p.len)
    (hp' : maybeRealloc p oids.length = some p') (hlt : p.len + oids.length < 2 ^ 32) :
    ∃ q, plsInserts p idx oids = some (true, q) ∧ q.dirty = true ∧ Inserted p idx oids q := by
  obtain ⟨hp, -, halloc⟩ := maybeRealloc_spec hp'
  have hmod : (p.len + oids.length) % 2 ^ 32 = p.len + oids.length := Nat.mod_eq_of_lt hlt
  unfold plsInserts
  rw [if_neg hne, if_neg (by omega), hp']
  refine ⟨_, rfl, rfl, ?_⟩
  rw [hmod] at halloc
  have hitems : cells (forUpto oids.length
      (fun i v => Function.update v (idx + i) (oids.getD i []))
      (memmove p.vidx (idx + oids.length) idx (p.len - idx))) (p.len + oids.length) =
      (cells p.vidx p.len).take idx ++ oids ++ (cells p.vidx p.len).drop idx := by
    have hcell := forUpto_store (memmove p.vidx (idx + oids.length) idx (p.len - idx)) idx
      (fun i => oids.getD i []) oids.length
    apply cells_insert _ _ _ _ _ hidx
    · intro i hi
      rw [hcell, if_neg (by omega), memmove_outside _ (by omega)]
    · intro i hi
      rw [hcell, if_pos (by omega), show idx + i - idx = i by omega, List.getD_eq_getElem?_getD,
        List.getElem?_eq_getElem hi, Option.getD_some]
    · intro i h1 h2
      rw [hcell, if_neg (by omega), memmove_inside _ (by omega) (by omega)]
      congr 1
      omega
  by_cases hs : p.shuffled = 0
  · rw [hp]
    simp only [hs, ne_eq, not_true_eq_false, if_false, iAmDirty]
    refine ⟨?_, hmod, ?_, ?_, fun h => absurd hs h⟩
    · rw [← hs]
    · rw [hmod]
      exact halloc
    · rw [hmod]
      exact hitems
  · rw [hp]
    simp only [ne_eq, hs, not_false_eq_true, if_true, iAmDirty]
    rw [appendIndices_eq, raiseIndices_eq]
    refine ⟨rfl, hmod, ?_, ?_, fun _ ho => ⟨?_, ?_⟩⟩
    · dsimp only
      rw [hmod]
      exact halloc
    · dsimp only
      rw [hmod]
      exact hitems
    · dsimp only
      rw [hmod]
      exact ho.poolst_le.trans (Nat.le_add_right _ _)
    · have hpair := insertIndices_pair ho hidx oids.length
      rw [appendIndices_eq, raiseIndices_eq] at hpair
      dsimp only
      rw [hmod]
      exact hpair

theorem plsInserts_accepted {p : Pls} {idx : Nat} {oids : List Bytes} (hne : oids ≠ [])
    (hidx : idx ≤ p.len) (hl : p.len ≤ p.alloc) (hsize : p.len + oids.length ≤ 2 ^ 31) :
    ∃ q, plsInserts p idx oids = some (true, q) ∧ q.dirty = true ∧ Inserted p idx oids q := by
  obtain ⟨p', hp'⟩ := Option.isSome_iff_exists.mp (maybeRealloc_isSome hl hsize)
  exact plsInserts_spec hne hidx hp' (by omega)

lemma plsInserts_rejected {p : Pls} {idx : Nat} {oids : List Bytes} (h : oids = [] ∨ idx > p.len) :
    plsInserts p idx oids = some (false, p) := by
  unfold plsInserts
  by_cases hne : oids = []
  · rw [if_pos hne]
  · rw [if_neg hne, if_pos (h.resolve_left hne)]

/-! ### Removal -/

/-- The removal of one item reaches every committed item it must keep: the removed one is
in the pool, or there is no pool that would have to close the gap. -/
def Pls.RemovesCleanly (p : Pls) (idx : Nat) : Prop :=
  p.shuffled = 0 ∨ p.poolst ≤ p.iidx idx ∨ p.poolst = p.len

instance (p : Pls) (idx : Nat) : Decidable (p.RemovesCleanly idx) := by
  unfold Pls.RemovesCleanly
  infer_instance

structure Removed (p : Pls) (idx : Nat) (q : Pls) : Prop where
  frame : { q with
    len := p.len, poolst := p.poolst, vidx := p.vidx, pidx := p.pidx, iidx := p.iidx, dirty := p.dirty } = p
  len_eq : q.len = p.len - 1
  items : cells q.vidx q.len = (cells p.vidx p.len).eraseIdx idx

/-- New positions draw on distinct old positions other than that of the removed item, so
the lowered numbering is again a permutation. -/
lemma lowered_pair {p q : Pls} (h : p.Ordered) {idx : Nat} (hi : idx < p.len) (src : Nat → Nat)
    (hsrc : ∀ i < p.len - 1, src i < p.len ∧ p.pidx (src i) ≠ idx)
    (hinj : ∀ i < p.len - 1, ∀ j < p.len - 1, src i = src j → i = j)
    (hq : ∀ i < p.len - 1, q.pidx i =
      if p.pidx (src i) > idx then p.pidx (src i) - 1 else p.pidx (src i)) :
    InversePair (p.len - 1) (rebuildIidx (p.len - 1) q).pidx (rebuildIidx (p.len - 1) q).iidx := by
  apply rebuildIidx_pair
  · intro i hlt
    have hm := h.pair.maps (src i) (hsrc i hlt).1
    have hne := (hsrc i hlt).2
    rw [hq i hlt]
    split <;> omega
  · intro i hli j hlj he
    rw [hq i hli, hq j hlj] at he
    have h1 := (hsrc i hli).2
    have h2 := (hsrc j hlj).2
    have heq : p.pidx (src i) = p.pidx (src j) := by
      split at he <;> split at he <;> omega
    exact hinj i hli j hlj (h.pair.inj (hsrc i hli).1 (hsrc j hlj).1 heq)

lemma removeShuffled_ordered {p : Pls} (h : p.Ordered) {idx : Nat} (hi : idx < p.len)
    (hc : p.poolst ≤ p.iidx idx ∨ p.poolst = p.len) :
    (removeShuffled p idx).poolst ≤ p.len - 1 ∧
      InversePair (p.len - 1) (removeShuffled p idx).pidx (removeShuffled p idx).iidx := by
  have hopx := h.pair.inv_lt hi
  have hright := h.pair.right hi
  have hpool := h.poolst_le
  -- positions other than that of the removed item hold other items
  have hne : ∀ c < p.len, c ≠ p.iidx idx → p.pidx c ≠ idx := by
    intro c hlt hcne he
    exact hcne (h.pair.inj hlt hopx (he.trans hright.symm))
  unfold removeShuffled
  rw [lowerIndices_eq]
  by_cases hlt : p.iidx idx < p.poolst
  · have hall : p.poolst = p.len := hc.resolve_left (by omega)
    simp only [if_pos hlt]
    refine ⟨by rw [rebuildIidx_eq]; dsimp only; omega, ?_⟩
    apply lowered_pair h hi (fun i => if i < p.iidx idx then i else i + 1)
    · intro i hil
      split
      · exact ⟨by omega, hne i (by omega) (by omega)⟩
      · exact ⟨by omega, hne (i + 1) (by omega) (by omega)⟩
    · intro i hil j hjl he
      split at he <;> split at he <;> omega
    · intro i hil
      dsimp only
      by_cases hio : i < p.iidx idx
      · rw [memmove_outside _ (by omega), if_pos hio]
        have hlen : i < p.len := by omega
        simp only [hlen, true_and]
      · rw [memmove_inside _ (by omega) (by omega), if_neg hio,
          show p.iidx idx + 1 + (i - p.iidx idx) = i + 1 by omega]
        have hlen : i + 1 < p.len := by omega
        simp only [hlen, true_and]
  · simp only [if_neg hlt]
    refine ⟨by rw [rebuildIidx_eq]; dsimp only; omega, ?_⟩
    apply lowered_pair h hi (fun i => if i = p.iidx idx then p.len - 1 else i)
    · intro i hil
      split
      · exact ⟨by omega, hne (p.len - 1) (by omega) (by omega)⟩
      · exact ⟨by omega, hne i (by omega) (by omega)⟩
    · intro i hil j hjl he
      split at he <;> split at he <;> omega
    · intro i hil
      dsimp only
      by_cases hio : i = p.iidx idx
      · rw [hio, Function.update_self, if_pos rfl]
        have hlen : p.len - 1 < p.len := by omega
        simp only [hlen, true_and]
      · rw [Function.update_of_ne hio, if_neg hio]
        have hlen : i < p.len := by omega
        simp only [hlen, true_and]

lemma cells_remove {α : Type} (a : Nat → α) {idx n : Nat} (h : idx < n) :
    cells (memmove a idx (idx + 1) (n - idx - 1)) (n - 1) = (cells a n).eraseIdx idx := by
  rw [cells_eq_iff]
  constructor
  · rw [List.length_eraseIdx_of_lt (by simpa using h), length_cells]
  · intro i hi
    rw [List.length_eraseIdx_of_lt (by simpa using h), length_cells] at hi
    rw [List.getElem_eraseIdx]
    by_cases hlt : i < idx
    · rw [memmove_outside _ (by omega), dif_pos hlt, getElem_cells]
    · rw [memmove_inside _ (by omega) (by omega), dif_neg hlt, getElem_cells]
      congr 1
      omega

lemma removeShuffled_frame (p : Pls) (idx : Nat) :
    { removeShuffled p idx with poolst := p.poolst, pidx := p.pidx, iidx := p.iidx } = p := by
  unfold removeShuffled
  rw [lowerIndices_eq, rebuildIidx_eq]
  dsimp only
  split <;> rfl

theorem plsRemove_accepted {p : Pls} {idx : Nat} (hi : idx < p.len) :
    ∃ q, plsRemove p idx = (true, q) ∧ q.dirty = true ∧ Removed p idx q ∧
      (p.shuffled ≠ 0 → p.Ordered → p.RemovesCleanly idx → q.Ordered) := by
  unfold plsRemove
  rw [if_neg (by omega)]
  refine ⟨_, rfl, rfl, ?_⟩
  dsimp only [iAmDirty]
  by_cases hs : p.shuffled = 0
  · simp only [hs, ne_eq, not_true_eq_false, if_false]
    refine ⟨⟨?_, rfl, cells_remove p.vidx hi⟩, fun h => h.elim⟩
    rw [← hs]
  · simp only [ne_eq, hs, not_false_eq_true, if_true]
    have hframe := removeShuffled_frame
      { p with vidx := memmove p.vidx idx (idx + 1) (p.len - idx - 1) } idx
    have hlen := congrArg Pls.len hframe
    have hvidx := congrArg Pls.vidx hframe
    dsimp only at hlen hvidx
    refine ⟨⟨?_, by rw [hlen], ?_⟩, fun _ ho hc => ?_⟩
    · exact (congrArg
        (fun q : Pls => { q with len := p.len, vidx := p.vidx, dirty := p.dirty }) hframe :)
    · rw [hlen, hvidx]
      exact cells_remove p.vidx hi
    · have hord := removeShuffled_ordered
        (p := { p with vidx := memmove p.vidx idx (idx + 1) (p.len - idx - 1) })
        ⟨ho.poolst_le, ho.pair⟩ hi (hc.resolve_left hs)
      dsimp only at hord
      exact ⟨by rw [hlen]; exact hord.1, by rw [hlen]; exact hord.2⟩

lemma plsRemove_rejected {p : Pls} {idx : Nat} (h : p.len ≤ idx) : plsRemove p idx = (false, p) := by
  unfold plsRemove
  rw [if_pos h]

/-! ### Moving -/

lemma cells_move (a b : Nat → Bytes) {n src dst : Nat} (hs : src < n) (hd : dst < n)
    (h0 : b dst = a src) (h1 : ∀ i, src ≤ i → i < dst → b i = a (i + 1))
    (h2 : ∀ i, dst < i → i ≤ src → b i = a (i - 1))
    (h3 : ∀ i, i < src ∧ i < dst ∨ src < i ∧ dst < i → b i = a i) :
    cells b n = moveItem (cells a n) src dst := by
  have hlen := length_moveItem (cells a n) (by simpa using hs) (by simpa using hd)
  have hget := getElem?_moveItem (cells a n) (by simpa using hs) (by simpa using hd)
  apply List.ext_getElem?
  intro i
  by_cases hi : i < n
  · rw [getElem?_cells _ hi, hget i]
    by_cases hdst : i = dst
    · rw [if_pos hdst, getElem?_cells _ hs, hdst, h0]
    · rw [if_neg hdst]
      by_cases hup : src ≤ i ∧ i < dst
      · rw [if_pos hup, getElem?_cells _ (by omega), h1 i hup.1 hup.2]
      · rw [if_neg hup]
        by_cases hdown : dst < i ∧ i ≤ src
        · rw [if_pos hdown, getElem?_cells _ (by omega), h2 i hdown.1 hdown.2]
        · rw [if_neg hdown, getElem?_cells _ hi, h3 i (by omega)]
  · rw [List.getElem?_eq_none (by simpa using not_lt.mp hi),
      List.getElem?_eq_none (by rw [hlen]; simpa using not_lt.mp hi)]

/-- What an accepted move does to a playlist. -/
structure Moved (p : Pls) (src dst : Nat) (q : Pls) : Prop where
  frame : { q with vidx := p.vidx, dirty := p.dirty } = p
  items : cells q.vidx q.len = moveItem (cells p.vidx p.len) src dst

lemma plsMove_accepted {p : Pls} {src dst : Nat} (hs : src < p.len) (hd : dst < p.len) :
    ∃ q, plsMove p src dst = (true, q) ∧ Moved p src dst q := by
  unfold plsMove
  by_cases he : src = dst
  · rw [if_pos he]
    refine ⟨p, rfl, rfl, ?_⟩
    rw [← he, moveItem_self _ (by simpa using hs)]
  · rw [if_neg he, if_neg (by omega)]
    by_cases hlt : src < dst
    · rw [if_pos hlt]
      refine ⟨_, rfl, rfl, cells_move _ _ hs hd (Function.update_self _ _ _) ?_ ?_ ?_⟩
      · intro i h1 h2
        refine (Function.update_of_ne (by omega) _ _).trans ?_
        rw [memmove_inside _ h1 (by omega)]
        congr 1
        omega
      · intro i h1 h2
        omega
      · intro i hi
        refine (Function.update_of_ne (by omega) _ _).trans ?_
        rw [memmove_outside _ (by omega)]
    · rw [if_neg hlt]
      refine ⟨_, rfl, rfl, cells_move _ _ hs hd (Function.update_self _ _ _) ?_ ?_ ?_⟩
      · intro i h1 h2
        omega
      · intro i h1 h2
        refine (Function.update_of_ne (by omega) _ _).trans ?_
        rw [memmove_inside _ (by omega) (by omega)]
        congr 1
        omega
      · intro i hi
        refine (Function.update_of_ne (by omega) _ _).trans ?_
        rw [memmove_outside _ (by omega)]

lemma plsMove_rejected {p : Pls} {src dst : Nat} (hne : src ≠ dst) (h : ¬(src < p.len ∧ dst < p.len)) :
    plsMove p src dst = (false, p) := by
  unfold plsMove
  rw [if_neg hne, if_pos (by omega)]

end MafwShared
