import MafwShared.Proofs.Navigation
import MafwShared.Proofs.PlaylistEdits
import Mathlib.Data.List.InsertIdx

/-!
# The play order after an edit

The items behind an edited place get new indices. What is left to say about `pidx` after an
insertion or a removal is that it lists the same items as before under their new indices: the
history in its old order, and the pool with what was added or without what was removed. A move
leaves the order alone and changes which item an index stands for.
-/

namespace MafwShared
open CLib

/-- The items that are not played yet. -/
def Pls.poolItems (p : Pls) : List Nat := (cells p.pidx p.len).drop p.poolst

lemma mem_poolItems {p : Pls} {j : Nat} : j ∈ p.poolItems ↔ ∃ i, p.poolst ≤ i ∧ i < p.len ∧ p.pidx i = j := by
  unfold Pls.poolItems
  constructor
  · intro h
    obtain ⟨k, hk, rfl⟩ := List.mem_iff_getElem.mp h
    have hlt : p.poolst + k < p.len := by
      rw [List.length_drop, length_cells] at hk
      omega
    exact ⟨p.poolst + k, Nat.le_add_right _ _, hlt, by rw [List.getElem_drop, getElem_cells]⟩
  · rintro ⟨i, hle, hlt, rfl⟩
    refine List.mem_iff_getElem.mpr ⟨i - p.poolst, ?_, ?_⟩
    · rw [List.length_drop, length_cells]
      omega
    · rw [List.getElem_drop, getElem_cells, Nat.add_sub_cancel' hle]

lemma Pls.Ordered.nodup {p : Pls} (h : p.Ordered) : (cells p.pidx p.len).Nodup :=
  h.pair.perm.nodup_iff.mpr List.nodup_range

lemma Pls.Ordered.nodup_history {p : Pls} (h : p.Ordered) : (cells p.pidx p.poolst).Nodup := by
  apply List.Nodup.map_on _ List.nodup_range
  intro i hi j hj he
  rw [List.mem_range] at hi hj
  exact h.pair.inj (hi.trans_le h.poolst_le) (hj.trans_le h.poolst_le) he

lemma Pls.Ordered.nodup_pool {p : Pls} (h : p.Ordered) : p.poolItems.Nodup :=
  h.nodup.sublist (List.drop_sublist _ _)

/-! ### Removal -/

/-- The index of item `j` after item `idx` was removed. -/
def lowered (idx j : Nat) : Nat := if j > idx then j - 1 else j

lemma lowered_inj {idx i j : Nat} (hi : i ≠ idx) (hj : j ≠ idx) (h : lowered idx i = lowered idx j) : i = j := by
  unfold lowered at h
  split at h <;> split at h <;> omega

lemma lowered_self (idx : Nat) : lowered idx idx = idx := if_neg (Nat.lt_irrefl idx)

/-- What a removal should do to a playlist. -/
structure RemovedInOrder (p : Pls) (idx : Nat) (q : Pls) : Prop where
  removed : Removed p idx q
  history : p.shuffled ≠ 0 →
    cells q.pidx q.poolst = ((cells p.pidx p.poolst).erase idx).map (lowered idx)
  pool : p.shuffled ≠ 0 → q.poolItems.Perm ((p.poolItems.erase idx).map (lowered idx))
  inverse : p.shuffled ≠ 0 → ∀ i < q.len, q.iidx (q.pidx i) = i

/-- `pls_remove` removes the item and nothing else, or refuses and leaves the playlist alone. -/
def RemovesInOrder (p : Pls) (idx : Nat) : Prop :=
  if idx < p.len then ∃ q, plsRemove p idx = (true, q) ∧ RemovedInOrder p idx q
  else plsRemove p idx = (false, p)

/-- The gap that the removal of a committed item leaves in front of the pool is filled by
chance: the item was the last one of the history and the one behind it in the list the last one of
the pool. -/
def Pls.FillsGap (p : Pls) (idx : Nat) : Prop := p.iidx idx + 1 = p.poolst ∧ p.pidx (p.len - 1) = idx + 1

lemma removeShuffled_fields (p : Pls) (idx : Nat) :
    (removeShuffled p idx).poolst = (if p.iidx idx < p.poolst then p.poolst - 1 else p.poolst) ∧
      (removeShuffled p idx).pidx =
        (let a := fun c => if c < p.len ∧ p.pidx c > idx then p.pidx c - 1 else p.pidx c
        if p.iidx idx < p.poolst then memmove a (p.iidx idx) (p.iidx idx + 1) (p.poolst - p.iidx idx - 1)
        else Function.update a (p.iidx idx) (a (p.len - 1))) ∧
      (removeShuffled p idx).iidx =
        forUpto (p.len - 1) (fun i g => Function.update g ((removeShuffled p idx).pidx i) i) p.iidx := by
  unfold removeShuffled
  rw [lowerIndices_eq, rebuildIidx_eq]
  dsimp only
  split <;> exact ⟨rfl, rfl, rfl⟩

lemma cells_lowered (p : Pls) (idx : Nat) {n : Nat} (hn : n ≤ p.len) :
    cells (fun c => if c < p.len ∧ p.pidx c > idx then p.pidx c - 1 else p.pidx c) n =
      (cells p.pidx n).map (lowered idx) := by
  unfold cells
  rw [List.map_map]
  apply List.map_congr_left
  intro i hi
  have hlt : i < p.len := (List.mem_range.mp hi).trans_le hn
  simp only [hlt, true_and]
  rfl

section
variable {p : Pls} {idx : Nat}

lemma erase_history (h : p.Ordered) (hi : idx < p.len) :
    (cells p.pidx p.poolst).erase idx =
      if p.iidx idx < p.poolst then (cells p.pidx p.poolst).eraseIdx (p.iidx idx) else cells p.pidx p.poolst := by
  split
  · rename_i hlt
    have hbound : p.iidx idx < (cells p.pidx p.poolst).length := by rwa [length_cells]
    have hcell : (cells p.pidx p.poolst)[p.iidx idx] = idx := by
      rw [getElem_cells]
      exact h.pair.right hi
    have herase := h.nodup_history.erase_getElem (p.iidx idx) hbound
    rwa [hcell] at herase
  · rename_i hge
    apply List.erase_of_not_mem
    intro hmem
    obtain ⟨i, hlt, rfl⟩ := mem_cells.mp hmem
    rw [h.pair.left i (hlt.trans_le h.poolst_le)] at hge
    exact hge hlt

lemma removeShuffled_history (h : p.Ordered) (hi : idx < p.len) :
    cells (removeShuffled p idx).pidx (removeShuffled p idx).poolst =
      ((cells p.pidx p.poolst).erase idx).map (lowered idx) := by
  obtain ⟨hpoolst, hpidx, -⟩ := removeShuffled_fields p idx
  rw [hpoolst, hpidx, erase_history h hi]
  dsimp only
  by_cases hlt : p.iidx idx < p.poolst
  · rw [if_pos hlt, if_pos hlt, if_pos hlt, cells_remove _ hlt, cells_lowered p idx h.poolst_le,
      List.eraseIdx_map]
  · rw [if_neg hlt, if_neg hlt, if_neg hlt, ← cells_lowered p idx h.poolst_le]
    apply cells_congr
    intro i hlt'
    rw [Function.update_of_ne (by omega)]

/-- The last entry takes the place of the removed one. -/
lemma removeShuffled_filled (h : p.Ordered) (hi : idx < p.len)
    (hc : p.poolst ≤ p.iidx idx ∨ p.FillsGap idx) {i : Nat} (hlt : i < p.len - 1) :
    (removeShuffled p idx).pidx i = lowered idx (p.pidx (if i = p.iidx idx then p.len - 1 else i)) := by
  have hlast : p.len - 1 < p.len := by omega
  have hil : i < p.len := by omega
  obtain ⟨-, hpidx, -⟩ := removeShuffled_fields p idx
  rw [hpidx]
  dsimp only
  rcases hc with hge | hgap
  · rw [if_neg (not_lt.mpr hge)]
    by_cases hio : i = p.iidx idx
    · rw [hio, Function.update_self, if_pos rfl]
      simp only [hlast, true_and]
      rfl
    · rw [Function.update_of_ne hio, if_neg hio]
      simp only [hil, true_and]
      rfl
  · have hend := hgap.1
    rw [if_pos (by omega), memmove_outside _ (by omega)]
    simp only [hil, true_and]
    by_cases hio : i = p.iidx idx
    · rw [if_pos hio, hio, h.pair.right hi, hgap.2, if_neg (Nat.lt_irrefl idx)]
      unfold lowered
      rw [if_pos (Nat.lt_succ_self idx), Nat.add_sub_cancel]
    · rw [if_neg hio]
      rfl

lemma removeShuffled_inverse (h : p.Ordered) (hi : idx < p.len)
    (hc : p.poolst ≤ p.iidx idx ∨ p.poolst = p.len ∨ p.FillsGap idx) :
    InversePair (p.len - 1) (removeShuffled p idx).pidx (removeShuffled p idx).iidx := by
  have hopx := h.pair.inv_lt hi
  have hright := h.pair.right hi
  by_cases hall : p.poolst = p.len
  · exact (removeShuffled_ordered h hi (.inr hall)).2
  · have hfill : p.poolst ≤ p.iidx idx ∨ p.FillsGap idx := hc.imp_right fun hc => hc.resolve_left hall
    have hne : ∀ c < p.len, c ≠ p.iidx idx → p.pidx c ≠ idx := by
      intro c hlt hcne he
      exact hcne (h.pair.inj hlt hopx (he.trans hright.symm))
    have hpair := lowered_pair (q := { p with pidx := (removeShuffled p idx).pidx }) h hi
      (fun i => if i = p.iidx idx then p.len - 1 else i) ?_ ?_
      fun i hlt => removeShuffled_filled h hi hfill hlt
    · obtain ⟨-, -, hiidx⟩ := removeShuffled_fields p idx
      rw [rebuildIidx_eq] at hpair
      rw [hiidx]
      exact hpair
    · intro i hlt
      split
      · exact ⟨by omega, hne _ (by omega) (by omega)⟩
      · exact ⟨by omega, hne i (by omega) (by omega)⟩
    · intro i hli j hlj he
      split at he <;> split at he <;> omega

/-- The new pool starts no later than the old one, and what it takes from in front of it is the cell that
was refilled. -/
lemma removeShuffled_start (hc : p.poolst ≤ p.iidx idx ∨ p.FillsGap idx) :
    (removeShuffled p idx).poolst ≤ p.poolst ∧ (removeShuffled p idx).poolst ≤ p.iidx idx ∧
      ∀ i, (removeShuffled p idx).poolst ≤ i → i ≠ p.iidx idx → p.poolst ≤ i := by
  rw [(removeShuffled_fields p idx).1]
  rcases hc with hge | hgap
  · rw [if_neg (not_lt.mpr hge)]
    exact ⟨le_rfl, hge, fun i hi _ => hi⟩
  · have hend := hgap.1
    rw [if_pos (by omega)]
    exact ⟨by omega, by omega, fun i hi hio => by omega⟩

lemma nodup_lowered {l : List Nat} (h : l.Nodup) : ((l.erase idx).map (lowered idx)).Nodup := by
  apply List.Nodup.map_on _ (h.erase idx)
  intro i hi j hj he
  rw [h.mem_erase_iff] at hi hj
  exact lowered_inj hi.1 hj.1 he

lemma mem_removeShuffled_pool (h : p.Ordered) (hi : idx < p.len) (hc : p.poolst ≤ p.iidx idx ∨ p.FillsGap idx)
    {x : Nat} : x ∈ Pls.poolItems { removeShuffled p idx with len := p.len - 1 } ↔
      x ∈ (p.poolItems.erase idx).map (lowered idx) := by
  have hopx := h.pair.inv_lt hi
  have hright := h.pair.right hi
  have hstart := removeShuffled_start hc
  have hcell : p.poolst ≤ p.iidx idx ∨ p.iidx idx + 1 = p.poolst := hc.imp_right fun hc => hc.1
  rw [mem_poolItems, List.mem_map]
  dsimp only
  constructor
  · rintro ⟨i, hpool, hlt, rfl⟩
    rw [removeShuffled_filled h hi hc hlt]
    refine ⟨_, h.nodup_pool.mem_erase_iff.mpr ⟨fun he => ?_, mem_poolItems.mpr ⟨_, ?_, ?_, rfl⟩⟩, rfl⟩
    · have hpos := h.pair.inj (by split <;> omega) hopx (he.trans hright.symm)
      split at hpos <;> omega
    · split
      · omega
      · exact hstart.2.2 i hpool (by assumption)
    · split <;> omega
  · rintro ⟨j, hj, rfl⟩
    obtain ⟨hne, hmem⟩ := h.nodup_pool.mem_erase_iff.mp hj
    obtain ⟨c, hpool, hlt, rfl⟩ := mem_poolItems.mp hmem
    have hco : c ≠ p.iidx idx := by
      rintro rfl
      exact hne hright
    by_cases hlast : c = p.len - 1
    · refine ⟨p.iidx idx, hstart.2.1, by omega, ?_⟩
      rw [removeShuffled_filled h hi hc (by omega), if_pos rfl, hlast]
    · refine ⟨c, hstart.1.trans hpool, by omega, ?_⟩
      rw [removeShuffled_filled h hi hc (by omega), if_neg hco]

lemma removeShuffled_pool (h : p.Ordered) (hi : idx < p.len)
    (hc : p.poolst ≤ p.iidx idx ∨ p.poolst = p.len ∨ p.FillsGap idx) :
    (Pls.poolItems { removeShuffled p idx with len := p.len - 1 }).Perm
      ((p.poolItems.erase idx).map (lowered idx)) := by
  by_cases hall : p.poolst = p.len
  · have hnone : p.poolItems = [] := List.drop_eq_nil_of_le (by rw [length_cells, hall])
    have hnone' : Pls.poolItems { removeShuffled p idx with len := p.len - 1 } = [] := by
      have hopx := h.pair.inv_lt hi
      apply List.drop_eq_nil_of_le
      rw [length_cells]
      dsimp only
      rw [(removeShuffled_fields p idx).1, if_pos (by omega)]
      omega
    rw [hnone, hnone']
    exact List.Perm.refl _
  · have hpair := removeShuffled_inverse h hi hc
    have hnodup : (Pls.poolItems { removeShuffled p idx with len := p.len - 1 }).Nodup :=
      (hpair.perm.nodup_iff.mpr List.nodup_range).sublist (List.drop_sublist _ _)
    apply (List.perm_ext_iff_of_nodup hnodup (nodup_lowered h.nodup_pool)).mpr
    exact fun x => mem_removeShuffled_pool h hi (hc.imp_right fun hc => hc.resolve_left hall)

/-- A committed item in front of a pool leaves the right pool behind only when the gap is filled. -/
lemma fillsGap_of_pool (h : p.Ordered) (hi : idx < p.len) (hlt : p.iidx idx < p.poolst) (hpool : p.poolst < p.len)
    (hperm : (Pls.poolItems { removeShuffled p idx with len := p.len - 1 }).Perm
      ((p.poolItems.erase idx).map (lowered idx)))
    (hinv : ∀ i < p.len - 1, (removeShuffled p idx).iidx ((removeShuffled p idx).pidx i) = i) : p.FillsGap idx := by
  have hopx := h.pair.inv_lt hi
  have hright := h.pair.right hi
  obtain ⟨hpoolst, hpidx, -⟩ := removeShuffled_fields p idx
  rw [if_pos hlt] at hpoolst
  have hcell : ∀ i, p.poolst - 1 ≤ i → i < p.len → (removeShuffled p idx).pidx i = lowered idx (p.pidx i) := by
    intro i hle hil
    rw [hpidx]
    dsimp only
    rw [if_pos hlt, memmove_outside _ (by omega)]
    simp only [hil, true_and]
    rfl
  -- the first cell of the new pool holds what the last one of the old history held
  have hfirst : lowered idx (p.pidx (p.poolst - 1)) ∈ (p.poolItems.erase idx).map (lowered idx) := by
    apply hperm.mem_iff.mp
    refine mem_poolItems.mpr ⟨p.poolst - 1, hpoolst.le, ?_, hcell _ le_rfl (by omega)⟩
    dsimp only
    omega
  obtain ⟨j, hj, hsame⟩ := List.mem_map.mp hfirst
  obtain ⟨hne, hmem⟩ := h.nodup_pool.mem_erase_iff.mp hj
  obtain ⟨c, hc, hcl, rfl⟩ := mem_poolItems.mp hmem
  have hend : p.iidx idx + 1 = p.poolst := by
    by_contra hend
    have hother : p.pidx (p.poolst - 1) ≠ idx := by
      intro he
      have hpos := h.pair.inj (by omega) hopx (he.trans hright.symm)
      omega
    have hpos := h.pair.inj hcl (by omega) (lowered_inj hne hother hsame)
    omega
  have hlast : p.poolst - 1 = p.iidx idx := by omega
  rw [hlast, hright, lowered_self] at hsame
  refine ⟨hend, ?_⟩
  have hclast : c = p.len - 1 := by
    by_contra hcn
    have hback := hinv c (by omega)
    rw [hcell c (by omega) hcl, hsame] at hback
    have hback' := hinv (p.poolst - 1) (by omega)
    rw [hcell _ le_rfl (by omega), hlast, hright, lowered_self] at hback'
    omega
  rw [← hclast]
  unfold lowered at hsame
  split at hsame <;> omega

lemma removeShuffled_vidx (p : Pls) (v : Nat → Bytes) (idx : Nat) :
    removeShuffled { p with vidx := v } idx = { removeShuffled p idx with vidx := v } := by
  unfold removeShuffled
  rw [lowerIndices_eq, lowerIndices_eq, rebuildIidx_eq, rebuildIidx_eq]
  dsimp only
  split <;> rfl

lemma plsRemove_shuffled (hi : idx < p.len) (hs : p.shuffled ≠ 0) :
    plsRemove p idx = (true, iAmDirty { removeShuffled p idx with
      vidx := memmove p.vidx idx (idx + 1) (p.len - idx - 1), len := p.len - 1 }) := by
  have hlen : (removeShuffled p idx).len = p.len := (congrArg Pls.len (removeShuffled_frame p idx) :)
  unfold plsRemove
  rw [if_neg (not_le.mpr hi)]
  dsimp only
  rw [if_pos hs, removeShuffled_vidx]
  dsimp only
  rw [hlen]

/-- For every well-formed playlist: a removal does what it should exactly when the removed item is not a
committed one in front of a pool, or the gap that it leaves there is filled by chance. -/
theorem plsRemove_inOrder (h : p.WF) (idx : Nat) :
    RemovesInOrder p idx ↔ (idx < p.len → p.RemovesCleanly idx ∨ p.FillsGap idx) := by
  unfold RemovesInOrder
  by_cases hi : idx < p.len
  · obtain ⟨q, hq, -, hremoved, -⟩ := plsRemove_accepted hi
    rw [if_pos hi]
    by_cases hs : p.shuffled = 0
    · exact ⟨fun _ _ => .inl (.inl hs), fun _ => ⟨q, hq, hremoved, fun hn => absurd hs hn,
        fun hn => absurd hs hn, fun hn => absurd hs hn⟩⟩
    · have ho := Pls.WF.ordered h hs
      have hq' := hq.symm.trans (plsRemove_shuffled hi hs)
      have hfields : q.len = p.len - 1 ∧ q.poolst = (removeShuffled p idx).poolst ∧
          q.pidx = (removeShuffled p idx).pidx ∧ q.iidx = (removeShuffled p idx).iidx ∧
          q.poolItems = Pls.poolItems { removeShuffled p idx with len := p.len - 1 } := by
        cases hq'
        exact ⟨rfl, rfl, rfl, rfl, rfl⟩
      obtain ⟨hlen, hpoolst, hpidx, hiidx, hitems⟩ := hfields
      constructor
      · rintro ⟨q', hq'', hr⟩ -
        cases hq.symm.trans hq''
        by_contra hn
        rw [not_or, Pls.RemovesCleanly, not_or, not_or] at hn
        obtain ⟨⟨-, hcommitted, hpool⟩, hgap⟩ := hn
        refine hgap (fillsGap_of_pool ho hi (not_le.mp hcommitted) ?_ ?_ ?_)
        · exact lt_of_le_of_ne ho.poolst_le hpool
        · rw [← hitems]
          exact hr.pool hs
        · rw [← hpidx, ← hiidx, ← hlen]
          exact hr.inverse hs
      · intro hc
        have hc' : p.poolst ≤ p.iidx idx ∨ p.poolst = p.len ∨ p.FillsGap idx := by
          rcases hc hi with hclean | hgap
          · exact (hclean.resolve_left hs).imp_right .inl
          · exact .inr (.inr hgap)
        refine ⟨q, hq, hremoved, fun _ => ?_, fun _ => ?_, fun _ => ?_⟩
        · rw [hpidx, hpoolst]
          exact removeShuffled_history ho hi
        · rw [hitems]
          exact removeShuffled_pool ho hi hc'
        · rw [hlen, hpidx, hiidx]
          exact (removeShuffled_inverse ho hi hc').left
  · rw [if_neg hi]
    exact ⟨fun _ hlt => absurd hlt hi, fun _ => plsRemove_rejected (not_lt.mp hi)⟩

end

/-- The item that was not played yet is removed. -/
theorem plsRemove_inOrder_pool : RemovesInOrder (halfPlayed fun _ => 0).pls 0 :=
  (plsRemove_inOrder halfPlayed_wf 0).mpr fun _ => .inl (.inr (.inl (by decide)))

/-- The item that was played is removed: the pool of the one that is left names the item behind
the end of the list. -/
theorem plsRemove_leaves_gap : (halfPlayed fun _ => 0).pls.WF ∧
    (plsRemove (halfPlayed fun _ => 0).pls 1).2.poolItems = [1] ∧ ¬RemovesInOrder (halfPlayed fun _ => 0).pls 1 := by
  refine ⟨halfPlayed_wf, by decide, fun h => ?_⟩
  rw [RemovesInOrder, if_pos (by decide)] at h
  obtain ⟨q, hq, hr⟩ := h
  have hperm := hr.pool (by decide)
  cases hq
  exact absurd hperm (by decide)

/-! ### Insertion -/

/-- The index of item `j` after `n` items were inserted at `idx`. -/
def raised (idx n j : Nat) : Nat := if j ≥ idx then j + n else j

/-- What an insertion should do to a playlist. -/
structure InsertedInOrder (p : Pls) (idx : Nat) (oids : List Bytes) (q : Pls) : Prop where
  inserted : Inserted p idx oids q
  poolst_eq : q.poolst = p.poolst
  order : p.shuffled ≠ 0 → cells q.pidx q.len =
    (cells p.pidx p.len).map (raised idx oids.length) ++ (List.range oids.length).map (idx + ·)
  inverse : p.shuffled ≠ 0 → ∀ i < q.len, q.iidx (q.pidx i) = i

/-- `pls_inserts` inserts the items and nothing else, or refuses and leaves the playlist alone. -/
def InsertsInOrder (p : Pls) (idx : Nat) (oids : List Bytes) : Prop :=
  if oids = [] ∨ idx > p.len then plsInserts p idx oids = some (false, p)
  else ∃ q, plsInserts p idx oids = some (true, q) ∧ InsertedInOrder p idx oids q

/-- From a power of two, or from zero, the doubling loop does not end above 2^31. -/
lemma doubleUntil_le {wantsize fuel s t : Nat} (hs : s = 0 ∨ ∃ j ≤ 31, s = 2 ^ j)
    (h : doubleUntil wantsize fuel s = some t) : t ≤ 2 ^ 31 := by
  induction fuel generalizing s with
  | zero => simp [doubleUntil] at h
  | succ fuel ih =>
    rw [doubleUntil] at h
    by_cases hlt : s < wantsize
    · rw [if_pos hlt] at h
      refine ih ?_ h
      rcases hs with rfl | ⟨j, hj, rfl⟩
      · exact .inl rfl
      · by_cases hlast : j = 31
        · exact .inl (by rw [hlast]; rfl)
        · have hpow : 2 ^ (j + 1) < 2 ^ 32 := Nat.pow_lt_pow_right (by omega) (by omega)
          refine .inr ⟨j + 1, by omega, ?_⟩
          rw [← Nat.pow_succ, Nat.mod_eq_of_lt hpow]
    · rw [if_neg hlt] at h
      cases h
      rcases hs with rfl | ⟨j, hj, rfl⟩
      · exact Nat.zero_le _
      · exact Nat.pow_le_pow_right (by omega) hj

/-- There is room for so many more items, or room can be made. -/
def Pls.HasRoom (p : Pls) (n : Nat) : Prop := p.len + n ≤ 2 ^ 31 ∨ p.len + n ≤ p.alloc ∧ p.len + n < 2 ^ 32

lemma hasRoom_of_realloc {p q : Pls} {n : Nat} (hlt : p.len + n < 2 ^ 32)
    (h : maybeRealloc p n = some q) : p.HasRoom n := by
  unfold maybeRealloc at h
  dsimp only at h
  rw [Nat.mod_eq_of_lt hlt] at h
  split at h
  · cases h
  · split at h
    · exact .inr ⟨by assumption, hlt⟩
    · obtain ⟨t, ht, -⟩ := Option.map_eq_some_iff.mp h
      have hge := doubleUntil_ge ht
      have hle := doubleUntil_le (.inr ⟨4, by omega, rfl⟩) ht
      exact .inl (hge.trans hle)

lemma realloc_of_hasRoom {p : Pls} {n : Nat} (hl : p.len ≤ p.alloc) (h : p.HasRoom n) :
    p.len + n < 2 ^ 32 ∧ (maybeRealloc p n).isSome := by
  rcases h with hsize | ⟨halloc, hlt⟩
  · exact ⟨by omega, maybeRealloc_isSome hl hsize⟩
  · refine ⟨hlt, ?_⟩
    unfold maybeRealloc
    dsimp only
    rw [Nat.mod_eq_of_lt hlt, if_neg (not_lt.mpr hl), if_pos halloc]
    rfl

lemma plsInserts_realloc {p q : Pls} {idx : Nat} {oids : List Bytes}
    (h : plsInserts p idx oids = some (true, q)) :
    (maybeRealloc p oids.length).isSome ∧ q.len = (p.len + oids.length) % 2 ^ 32 := by
  unfold plsInserts at h
  split at h
  · cases h
  · split at h
    · cases h
    · obtain ⟨p', hp', hq⟩ := Option.map_eq_some_iff.mp h
      obtain ⟨hp, -, -⟩ := maybeRealloc_spec hp'
      rw [hp] at hq
      dsimp only at hq
      rw [Prod.mk.injEq] at hq
      rw [hp', ← hq.2]
      refine ⟨rfl, ?_⟩
      by_cases hs : p.shuffled = 0
      · rw [if_neg (not_not.mpr hs)]
        rfl
      · rw [if_pos hs, appendIndices_eq, raiseIndices_eq]
        rfl

/-- The rewritten order does not depend on what was reallocated. -/
lemma plsInserts_pidx {p q : Pls} {idx : Nat} {oids : List Bytes} (h : plsInserts p idx oids = some (true, q))
    (hs : p.shuffled ≠ 0) : q.pidx = (appendIndices idx oids.length (raiseIndices idx oids.length p)).pidx := by
  unfold plsInserts at h
  split at h
  · cases h
  · split at h
    · cases h
    · obtain ⟨p', hp', hq⟩ := Option.map_eq_some_iff.mp h
      obtain ⟨hp, -, -⟩ := maybeRealloc_spec hp'
      rw [hp] at hq
      dsimp only at hq
      rw [if_pos hs, Prod.mk.injEq] at hq
      rw [← hq.2, appendIndices_eq, raiseIndices_eq, appendIndices_eq, raiseIndices_eq]
      rfl

lemma cells_inserted (p : Pls) (idx n : Nat) :
    cells (appendIndices idx n (raiseIndices idx n p)).pidx (p.len + n) =
      (cells p.pidx p.len).map (raised idx n) ++ (List.range n).map (idx + ·) := by
  rw [cells_eq_iff]
  refine ⟨by simp, fun i hi => ?_⟩
  rw [appendIndices_eq, raiseIndices_eq]
  dsimp only
  by_cases hlt : i < p.len
  · rw [if_neg (by omega), List.getElem_append_left (by simpa using hlt), List.getElem_map, getElem_cells]
    simp only [hlt, true_and]
    rfl
  · rw [List.length_append, List.length_map, length_cells, List.length_map, List.length_range] at hi
    rw [if_pos (by omega), List.getElem_append_right (by simpa using not_lt.mp hlt), List.getElem_map,
      List.getElem_range, List.length_map, length_cells]

/-- For every well-formed playlist: an insertion does what it should exactly when it is refused or there
is room for the items. -/
theorem plsInserts_inOrder {p : Pls} (h : p.WF) (idx : Nat) (oids : List Bytes) :
    InsertsInOrder p idx oids ↔ (oids ≠ [] → idx ≤ p.len → p.HasRoom oids.length) := by
  unfold InsertsInOrder
  by_cases hrej : oids = [] ∨ idx > p.len
  · rw [if_pos hrej]
    refine ⟨fun _ hne hidx => ?_, fun _ => plsInserts_rejected hrej⟩
    rcases hrej with he | hlt
    · exact absurd he hne
    · exact absurd hidx (not_le.mpr hlt)
  · rw [if_neg hrej]
    rw [not_or, not_lt] at hrej
    obtain ⟨hne, hidx⟩ := hrej
    constructor
    · rintro ⟨q, hq, hr⟩ - -
      obtain ⟨hroom, hlen⟩ := plsInserts_realloc hq
      obtain ⟨p', hp'⟩ := Option.isSome_iff_exists.mp hroom
      rw [hr.inserted.len_eq] at hlen
      exact hasRoom_of_realloc (by omega) hp'
    · intro hc
      obtain ⟨hlt, hroom⟩ := realloc_of_hasRoom h.len_le (hc hne hidx)
      obtain ⟨p', hp'⟩ := Option.isSome_iff_exists.mp hroom
      obtain ⟨q, hq, -, hins⟩ := plsInserts_spec hne hidx hp' hlt
      refine ⟨q, hq, hins, (congrArg Pls.poolst hins.frame :), fun hs => ?_, fun hs => ?_⟩
      · rw [hins.len_eq, plsInserts_pidx hq hs]
        exact cells_inserted p idx oids.length
      · exact (hins.ordered hs (Pls.WF.ordered h hs)).pair.left

/-- An item is inserted in front of the one played and the one not played. -/
theorem plsInserts_inOrder_front : InsertsInOrder (halfPlayed fun _ => 0).pls 0 [[97]] :=
  (plsInserts_inOrder halfPlayed_wf 0 [[97]]).mpr fun _ _ => .inl (by decide)

/-- A playlist of 2^31 items. -/
def fullPlaylist : Pls :=
  { id := 1, name := [112], repeatMode := 0, shuffled := 0, useCount := 0, len := 2 ^ 31, alloc := 2 ^ 31,
    poolst := 0, vidx := fun _ => [97], pidx := nullArray, iidx := nullArray, dirty := false }

/-- One item more, and `maybe_realloc` doubles a zero without end. -/
theorem plsInserts_hangs : fullPlaylist.WF ∧ plsInserts fullPlaylist 0 [[98]] = none ∧
    ¬InsertsInOrder fullPlaylist 0 [[98]] := by
  have hnone : plsInserts fullPlaylist 0 [[98]] = none := rfl
  refine ⟨wf_of_ordered le_rfl fun hs => absurd rfl hs, hnone, fun h => ?_⟩
  have hacc : ¬(([[98]] : List Bytes) = [] ∨ 0 > fullPlaylist.len) := by
    rintro (h | h)
    · cases h
    · exact absurd h (Nat.not_lt_zero _)
  rw [InsertsInOrder, if_neg hacc, hnone] at h
  obtain ⟨q, hq, -⟩ := h
  cases hq

/-! ### Moving -/

/-- What a move should do to a playlist. -/
structure MovedInOrder (p : Pls) (src dst : Nat) (q : Pls) : Prop where
  frame : { q with vidx := p.vidx, dirty := p.dirty } = p
  inserted : ∀ oid, (cells p.vidx p.len)[src]? = some oid →
    cells q.vidx q.len = ((cells p.vidx p.len).eraseIdx src).insertIdx dst oid
  perm : (cells q.vidx q.len).Perm (cells p.vidx p.len)
  others : (cells q.vidx q.len).eraseIdx dst = (cells p.vidx p.len).eraseIdx src
  undone : cells (plsMove q dst src).2.vidx p.len = cells p.vidx p.len

/-- `pls_move` moves the item and nothing else, or refuses and leaves the playlist alone. -/
def MovesInOrder (p : Pls) (src dst : Nat) : Prop :=
  if src < p.len ∧ dst < p.len then ∃ q, plsMove p src dst = (true, q) ∧ MovedInOrder p src dst q
  else plsMove p src dst = (false, p)

lemma Moved.inOrder {p q : Pls} {src dst : Nat} (h : Moved p src dst q) (hs : src < p.len) (hd : dst < p.len) :
    MovedInOrder p src dst q := by
  have hlen : q.len = p.len := (congrArg Pls.len h.frame :)
  have hs' : src < (cells p.vidx p.len).length := by simpa using hs
  have hd' : dst < (cells p.vidx p.len).length := by simpa using hd
  refine ⟨h.frame, fun oid hoid => ?_, ?_, ?_, ?_⟩
  · obtain ⟨-, rfl⟩ := List.getElem?_eq_some_iff.mp hoid
    rw [h.items, moveItem_eq _ hs' hd']
  · rw [h.items]
    exact moveItem_perm _ hs' hd'
  · rw [h.items]
    exact eraseIdx_moveItem _ hs' hd'
  · obtain ⟨r, hr, hback⟩ : ∃ r, plsMove q dst src = (true, r) ∧ Moved q dst src r :=
      plsMove_accepted (by omega) (by omega)
    have hrlen : r.len = p.len := (congrArg Pls.len hback.frame :).trans hlen
    have hitems := hback.items
    rw [hrlen, h.items, moveItem_moveItem _ hs' hd'] at hitems
    rw [hr]
    exact hitems

/-- For every playlist: a move does what it should unless both places are the same one behind the end. -/
theorem plsMove_inOrder (p : Pls) (src dst : Nat) : MovesInOrder p src dst ↔ src ≠ dst ∨ src < p.len := by
  unfold MovesInOrder
  by_cases hin : src < p.len ∧ dst < p.len
  · rw [if_pos hin]
    obtain ⟨q, hq, hmoved⟩ := plsMove_accepted hin.1 hin.2
    exact iff_of_true ⟨q, hq, hmoved.inOrder hin.1 hin.2⟩ (.inr hin.1)
  · rw [if_neg hin]
    by_cases he : src = dst
    · -- the early return comes before the bounds are checked
      have htrue : plsMove p src dst = (true, p) := if_pos he
      rw [htrue]
      refine iff_of_false (fun h => ?_) ?_
      · cases congrArg Prod.fst h
      · rintro (hne | hlt)
        · exact hne he
        · exact hin ⟨hlt, he ▸ hlt⟩
    · exact iff_of_true (plsMove_rejected he hin) (.inl he)

/-- The third item of a playlist of two is moved onto itself. -/
theorem plsMove_accepts : (halfPlayed fun _ => 0).pls.WF ∧ (halfPlayed fun _ => 0).pls.len = 2 ∧
    (plsMove (halfPlayed fun _ => 0).pls 2 2).1 = true ∧ ¬MovesInOrder (halfPlayed fun _ => 0).pls 2 2 := by
  refine ⟨halfPlayed_wf, rfl, rfl, fun h => ?_⟩
  rw [MovesInOrder, if_neg (by decide)] at h
  cases congrArg Prod.fst h

end MafwShared
