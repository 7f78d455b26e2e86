import MafwShared.Proofs.EditedOrder
import MafwShared.Proofs.LoadChecks

/-!
# Room for new items

`maybe_realloc` is called before items are stored, by `pls_inserts` and by `pls_load`. Both
rely on the arrays having a cell for every item there will be. The size that is asked for is
computed on 32 bits, and so is the size that the loop doubles until it is large enough.
-/

namespace MafwShared
open CLib

/-- No cell behind the first `size` ones was stored to. -/
structure StoresBelow (size : Nat) (p q : Pls) : Prop where
  vidx : ∀ c, size ≤ c → q.vidx c = p.vidx c
  pidx : ∀ c, size ≤ c → q.pidx c = p.pidx c
  iidx : ∀ c, size ≤ c → q.iidx c = p.iidx c

/-- What `maybe_realloc` is there for: `q` is `p` with room for `n` more items. -/
structure AllocatesFor (p : Pls) (n : Nat) (q : Pls) : Prop where
  returns : maybeRealloc p n = some q
  room : p.len + n ≤ q.alloc
  grows : p.alloc ≤ q.alloc
  inserts : p.WF → ∀ idx oids r, oids.length = n → plsInserts p idx oids = some (true, r) →
    r.alloc = q.alloc ∧ StoresBelow q.alloc p r
  loads : ∀ f, loadEntries n n 0 q f = .error .outOfBounds → endOf f = .outOfBounds

/-! ### Stores of an insertion -/

lemma raiseIndices_below {p : Pls} {idx n size : Nat} (h : p.Ordered) (hsize : p.len + n ≤ size) :
    StoresBelow size p (raiseIndices idx n p) := by
  rw [raiseIndices_eq]
  refine ⟨fun _ _ => rfl, fun c hc => if_neg (by omega), fun c hc => ?_⟩
  -- a playing index that is raised is the number of an item
  refine forUpto_scatter_miss (fun k => p.pidx k ≥ idx) (fun k => p.pidx k + n) p.iidx fun k hk _ => ?_
  have hlt := h.pair.maps k hk
  omega

lemma appendIndices_below {p : Pls} {idx n size : Nat} (hidx : idx ≤ p.len) (hsize : p.len + n ≤ size) :
    StoresBelow size p (appendIndices idx n p) := by
  rw [appendIndices_eq]
  exact ⟨fun _ _ => rfl, fun c hc => if_neg (by omega), fun c hc => if_neg (by omega)⟩

lemma StoresBelow.trans {size : Nat} {p q r : Pls} (h : StoresBelow size p q) (h' : StoresBelow size q r) :
    StoresBelow size p r :=
  ⟨fun c hc => (h'.vidx c hc).trans (h.vidx c hc), fun c hc => (h'.pidx c hc).trans (h.pidx c hc),
    fun c hc => (h'.iidx c hc).trans (h.iidx c hc)⟩

lemma plsInserts_below {p q r : Pls} {idx : Nat} {oids : List Bytes} (h : p.WF)
    (hq : maybeRealloc p oids.length = some q) (hroom : p.len + oids.length ≤ q.alloc)
    (hr : plsInserts p idx oids = some (true, r)) : r.alloc = q.alloc ∧ StoresBelow q.alloc p r := by
  unfold plsInserts at hr
  split at hr
  · cases hr
  · split at hr
    · cases hr
    · rename_i hidx
      rw [hq] at hr
      obtain ⟨heq, -, -⟩ := maybeRealloc_spec hq
      obtain ⟨vidx, hv⟩ : ∃ vidx, forUpto oids.length (fun i v => Function.update v (idx + i) (oids.getD i []))
        (memmove q.vidx (idx + oids.length) idx (q.len - idx)) = vidx := ⟨_, rfl⟩
      rw [Option.map_some, Option.some.injEq, Prod.mk.injEq] at hr
      dsimp only at hr
      rw [hv] at hr
      have hlen : q.len = p.len := (congrArg Pls.len heq :)
      have hvidx : ∀ c, q.alloc ≤ c → vidx c = p.vidx c := by
        intro c hc
        rw [← hv, forUpto_store _ idx (fun i => oids.getD i []) oids.length, if_neg (by omega),
          memmove_outside _ (by omega)]
        exact (congrFun (congrArg Pls.vidx heq) c :)
      have hstart : StoresBelow q.alloc p { q with vidx := vidx } :=
        ⟨hvidx, fun c _ => (congrFun (congrArg Pls.pidx heq) c :), fun c _ => (congrFun (congrArg Pls.iidx heq) c :)⟩
      by_cases hs : q.shuffled ≠ 0
      · have ho : q.Ordered := by
          rw [heq] at hs ⊢
          exact ⟨h.poolst_le hs, (Pls.WF.ordered h hs).pair⟩
        rw [if_pos hs] at hr
        have hraise : StoresBelow q.alloc { q with vidx := vidx }
            (raiseIndices idx oids.length { q with vidx := vidx }) :=
          raiseIndices_below ⟨ho.poolst_le, ho.pair⟩ (by dsimp only; omega)
        have happend : StoresBelow q.alloc (raiseIndices idx oids.length { q with vidx := vidx })
            (appendIndices idx oids.length (raiseIndices idx oids.length { q with vidx := vidx })) := by
          apply appendIndices_below <;> rw [raiseIndices_eq] <;> dsimp only <;> omega
        have hall := (hstart.trans hraise).trans happend
        rw [← hr.2]
        refine ⟨?_, hall.vidx, hall.pidx, hall.iidx⟩
        rw [appendIndices_eq, raiseIndices_eq]
        rfl
      · rw [if_neg hs] at hr
        rw [← hr.2]
        exact ⟨rfl, hstart.vidx, hstart.pidx, hstart.iidx⟩

/-! ### Stores of a load -/

lemma loadEntries_below {len n i : Nat} {p : Pls} {f : Bytes} {stop : LoadStop} {lines : List Bytes}
    (hlen : i + n ≤ len) (halloc : len ≤ p.alloc) (hf : Reads (Stuck stop) lines f)
    (h : loadEntries len n i p f = .error .outOfBounds) : stop = .outOfBounds := by
  induction n generalizing i p f lines with
  | zero => cases h
  | succ n ih =>
    cases lines with
    | nil =>
      have hread : readLine f = .error stop := hf
      rw [loadEntries, hread] at h
      cases h
      rfl
    | cons l ls =>
      obtain ⟨rest, hread, hrest⟩ := hf
      cases hitem : scanItem l with
      | none =>
        rw [loadEntries, hread] at h
        simp only [bind, Except.bind, hitem] at h
        cases h
      | some item =>
        obtain ⟨pidx, oid⟩ := item
        by_cases hpidx : pidx < len
        · rw [loadEntries_line hread hitem hpidx (by omega) halloc] at h
          have hrest' : i + 1 + n ≤ len := by omega
          have halloc' : len ≤ (enterItem p i pidx oid).alloc := halloc
          exact ih hrest' halloc' hrest h
        · rw [loadEntries, hread] at h
          simp only [bind, Except.bind, hitem, require, decide_eq_false hpidx] at h
          cases h

/-! ### Room -/

lemma maybeRealloc_le {p q : Pls} {n bound : Nat} (hbound : 2 ^ 31 ≤ bound) (ha : p.alloc ≤ bound)
    (h : maybeRealloc p n = some q) : q.alloc ≤ bound := by
  unfold maybeRealloc at h
  dsimp only at h
  split at h
  · cases h
  · split at h
    · cases h
      exact ha
    · obtain ⟨t, ht, rfl⟩ := Option.map_eq_some_iff.mp h
      exact (doubleUntil_le (.inr ⟨4, by omega, rfl⟩) ht).trans hbound

/-- `maybe_realloc` makes the room that its callers need exactly when the items fit what is allocated
or are no more than 2^31. -/
theorem maybeRealloc_allocates {p : Pls} {n : Nat} (hl : p.len ≤ p.alloc) (ha : p.alloc < 2 ^ 32) :
    (∃ q, AllocatesFor p n q) ↔ p.len + n ≤ p.alloc ∨ p.len + n ≤ 2 ^ 31 := by
  constructor
  · rintro ⟨q, hq⟩
    have hle : q.alloc ≤ 2 ^ 32 - 1 := maybeRealloc_le (by decide) (by omega) hq.returns
    have hroom := hq.room
    rcases hasRoom_of_realloc (by omega) hq.returns with hsize | ⟨halloc, -⟩
    · exact .inr hsize
    · exact .inl halloc
  · intro h
    have hroom : p.HasRoom n := by
      rcases h with halloc | hsize
      · exact .inr ⟨halloc, by omega⟩
      · exact .inl hsize
    obtain ⟨hlt, hsome⟩ := realloc_of_hasRoom hl hroom
    obtain ⟨q, hq⟩ := Option.isSome_iff_exists.mp hsome
    obtain ⟨-, hgrows, halloc⟩ := maybeRealloc_spec hq
    rw [Nat.mod_eq_of_lt hlt] at halloc
    refine ⟨q, hq, halloc, hgrows, ?_, fun f hf => ?_⟩
    · rintro hwf idx oids r rfl hr
      exact plsInserts_below hwf hq halloc hr
    · exact loadEntries_below (by omega) (by omega) (reads_linesOf f) hf

/-- A first item for an empty playlist. -/
theorem maybeRealloc_allocates_first : ∃ q, AllocatesFor (plsClear fullPlaylist) 1 q :=
  (maybeRealloc_allocates (by decide) (by decide)).mpr (.inr (by decide))

/-- A playlist of 16 items that fill what is allocated. -/
def sixteenItems : Pls := { fullPlaylist with len := 16, alloc := 16 }

/-- One item more than 2^31, and the loop does not end; 2^32 items in all, and nothing is allocated. -/
theorem maybeRealloc_wraps : maybeRealloc fullPlaylist 1 = none ∧
    maybeRealloc sixteenItems (2 ^ 32 - 16) = some sixteenItems ∧
    (¬∃ q, AllocatesFor fullPlaylist 1 q) ∧ ¬∃ q, AllocatesFor sixteenItems (2 ^ 32 - 16) q := by
  have hhangs : maybeRealloc fullPlaylist 1 = none := rfl
  have hwraps : maybeRealloc sixteenItems (2 ^ 32 - 16) = some sixteenItems := by
    unfold maybeRealloc
    rw [if_neg (by decide), if_pos (by decide)]
  refine ⟨hhangs, hwraps, fun ⟨q, hq⟩ => ?_, fun ⟨q, hq⟩ => ?_⟩
  · cases hhangs.symm.trans hq.returns
  · cases hwraps.symm.trans hq.returns
    exact absurd hq.room (by decide)

end MafwShared
