import MafwShared.Proofs.SharedPlayback

/-!
# Drawing favours no order

`shuffle_elements` takes every item of the pool with a number of its own, from a range that shrinks
by one at a time. Of all sequences of such numbers exactly one leads to a given order of the pool, so
that the orders are as likely as each other if the numbers are.
-/

namespace MafwShared
open CLib

variable {p : Pls} {g : Nat → Nat} {m : Nat}

/-- The number that the `k`th turn of `shuffle_elements` uses, of a pool of `m` items: the first of
its two random numbers is dropped. -/
def drawn (r : Draws) (m k : Nat) : Nat := r (2 * k + 1) % (m - k)

lemma shuffleElement_commit (p : Pls) (r : Draws) (h : p.poolst + (m + 1) = p.len) :
    shuffleElement (p, r) = (commitTo p (p.poolst + drawn r (m + 1) 0), fun i => r (i + 2)) := by
  have hsize : p.len - p.poolst = m + 1 := by omega
  unfold shuffleElement gRandomIntRange
  simp only [if_pos (show p.poolst < p.len by omega), hsize]
  rfl

lemma drawn_succ (r : Draws) (m k : Nat) : drawn (fun i => r (i + 2)) m k = drawn r (m + 1) (k + 1) := by
  unfold drawn
  rw [Nat.add_sub_add_right]
  rfl

lemma drawAll_succ (p : Pls) (r : Draws) (h : p.poolst + (m + 1) = p.len) :
    forUpto (m + 1) (fun _ s => shuffleElement s) (p, r) =
      forUpto m (fun _ s => shuffleElement s)
        (commitTo p (p.poolst + drawn r (m + 1) 0), fun i => r (i + 2)) := by
  rw [forUpto_front, shuffleElement_commit p r h]

lemma commitTo_cell (p : Pls) (j : Nat) : (commitTo p j).pidx p.poolst = p.pidx j := by
  rw [commitTo_pidx]
  by_cases hsame : p.poolst = j
  · rw [hsame, Function.update_self]
  · rw [Function.update_of_ne hsame, Function.update_self]

lemma commitTo_agrees {j : Nat} (hj : p.poolst ≤ j) (hcell : p.pidx j = g p.poolst)
    (hpast : AgreeBelow p.poolst g p.pidx) : AgreeBelow (p.poolst + 1) g (commitTo p j).pidx := fun i hi => by
  by_cases hlt : i < p.poolst
  · rw [hpast i hlt, (commitTo_redrawn p hj).history i hlt]
  · rw [show i = p.poolst by omega, commitTo_cell, hcell]

lemma drawAll_history (p : Pls) (r : Draws) (hm : p.poolst + m = p.len) :
    AgreeBelow p.poolst (forUpto m (fun _ s => shuffleElement s) (p, r)).1.pidx p.pidx := by
  have hdraws := (shuffleElements_draws p r m).2.1
  have hamount : (if m > guintSub p.len p.poolst then guintSub p.len p.poolst else m) = m := by
    rw [guintSub_of_le (by omega)]
    split <;> omega
  unfold shuffleElements at hdraws
  rw [hamount] at hdraws
  exact hdraws.history

/-- The first number says which item comes first in the pool. -/
lemma drawAll_first (p : Pls) (r : Draws) (hm : p.poolst + (m + 1) = p.len) :
    (forUpto (m + 1) (fun _ s => shuffleElement s) (p, r)).1.pidx p.poolst =
      p.pidx (p.poolst + drawn r (m + 1) 0) := by
  have hm' : p.poolst + 1 + m = p.len := by omega
  rw [drawAll_succ p r hm, drawAll_history (commitTo p _) _ hm' p.poolst (Nat.lt_succ_self _), commitTo_cell]

def prependNumber (a : Nat) (c : Nat → Nat) : Nat → Nat
  | 0 => a
  | k + 1 => c k

lemma drawAll_unique (h : p.Ordered) (hm : p.poolst + m = p.len) (hmaps : ∀ i < p.len, g i < p.len)
    (hinj : ∀ i < p.len, ∀ j < p.len, g i = g j → i = j) (hpast : AgreeBelow p.poolst g p.pidx) :
    ∃ c : Nat → Nat, (∀ k < m, c k < m - k) ∧ ∀ r,
      AgreeBelow p.len (forUpto m (fun _ s => shuffleElement s) (p, r)).1.pidx g ↔
        ∀ k < m, drawn r m k = c k := by
  induction m generalizing p with
  | zero =>
    refine ⟨fun _ => 0, fun k hk => absurd hk (Nat.not_lt_zero k), fun r => ?_⟩
    exact ⟨fun _ k hk => absurd hk (Nat.not_lt_zero k), fun _ i hi => (hpast i (by omega)).symm⟩
  | succ m ih =>
    have hpool : p.poolst < p.len := by omega
    -- the position from which the next item of the order must be taken
    obtain ⟨j, hj, hcell⟩ := h.pair.surj (hmaps _ hpool)
    have hjpool : p.poolst ≤ j := by
      by_contra hlt
      have hsame := hinj j hj p.poolst hpool ((hpast j (not_le.mp hlt)).trans hcell)
      omega
    have hm' : p.poolst + 1 + m = p.len := by omega
    obtain ⟨c, hc, hiff⟩ := ih (commitTo_ordered h hpool hj) hm' hmaps hinj (commitTo_agrees hjpool hcell hpast)
    have hfirst : ∀ r, AgreeBelow p.len (forUpto (m + 1) (fun _ s => shuffleElement s) (p, r)).1.pidx g →
        drawn r (m + 1) 0 = j - p.poolst := by
      intro r hagree
      have hlt : drawn r (m + 1) 0 < m + 1 := Nat.mod_lt _ (Nat.succ_pos m)
      have hstart := (drawAll_first p r hm).symm.trans (hagree _ hpool)
      have hsame := h.pair.inj (by omega) hj (hstart.trans hcell.symm)
      omega
    have hrest : ∀ r, drawn r (m + 1) 0 = j - p.poolst →
        (AgreeBelow p.len (forUpto (m + 1) (fun _ s => shuffleElement s) (p, r)).1.pidx g ↔
          ∀ k < m, drawn r (m + 1) (k + 1) = c k) := by
      intro r hdrawn
      have hnext := hiff fun i => r (i + 2)
      simp only [drawn_succ] at hnext
      rw [drawAll_succ p r hm, hdrawn, Nat.add_sub_cancel' hjpool]
      exact hnext
    refine ⟨prependNumber (j - p.poolst) c, fun k hk => ?_, fun r => ⟨fun hagree k hk => ?_, fun hall => ?_⟩⟩
    · cases k with
      | zero => exact (by omega : j - p.poolst < m + 1)
      | succ k =>
        rw [Nat.add_sub_add_right]
        exact hc k (by omega)
    · cases k with
      | zero => exact hfirst r hagree
      | succ k => exact (hrest r (hfirst r hagree)).mp hagree k (by omega)
    · exact (hrest r (hall 0 (Nat.succ_pos m))).mpr fun k hk => hall (k + 1) (by omega)

/-- Drawing the whole pool, each order that leaves the history in place comes from exactly one
sequence of the numbers that the turns use, so that none is favoured. -/
theorem shuffle_unbiased (h : p.WF) (hs : p.shuffled ≠ 0) {order : List Nat}
    (hperm : order.Perm (List.range p.len)) (hpast : ∀ k < p.poolst, order[k]? = some (p.pidx k)) :
    ∃ c : Nat → Nat, (∀ k < p.len - p.poolst, c k < p.len - p.poolst - k) ∧ ∀ r,
      (shuffleElements p r p.len).1.playOrder = order ↔
        ∀ k < p.len - p.poolst, drawn r (p.len - p.poolst) k = c k := by
  have hord := Pls.WF.ordered h hs
  have hle := hord.poolst_le
  have hlen : order.length = p.len := by rw [hperm.length_eq, List.length_range]
  have hnodup : order.Nodup := hperm.nodup_iff.mpr List.nodup_range
  have hget : ∀ i < p.len, order[i]? = some (order.getD i 0) := fun i hi => by
    rw [List.getD_eq_getElem?_getD, List.getElem?_eq_getElem (by omega)]
    rfl
  have hmaps : ∀ i < p.len, order.getD i 0 < p.len := fun i hi =>
    List.mem_range.mp (hperm.mem_iff.mp (List.mem_of_getElem? (hget i hi)))
  have hinj : ∀ i < p.len, ∀ j < p.len, order.getD i 0 = order.getD j 0 → i = j := by
    intro i hi j hj heq
    refine (List.getElem?_inj (by omega) hnodup).mp ?_
    rw [hget i hi, hget j hj, heq]
  have hpast' : AgreeBelow p.poolst (fun i => order.getD i 0) p.pidx := fun k hk => by
    have hcell := hpast k hk
    rw [hget k (by omega)] at hcell
    exact Option.some.inj hcell
  have hwhole : cells (fun i => order.getD i 0) p.len = order := cells_eq_iff.mpr ⟨hlen, fun i hi => by
    rw [List.getD_eq_getElem?_getD, List.getElem?_eq_getElem hi]
    rfl⟩
  obtain ⟨c, hc, hiff⟩ := drawAll_unique hord (Nat.add_sub_cancel' hle) hmaps hinj hpast'
  refine ⟨c, hc, fun r => ?_⟩
  have hamount : (if p.len > guintSub p.len p.poolst then guintSub p.len p.poolst else p.len) = p.len - p.poolst := by
    rw [guintSub_of_le hle]
    split <;> omega
  have hdraws := (shuffleElements_draws p r p.len).2.1
  have horder : (shuffleElements p r p.len).1.playOrder = cells (shuffleElements p r p.len).1.pidx p.len := by
    rw [Pls.playOrder, hdraws.shuffled_eq, if_neg hs, hdraws.len_eq]
  rw [← hiff r, horder, ← hwhole, cells_inj, hwhole]
  unfold shuffleElements
  rw [hamount]
  exact Iff.rfl

/-- Three items that were shuffled, none of them drawn. -/
def threeUnplayed : Pls :=
  { id := 1, name := [112], repeatMode := 0, shuffled := 1, useCount := 0, len := 3, alloc := 16, poolst := 0,
    vidx := fun i => [UInt8.ofNat i], pidx := fun i => i, iidx := fun i => i, dirty := true }

theorem shuffle_unbiased_threeUnplayed : ∃ c : Nat → Nat, (∀ k < 3, c k < 3 - k) ∧
    ∀ r, (shuffleElements threeUnplayed r 3).1.playOrder = [2, 0, 1] ↔ ∀ k < 3, drawn r 3 k = c k := by
  have hwf : threeUnplayed.WF := ⟨by decide, fun _ => by decide, fun _ => by decide, fun _ => by decide⟩
  have hperm : [2, 0, 1].Perm (List.range threeUnplayed.len) := by decide
  exact shuffle_unbiased hwf (by decide) hperm (by decide)

end MafwShared
