import MafwShared.Proofs.ShuffledPlay

/-!
# Stepping through a playlist

Navigation may draw items and commit them, and changes nothing else. `Successive` says which
item is played right before another one in the order that is drawn so far. A step in either
direction ends in a state in which the two items are successive, and from such a state the
step back finds the item that it started from.
-/

namespace MafwShared
open CLib

variable {s t : Nav}

/-! ### Committing the current item -/

lemma Nav.commit_pool (h : s.pls.WF) (hs : s.pls.shuffled ≠ 0) (hi : s.index < s.pls.len)
    (hp : s.pls.poolst ≤ s.pls.iidx s.index) :
    s.commit.pls.poolst = s.pls.poolst + 1 ∧ s.commit.pls.iidx s.index = s.pls.poolst := by
  have hord := Pls.WF.ordered h hs
  have hlt := hord.pair.inv_lt hi
  have hpool : s.pls.poolst < s.pls.len := Nat.lt_of_le_of_lt hp hlt
  have hcell : (commitTo s.pls (s.pls.iidx s.index)).pidx s.pls.poolst = s.index := by
    rw [commitTo_pidx]
    by_cases heq : s.pls.poolst = s.pls.iidx s.index
    · rw [heq, Function.update_self]
      exact hord.pair.right hi
    · rw [Function.update_of_ne heq, Function.update_self]
      exact hord.pair.right hi
  have hback := (commitTo_ordered hord hpool hlt).pair.left s.pls.poolst hpool
  rw [hcell] at hback
  rw [Nav.commit_pls hp]
  exact ⟨commitTo_poolst _ _, hback⟩

lemma Nav.commit_iidx_lt (h : s.pls.WF) (hs : s.pls.shuffled ≠ 0) (hi : s.index < s.pls.len) :
    s.commit.pls.iidx s.index < s.commit.pls.poolst := by
  by_cases hp : s.pls.poolst ≤ s.pls.iidx s.index
  · obtain ⟨hpool, hpos⟩ := Nav.commit_pool h hs hi hp
    rw [hpool, hpos]
    exact Nat.lt_succ_self _
  · rw [Nav.commit_committed (not_le.mp hp)]
    exact not_le.mp hp

/-- An item behind which nothing is drawn is the last one of the history after the commit. -/
lemma Nav.commit_iidx_last (h : s.pls.WF) (hs : s.pls.shuffled ≠ 0) (hi : s.index < s.pls.len)
    (hlast : ¬s.pls.iidx s.index + 1 < s.pls.poolst) :
    s.commit.pls.iidx s.index + 1 = s.commit.pls.poolst := by
  by_cases hp : s.pls.poolst ≤ s.pls.iidx s.index
  · obtain ⟨hpool, hpos⟩ := Nav.commit_pool h hs hi hp
    rw [hpool, hpos]
  · rw [Nav.commit_committed (not_le.mp hp)]
    omega

/-! ### What a call reports -/

/-- The outcome of a navigation call. -/
structure Navigated (s : Nav) (found : Bool) (t : Nav) : Prop extends Kept s t where
  item : found = true → t.index < s.pls.len ∧ t.oid = some (s.pls.vidx t.index)
  none : found = false → t.index = s.index ∧ t.oid = s.oid

namespace Navigated

lemma nothing (h : Kept s t) (hi : t.index = s.index) (ho : t.oid = s.oid) : Navigated s false t :=
  ⟨h, fun hf => (by cases hf), fun _ => ⟨hi, ho⟩⟩

lemma report (h : Kept s t) {i : Nat} (hi : i < s.pls.len) : Navigated s true (t.report i) := by
  refine ⟨h.report i, fun _ => ⟨hi, ?_⟩, fun hf => (by cases hf)⟩
  change some (t.pls.vidx i) = some (s.pls.vidx i)
  rw [h.redrawn.vidx_eq]

lemma reportAt (h : Kept s t) (hs : s.pls.shuffled ≠ 0) {k : Nat} (hk : k < s.pls.len) :
    Navigated s true (t.report (t.pls.pidx k)) := by
  refine report h ?_
  rw [← h.redrawn.len_eq] at hk ⊢
  exact (Pls.WF.ordered h.wf (h.shuffled hs)).pair.maps k hk

end Navigated

lemma Nav.commit_fields (s : Nav) :
    s.commit.index = s.index ∧ s.commit.oid = s.oid ∧ s.commit.draws = s.draws := by
  unfold Nav.commit
  split <;> exact ⟨rfl, rfl, rfl⟩

lemma plsGetStarting_navigated (h : s.pls.WF) : Navigated s (decide (s.pls.len ≠ 0)) (plsGetStarting s) := by
  have hstep := plsGetStarting_step s
  generalize plsGetStarting s = t at hstep
  cases hstep with
  | empty hlen =>
    rw [decide_eq_false (not_not.mpr hlen)]
    exact .nothing (Kept.refl h) rfl rfl
  | first hlen =>
    rw [decide_eq_true hlen]
    exact .report (Kept.refl h) (Nat.pos_of_ne_zero hlen)
  | drawn hlen hs =>
    rw [decide_eq_true hlen]
    exact .reportAt (Nav.shuffle_kept h hs 1) hs (Nat.pos_of_ne_zero hlen)
  | played hlen hs =>
    rw [decide_eq_true hlen]
    exact .reportAt (Kept.refl h) hs (Nat.pos_of_ne_zero hlen)

lemma plsGetLast_navigated (h : s.pls.WF) : Navigated s (decide (s.pls.len ≠ 0)) (plsGetLast s) := by
  have hstep := plsGetLast_step s
  generalize plsGetLast s = t at hstep
  cases hstep with
  | empty hlen =>
    rw [decide_eq_false (not_not.mpr hlen)]
    exact .nothing (Kept.refl h) rfl rfl
  | last hlen =>
    rw [decide_eq_true hlen]
    exact .report (Kept.refl h) (by omega)
  | drawn hlen hs =>
    have hkept := Nav.shuffle_kept h hs s.pls.len
    rw [decide_eq_true hlen, hkept.redrawn.len_eq]
    exact .reportAt hkept hs (by omega)

lemma plsGetNext_navigated (h : s.pls.WF) : Navigated s (plsGetNext s).1 (plsGetNext s).2 := by
  have hstep := plsGetNext_step s
  generalize plsGetNext s = u at hstep
  cases hstep with
  | outside | ended => exact .nothing (Kept.refl h) rfl rfl
  | following _ hi => exact .report (Kept.refl h) hi
  | around _ hi => exact .report (Kept.refl h) (by omega)
  | played hs _ hnext => exact .reportAt (Kept.refl h) hs (hnext.trans_le (h.poolst_le hs))
  | drawn hs hi _ hpool =>
    have hc := Nav.commit_kept h hs hi
    have hdrawn := hc.trans (Nav.shuffle_kept hc.wf (hc.shuffled hs) 1)
    have hnew := Nav.shuffle_poolst (s := s.commit) hpool.le 1
    have hlen := hc.redrawn.len_eq
    exact .reportAt hdrawn hs (by omega)
  | replayed hs hi => exact .reportAt (Nav.commit_kept h hs hi) hs (Nat.zero_lt_of_lt hi)
  | exhausted hs hi => exact .nothing (Nav.commit_kept h hs hi) s.commit_fields.1 s.commit_fields.2.1

lemma plsGetPrev_navigated (h : s.pls.WF) : Navigated s (plsGetPrev s).1 (plsGetPrev s).2 := by
  have hstep := plsGetPrev_step s
  generalize plsGetPrev s = u at hstep
  cases hstep with
  | outside | ended => exact .nothing (Kept.refl h) rfl rfl
  | preceding => exact .report (Kept.refl h) (by omega)
  | around => exact .report (Kept.refl h) (by omega)
  | played hs hi =>
    have hc := Nav.commit_kept h hs hi
    have hlt := Nav.commit_iidx_lt h hs hi
    have hle := hc.wf.poolst_le (hc.shuffled hs)
    have hlen := hc.redrawn.len_eq
    rw [s.commit_fields.1]
    exact .reportAt hc hs (by omega)
  | drawn hs hi =>
    have hc := Nav.commit_kept h hs hi
    have hlen := hc.redrawn.len_eq
    have hlast := plsGetLast_navigated hc.wf
    rw [decide_eq_true (by omega)] at hlast
    refine ⟨hc.trans hlast.toKept, fun _ => ?_, fun hf => (by cases hf)⟩
    have hitem := hlast.item rfl
    rwa [hlen, hc.redrawn.vidx_eq] at hitem
  | exhausted hs hi => exact .nothing (Nav.commit_kept h hs hi) s.commit_fields.1 s.commit_fields.2.1

/-- Whatever is drawn, the four calls change nothing but the order of the pool, keep what is
committed in place, and report items of the list. -/
theorem navigation_keeps_history (h : s.pls.WF) :
    Navigated s (decide (s.pls.len ≠ 0)) (plsGetStarting s) ∧
      Navigated s (decide (s.pls.len ≠ 0)) (plsGetLast s) ∧
      Navigated s (plsGetNext s).1 (plsGetNext s).2 ∧ Navigated s (plsGetPrev s).1 (plsGetPrev s).2 :=
  ⟨plsGetStarting_navigated h, plsGetLast_navigated h, plsGetNext_navigated h, plsGetPrev_navigated h⟩

lemma halfPlayed_wf : (halfPlayed fun _ => 0).pls.WF :=
  ⟨by decide, fun _ => by decide, fun _ => by decide, fun _ => by decide⟩

theorem navigation_keeps_history_halfPlayed :
    (plsGetNext (halfPlayed fun _ => 0)).2.pls.pidx 0 = 1 ∧ (plsGetLast (halfPlayed fun _ => 0)).pls.WF := by
  obtain ⟨-, hlast, hnext, -⟩ := navigation_keeps_history halfPlayed_wf
  exact ⟨hnext.redrawn.history 0 (by decide), hlast.wf⟩

/-! ### There and back -/

/-- Item `i` is played right before item `j`, as far as the order is drawn. -/
def Pls.Successive (p : Pls) (i j : Nat) : Prop :=
  if p.shuffled = 0 then
    i + 1 = j ∧ j < p.len ∨ p.repeatMode ≠ 0 ∧ i + 1 = p.len ∧ j = 0
  else
    ∃ k < p.poolst, p.pidx k = i ∧
      (k + 1 < p.poolst ∧ p.pidx (k + 1) = j ∨
        p.repeatMode ≠ 0 ∧ p.poolst = p.len ∧ k + 1 = p.len ∧ p.pidx 0 = j)

lemma successive_unshuffled {p : Pls} (hs : p.shuffled = 0) {i j : Nat} :
    p.Successive i j ↔ i + 1 = j ∧ j < p.len ∨ p.repeatMode ≠ 0 ∧ i + 1 = p.len ∧ j = 0 := by
  rw [Pls.Successive, if_pos hs]

lemma successive_shuffled {p : Pls} (hs : p.shuffled ≠ 0) {i j : Nat} :
    p.Successive i j ↔ ∃ k < p.poolst, p.pidx k = i ∧
      (k + 1 < p.poolst ∧ p.pidx (k + 1) = j ∨
        p.repeatMode ≠ 0 ∧ p.poolst = p.len ∧ k + 1 = p.len ∧ p.pidx 0 = j) := by
  rw [Pls.Successive, if_neg hs]

lemma Nav.commit_cell (h : s.pls.WF) (hs : s.pls.shuffled ≠ 0) (hi : s.index < s.pls.len) :
    s.commit.pls.pidx (s.commit.pls.iidx s.index) = s.index := by
  have hc := Nav.commit_kept h hs hi
  have hlen := hc.redrawn.len_eq
  exact (Pls.WF.ordered hc.wf (hc.shuffled hs)).pair.right (by omega)

lemma plsGetNext_successive (h : s.pls.WF) (ht : plsGetNext s = (true, t)) :
    t.pls.Successive s.index t.index := by
  have hstep := plsGetNext_step s
  rw [ht] at hstep
  cases hstep with
  | following hs hi => exact (successive_unshuffled hs).mpr (.inl ⟨rfl, hi⟩)
  | around hs hi hr => exact (successive_unshuffled hs).mpr (.inr ⟨hr, hi, rfl⟩)
  | played hs hi hnext =>
    have hcell := (Pls.WF.ordered h hs).pair.right hi
    exact (successive_shuffled hs).mpr ⟨s.pls.iidx s.index, Nat.lt_of_succ_lt hnext, hcell, .inl ⟨hnext, rfl⟩⟩
  | drawn hs hi hlast hpool =>
    have hc := Nav.commit_kept h hs hi
    have hs' := hc.shuffled hs
    have hpos := Nav.commit_iidx_last h hs hi (not_lt.mpr hlast)
    have hlt := Nav.commit_iidx_lt h hs hi
    have hd := Nav.shuffle_kept hc.wf hs' 1
    have hnew := Nav.shuffle_poolst (s := s.commit) hpool.le 1
    have hend : (s.commit.shuffle 1).pls.poolst - 1 = s.commit.pls.iidx s.index + 1 := by omega
    refine (successive_shuffled (hd.shuffled hs')).mpr ⟨s.commit.pls.iidx s.index, ?_, ?_, .inl ⟨?_, ?_⟩⟩
    · exact hlt.trans_le hd.redrawn.poolst_le
    · exact (hd.redrawn.history _ hlt).trans (Nav.commit_cell h hs hi)
    · omega
    · change _ = (s.commit.shuffle 1).pls.pidx ((s.commit.shuffle 1).pls.poolst - 1)
      rw [hend]
  | replayed hs hi hlast hpool hr =>
    have hc := Nav.commit_kept h hs hi
    have hs' := hc.shuffled hs
    have hle := hc.wf.poolst_le hs'
    have hpos := Nav.commit_iidx_last h hs hi (not_lt.mpr hlast)
    have hlt := Nav.commit_iidx_lt h hs hi
    exact (successive_shuffled hs').mpr ⟨s.commit.pls.iidx s.index, hlt, Nav.commit_cell h hs hi,
      .inr ⟨hr, Nat.le_antisymm hle hpool, hpos.trans (Nat.le_antisymm hle hpool), rfl⟩⟩

/-- A step back from the first item draws the whole pool. -/
lemma plsGetPrev_successive (h : s.pls.WF) (ht : plsGetPrev s = (true, t)) :
    t.pls.Successive t.index s.index := by
  have hstep := plsGetPrev_step s
  rw [ht] at hstep
  cases hstep with
  | preceding hs hi hpos =>
    refine (successive_unshuffled hs).mpr (.inl ⟨?_, hi⟩)
    change s.index - 1 + 1 = s.index
    omega
  | around hs hi hfirst hr =>
    refine (successive_unshuffled hs).mpr (.inr ⟨hr, ?_, hfirst⟩)
    change s.pls.len - 1 + 1 = s.pls.len
    omega
  | played hs hi hpos =>
    rw [s.commit_fields.1] at hpos ⊢
    have hs' := (Nav.commit_kept h hs hi).shuffled hs
    have hlt := Nav.commit_iidx_lt h hs hi
    have hback : s.commit.pls.iidx s.index - 1 + 1 = s.commit.pls.iidx s.index := by omega
    refine (successive_shuffled hs').mpr ⟨s.commit.pls.iidx s.index - 1, ?_, rfl, .inl ⟨?_, ?_⟩⟩
    · omega
    · rw [hback]
      exact hlt
    · rw [hback]
      exact Nav.commit_cell h hs hi
  | drawn hs hi hzero hr =>
    rw [s.commit_fields.1] at hzero
    have hc := Nav.commit_kept h hs hi
    have hs' := hc.shuffled hs
    have hlt := Nav.commit_iidx_lt h hs hi
    have hcell := Nav.commit_cell h hs hi
    rw [hzero] at hcell hlt
    have hd := Nav.shuffle_kept hc.wf hs' s.commit.pls.len
    have hle := hc.wf.poolst_le hs'
    have hnew := Nav.shuffle_poolst hle s.commit.pls.len
    have hlen := hc.redrawn.len_eq
    have hdlen := hd.redrawn.len_eq
    have hlast : plsGetLast s.commit = (s.commit.shuffle s.commit.pls.len).report
        ((s.commit.shuffle s.commit.pls.len).pls.pidx ((s.commit.shuffle s.commit.pls.len).pls.len - 1)) :=
      (LastStep.drawn (by omega) hs').eq
    rw [hlast]
    refine (successive_shuffled (hd.shuffled hs')).mpr
      ⟨(s.commit.shuffle s.commit.pls.len).pls.len - 1, ?_, rfl, .inr ⟨?_, ?_, ?_, ?_⟩⟩
    · omega
    · rw [hd.redrawn.repeatMode_eq]
      exact hr
    · omega
    · omega
    · exact (hd.redrawn.history 0 hlt).trans hcell

lemma Pls.Successive.next {p : Pls} (h : p.WF) {i j : Nat} (hij : p.Successive i j) (r : Draws)
    (oid : Option Bytes) : ∃ t, plsGetNext ⟨p, r, i, oid⟩ = (true, t) ∧ t.index = j := by
  by_cases hs : p.shuffled = 0
  · rcases (successive_unshuffled hs).mp hij with ⟨rfl, hj⟩ | ⟨hr, hi, rfl⟩
    · exact ⟨_, (NextStep.following hs hj).eq, rfl⟩
    · exact ⟨_, (NextStep.around hs hi hr).eq, rfl⟩
  · obtain ⟨k, hk, rfl, hj⟩ := (successive_shuffled hs).mp hij
    have hle := h.poolst_le hs
    have hmaps := (Pls.WF.ordered h hs).pair.maps k (hk.trans_le hle)
    have hback := h.inverse hs k (hk.trans_le hle)
    rcases hj with ⟨hnext, hj⟩ | ⟨hr, hpool, hlast, hj⟩
    · have hstep := NextStep.played (s := ⟨p, r, p.pidx k, oid⟩) hs hmaps (by dsimp only; rwa [hback])
      refine ⟨_, hstep.eq, ?_⟩
      change p.pidx (p.iidx (p.pidx k) + 1) = j
      rw [hback, hj]
    · have hsame : Nav.commit ⟨p, r, p.pidx k, oid⟩ = ⟨p, r, p.pidx k, oid⟩ :=
        Nav.commit_committed (by dsimp only; rwa [hback])
      have hstep := NextStep.replayed (s := ⟨p, r, p.pidx k, oid⟩) hs hmaps (by dsimp only; omega)
        (by rw [hsame]; exact hpool.ge) (by rw [hsame]; exact hr)
      rw [hsame] at hstep
      exact ⟨_, hstep.eq, hj⟩

lemma Pls.Successive.prev {p : Pls} (h : p.WF) {i j : Nat} (hij : p.Successive i j) (r : Draws)
    (oid : Option Bytes) : ∃ t, plsGetPrev ⟨p, r, j, oid⟩ = (true, t) ∧ t.index = i := by
  by_cases hs : p.shuffled = 0
  · rcases (successive_unshuffled hs).mp hij with ⟨rfl, hj⟩ | ⟨hr, hi, rfl⟩
    · exact ⟨_, (PrevStep.preceding hs hj (Nat.succ_ne_zero i)).eq, rfl⟩
    · refine ⟨_, (PrevStep.around hs (by dsimp only; omega) rfl hr).eq, ?_⟩
      change p.len - 1 = i
      omega
  · obtain ⟨k, hk, rfl, hj⟩ := (successive_shuffled hs).mp hij
    have hle := h.poolst_le hs
    rcases hj with ⟨hnext, rfl⟩ | ⟨hr, hpool, hlast, rfl⟩
    · have hmaps := (Pls.WF.ordered h hs).pair.maps (k + 1) (hnext.trans_le hle)
      have hback := h.inverse hs (k + 1) (hnext.trans_le hle)
      have hsame : Nav.commit ⟨p, r, p.pidx (k + 1), oid⟩ = ⟨p, r, p.pidx (k + 1), oid⟩ :=
        Nav.commit_committed (by dsimp only; rwa [hback])
      have hstep := PrevStep.played (s := ⟨p, r, p.pidx (k + 1), oid⟩) hs hmaps
        (by rw [hsame]; dsimp only; rw [hback]; exact Nat.succ_ne_zero k)
      rw [hsame] at hstep
      refine ⟨_, hstep.eq, ?_⟩
      change p.pidx (p.iidx (p.pidx (k + 1)) - 1) = p.pidx k
      rw [hback, Nat.add_sub_cancel]
    · have hmaps := (Pls.WF.ordered h hs).pair.maps 0 (by omega)
      have hback := h.inverse hs 0 (by omega)
      have hsame : Nav.commit ⟨p, r, p.pidx 0, oid⟩ = ⟨p, r, p.pidx 0, oid⟩ :=
        Nav.commit_committed (by dsimp only; rw [hback]; omega)
      have hstep := PrevStep.drawn (s := ⟨p, r, p.pidx 0, oid⟩) hs hmaps (by rw [hsame]; exact hback)
        (by rw [hsame]; exact hr)
      rw [hsame, (LastStep.drawn (s := ⟨p, r, p.pidx 0, oid⟩) (by dsimp only; omega) hs).eq] at hstep
      refine ⟨_, hstep.eq, ?_⟩
      have hd := Nav.shuffle_redrawn ⟨p, r, p.pidx 0, oid⟩ p.len
      have hdlen := hd.len_eq
      dsimp only at hdlen
      change (Nav.shuffle ⟨p, r, p.pidx 0, oid⟩ p.len).pls.pidx
        ((Nav.shuffle ⟨p, r, p.pidx 0, oid⟩ p.len).pls.len - 1) = p.pidx k
      have hlastk : (Nav.shuffle ⟨p, r, p.pidx 0, oid⟩ p.len).pls.len - 1 = k := by omega
      rw [hlastk]
      exact hd.history k hk

/-- A step forward is undone by a step back from where it ended, and the other way round,
whatever is drawn by either of them. -/
theorem next_prev_undo (h : s.pls.WF) :
    (∀ t, plsGetNext s = (true, t) → ∀ r oid, ∃ u, plsGetPrev ⟨t.pls, r, t.index, oid⟩ = (true, u) ∧
      u.index = s.index) ∧
    ∀ t, plsGetPrev s = (true, t) → ∀ r oid, ∃ u, plsGetNext ⟨t.pls, r, t.index, oid⟩ = (true, u) ∧
      u.index = s.index := by
  constructor
  · intro t ht r oid
    have hwf := (plsGetNext_kept h).wf
    rw [ht] at hwf
    exact (plsGetNext_successive h ht).prev hwf r oid
  · intro t ht r oid
    have hwf := (plsGetPrev_kept h).wf
    rw [ht] at hwf
    exact (plsGetPrev_successive h ht).next hwf r oid

/-- From the item not played yet back to the one before it, and on again. -/
theorem next_prev_undo_halfPlayed : ∃ t u, plsGetPrev (halfPlayed fun _ => 0) = (true, t) ∧ t.index = 1 ∧
    plsGetNext t = (true, u) ∧ u.index = 0 := by
  obtain ⟨t, ht, hindex⟩ : ∃ t, plsGetPrev (halfPlayed fun _ => 0) = (true, t) ∧ t.index = 1 := ⟨_, rfl, rfl⟩
  obtain ⟨u, hu, hback⟩ := (next_prev_undo halfPlayed_wf).2 t ht t.draws t.oid
  exact ⟨t, u, ht, hindex, hu, hback⟩

end MafwShared
