import MafwShared.Proofs.PlayOrder

/-!
# Shuffled playback

Playing a shuffled playlist from its starting item visits the positions of `pidx` one
after the other. The item at a position is drawn when playback gets there and stays from
then on, so the indices played are the entries of one permutation.
-/

namespace MafwShared
open CLib

/-- Playback: the starting item, then the next one after the index returned last. -/
def playSequence (s : Nav) : Nat → Option Nav
  | 0 => some (plsGetStarting s)
  | k + 1 => (playSequence s k).bind fun t =>
    if (plsGetNext t).1 then some (plsGetNext t).2 else none

/-- The caller's variables name the item committed at position `k`. -/
structure Nav.At (s : Nav) (k : Nat) : Prop where
  wf : s.pls.WF
  shuffled : s.pls.shuffled ≠ 0
  committed : k < s.pls.poolst
  index : s.index = s.pls.pidx k
  oid : s.oid = some (s.pls.vidx s.index)

namespace Nav.At
variable {s : Nav} {k : Nat}

lemma lt_len (h : s.At k) : k < s.pls.len := h.committed.trans_le (h.wf.poolst_le h.shuffled)

lemma index_lt (h : s.At k) : s.index < s.pls.len := by
  rw [h.index]
  exact (Pls.WF.ordered h.wf h.shuffled).pair.maps k h.lt_len

lemma iidx_index (h : s.At k) : s.pls.iidx s.index = k := by
  rw [h.index]
  exact h.wf.inverse h.shuffled k h.lt_len

lemma commit_eq (h : s.At k) : s.commit = s := by
  apply Nav.commit_committed
  rw [h.iidx_index]
  exact h.committed

end Nav.At

lemma Kept.at_report {s t : Nav} (h : Kept s t) (hs : s.pls.shuffled ≠ 0) {k : Nat}
    (hk : k < t.pls.poolst) : (t.report (t.pls.pidx k)).At k :=
  ⟨h.wf, h.shuffled hs, hk, rfl, rfl⟩

lemma plsGetStarting_at {s : Nav} (h : s.pls.WF) (hs : s.pls.shuffled ≠ 0) (hlen : s.pls.len ≠ 0) :
    (plsGetStarting s).At 0 := by
  have hstep := plsGetStarting_step s
  generalize plsGetStarting s = t at hstep
  cases hstep with
  | empty hempty => exact absurd hempty hlen
  | first _ hplain => exact absurd hplain hs
  | drawn _ _ hp =>
    have hpool := Nav.shuffle_poolst (h.poolst_le hs) 1
    exact (Nav.shuffle_kept h hs 1).at_report hs (by omega)
  | played _ _ hp => exact (Kept.refl h).at_report hs (Nat.pos_of_ne_zero hp)

lemma plsGetNext_at {s : Nav} {k : Nat} (h : s.At k) (hk : k + 1 < s.pls.len) :
    ∃ t, plsGetNext s = (true, t) ∧ t.At (k + 1) := by
  have hcommitted := h.committed
  have hpos := h.iidx_index
  by_cases hc : k + 1 < s.pls.poolst
  · have hstep := NextStep.played h.shuffled h.index_lt (by omega)
    rw [hpos] at hstep
    exact ⟨_, hstep.eq, (Kept.refl h.wf).at_report h.shuffled hc⟩
  · have hstep := NextStep.drawn h.shuffled h.index_lt (by omega) (by rw [h.commit_eq]; omega)
    have hnew := Nav.shuffle_poolst (h.wf.poolst_le h.shuffled) 1
    have hend : (s.shuffle 1).pls.poolst - 1 = k + 1 := by omega
    rw [h.commit_eq, hend] at hstep
    exact ⟨_, hstep.eq, (Nav.shuffle_kept h.wf h.shuffled 1).at_report h.shuffled (by omega)⟩

/-- The step behind the last item, which the repeat mode decides. -/
lemma plsGetNext_last {s : Nav} {k : Nat} (h : s.At k) (hk : k + 1 = s.pls.len) :
    (s.pls.repeatMode = 0 → (plsGetNext s).1 = false) ∧
      (s.pls.repeatMode ≠ 0 → ∃ t, plsGetNext s = (true, t) ∧ t.At 0) := by
  have hpool := h.wf.poolst_le h.shuffled
  have hcommitted := h.committed
  have hpos := h.iidx_index
  have hsame := h.commit_eq
  constructor
  · intro hr
    have hstep := NextStep.exhausted h.shuffled h.index_lt (by omega) (by rw [hsame]; omega) (by rw [hsame]; exact hr)
    rw [hstep.eq]
  · intro hr
    have hstep := NextStep.replayed h.shuffled h.index_lt (by omega) (by rw [hsame]; omega) (by rw [hsame]; exact hr)
    rw [hsame] at hstep
    exact ⟨_, hstep.eq, (Kept.refl h.wf).at_report h.shuffled (by omega)⟩

lemma playSequence_kept {s : Nav} (h : s.pls.WF) {k : Nat} {t : Nav} (ht : playSequence s k = some t) :
    Kept s t := by
  induction k generalizing t with
  | zero =>
    cases ht
    exact plsGetStarting_kept h
  | succ k ih =>
    rw [playSequence] at ht
    obtain ⟨u, hu, hnext⟩ := Option.bind_eq_some_iff.mp ht
    split at hnext
    · cases hnext
      exact (ih hu).trans (plsGetNext_kept (ih hu).wf)
    · cases hnext

lemma playSequence_add {s : Nav} (h : s.pls.WF) {k j : Nat} {t u : Nav} (ht : playSequence s k = some t)
    (hu : playSequence s (k + j) = some u) : Redrawn t.pls u.pls := by
  induction j generalizing u with
  | zero =>
    rw [Nat.add_zero, ht] at hu
    cases hu
    exact Redrawn.refl _
  | succ j ih =>
    rw [← Nat.add_assoc, playSequence] at hu
    obtain ⟨v, hv, hnext⟩ := Option.bind_eq_some_iff.mp hu
    split at hnext
    · cases hnext
      exact (ih hv).trans (plsGetNext_kept (playSequence_kept h hv).wf).redrawn
    · cases hnext

/-- A run of playback: after `k` calls it is at position `k`, counted around the list. -/
lemma playSequence_at {s : Nav} (h : s.pls.WF) (hs : s.pls.shuffled ≠ 0) (hlen : s.pls.len ≠ 0)
    {k : Nat} (hk : k < s.pls.len ∨ s.pls.repeatMode ≠ 0) :
    ∃ t, playSequence s k = some t ∧ t.At (k % s.pls.len) := by
  induction k with
  | zero =>
    rw [Nat.zero_mod]
    exact ⟨_, rfl, plsGetStarting_at h hs hlen⟩
  | succ k ih =>
    obtain ⟨t, ht, hat⟩ := ih (hk.imp_left (by omega))
    have hlen' := (playSequence_kept h ht).redrawn.len_eq
    have hrep := (playSequence_kept h ht).redrawn.repeatMode_eq
    have hmod := Nat.mod_lt k (Nat.pos_of_ne_zero hlen)
    have hsucc : playSequence s (k + 1) =
        if (plsGetNext t).1 then some (plsGetNext t).2 else none := by
      rw [playSequence, ht]
      rfl
    by_cases hend : k % s.pls.len + 1 = s.pls.len
    · have hr : s.pls.repeatMode ≠ 0 := by
        refine hk.resolve_left (fun hlt => ?_)
        rw [Nat.mod_eq_of_lt (by omega)] at hend
        omega
      obtain ⟨u, hu, hua⟩ := (plsGetNext_last hat (by omega)).2 (by rwa [hrep])
      have hzero : (k + 1) % s.pls.len = 0 := by
        rw [← Nat.mod_add_mod, hend, Nat.mod_self]
      rw [hsucc, hu, hzero]
      exact ⟨u, rfl, hua⟩
    · obtain ⟨u, hu, hua⟩ := plsGetNext_at hat (by omega)
      have hnext : (k + 1) % s.pls.len = k % s.pls.len + 1 := by
        rw [← Nat.mod_add_mod]
        exact Nat.mod_eq_of_lt (by omega)
      rw [hsucc, hu, hnext]
      exact ⟨u, rfl, hua⟩

/-- Playback from any shuffled state plays one permutation of the items. With repeat off
it ends after the last one, with repeat on it starts over in the same order, for every
outcome of the random draws. -/
theorem shuffled_playback {s : Nav} (h : s.pls.WF) (hs : s.pls.shuffled ≠ 0) (hlen : 1 ≤ s.pls.len) :
    ∃ order : List Nat, order.Perm (List.range s.pls.len) ∧
      (s.pls.repeatMode = 0 →
        (∀ k, k < s.pls.len → ∃ t i, playSequence s k = some t ∧ order[k]? = some i ∧
          t.index = i ∧ t.oid = some (s.pls.vidx i)) ∧
        playSequence s s.pls.len = none) ∧
      (s.pls.repeatMode ≠ 0 →
        ∀ k, ∃ t i, playSequence s k = some t ∧ order[k % s.pls.len]? = some i ∧
          t.index = i ∧ t.oid = some (s.pls.vidx i)) := by
  have hne : s.pls.len ≠ 0 := by omega
  obtain ⟨last, hlast, hat⟩ := playSequence_at h hs hne (k := s.pls.len - 1) (.inl (by omega))
  have hkept := playSequence_kept h hlast
  have hlen' := hkept.redrawn.len_eq
  rw [Nat.mod_eq_of_lt (by omega)] at hat
  have hcommitted := hat.committed
  -- what is played at a position is what the end of the first round has there
  have hplayed : ∀ k t, playSequence s k = some t → t.At (k % s.pls.len) →
      (cells last.pls.pidx s.pls.len)[k % s.pls.len]? = some t.index ∧
        t.oid = some (s.pls.vidx t.index) := by
    intro k t ht hatk
    have hmod := Nat.mod_lt k (show s.pls.len > 0 by omega)
    rw [getElem?_cells _ hmod, hatk.oid, (playSequence_kept h ht).redrawn.vidx_eq, hatk.index]
    refine ⟨congrArg some ?_, rfl⟩
    by_cases hk : k < s.pls.len
    · have hred := playSequence_add h (j := s.pls.len - 1 - k) ht
        (by rw [show k + (s.pls.len - 1 - k) = s.pls.len - 1 by omega]; exact hlast)
      exact hred.history _ hatk.committed
    · have hred := playSequence_add h (j := k - (s.pls.len - 1)) hlast
        (by rw [show s.pls.len - 1 + (k - (s.pls.len - 1)) = k by omega]; exact ht)
      exact (hred.history _ (by omega)).symm
  have hperm := hkept.wf.perm (hkept.shuffled hs)
  rw [hlen'] at hperm
  refine ⟨cells last.pls.pidx s.pls.len, hperm, fun hr => ⟨fun k hk => ?_, ?_⟩, fun hr k => ?_⟩
  · obtain ⟨t, ht, hatk⟩ := playSequence_at h hs hne (.inl hk)
    obtain ⟨hindex, hoid⟩ := hplayed k t ht hatk
    rw [Nat.mod_eq_of_lt hk] at hindex
    exact ⟨t, t.index, ht, hindex, rfl, hoid⟩
  · have hfail := (plsGetNext_last hat (by omega)).1 (by rw [hkept.redrawn.repeatMode_eq, hr])
    rw [show s.pls.len = s.pls.len - 1 + 1 by omega, playSequence, hlast, Option.bind_some, hfail]
    rfl
  · obtain ⟨t, ht, hatk⟩ := playSequence_at h hs hne (.inr hr)
    obtain ⟨hindex, hoid⟩ := hplayed k t ht hatk
    exact ⟨t, t.index, ht, hindex, rfl, hoid⟩

/-- Two shuffled items, the second of which was played already. -/
def halfPlayed (r : Draws) : Nav :=
  { pls :=
      { id := 1, name := [112], repeatMode := 0, shuffled := 1, useCount := 0, len := 2, alloc := 16,
        poolst := 1, vidx := fun i => [UInt8.ofNat i], pidx := fun i => 1 - i, iidx := fun i => 1 - i,
        dirty := true }
    draws := r, index := 0, oid := none }

theorem shuffled_playback_halfPlayed : ∃ order : List Nat, order.Perm [0, 1] ∧
    (∃ t i, playSequence (halfPlayed fun _ => 0) 1 = some t ∧ order[1]? = some i ∧ t.index = i) ∧
    playSequence (halfPlayed fun _ => 0) 2 = none := by
  have hwf : (halfPlayed fun _ => 0).pls.WF :=
    ⟨by decide, fun _ => by decide, fun _ => by decide, fun _ => by decide⟩
  obtain ⟨order, hperm, hoff, -⟩ := shuffled_playback hwf (by decide) (by decide)
  obtain ⟨t, i, ht, hi, hindex, -⟩ := (hoff rfl).1 1 (by decide)
  exact ⟨order, hperm, ⟨t, i, ht, hi, hindex⟩, (hoff rfl).2⟩

end MafwShared
