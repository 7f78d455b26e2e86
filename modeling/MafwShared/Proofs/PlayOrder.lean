import MafwShared.Aplaylist
import MafwShared.Lib.InversePair

/-!
# The play order of a shuffled playlist

`Pls.WF` is the well-formedness of a playlist. A navigation call may move items from the
pool to the committed history and nothing else: `Redrawn p q` says that `q` came from
`p` that way. The order is drawn lazily, one swap of `pidx` and `iidx` at a time.
-/

namespace MafwShared
open CLib

/-- What every playlist operation must keep. -/
structure Pls.WF (p : Pls) : Prop where
  len_le : p.len ≤ p.alloc
  poolst_le : p.shuffled ≠ 0 → p.poolst ≤ p.len
  perm : p.shuffled ≠ 0 → (cells p.pidx p.len).Perm (List.range p.len)
  inverse : p.shuffled ≠ 0 → ∀ i < p.len, p.iidx (p.pidx i) = i

/-- The play order of a shuffled playlist, as the proofs use it. -/
structure Pls.Ordered (p : Pls) : Prop where
  poolst_le : p.poolst ≤ p.len
  pair : InversePair p.len p.pidx p.iidx

/-- `q` is `p` after some items of the pool were committed behind the history. -/
structure Redrawn (p q : Pls) : Prop where
  frame : { q with pidx := p.pidx, iidx := p.iidx, poolst := p.poolst } = p
  poolst_le : p.poolst ≤ q.poolst
  history : ∀ i < p.poolst, q.pidx i = p.pidx i

lemma Pls.WF.ordered {p : Pls} (h : p.WF) (hs : p.shuffled ≠ 0) : p.Ordered :=
  ⟨h.poolst_le hs, InversePair.iff_perm.mpr ⟨h.perm hs, h.inverse hs⟩⟩

lemma wf_of_ordered {p : Pls} (hl : p.len ≤ p.alloc) (h : p.shuffled ≠ 0 → p.Ordered) : p.WF :=
  ⟨hl, fun hs => (h hs).poolst_le, fun hs => (h hs).pair.perm, fun hs => (h hs).pair.left⟩

namespace Redrawn
variable {p q r : Pls}

lemma refl (p : Pls) : Redrawn p p := ⟨rfl, le_rfl, fun _ _ => rfl⟩

lemma len_eq (h : Redrawn p q) : q.len = p.len := (congrArg Pls.len h.frame :)
lemma alloc_eq (h : Redrawn p q) : q.alloc = p.alloc := (congrArg Pls.alloc h.frame :)
lemma shuffled_eq (h : Redrawn p q) : q.shuffled = p.shuffled := (congrArg Pls.shuffled h.frame :)
lemma repeatMode_eq (h : Redrawn p q) : q.repeatMode = p.repeatMode := (congrArg Pls.repeatMode h.frame :)
lemma vidx_eq (h : Redrawn p q) : q.vidx = p.vidx := (congrArg Pls.vidx h.frame :)

lemma trans (h : Redrawn p q) (h' : Redrawn q r) : Redrawn p r := by
  refine ⟨?_, h.poolst_le.trans h'.poolst_le, fun i hi => ?_⟩
  · rw [← h.frame, ← h'.frame]
  · rw [h'.history i (hi.trans_le h.poolst_le), h.history i hi]

end Redrawn

/-! ### Committing one item -/

/-- The item at position `j` of the pool becomes the last committed one. -/
def commitTo (p : Pls) (j : Nat) : Pls :=
  { swapElements p p.poolst j with poolst := p.poolst + 1 }

@[simp] lemma commitTo_poolst (p : Pls) (j : Nat) : (commitTo p j).poolst = p.poolst + 1 := rfl

lemma commitTo_pidx (p : Pls) (j i : Nat) : (commitTo p j).pidx i =
    Function.update (Function.update p.pidx p.poolst (p.pidx j)) j (p.pidx p.poolst) i := rfl

lemma swapElements_iidx (p : Pls) (a b : Nat) : (swapElements p a b).iidx =
    Function.update (Function.update p.iidx (p.pidx b) a) (p.pidx a) b := by
  unfold swapElements
  by_cases h : a = b
  · subst h
    simp
  · simp [Function.update_of_ne h]

lemma commitTo_ordered {p : Pls} (h : p.Ordered) {j : Nat} (hp : p.poolst < p.len) (hj : j < p.len) :
    (commitTo p j).Ordered := by
  refine ⟨hp, ?_⟩
  have hpair := h.pair.swap hp hj
  rw [← swapElements_iidx] at hpair
  exact hpair

lemma commitTo_redrawn (p : Pls) {j : Nat} (hj : p.poolst ≤ j) : Redrawn p (commitTo p j) := by
  refine ⟨rfl, Nat.le_succ _, fun i hi => ?_⟩
  rw [commitTo_pidx, Function.update_of_ne (by omega), Function.update_of_ne (by omega)]

/-! ### Drawing from the pool -/

lemma gRandomIntRange_mem (r : Draws) {lo hi : Nat} (h : lo < hi) :
    lo ≤ (gRandomIntRange r lo hi).1 ∧ (gRandomIntRange r lo hi).1 < hi := by
  have hmod := Nat.mod_lt (r 0) (Nat.sub_pos_of_lt h)
  simp only [gRandomIntRange, if_pos h]
  omega

lemma shuffleElement_eq (p : Pls) (r : Draws) : ∃ j, (shuffleElement (p, r)).1 = commitTo p j ∧
    p.poolst ≤ j ∧ (p.poolst < p.len → j < p.len) := by
  refine ⟨(gRandomIntRange (fun i => r (i + 1)) p.poolst p.len).1, rfl, ?_, fun h => (gRandomIntRange_mem _ h).2⟩
  unfold gRandomIntRange
  split <;> omega

/-- Drawing takes items out of the pool as long as it has any, and keeps an order if there is one. -/
lemma shuffleElements_draws (p : Pls) (r : Draws) (amount : Nat) :
    (p.Ordered → (shuffleElements p r amount).1.Ordered) ∧ Redrawn p (shuffleElements p r amount).1 ∧
      (shuffleElements p r amount).1.poolst = p.poolst + min amount (guintSub p.len p.poolst) := by
  have hmin : (if amount > guintSub p.len p.poolst then guintSub p.len p.poolst else amount) =
      min amount (guintSub p.len p.poolst) := by
    split <;> omega
  unfold shuffleElements
  simp only [hmin]
  apply forUpto_invariant (fun k (s : Pls × Draws) =>
    (p.Ordered → s.1.Ordered) ∧ Redrawn p s.1 ∧ s.1.poolst = p.poolst + k)
  · exact ⟨id, Redrawn.refl p, rfl⟩
  · rintro k ⟨q, r'⟩ hk ⟨hord, hred, hpool⟩
    have hlen := hred.len_eq
    obtain ⟨j, he, hj⟩ := shuffleElement_eq q r'
    dsimp only at hord hred hpool hlen
    rw [he]
    refine ⟨fun h => ?_, hred.trans (commitTo_redrawn q hj.1), ?_⟩
    · rw [guintSub_of_le h.poolst_le] at hk
      have hlt : q.poolst < q.len := by omega
      exact commitTo_ordered (hord h) hlt (hj.2 hlt)
    · rw [commitTo_poolst]
      omega

/-! ### Navigation -/

/-- Navigation keeps a well-formed playlist well formed and its history in place. -/
structure Kept (s t : Nav) : Prop where
  wf : t.pls.WF
  redrawn : Redrawn s.pls t.pls

lemma Kept.refl {s : Nav} (h : s.pls.WF) : Kept s s := ⟨h, Redrawn.refl _⟩

lemma Kept.report {s t : Nav} (h : Kept s t) (i : Nat) : Kept s (t.report i) := ⟨h.wf, h.redrawn⟩

lemma Kept.of_ordered {s t : Nav} (h : s.pls.WF) (ho : t.pls.Ordered) (hr : Redrawn s.pls t.pls) :
    Kept s t := by
  refine ⟨wf_of_ordered ?_ (fun _ => ho), hr⟩
  rw [hr.len_eq, hr.alloc_eq]
  exact h.len_le

lemma Kept.trans {s t u : Nav} (h : Kept s t) (h' : Kept t u) : Kept s u :=
  ⟨h'.wf, h.redrawn.trans h'.redrawn⟩

lemma Kept.shuffled {s t : Nav} (h : Kept s t) (hs : s.pls.shuffled ≠ 0) : t.pls.shuffled ≠ 0 := by
  rw [h.redrawn.shuffled_eq]
  exact hs

lemma Nav.shuffle_redrawn (s : Nav) (amount : Nat) : Redrawn s.pls (s.shuffle amount).pls :=
  (shuffleElements_draws s.pls s.draws amount).2.1

lemma Nav.shuffle_poolst {s : Nav} (h : s.pls.poolst ≤ s.pls.len) (amount : Nat) :
    (s.shuffle amount).pls.poolst = s.pls.poolst + min amount (s.pls.len - s.pls.poolst) := by
  rw [← guintSub_of_le h]
  exact (shuffleElements_draws s.pls s.draws amount).2.2

lemma Nav.shuffle_kept {s : Nav} (h : s.pls.WF) (hs : s.pls.shuffled ≠ 0) (amount : Nat) :
    Kept s (s.shuffle amount) :=
  Kept.of_ordered h ((shuffleElements_draws s.pls s.draws amount).1 (Pls.WF.ordered h hs)) (s.shuffle_redrawn amount)

lemma Nav.commit_committed {s : Nav} (h : s.pls.iidx s.index < s.pls.poolst) : s.commit = s := by
  unfold Nav.commit
  rw [if_neg (not_le.mpr h)]

lemma Nav.commit_pls {s : Nav} (h : s.pls.poolst ≤ s.pls.iidx s.index) :
    s.commit.pls = commitTo s.pls (s.pls.iidx s.index) := by
  unfold Nav.commit
  rw [if_pos h]
  rfl

lemma Nav.commit_redrawn (s : Nav) : Redrawn s.pls s.commit.pls := by
  by_cases hp : s.pls.poolst ≤ s.pls.iidx s.index
  · rw [Nav.commit_pls hp]
    exact commitTo_redrawn s.pls hp
  · rw [Nav.commit_committed (not_le.mp hp)]
    exact Redrawn.refl s.pls

lemma Nav.commit_kept {s : Nav} (h : s.pls.WF) (hs : s.pls.shuffled ≠ 0)
    (hi : s.index < s.pls.len) : Kept s s.commit := by
  have ho := Pls.WF.ordered h hs
  have hlt := ho.pair.inv_lt hi
  by_cases hp : s.pls.poolst ≤ s.pls.iidx s.index
  · refine Kept.of_ordered h ?_ s.commit_redrawn
    rw [Nav.commit_pls hp]
    exact commitTo_ordered ho (hp.trans_lt hlt) hlt
  · rw [Nav.commit_committed (not_le.mp hp)]
    exact Kept.refl h

/-! ### The ways through a navigation call -/

/-- How `pls_get_starting` can end. -/
inductive StartingStep (s : Nav) : Nav → Prop
  | empty : s.pls.len = 0 → StartingStep s s
  | first : s.pls.len ≠ 0 → s.pls.shuffled = 0 → StartingStep s (s.report 0)
  | drawn : s.pls.len ≠ 0 → s.pls.shuffled ≠ 0 → s.pls.poolst = 0 →
      StartingStep s ((s.shuffle 1).report ((s.shuffle 1).pls.pidx 0))
  | played : s.pls.len ≠ 0 → s.pls.shuffled ≠ 0 → s.pls.poolst ≠ 0 → StartingStep s (s.report (s.pls.pidx 0))

/-- How `pls_get_last` can end. -/
inductive LastStep (s : Nav) : Nav → Prop
  | empty : s.pls.len = 0 → LastStep s s
  | last : s.pls.len ≠ 0 → s.pls.shuffled = 0 → LastStep s (s.report (s.pls.len - 1))
  | drawn : s.pls.len ≠ 0 → s.pls.shuffled ≠ 0 → LastStep s
      ((s.shuffle s.pls.len).report ((s.shuffle s.pls.len).pls.pidx ((s.shuffle s.pls.len).pls.len - 1)))

/-- How `pls_get_next` can end. -/
inductive NextStep (s : Nav) : Bool × Nav → Prop
  | outside : s.pls.len ≤ s.index → NextStep s (false, s)
  | following : s.pls.shuffled = 0 → s.index + 1 < s.pls.len → NextStep s (true, s.report (s.index + 1))
  | around : s.pls.shuffled = 0 → s.index + 1 = s.pls.len → s.pls.repeatMode ≠ 0 → NextStep s (true, s.report 0)
  | ended : s.pls.shuffled = 0 → s.index + 1 = s.pls.len → s.pls.repeatMode = 0 → NextStep s (false, s)
  | played : s.pls.shuffled ≠ 0 → s.index < s.pls.len → s.pls.iidx s.index + 1 < s.pls.poolst →
      NextStep s (true, s.report (s.pls.pidx (s.pls.iidx s.index + 1)))
  | drawn : s.pls.shuffled ≠ 0 → s.index < s.pls.len → s.pls.poolst ≤ s.pls.iidx s.index + 1 →
      s.commit.pls.poolst < s.commit.pls.len →
      NextStep s (true, (s.commit.shuffle 1).report
        ((s.commit.shuffle 1).pls.pidx ((s.commit.shuffle 1).pls.poolst - 1)))
  | replayed : s.pls.shuffled ≠ 0 → s.index < s.pls.len → s.pls.poolst ≤ s.pls.iidx s.index + 1 →
      s.commit.pls.len ≤ s.commit.pls.poolst → s.commit.pls.repeatMode ≠ 0 →
      NextStep s (true, s.commit.report (s.commit.pls.pidx 0))
  | exhausted : s.pls.shuffled ≠ 0 → s.index < s.pls.len → s.pls.poolst ≤ s.pls.iidx s.index + 1 →
      s.commit.pls.len ≤ s.commit.pls.poolst → s.commit.pls.repeatMode = 0 → NextStep s (false, s.commit)

/-- How `pls_get_prev` can end. -/
inductive PrevStep (s : Nav) : Bool × Nav → Prop
  | outside : s.pls.len ≤ s.index → PrevStep s (false, s)
  | preceding : s.pls.shuffled = 0 → s.index < s.pls.len → s.index ≠ 0 → PrevStep s (true, s.report (s.index - 1))
  | around : s.pls.shuffled = 0 → s.index < s.pls.len → s.index = 0 → s.pls.repeatMode ≠ 0 →
      PrevStep s (true, s.report (s.pls.len - 1))
  | ended : s.pls.shuffled = 0 → s.index < s.pls.len → s.index = 0 → s.pls.repeatMode = 0 → PrevStep s (false, s)
  | played : s.pls.shuffled ≠ 0 → s.index < s.pls.len → s.commit.pls.iidx s.commit.index ≠ 0 →
      PrevStep s (true, s.commit.report (s.commit.pls.pidx (s.commit.pls.iidx s.commit.index - 1)))
  | drawn : s.pls.shuffled ≠ 0 → s.index < s.pls.len → s.commit.pls.iidx s.commit.index = 0 →
      s.commit.pls.repeatMode ≠ 0 → PrevStep s (true, plsGetLast s.commit)
  | exhausted : s.pls.shuffled ≠ 0 → s.index < s.pls.len → s.commit.pls.iidx s.commit.index = 0 →
      s.commit.pls.repeatMode = 0 → PrevStep s (false, s.commit)

lemma plsGetStarting_step (s : Nav) : StartingStep s (plsGetStarting s) := by
  unfold plsGetStarting
  by_cases hlen : s.pls.len = 0
  · rw [if_neg (not_not.mpr hlen)]
    exact .empty hlen
  · rw [if_pos hlen]
    by_cases hs : s.pls.shuffled = 0
    · rw [if_pos hs]
      exact .first hlen hs
    · rw [if_neg hs]
      dsimp only
      by_cases hp : s.pls.poolst = 0
      · rw [if_pos hp]
        exact .drawn hlen hs hp
      · rw [if_neg hp]
        exact .played hlen hs hp

lemma plsGetLast_step (s : Nav) : LastStep s (plsGetLast s) := by
  unfold plsGetLast
  by_cases hlen : s.pls.len = 0
  · rw [if_neg (not_not.mpr hlen)]
    exact .empty hlen
  · rw [if_pos hlen]
    by_cases hs : s.pls.shuffled = 0
    · rw [if_pos hs]
      exact .last hlen hs
    · rw [if_neg hs]
      exact .drawn hlen hs

lemma plsGetNext_step (s : Nav) : NextStep s (plsGetNext s) := by
  unfold plsGetNext
  by_cases hi : s.index ≥ s.pls.len
  · rw [if_pos hi]
    exact .outside hi
  · rw [if_neg hi]
    rw [not_le] at hi
    by_cases hs : s.pls.shuffled = 0
    · rw [if_pos hs]
      by_cases hlast : s.index < s.pls.len - 1
      · rw [if_pos hlast]
        exact .following hs (by omega)
      · rw [if_neg hlast]
        by_cases hr : s.pls.repeatMode = 0
        · rw [if_neg (not_not.mpr hr)]
          exact .ended hs (by omega) hr
        · rw [if_pos hr]
          exact .around hs (by omega) hr
    · rw [if_neg hs]
      by_cases hnext : s.pls.iidx s.index + 1 < s.pls.poolst
      · rw [if_pos hnext]
        exact .played hs hi hnext
      · rw [if_neg hnext]
        rw [not_lt] at hnext
        dsimp only
        by_cases hpool : s.commit.pls.poolst < s.commit.pls.len
        · rw [if_pos hpool]
          exact .drawn hs hi hnext hpool
        · rw [if_neg hpool]
          rw [not_lt] at hpool
          by_cases hr : s.commit.pls.repeatMode = 0
          · rw [if_neg (not_not.mpr hr)]
            exact .exhausted hs hi hnext hpool hr
          · rw [if_pos hr]
            exact .replayed hs hi hnext hpool hr

lemma plsGetPrev_step (s : Nav) : PrevStep s (plsGetPrev s) := by
  unfold plsGetPrev
  by_cases hi : s.index ≥ s.pls.len
  · rw [if_pos hi]
    exact .outside hi
  · rw [if_neg hi]
    rw [not_le] at hi
    by_cases hs : s.pls.shuffled = 0
    · rw [if_pos hs]
      by_cases hfirst : s.index = 0
      · rw [if_neg (by omega)]
        by_cases hr : s.pls.repeatMode = 0
        · rw [if_neg (not_not.mpr hr)]
          exact .ended hs hi hfirst hr
        · rw [if_pos hr]
          exact .around hs hi hfirst hr
      · rw [if_pos (Nat.pos_of_ne_zero hfirst)]
        exact .preceding hs hi hfirst
    · rw [if_neg hs]
      dsimp only
      by_cases hpos : s.commit.pls.iidx s.commit.index = 0
      · rw [if_neg (by omega)]
        by_cases hr : s.commit.pls.repeatMode = 0
        · rw [if_neg (not_not.mpr hr)]
          exact .exhausted hs hi hpos hr
        · rw [if_pos hr]
          exact .drawn hs hi hpos hr
      · rw [if_pos (Nat.pos_of_ne_zero hpos)]
        exact .played hs hi hpos

section
variable {s t : Nav} {u : Bool × Nav}

lemma LastStep.eq (h : LastStep s t) : plsGetLast s = t := by
  unfold plsGetLast
  cases h with
  | empty hlen => rw [if_neg (not_not.mpr hlen)]
  | last hlen hs => rw [if_pos hlen, if_pos hs]
  | drawn hlen hs => rw [if_pos hlen, if_neg hs]

lemma NextStep.eq (h : NextStep s u) : plsGetNext s = u := by
  unfold plsGetNext
  cases h with
  | outside hi => rw [if_pos hi]
  | following hs hi => rw [if_neg (by omega), if_pos hs, if_pos (by omega)]
  | around hs hi hr => rw [if_neg (by omega), if_pos hs, if_neg (by omega), if_pos hr]
  | ended hs hi hr => rw [if_neg (by omega), if_pos hs, if_neg (by omega), if_neg (not_not.mpr hr)]
  | played hs hi hnext => rw [if_neg (not_le.mpr hi), if_neg hs, if_pos hnext]
  | drawn hs hi hnext hpool =>
    rw [if_neg (not_le.mpr hi), if_neg hs, if_neg (not_lt.mpr hnext)]
    dsimp only
    rw [if_pos hpool]
  | replayed hs hi hnext hpool hr =>
    rw [if_neg (not_le.mpr hi), if_neg hs, if_neg (not_lt.mpr hnext)]
    dsimp only
    rw [if_neg (not_lt.mpr hpool), if_pos hr]
  | exhausted hs hi hnext hpool hr =>
    rw [if_neg (not_le.mpr hi), if_neg hs, if_neg (not_lt.mpr hnext)]
    dsimp only
    rw [if_neg (not_lt.mpr hpool), if_neg (not_not.mpr hr)]

lemma PrevStep.eq (h : PrevStep s u) : plsGetPrev s = u := by
  unfold plsGetPrev
  cases h with
  | outside hi => rw [if_pos hi]
  | preceding hs hi hpos => rw [if_neg (not_le.mpr hi), if_pos hs, if_pos (Nat.pos_of_ne_zero hpos)]
  | around hs hi hfirst hr => rw [if_neg (not_le.mpr hi), if_pos hs, if_neg (by omega), if_pos hr]
  | ended hs hi hfirst hr => rw [if_neg (not_le.mpr hi), if_pos hs, if_neg (by omega), if_neg (not_not.mpr hr)]
  | played hs hi hpos =>
    rw [if_neg (not_le.mpr hi), if_neg hs]
    dsimp only
    rw [if_pos (Nat.pos_of_ne_zero hpos)]
  | drawn hs hi hpos hr =>
    rw [if_neg (not_le.mpr hi), if_neg hs]
    dsimp only
    rw [if_neg (by omega), if_pos hr]
  | exhausted hs hi hpos hr =>
    rw [if_neg (not_le.mpr hi), if_neg hs]
    dsimp only
    rw [if_neg (by omega), if_neg (not_not.mpr hr)]

lemma StartingStep.redrawn (ht : StartingStep s t) : Redrawn s.pls t.pls := by
  cases ht with
  | empty | first | played => exact Redrawn.refl _
  | drawn => exact s.shuffle_redrawn 1

lemma LastStep.redrawn (ht : LastStep s t) : Redrawn s.pls t.pls := by
  cases ht with
  | empty | last => exact Redrawn.refl _
  | drawn => exact s.shuffle_redrawn _

lemma NextStep.redrawn (hu : NextStep s u) : Redrawn s.pls u.2.pls := by
  cases hu with
  | outside | following | around | ended | played => exact Redrawn.refl _
  | drawn => exact s.commit_redrawn.trans (s.commit.shuffle_redrawn 1)
  | replayed | exhausted => exact s.commit_redrawn

lemma PrevStep.redrawn (hu : PrevStep s u) : Redrawn s.pls u.2.pls := by
  cases hu with
  | outside | preceding | around | ended => exact Redrawn.refl _
  | played | exhausted => exact s.commit_redrawn
  | drawn => exact s.commit_redrawn.trans (plsGetLast_step s.commit).redrawn

lemma StartingStep.kept (h : s.pls.WF) (ht : StartingStep s t) : Kept s t := by
  cases ht with
  | empty => exact Kept.refl h
  | first => exact (Kept.refl h).report _
  | drawn _ hs => exact (Nav.shuffle_kept h hs 1).report _
  | played => exact (Kept.refl h).report _

lemma LastStep.kept (h : s.pls.WF) (ht : LastStep s t) : Kept s t := by
  cases ht with
  | empty => exact Kept.refl h
  | last => exact (Kept.refl h).report _
  | drawn _ hs => exact (Nav.shuffle_kept h hs _).report _

lemma NextStep.kept (h : s.pls.WF) (hu : NextStep s u) : Kept s u.2 := by
  cases hu with
  | outside | ended => exact Kept.refl h
  | following | around | played => exact (Kept.refl h).report _
  | drawn hs hi =>
    have hc := Nav.commit_kept h hs hi
    exact (hc.trans (Nav.shuffle_kept hc.wf (hc.shuffled hs) 1)).report _
  | replayed hs hi => exact (Nav.commit_kept h hs hi).report _
  | exhausted hs hi => exact Nav.commit_kept h hs hi

lemma PrevStep.kept (h : s.pls.WF) (hu : PrevStep s u) : Kept s u.2 := by
  cases hu with
  | outside | ended => exact Kept.refl h
  | preceding | around => exact (Kept.refl h).report _
  | played hs hi => exact (Nav.commit_kept h hs hi).report _
  | drawn hs hi =>
    have hc := Nav.commit_kept h hs hi
    exact hc.trans ((plsGetLast_step s.commit).kept hc.wf)
  | exhausted hs hi => exact Nav.commit_kept h hs hi

end

theorem plsGetStarting_kept {s : Nav} (h : s.pls.WF) : Kept s (plsGetStarting s) :=
  (plsGetStarting_step s).kept h

theorem plsGetLast_kept {s : Nav} (h : s.pls.WF) : Kept s (plsGetLast s) := (plsGetLast_step s).kept h

theorem plsGetNext_kept {s : Nav} (h : s.pls.WF) : Kept s (plsGetNext s).2 := (plsGetNext_step s).kept h

theorem plsGetPrev_kept {s : Nav} (h : s.pls.WF) : Kept s (plsGetPrev s).2 := (plsGetPrev_step s).kept h

end MafwShared
