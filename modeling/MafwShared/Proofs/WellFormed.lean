import MafwShared.Lib.Runs
import MafwShared.Proofs.PlaylistEdits

/-!
# Runs of playlist operations

The operations of `aplaylist.c` on one playlist as the steps of a transition system, and
the well-formedness of every state a run reaches from a fresh playlist. The one step that
can break it is the removal of a committed item while the pool is not empty: the source
closes the gap in the history and leaves the first cell of the enlarged pool behind.
-/

namespace MafwShared
open CLib

inductive PlsOp
  | inserts (idx : Nat) (oids : List Bytes)
  | append (oid : Bytes)
  | remove (idx : Nat)
  | move (src dst : Nat)
  | clear
  | shuffle
  | unshuffle
  | setName (name : Bytes)
  | setRepeat (repeatMode : Int32)
  | getStarting (index : Nat) (oid : Option Bytes)
  | getLast (index : Nat) (oid : Option Bytes)
  | getNext (index : Nat) (oid : Option Bytes)
  | getPrev (index : Nat) (oid : Option Bytes)

/-- What an operation leaves behind of the playlist and the random numbers. -/
def PlsOp.apply (s : Pls × Draws) : PlsOp → Option (Pls × Draws)
  | .inserts idx oids => (plsInserts s.1 idx oids).map fun r => (r.2, s.2)
  | .append oid => (plsAppend s.1 oid).map fun r => (r.2, s.2)
  | .remove idx => some ((plsRemove s.1 idx).2, s.2)
  | .move src dst => some ((plsMove s.1 src dst).2, s.2)
  | .clear => some (plsClear s.1, s.2)
  | .shuffle => some (plsShuffle s.1, s.2)
  | .unshuffle => some (plsUnshuffle s.1, s.2)
  | .setName name => some ((plsSetName false s.1 name).2, s.2)
  | .setRepeat repeatMode => some (plsSetRepeat s.1 repeatMode, s.2)
  | .getStarting index oid =>
    let t := plsGetStarting ⟨s.1, s.2, index, oid⟩
    some (t.pls, t.draws)
  | .getLast index oid =>
    let t := plsGetLast ⟨s.1, s.2, index, oid⟩
    some (t.pls, t.draws)
  | .getNext index oid =>
    let t := (plsGetNext ⟨s.1, s.2, index, oid⟩).2
    some (t.pls, t.draws)
  | .getPrev index oid =>
    let t := (plsGetPrev ⟨s.1, s.2, index, oid⟩).2
    some (t.pls, t.draws)

/-- The list stays below 2^31 items. -/
def PlsOp.Fits (s : Pls × Draws) : PlsOp → Prop
  | .inserts _ oids => s.1.len + oids.length < 2 ^ 31
  | .append _ => s.1.len + 1 < 2 ^ 31
  | _ => True

instance (s : Pls × Draws) : (op : PlsOp) → Decidable (op.Fits s)
  | .inserts _ oids => inferInstanceAs (Decidable (s.1.len + oids.length < 2 ^ 31))
  | .append _ => inferInstanceAs (Decidable (s.1.len + 1 < 2 ^ 31))
  | .remove _ | .move _ _ | .clear | .shuffle | .unshuffle | .setName _ | .setRepeat _
  | .getStarting _ _ | .getLast _ _ | .getNext _ _ | .getPrev _ _ => .isTrue trivial

/-- The step does not remove a committed item in front of a pool. -/
def PlsOp.KeepsPool (s : Pls × Draws) : PlsOp → Prop
  | .remove idx => idx < s.1.len → s.1.RemovesCleanly idx
  | _ => True

instance (s : Pls × Draws) : (op : PlsOp) → Decidable (op.KeepsPool s)
  | .remove idx => inferInstanceAs (Decidable (idx < s.1.len → s.1.RemovesCleanly idx))
  | .inserts _ _ | .append _ | .move _ _ | .clear | .shuffle | .unshuffle | .setName _
  | .setRepeat _ | .getStarting _ _ | .getLast _ _ | .getNext _ _ | .getPrev _ _ => .isTrue trivial

/-- The states reached from `p` by steps that meet `guard`. -/
abbrev PlsReach (guard : Pls × Draws → PlsOp → Prop) (p : Pls) (r : Draws) : Pls × Draws → Prop :=
  Reach (fun s op t => op.apply s = some t) guard (p, r)

/-! ### The operations keep well-formedness -/

lemma wf_congr {p q : Pls} (h : p.WF) (hlen : q.len = p.len) (halloc : q.alloc = p.alloc)
    (hs : q.shuffled = p.shuffled) (hpool : q.poolst = p.poolst) (hp : q.pidx = p.pidx)
    (hi : q.iidx = p.iidx) : q.WF := by
  refine ⟨by rw [hlen, halloc]; exact h.len_le, fun hq => ?_, fun hq => ?_, fun hq => ?_⟩
  · rw [hpool, hlen]
    exact h.poolst_le (hs ▸ hq)
  · rw [hp, hlen]
    exact h.perm (hs ▸ hq)
  · rw [hp, hi, hlen]
    exact h.inverse (hs ▸ hq)

lemma wf_of_unshuffled {p : Pls} (hl : p.len ≤ p.alloc) (hs : p.shuffled = 0) : p.WF :=
  wf_of_ordered hl (fun h => absurd hs h)

lemma plsNew_fields {initializing : Bool} {id : Nat} {name : Bytes} {p : Pls}
    (h : plsNew initializing id name = some p) : p.shuffled = 0 ∧ p.len = 0 ∧ p.poolst = 0 := by
  unfold plsNew plsSetName at h
  by_cases hn : name = []
  · rw [if_pos hn] at h
    cases h
  · simp only [hn, if_false, Option.some.injEq] at h
    subst h
    cases initializing <;> exact ⟨rfl, rfl, rfl⟩

lemma plsNew_wf {initializing : Bool} {id : Nat} {name : Bytes} {p : Pls}
    (h : plsNew initializing id name = some p) : p.WF := by
  obtain ⟨hs, hlen, -⟩ := plsNew_fields h
  exact wf_of_unshuffled (by rw [hlen]; exact Nat.zero_le _) hs

lemma Inserted.shuffled_eq {p q : Pls} {idx : Nat} {oids : List Bytes} (h : Inserted p idx oids q) :
    q.shuffled = p.shuffled := (congrArg Pls.shuffled h.frame :)

lemma Removed.shuffled_eq {p q : Pls} {idx : Nat} (h : Removed p idx q) :
    q.shuffled = p.shuffled := (congrArg Pls.shuffled h.frame :)

lemma plsInserts_wf {p : Pls} (h : p.WF) (idx : Nat) {oids : List Bytes}
    (hsize : p.len + oids.length ≤ 2 ^ 31) :
    ∃ b q, plsInserts p idx oids = some (b, q) ∧ q.WF := by
  by_cases hrej : oids = [] ∨ idx > p.len
  · exact ⟨false, p, plsInserts_rejected hrej, h⟩
  · rw [not_or] at hrej
    obtain ⟨q, hq, -, hins⟩ := plsInserts_accepted hrej.1 (not_lt.mp hrej.2) h.len_le hsize
    refine ⟨true, q, hq, wf_of_ordered hins.len_le (fun hs => ?_)⟩
    rw [hins.shuffled_eq] at hs
    exact hins.ordered hs (Pls.WF.ordered h hs)

lemma plsRemove_wf {p : Pls} (h : p.WF) {idx : Nat} (hc : idx < p.len → p.RemovesCleanly idx) :
    (plsRemove p idx).2.WF := by
  by_cases hi : idx < p.len
  · obtain ⟨q, hq, -, hrem, hord⟩ := plsRemove_accepted hi
    rw [hq]
    refine wf_of_ordered ?_ (fun hs => ?_)
    · have halloc := (congrArg Pls.alloc hrem.frame :)
      have hle := h.len_le
      dsimp only at halloc ⊢
      rw [hrem.len_eq, halloc]
      omega
    · rw [hrem.shuffled_eq] at hs
      exact hord hs (Pls.WF.ordered h hs) (hc hi)
  · rw [plsRemove_rejected (not_lt.mp hi)]
    exact h

lemma plsShuffle_wf {p : Pls} (h : p.WF) : (plsShuffle p).WF := by
  unfold plsShuffle
  by_cases hs : p.shuffled = 0
  · have hloop : ∀ m, forUpto m (fun i (q : Pls) =>
        { q with pidx := Function.update q.pidx i i, iidx := Function.update q.iidx i i })
        { p with pidx := nullArray, iidx := nullArray } =
      { p with
        pidx := forUpto m (fun k b => Function.update b (0 + k) k) nullArray
        iidx := forUpto m (fun k b => Function.update b (0 + k) k) nullArray } := by
      intro m
      induction m with
      | zero => rfl
      | succ m ih => simp only [forUpto_succ, ih, Nat.zero_add]
    have hcell : ∀ i < p.len, forUpto p.len (fun k b => Function.update b (0 + k) k) nullArray i = i := by
      intro i hi
      rw [forUpto_store nullArray 0 (fun k => k), if_pos (by omega)]
      rfl
    simp only [if_pos hs, hloop, iAmDirty]
    refine wf_of_ordered h.len_le (fun _ => ⟨Nat.zero_le _, ?_⟩)
    exact (InversePair.refl p.len).congr hcell hcell
  · simp only [if_neg hs, iAmDirty]
    refine wf_of_ordered h.len_le (fun _ => ⟨Nat.zero_le _, ?_⟩)
    exact (Pls.WF.ordered h hs).pair

lemma plsUnshuffle_wf {p : Pls} (h : p.WF) : (plsUnshuffle p).WF := by
  unfold plsUnshuffle
  split
  · exact wf_of_unshuffled h.len_le rfl
  · exact h

lemma plsMove_wf {p : Pls} (h : p.WF) (src dst : Nat) : (plsMove p src dst).2.WF := by
  unfold plsMove
  split
  · exact h
  · split
    · exact h
    · exact wf_congr h rfl rfl rfl rfl rfl rfl

lemma plsSetName_wf {p : Pls} (h : p.WF) (initializing : Bool) (name : Bytes) :
    (plsSetName initializing p name).2.WF := by
  unfold plsSetName
  split
  · exact h
  · cases initializing <;> exact wf_congr h rfl rfl rfl rfl rfl rfl

/-- One step: every operation that fits and keeps the pool returns, with a well-formed
playlist. -/
theorem PlsOp.apply_wf {s : Pls × Draws} (h : s.1.WF) (op : PlsOp) (hfit : op.Fits s)
    (hpool : op.KeepsPool s) : ∃ t, op.apply s = some t ∧ t.1.WF := by
  cases op with
  | inserts idx oids =>
    obtain ⟨b, q, hq, hwf⟩ := plsInserts_wf h idx (Nat.le_of_lt hfit)
    exact ⟨(q, s.2), by simp [PlsOp.apply, hq], hwf⟩
  | append oid =>
    have hsize : s.1.len + [oid].length ≤ 2 ^ 31 := Nat.le_of_lt hfit
    obtain ⟨b, q, hq, hwf⟩ := plsInserts_wf h s.1.len hsize
    exact ⟨(q, s.2), by simp [PlsOp.apply, plsAppend, hq], hwf⟩
  | remove idx => exact ⟨_, rfl, plsRemove_wf h hpool⟩
  | move src dst => exact ⟨_, rfl, plsMove_wf h src dst⟩
  | clear => exact ⟨_, rfl, wf_of_ordered le_rfl (fun _ => ⟨le_rfl, InversePair.empty _ _⟩)⟩
  | shuffle => exact ⟨_, rfl, plsShuffle_wf h⟩
  | unshuffle => exact ⟨_, rfl, plsUnshuffle_wf h⟩
  | setName name => exact ⟨_, rfl, plsSetName_wf h false name⟩
  | setRepeat repeatMode => exact ⟨_, rfl, wf_congr h rfl rfl rfl rfl rfl rfl⟩
  | getStarting index oid =>
    exact ⟨_, rfl, (plsGetStarting_kept (s := ⟨s.1, s.2, index, oid⟩) h).wf⟩
  | getLast index oid => exact ⟨_, rfl, (plsGetLast_kept (s := ⟨s.1, s.2, index, oid⟩) h).wf⟩
  | getNext index oid => exact ⟨_, rfl, (plsGetNext_kept (s := ⟨s.1, s.2, index, oid⟩) h).wf⟩
  | getPrev index oid => exact ⟨_, rfl, (plsGetPrev_kept (s := ⟨s.1, s.2, index, oid⟩) h).wf⟩

/-! ### Whole runs -/

/-- Every state that a run from a fresh playlist reaches is well formed, and every further
operation that fits returns, as long as no step removes a committed item in front of a
pool. -/
theorem pls_run_wellFormed {initializing : Bool} {id : Nat} {name : Bytes} {p : Pls} {r : Draws}
    (hnew : plsNew initializing id name = some p) {s : Pls × Draws}
    (h : PlsReach (fun s op => op.Fits s ∧ op.KeepsPool s) p r s) :
    s.1.WF ∧ ∀ op : PlsOp, op.Fits s → op.KeepsPool s → (op.apply s).isSome := by
  have hwf : s.1.WF := by
    apply h.invariant (fun s => s.1.WF) (plsNew_wf hnew)
    rintro s op t hs ⟨hfit, hpool⟩ ht
    obtain ⟨u, hu, hwf⟩ := PlsOp.apply_wf hs op hfit hpool
    rw [hu] at ht
    cases ht
    exact hwf
  refine ⟨hwf, fun op hfit hpool => ?_⟩
  obtain ⟨t, ht, -⟩ := PlsOp.apply_wf hwf op hfit hpool
  rw [ht]
  rfl

/-- Three items are shuffled, the first one is played and one is removed. -/
def removalRun (guard : Pls × Draws → PlsOp → Prop) [∀ s e, Decidable (guard s e)] (idx : Nat) :
    Option (Pls × Draws) :=
  (plsNew false 1 [112]).bind fun p => runEvents (fun s op => op.apply s) guard (p, fun _ => 0)
    [.append [97], .append [98], .append [99], .shuffle, .getStarting 0 none, .remove idx]

/-- Removing an item that was not played yet. -/
theorem pls_run_wellFormed_pool : ∃ s, removalRun (fun s op => op.Fits s ∧ op.KeepsPool s) 1 = some s ∧
    s.1.WF := by
  obtain ⟨s, hrun⟩ : ∃ s, removalRun (fun s op => op.Fits s ∧ op.KeepsPool s) 1 = some s := ⟨_, rfl⟩
  obtain ⟨p, hp, hs⟩ := Option.bind_eq_some_iff.mp hrun
  exact ⟨s, hrun, (pls_run_wellFormed hp (reach_of_runEvents hs)).1⟩

/-- Removing the item just played, with the number generator at zero: `pidx` then holds
the first item twice and the second nowhere. -/
theorem pls_remove_breaks_wellFormed : ∃ p s, plsNew false 1 [112] = some p ∧
    PlsReach (fun s op => op.Fits s) p (fun _ => 0) s ∧ s.1.shuffled ≠ 0 ∧
    cells s.1.pidx s.1.len = [0, 0] ∧ ¬ s.1.WF := by
  have hrun : removalRun (fun s op => op.Fits s) 0 =
      some ((removalRun (fun s op => op.Fits s) 0).get rfl) := rfl
  obtain ⟨p, hp, hs⟩ := Option.bind_eq_some_iff.mp hrun
  refine ⟨p, _, hp, reach_of_runEvents hs, by decide, by decide, fun hwf => ?_⟩
  exact absurd (hwf.perm (by decide)) (by decide)

end MafwShared
