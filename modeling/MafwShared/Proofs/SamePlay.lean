import MafwShared.Proofs.Navigation

/-!
# Playlists that play alike

Two playlists with the same items, modes and play order may still differ in what their arrays
hold behind the last item. Navigation reads no such cell, so that with the same random numbers
every sequence of calls finds the same in both.
-/

namespace MafwShared
open CLib

variable {p q : Pls} {s t : Nav}

/-- What `q` must have of `p` to be played like it. -/
structure SameContent (p q : Pls) : Prop where
  len_eq : q.len = p.len
  repeatMode_eq : q.repeatMode = p.repeatMode
  shuffled_eq : q.shuffled = p.shuffled
  poolst_eq : q.poolst = p.poolst
  vidx : AgreeBelow p.len q.vidx p.vidx
  pidx : p.shuffled ≠ 0 → AgreeBelow p.len q.pidx p.pidx
  iidx : p.shuffled ≠ 0 → AgreeBelow p.len q.iidx p.iidx

/-! ### Drawing -/

lemma SameContent.commitTo (h : SameContent p q) (hs : p.shuffled ≠ 0) {j : Nat} (hpool : p.poolst < p.len)
    (hj : j < p.len) : SameContent (commitTo p j) (commitTo q j) := by
  have hpidx := h.pidx hs
  have hcell : q.pidx q.poolst = p.pidx p.poolst := by
    rw [h.poolst_eq]
    exact hpidx _ hpool
  refine ⟨h.len_eq, h.repeatMode_eq, h.shuffled_eq, congrArg (· + 1) h.poolst_eq, h.vidx, fun _ => ?_, fun _ => ?_⟩
  · change AgreeBelow p.len
      (Function.update (Function.update q.pidx q.poolst (q.pidx j)) j (q.pidx q.poolst))
      (Function.update (Function.update p.pidx p.poolst (p.pidx j)) j (p.pidx p.poolst))
    rw [hcell, hpidx j hj, h.poolst_eq]
    exact (hpidx.update _ _).update _ _
  · change AgreeBelow p.len (swapElements q q.poolst j).iidx (swapElements p p.poolst j).iidx
    rw [swapElements_iidx, swapElements_iidx, hcell, hpidx j hj, h.poolst_eq]
    exact ((h.iidx hs).update _ _).update _ _

/-- Two loops that draw from `p` and from a playlist like it, after `k` turns. -/
structure DrawnAlike (p : Pls) (k : Nat) (a b : Pls × Draws) : Prop where
  content : SameContent a.1 b.1
  draws_eq : b.2 = a.2
  poolst_eq : a.1.poolst = p.poolst + k
  len_eq : a.1.len = p.len
  shuffled_eq : a.1.shuffled = p.shuffled

lemma DrawnAlike.step {k : Nat} {a b : Pls × Draws} (h : DrawnAlike p k a b) (hs : p.shuffled ≠ 0)
    (hk : p.poolst + k < p.len) : DrawnAlike p (k + 1) (shuffleElement a) (shuffleElement b) := by
  have hplaylist : ∀ c : Pls × Draws, (shuffleElement c).1 =
      commitTo c.1 (gRandomIntRange (fun i => c.2 (i + 1)) c.1.poolst c.1.len).1 := fun _ => rfl
  have hrest : ∀ c : Pls × Draws, (shuffleElement c).2 = fun i => c.2 (i + 1 + 1) := fun _ => rfl
  have hpool := h.poolst_eq
  have hlen := h.len_eq
  have hlt : a.1.poolst < a.1.len := by omega
  have hmem := gRandomIntRange_mem (fun i => a.2 (i + 1)) hlt
  refine ⟨?_, ?_, ?_, h.len_eq, h.shuffled_eq⟩
  · rw [hplaylist a, hplaylist b, h.draws_eq, h.content.poolst_eq, h.content.len_eq]
    exact h.content.commitTo (by rw [h.shuffled_eq]; exact hs) hlt hmem.2
  · rw [hrest a, hrest b, h.draws_eq]
  · rw [hplaylist a, commitTo_poolst, hpool, Nat.add_assoc]

lemma SameContent.shuffleElements (h : SameContent p q) (hs : p.shuffled ≠ 0) (hpool : p.poolst ≤ p.len) (r : Draws)
    (amount : Nat) :
    SameContent (shuffleElements p r amount).1 (shuffleElements q r amount).1 ∧
      (shuffleElements q r amount).2 = (shuffleElements p r amount).2 := by
  have hamount : (if amount > guintSub p.len p.poolst then guintSub p.len p.poolst else amount) ≤ p.len - p.poolst := by
    rw [guintSub_of_le hpool]
    split <;> omega
  unfold MafwShared.shuffleElements
  rw [h.len_eq, h.poolst_eq]
  dsimp only
  generalize (if amount > guintSub p.len p.poolst then guintSub p.len p.poolst else amount) = n at hamount
  have hloop : DrawnAlike p n (forUpto n (fun _ s => shuffleElement s) (p, r))
      (forUpto n (fun _ s => shuffleElement s) (q, r)) :=
    forUpto_relation (DrawnAlike p) ⟨h, rfl, rfl, rfl, rfl⟩ fun k a b hk hab => hab.step hs (by omega)
  exact ⟨hloop.content, hloop.draws_eq⟩

/-! ### One call -/

/-- Two calls that find alike playlists, the same random numbers and the same variables. -/
structure Nav.Alike (s t : Nav) : Prop where
  wf : s.pls.WF
  content : SameContent s.pls t.pls
  draws_eq : t.draws = s.draws
  index_eq : t.index = s.index
  oid_eq : t.oid = s.oid

namespace Nav.Alike

lemma report (h : s.Alike t) {i : Nat} (hi : i < s.pls.len) : (s.report i).Alike (t.report i) :=
  ⟨h.wf, h.content, h.draws_eq, rfl, congrArg some (h.content.vidx i hi)⟩

lemma reportAt (h : s.Alike t) (hs : s.pls.shuffled ≠ 0) {k : Nat} (hk : k < s.pls.len) :
    (s.report (s.pls.pidx k)).Alike (t.report (t.pls.pidx k)) := by
  rw [h.content.pidx hs k hk]
  exact h.report ((Pls.WF.ordered h.wf hs).pair.maps k hk)

lemma shuffle (h : s.Alike t) (hs : s.pls.shuffled ≠ 0) (amount : Nat) :
    (s.shuffle amount).Alike (t.shuffle amount) := by
  obtain ⟨hsame, hdraws⟩ := h.content.shuffleElements hs (h.wf.poolst_le hs) s.draws amount
  refine ⟨(Nav.shuffle_kept h.wf hs amount).wf, ?_, ?_, h.index_eq, h.oid_eq⟩
  · change SameContent _ (shuffleElements t.pls t.draws amount).1
    rw [h.draws_eq]
    exact hsame
  · change (shuffleElements t.pls t.draws amount).2 = _
    rw [h.draws_eq]
    exact hdraws

lemma iidx_eq (h : s.Alike t) (hs : s.pls.shuffled ≠ 0) (hi : s.index < s.pls.len) :
    t.pls.iidx t.index = s.pls.iidx s.index := by
  rw [h.index_eq]
  exact h.content.iidx hs _ hi

lemma commit (h : s.Alike t) (hs : s.pls.shuffled ≠ 0) (hi : s.index < s.pls.len) :
    s.commit.Alike t.commit := by
  have hpos := h.iidx_eq hs hi
  have hlt := (Pls.WF.ordered h.wf hs).pair.inv_lt hi
  have hwf := (Nav.commit_kept h.wf hs hi).wf
  obtain ⟨hi1, ho1, hd1⟩ := s.commit_fields
  obtain ⟨hi2, ho2, hd2⟩ := t.commit_fields
  refine ⟨hwf, ?_, by rw [hd1, hd2, h.draws_eq], by rw [hi1, hi2, h.index_eq], by rw [ho1, ho2, h.oid_eq]⟩
  by_cases hp : s.pls.poolst ≤ s.pls.iidx s.index
  · have hp' : t.pls.poolst ≤ t.pls.iidx t.index := by rwa [hpos, h.content.poolst_eq]
    rw [Nav.commit_pls hp, Nav.commit_pls hp', hpos]
    exact h.content.commitTo hs (hp.trans_lt hlt) hlt
  · have hp' : ¬t.pls.poolst ≤ t.pls.iidx t.index := by rwa [hpos, h.content.poolst_eq]
    rw [Nav.commit_committed (not_le.mp hp), Nav.commit_committed (not_le.mp hp')]
    exact h.content

lemma plsGetStarting (h : s.Alike t) : (plsGetStarting s).Alike (plsGetStarting t) := by
  unfold MafwShared.plsGetStarting
  rw [h.content.len_eq, h.content.shuffled_eq, h.content.poolst_eq]
  by_cases hlen : s.pls.len = 0
  · rw [if_neg (not_not.mpr hlen), if_neg (not_not.mpr hlen)]
    exact h
  · rw [if_pos hlen, if_pos hlen]
    have hpos := Nat.pos_of_ne_zero hlen
    by_cases hs : s.pls.shuffled = 0
    · rw [if_pos hs, if_pos hs]
      exact h.report hpos
    · rw [if_neg hs, if_neg hs]
      dsimp only
      by_cases hp : s.pls.poolst = 0
      · rw [if_pos hp, if_pos hp]
        have hkept := Nav.shuffle_kept h.wf hs 1
        refine (h.shuffle hs 1).reportAt (hkept.shuffled hs) ?_
        rw [hkept.redrawn.len_eq]
        exact hpos
      · rw [if_neg hp, if_neg hp]
        exact h.reportAt hs hpos

lemma plsGetLast (h : s.Alike t) : (plsGetLast s).Alike (plsGetLast t) := by
  unfold MafwShared.plsGetLast
  rw [h.content.len_eq, h.content.shuffled_eq]
  by_cases hlen : s.pls.len = 0
  · rw [if_neg (not_not.mpr hlen), if_neg (not_not.mpr hlen)]
    exact h
  · rw [if_pos hlen, if_pos hlen]
    by_cases hs : s.pls.shuffled = 0
    · rw [if_pos hs, if_pos hs]
      exact h.report (by omega)
    · rw [if_neg hs, if_neg hs]
      have hkept := Nav.shuffle_kept h.wf hs s.pls.len
      have hdrawn := h.shuffle hs s.pls.len
      have hdlen := hkept.redrawn.len_eq
      dsimp only
      rw [hdrawn.content.len_eq]
      exact hdrawn.reportAt (hkept.shuffled hs) (by omega)

lemma plsGetNext (h : s.Alike t) :
    (plsGetNext t).1 = (plsGetNext s).1 ∧ (plsGetNext s).2.Alike (plsGetNext t).2 := by
  unfold MafwShared.plsGetNext
  rw [h.content.len_eq, h.content.shuffled_eq, h.content.repeatMode_eq, h.content.poolst_eq]
  by_cases hi : s.index ≥ s.pls.len
  · rw [if_pos (by rw [h.index_eq]; exact hi), if_pos hi]
    exact ⟨rfl, h⟩
  · rw [if_neg (by rw [h.index_eq]; exact hi), if_neg hi]
    have hpos : 0 < s.pls.len := by omega
    rw [not_le] at hi
    by_cases hs : s.pls.shuffled = 0
    · rw [if_pos hs, if_pos hs, h.index_eq]
      split
      · exact ⟨rfl, h.report (by omega)⟩
      · split
        · exact ⟨rfl, h.report hpos⟩
        · exact ⟨rfl, h⟩
    · rw [if_neg hs, if_neg hs, h.iidx_eq hs hi]
      split
      · rename_i hnext
        exact ⟨rfl, h.reportAt hs (hnext.trans_le (h.wf.poolst_le hs))⟩
      · have hc := h.commit hs hi
        have hkept := Nav.commit_kept h.wf hs hi
        have hs' := hkept.shuffled hs
        have hlen := hkept.redrawn.len_eq
        dsimp only
        rw [hc.content.poolst_eq, hc.content.len_eq, hc.content.repeatMode_eq]
        split
        · rename_i hpool
          have hdrawn := Nav.shuffle_kept hc.wf hs' 1
          have hnew := Nav.shuffle_poolst (s := s.commit) hpool.le 1
          have hdlen := hdrawn.redrawn.len_eq
          have hd := hc.shuffle hs' 1
          rw [hd.content.poolst_eq]
          exact ⟨rfl, hd.reportAt (hdrawn.shuffled hs') (by omega)⟩
        · split
          · exact ⟨rfl, hc.reportAt hs' (by omega)⟩
          · exact ⟨rfl, hc⟩

lemma plsGetPrev (h : s.Alike t) :
    (plsGetPrev t).1 = (plsGetPrev s).1 ∧ (plsGetPrev s).2.Alike (plsGetPrev t).2 := by
  unfold MafwShared.plsGetPrev
  rw [h.content.len_eq, h.content.shuffled_eq, h.content.repeatMode_eq]
  by_cases hi : s.index ≥ s.pls.len
  · rw [if_pos (by rw [h.index_eq]; exact hi), if_pos hi]
    exact ⟨rfl, h⟩
  · rw [if_neg (by rw [h.index_eq]; exact hi), if_neg hi]
    rw [not_le] at hi
    by_cases hs : s.pls.shuffled = 0
    · rw [if_pos hs, if_pos hs, h.index_eq]
      split
      · exact ⟨rfl, h.report (by omega)⟩
      · split
        · exact ⟨rfl, h.report (by omega)⟩
        · exact ⟨rfl, h⟩
    · rw [if_neg hs, if_neg hs]
      have hc := h.commit hs hi
      have hkept := Nav.commit_kept h.wf hs hi
      have hs' := hkept.shuffled hs
      have hlen := hkept.redrawn.len_eq
      have hlt := Nav.commit_iidx_lt h.wf hs hi
      have hle := hc.wf.poolst_le hs'
      have hic : s.commit.index < s.commit.pls.len := by
        rw [s.commit_fields.1, hlen]
        exact hi
      dsimp only
      rw [hc.iidx_eq hs' hic, hc.content.repeatMode_eq, s.commit_fields.1]
      split
      · exact ⟨rfl, hc.reportAt hs' (by omega)⟩
      · split
        · exact ⟨rfl, hc.plsGetLast⟩
        · exact ⟨rfl, hc⟩

end Nav.Alike

/-! ### Sequences of calls -/

inductive NavCall
  | getStarting
  | getLast
  | getNext
  | getPrev
  deriving DecidableEq

/-- One call, with whether it finds an item. -/
def NavCall.run : NavCall → Nav → Bool × Nav
  | getStarting, s => (s.pls.len ≠ 0, plsGetStarting s)
  | getLast, s => (s.pls.len ≠ 0, plsGetLast s)
  | getNext, s => plsGetNext s
  | getPrev, s => plsGetPrev s

/-- What the calls of a sequence find, each from what the caller's variables hold before it. -/
def navResults : List (NavCall × Nat × Option Bytes) → Pls → Draws → List (Bool × Nat × Option Bytes)
  | [], _, _ => []
  | (call, index, oid) :: calls, pls, r =>
    let s := call.run ⟨pls, r, index, oid⟩
    (s.1, s.2.index, s.2.oid) :: navResults calls s.2.pls s.2.draws

lemma Nav.Alike.run (h : s.Alike t) (call : NavCall) :
    (call.run t).1 = (call.run s).1 ∧ (call.run s).2.Alike (call.run t).2 := by
  cases call with
  | getStarting => exact ⟨by rw [NavCall.run, NavCall.run, h.content.len_eq], h.plsGetStarting⟩
  | getLast => exact ⟨by rw [NavCall.run, NavCall.run, h.content.len_eq], h.plsGetLast⟩
  | getNext => exact h.plsGetNext
  | getPrev => exact h.plsGetPrev

/-- The same calls find the same in both playlists, whatever the random numbers are. -/
theorem SameContent.navResults (h : SameContent p q) (hwf : p.WF)
    (calls : List (NavCall × Nat × Option Bytes)) (r : Draws) :
    navResults calls q r = navResults calls p r := by
  induction calls generalizing p q r with
  | nil => rfl
  | cons c calls ih =>
    obtain ⟨call, index, oid⟩ := c
    have halike : Nav.Alike ⟨p, r, index, oid⟩ ⟨q, r, index, oid⟩ := ⟨hwf, h, rfl, rfl, rfl⟩
    obtain ⟨hfound, hnext⟩ := halike.run call
    have hrest := ih hnext.content hnext.wf (call.run ⟨p, r, index, oid⟩).2.draws
    rw [MafwShared.navResults, MafwShared.navResults]
    rw [hfound, hnext.index_eq, hnext.oid_eq, hnext.draws_eq, hrest]

end MafwShared
