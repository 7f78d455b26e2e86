import MafwShared.Proofs.SaveHonesty
import MafwShared.Proofs.WellFormed
import MafwShared.Proofs.Navigation

/-!
# What the dirty flag tracks

`i_am_dirty` is called by every operation that edits a playlist and by none of the navigation
calls. These change what is saved when they commit items of a shuffled playlist. A run
consists of playlist operations and saves; next to the playlist it remembers what the last
successful save wrote.
-/

namespace MafwShared
open CLib

/-- The fields that `pls_save` writes. -/
structure Written where
  id : Nat
  name : Bytes
  repeatMode : Int32
  shuffled : Int32
  len : Nat
  poolst : Nat
  vidx : List Bytes
  pidx : List Nat
  deriving DecidableEq

def Pls.written (p : Pls) : Written :=
  { id := p.id, name := p.name, repeatMode := p.repeatMode, shuffled := p.shuffled, len := p.len,
    poolst := p.poolst, vidx := cells p.vidx p.len,
    pidx := if p.shuffled ≠ 0 then cells p.pidx p.len else [] }

/-- Nothing else gets into the file. -/
lemma fileText_of_written {p q : Pls} (h : p.written = q.written) : fileText p = fileText q := by
  have hlen : p.len = q.len := congrArg Written.len h
  have hshuffled : p.shuffled = q.shuffled := congrArg Written.shuffled h
  have hvidx : cells p.vidx p.len = cells q.vidx q.len := congrArg Written.vidx h
  have hpidx : (if p.shuffled ≠ 0 then cells p.pidx p.len else []) =
      if q.shuffled ≠ 0 then cells q.pidx q.len else [] := congrArg Written.pidx h
  have hheader : headerLines p = headerLines q := by
    have hid : p.id = q.id := congrArg Written.id h
    have hname : p.name = q.name := congrArg Written.name h
    have hrepeat : p.repeatMode = q.repeatMode := congrArg Written.repeatMode h
    have hpool : p.poolst = q.poolst := congrArg Written.poolst h
    simp only [headerLines, hid, hname, hrepeat, hshuffled, hlen, hpool]
  have hitem : ∀ i < q.len, itemLine p i = itemLine q i := by
    intro i hi
    have hoid : p.vidx i = q.vidx i := by
      have hcell := congrArg (fun l => l[i]?) hvidx
      rw [hlen] at hcell
      simpa only [getElem?_cells _ hi, Option.some.injEq] using hcell
    have hplaying : playingIndex p i = playingIndex q i := by
      unfold playingIndex
      rw [hshuffled] at hpidx ⊢
      split
      · rename_i hs
        rw [if_pos hs, if_pos hs, hlen] at hpidx
        have hcell := congrArg (fun l => l[i]?) hpidx
        simpa only [getElem?_cells _ hi, Option.some.injEq] using hcell
      · rfl
    rw [itemLine, itemLine, hoid, hplaying]
  unfold fileText fileLines
  rw [hheader, hlen]
  congr 2
  exact List.map_congr_left fun i hi => hitem i (List.mem_range.mp hi)

/-! ### What is committed -/

/-- The navigation call takes an item out of the pool. -/
def PlsOp.Commits (p : Pls) : PlsOp → Prop
  | .getStarting _ _ => p.shuffled ≠ 0 ∧ p.len ≠ 0 ∧ p.poolst = 0
  | .getLast _ _ => p.shuffled ≠ 0 ∧ p.len ≠ 0 ∧ guintSub p.len p.poolst ≠ 0
  | .getNext index _ => p.shuffled ≠ 0 ∧ index < p.len ∧ p.poolst ≤ p.iidx index + 1 ∧
      (p.poolst ≤ p.iidx index ∨ p.poolst < p.len)
  | .getPrev index _ => p.shuffled ≠ 0 ∧ index < p.len ∧
      (p.poolst ≤ p.iidx index ∨ p.iidx index = 0 ∧ p.repeatMode ≠ 0 ∧ guintSub p.len p.poolst ≠ 0)
  | _ => False

instance (p : Pls) : (op : PlsOp) → Decidable (op.Commits p)
  | .getStarting _ _ => inferInstanceAs (Decidable (p.shuffled ≠ 0 ∧ p.len ≠ 0 ∧ p.poolst = 0))
  | .getLast _ _ => inferInstanceAs (Decidable (p.shuffled ≠ 0 ∧ p.len ≠ 0 ∧ guintSub p.len p.poolst ≠ 0))
  | .getNext index _ => inferInstanceAs (Decidable (p.shuffled ≠ 0 ∧ index < p.len ∧
      p.poolst ≤ p.iidx index + 1 ∧ (p.poolst ≤ p.iidx index ∨ p.poolst < p.len)))
  | .getPrev index _ => inferInstanceAs (Decidable (p.shuffled ≠ 0 ∧ index < p.len ∧
      (p.poolst ≤ p.iidx index ∨ p.iidx index = 0 ∧ p.repeatMode ≠ 0 ∧ guintSub p.len p.poolst ≠ 0)))
  | .inserts _ _ | .append _ | .remove _ | .move _ _ | .clear | .shuffle | .unshuffle | .setName _
  | .setRepeat _ => .isFalse not_false

/-- `q` is `p` with items drawn from the pool, some if and only if `c`. -/
structure DrawnIff (c : Prop) (p q : Pls) : Prop where
  redrawn : Redrawn p q
  drawn : c → p.poolst < q.poolst
  same : ¬c → q = p

namespace DrawnIff
variable {c c' : Prop} {p q r : Pls}

lemma none (h : ¬c) : DrawnIff c p p := ⟨Redrawn.refl p, fun hc => absurd hc h, fun _ => rfl⟩

lemma some (hc : c) (h : Redrawn p q) (hlt : p.poolst < q.poolst) : DrawnIff c p q :=
  ⟨h, fun _ => hlt, fun hn => absurd hc hn⟩

lemma congr (h : DrawnIff c p q) (hc : c' ↔ c) : DrawnIff c' p q :=
  ⟨h.redrawn, fun h' => h.drawn (hc.mp h'), fun h' => h.same fun hn => h' (hc.mpr hn)⟩

lemma trans (h : DrawnIff c p q) (h' : DrawnIff c' q r) : DrawnIff (c ∨ c') p r := by
  refine ⟨h.redrawn.trans h'.redrawn, fun hc => ?_, fun hc => ?_⟩
  · rcases hc with hc | hc
    · exact (h.drawn hc).trans_le h'.redrawn.poolst_le
    · exact h.redrawn.poolst_le.trans_lt (h'.drawn hc)
  · rw [not_or] at hc
    rw [h'.same hc.2, h.same hc.1]

end DrawnIff

lemma Nav.shuffle_empty (s : Nav) (amount : Nat) (h : guintSub s.pls.len s.pls.poolst = 0) :
    (s.shuffle amount).pls = s.pls := by
  have hzero : (if amount > guintSub s.pls.len s.pls.poolst then guintSub s.pls.len s.pls.poolst else amount) = 0 := by
    split <;> omega
  unfold Nav.shuffle shuffleElements
  simp only [hzero]
  rfl

lemma Nav.shuffle_drawnIff (s : Nav) {amount : Nat} (ha : amount ≠ 0) :
    DrawnIff (guintSub s.pls.len s.pls.poolst ≠ 0) s.pls (s.shuffle amount).pls := by
  by_cases hpool : guintSub s.pls.len s.pls.poolst = 0
  · rw [s.shuffle_empty amount hpool]
    exact .none (not_not.mpr hpool)
  · have hnew := (shuffleElements_draws s.pls s.draws amount).2.2
    refine .some hpool (s.shuffle_redrawn amount) ?_
    change s.pls.poolst < (shuffleElements s.pls s.draws amount).1.poolst
    omega

lemma Nav.commit_drawnIff (s : Nav) :
    DrawnIff (s.pls.poolst ≤ s.pls.iidx s.index) s.pls s.commit.pls := by
  by_cases hp : s.pls.poolst ≤ s.pls.iidx s.index
  · rw [Nav.commit_pls hp]
    exact .some hp (commitTo_redrawn s.pls hp) (Nat.lt_succ_self _)
  · rw [Nav.commit_committed (not_le.mp hp)]
    exact .none hp

lemma plsGetStarting_drawnIff (s : Nav) (oid : Option Bytes) :
    DrawnIff (PlsOp.Commits s.pls (.getStarting s.index oid)) s.pls (plsGetStarting s).pls := by
  have hstep := plsGetStarting_step s
  generalize plsGetStarting s = t at hstep
  cases hstep with
  | empty hlen => exact .none fun h => h.2.1 hlen
  | first _ hs => exact .none fun h => h.1 hs
  | drawn hlen hs hp =>
    refine (s.shuffle_drawnIff one_ne_zero).congr ⟨fun _ => ?_, fun _ => ⟨hs, hlen, hp⟩⟩
    rw [hp, guintSub_of_le (Nat.zero_le _)]
    exact hlen
  | played _ _ hp => exact .none fun h => hp h.2.2

lemma plsGetLast_drawnIff (s : Nav) (oid : Option Bytes) :
    DrawnIff (PlsOp.Commits s.pls (.getLast s.index oid)) s.pls (plsGetLast s).pls := by
  have hstep := plsGetLast_step s
  generalize plsGetLast s = t at hstep
  cases hstep with
  | empty hlen => exact .none fun h => h.2.1 hlen
  | last _ hs => exact .none fun h => h.1 hs
  | drawn hlen hs => exact (s.shuffle_drawnIff hlen).congr ⟨fun h => h.2.2, fun h => ⟨hs, hlen, h⟩⟩

lemma plsGetNext_drawnIff (s : Nav) (oid : Option Bytes) :
    DrawnIff (PlsOp.Commits s.pls (.getNext s.index oid)) s.pls (plsGetNext s).2.pls := by
  have hc := s.commit_drawnIff
  have hlen := hc.redrawn.len_eq
  have hle := hc.redrawn.poolst_le
  have hiff : s.pls.shuffled ≠ 0 → s.index < s.pls.len → s.pls.poolst ≤ s.pls.iidx s.index + 1 →
      (PlsOp.Commits s.pls (.getNext s.index oid) ↔
        s.pls.poolst ≤ s.pls.iidx s.index ∨ s.pls.poolst < s.pls.len) :=
    fun hs hi hlast => ⟨fun h => h.2.2.2, fun h => ⟨hs, hi, hlast, h⟩⟩
  -- the pool ran out because the current item was its last one, if it was not empty before
  have hcommit : s.commit.pls.len ≤ s.commit.pls.poolst →
      (s.pls.poolst ≤ s.pls.iidx s.index ∨ s.pls.poolst < s.pls.len ↔ s.pls.poolst ≤ s.pls.iidx s.index) :=
    fun hpool => or_iff_left_of_imp fun h => by
      by_contra hn
      rw [hc.same hn] at hpool
      omega
  have hstep := plsGetNext_step s
  generalize plsGetNext s = u at hstep
  cases hstep with
  | outside hi => exact .none fun h => not_lt.mpr hi h.2.1
  | following hs | around hs | ended hs => exact .none fun h => h.1 hs
  | played _ _ hnext => exact .none fun h => not_le.mpr hnext h.2.2.1
  | drawn hs hi hlast hpool =>
    have hdrawn := hc.trans (s.commit.shuffle_drawnIff one_ne_zero)
    have hroom : guintSub s.commit.pls.len s.commit.pls.poolst ≠ 0 := by
      rw [guintSub_of_le hpool.le]
      omega
    exact hdrawn.congr ((hiff hs hi hlast).trans (or_congr_right ⟨fun _ => hroom, fun _ => by omega⟩))
  | replayed hs hi hlast hpool => exact hc.congr ((hiff hs hi hlast).trans (hcommit hpool))
  | exhausted hs hi hlast hpool => exact hc.congr ((hiff hs hi hlast).trans (hcommit hpool))

lemma plsGetPrev_drawnIff (s : Nav) (oid : Option Bytes) :
    DrawnIff (PlsOp.Commits s.pls (.getPrev s.index oid)) s.pls (plsGetPrev s).2.pls := by
  have hc := s.commit_drawnIff
  have hstep := plsGetPrev_step s
  generalize plsGetPrev s = u at hstep
  have hpooled : s.pls.poolst ≤ s.pls.iidx s.index → s.pls.shuffled ≠ 0 → s.index < s.pls.len →
      ∀ q, Redrawn s.commit.pls q → DrawnIff (PlsOp.Commits s.pls (.getPrev s.index oid)) s.pls q :=
    fun hpool hs hi q hq =>
      .some ⟨hs, hi, .inl hpool⟩ (hc.redrawn.trans hq) ((hc.drawn hpool).trans_le hq.poolst_le)
  cases hstep with
  | outside hi => exact .none fun h => not_lt.mpr hi h.2.1
  | preceding hs | around hs | ended hs => exact .none fun h => h.1 hs
  | played hs hi hpos =>
    by_cases hpool : s.pls.poolst ≤ s.pls.iidx s.index
    · exact hpooled hpool hs hi _ (Redrawn.refl _)
    · rw [Nav.commit_committed (not_le.mp hpool)] at hpos ⊢
      exact .none fun h => hpos (h.2.2.resolve_left hpool).1
  | drawn hs hi hzero hr =>
    by_cases hpool : s.pls.poolst ≤ s.pls.iidx s.index
    · exact hpooled hpool hs hi _ (plsGetLast_drawnIff s.commit oid).redrawn
    · rw [Nav.commit_committed (not_le.mp hpool)] at hzero hr ⊢
      refine (plsGetLast_drawnIff s oid).congr ⟨fun h => ?_, fun h => ?_⟩
      · exact ⟨hs, Nat.ne_zero_of_lt hi, (h.2.2.resolve_left hpool).2.2⟩
      · exact ⟨hs, hi, .inr ⟨hzero, hr, h.2.2⟩⟩
  | exhausted hs hi hzero hr =>
    by_cases hpool : s.pls.poolst ≤ s.pls.iidx s.index
    · exact hpooled hpool hs hi _ (Redrawn.refl _)
    · rw [Nav.commit_committed (not_le.mp hpool)] at hr ⊢
      exact .none fun h => (h.2.2.resolve_left hpool).2.1 hr

/-! ### One operation -/

/-- What an operation leaves behind is dirty or the playlist that was there before. -/
def Tracks (p q : Pls) : Prop := q.dirty = true ∨ q = p

lemma plsInserts_tracks {p q : Pls} {idx : Nat} {oids : List Bytes} {b : Bool}
    (h : plsInserts p idx oids = some (b, q)) : Tracks p q := by
  by_cases hrej : oids = [] ∨ idx > p.len
  · rw [plsInserts_rejected hrej] at h
    cases h
    exact .inr rfl
  · rw [not_or] at hrej
    unfold plsInserts at h
    rw [if_neg hrej.1, if_neg hrej.2] at h
    obtain ⟨p', -, hq⟩ := Option.map_eq_some_iff.mp h
    cases hq
    exact .inl rfl

lemma plsRemove_tracks (p : Pls) (idx : Nat) : Tracks p (plsRemove p idx).2 := by
  unfold plsRemove
  split
  · exact .inr rfl
  · exact .inl rfl

lemma plsMove_tracks (p : Pls) (src dst : Nat) : Tracks p (plsMove p src dst).2 := by
  unfold plsMove
  split
  · exact .inr rfl
  · split
    · exact .inr rfl
    · exact .inl rfl

lemma plsUnshuffle_tracks (p : Pls) : Tracks p (plsUnshuffle p) := by
  unfold plsUnshuffle
  split
  · exact .inl rfl
  · exact .inr rfl

lemma plsSetName_tracks (p : Pls) (name : Bytes) : Tracks p (plsSetName false p name).2 := by
  unfold plsSetName
  split
  · exact .inr rfl
  · exact .inl rfl

lemma DrawnIff.tracks {c : Prop} {p q : Pls} (h : DrawnIff c p q) (hc : c → p.dirty = true) : Tracks p q := by
  by_cases hd : c
  · left
    have hdirty : q.dirty = p.dirty := (congrArg Pls.dirty h.redrawn.frame :)
    rw [hdirty, hc hd]
  · exact .inr (h.same hd)

lemma PlsOp.apply_tracks {s t : Pls × Draws} {op : PlsOp} (h : op.apply s = some t)
    (hc : op.Commits s.1 → s.1.dirty = true) : Tracks s.1 t.1 := by
  cases op with
  | inserts idx oids =>
    obtain ⟨r, hr, rfl⟩ := Option.map_eq_some_iff.mp h
    exact plsInserts_tracks hr
  | append oid =>
    obtain ⟨r, hr, rfl⟩ := Option.map_eq_some_iff.mp h
    exact plsInserts_tracks hr
  | remove idx =>
    cases h
    exact plsRemove_tracks s.1 idx
  | move src dst =>
    cases h
    exact plsMove_tracks s.1 src dst
  | clear =>
    cases h
    exact .inl rfl
  | shuffle =>
    cases h
    exact .inl rfl
  | unshuffle =>
    cases h
    exact plsUnshuffle_tracks s.1
  | setName name =>
    cases h
    exact plsSetName_tracks s.1 name
  | setRepeat repeatMode =>
    cases h
    exact .inl rfl
  | getStarting index oid =>
    cases h
    exact (plsGetStarting_drawnIff ⟨s.1, s.2, index, oid⟩ oid).tracks hc
  | getLast index oid =>
    cases h
    exact (plsGetLast_drawnIff ⟨s.1, s.2, index, oid⟩ oid).tracks hc
  | getNext index oid =>
    cases h
    exact (plsGetNext_drawnIff ⟨s.1, s.2, index, oid⟩ oid).tracks hc
  | getPrev index oid =>
    cases h
    exact (plsGetPrev_drawnIff ⟨s.1, s.2, index, oid⟩ oid).tracks hc

/-- A commit changes what would be saved and leaves the flag alone. -/
lemma PlsOp.commit_untracked {s t : Pls × Draws} {op : PlsOp} (h : op.apply s = some t)
    (hc : op.Commits s.1) : t.1.written ≠ s.1.written ∧ t.1.dirty = s.1.dirty := by
  have hdrawn : DrawnIff (op.Commits s.1) s.1 t.1 := by
    cases op with
    | getStarting index oid =>
      cases h
      exact plsGetStarting_drawnIff ⟨s.1, s.2, index, oid⟩ oid
    | getLast index oid =>
      cases h
      exact plsGetLast_drawnIff ⟨s.1, s.2, index, oid⟩ oid
    | getNext index oid =>
      cases h
      exact plsGetNext_drawnIff ⟨s.1, s.2, index, oid⟩ oid
    | getPrev index oid =>
      cases h
      exact plsGetPrev_drawnIff ⟨s.1, s.2, index, oid⟩ oid
    | inserts | append | remove | move | clear | shuffle | unshuffle | setName | setRepeat => cases hc
  refine ⟨fun hw => ?_, (congrArg Pls.dirty hdrawn.redrawn.frame :)⟩
  have hpool : t.1.poolst = s.1.poolst := congrArg Written.poolst hw
  exact absurd (hdrawn.drawn hc) (by omega)

/-! ### Runs with saves -/

/-- A playlist with what the last successful save wrote. -/
structure SavedPls where
  pls : Pls
  draws : Draws
  saved : Option Written

inductive SavedStep
  | call (op : PlsOp)
  | save (ensured : Bool) (calls : SaveCalls) (dir : Bytes) (fs : FS)

def SavedStep.apply (s : SavedPls) : SavedStep → Option SavedPls
  | .call op => (op.apply (s.pls, s.draws)).map fun t => { s with pls := t.1, draws := t.2 }
  | .save ensured calls dir fs =>
    some { s with
      pls := (saveMe ensured calls dir s.pls fs).1
      saved :=
        if ensured && (plsSave calls s.pls (playlistPath dir s.pls.id) fs).1 then some s.pls.written else s.saved }

/-- The step takes nothing out of the pool of a playlist that is not dirty. -/
def SavedStep.KeepsClean (s : SavedPls) : SavedStep → Prop
  | .call op => op.Commits s.pls → s.pls.dirty = true
  | .save _ _ _ _ => True

instance (s : SavedPls) : (e : SavedStep) → Decidable (e.KeepsClean s)
  | .call op => inferInstanceAs (Decidable (op.Commits s.pls → s.pls.dirty = true))
  | .save _ _ _ _ => .isTrue trivial

/-- A playlist that differs from what was saved is dirty. -/
def SavedPls.Complete (s : SavedPls) : Prop :=
  ∀ w, s.saved = some w → s.pls.written ≠ w → s.pls.dirty = true

lemma SavedStep.apply_complete {s t : SavedPls} (h : s.Complete) {e : SavedStep} (hc : e.KeepsClean s)
    (ht : e.apply s = some t) : t.Complete := by
  cases e with
  | call op =>
    obtain ⟨u, hu, rfl⟩ := Option.map_eq_some_iff.mp ht
    rcases PlsOp.apply_tracks hu hc with hdirty | hsame
    · exact fun _ _ _ => hdirty
    · intro w hw hne
      dsimp only at hsame hne ⊢
      rw [hsame] at hne ⊢
      exact h w hw hne
  | save ensured calls dir fs =>
    cases ht
    intro w hw hne
    cases ensured with
    | false => exact h w hw hne
    | true =>
      simp only [saveMe, Bool.true_and, Bool.true_eq_false, if_false] at hw hne ⊢
      by_cases hok : (plsSave calls s.pls (playlistPath dir s.pls.id) fs).1 = true
      · simp only [hok, if_true, Option.some.injEq] at hw hne
        exact absurd hw hne
      · simp only [hok] at hw hne ⊢
        exact h w hw hne

lemma commit_incomplete {s t : SavedPls} (hsaved : s.saved = some s.pls.written) (hclean : s.pls.dirty = false)
    {op : PlsOp} (hc : op.Commits s.pls) (ht : SavedStep.apply s (.call op) = some t) : ¬t.Complete := by
  obtain ⟨u, hu, rfl⟩ := Option.map_eq_some_iff.mp ht
  obtain ⟨hwritten, hdirty⟩ := PlsOp.commit_untracked hu hc
  intro h
  have hraised := h _ hsaved hwritten
  dsimp only at hraised hdirty
  rw [hdirty, hclean] at hraised
  cases hraised

lemma keepsClean_of_complete {s t : SavedPls} (h : s.Complete) (hsaved : s.saved.isSome) {e : SavedStep}
    (ht : e.apply s = some t) (hnext : t.Complete) : e.KeepsClean s := by
  obtain ⟨w, hw⟩ := Option.isSome_iff_exists.mp hsaved
  cases e with
  | save ensured calls dir fs => trivial
  | call op =>
    intro hc
    by_contra hclean
    rw [Bool.not_eq_true] at hclean
    have hsame : s.pls.written = w := by
      by_contra hne
      rw [h w hw hne] at hclean
      cases hclean
    rw [← hsame] at hw
    exact commit_incomplete hw hclean hc ht hnext

/-- In every run that commits items only while the playlist is dirty, a playlist that differs
from what the last successful save wrote is dirty. Once it was saved, any other step breaks
this. -/
theorem dirty_complete {start s : SavedPls} (hstart : start.Complete)
    (h : Reach (fun s e t => SavedStep.apply s e = some t) (fun s e => e.KeepsClean s) start s) :
    s.Complete ∧ ∀ e t, s.saved.isSome → SavedStep.apply s e = some t → (t.Complete ↔ e.KeepsClean s) := by
  have hs : s.Complete :=
    h.invariant SavedPls.Complete hstart fun _ _ _ hs hg ht => SavedStep.apply_complete hs hg ht
  exact ⟨hs, fun e t hsaved ht =>
    ⟨fun hnext => keepsClean_of_complete hs hsaved ht hnext, fun hc => SavedStep.apply_complete hs hc ht⟩⟩

/-- A fresh playlist in a run: two items are appended, shuffled and saved, and `steps` follow. -/
def savedRun (guard : SavedPls → SavedStep → Prop) [∀ s e, Decidable (guard s e)] (steps : List SavedStep) :
    Option SavedPls :=
  (plsNew false 1 [112]).bind fun p => runEvents SavedStep.apply guard ⟨p, fun _ => 0, none⟩
    ([.call (.append [97]), .call (.append [98]), .call .shuffle,
      .save true .succeed [100] fun _ => none] ++ steps)

/-- The first item is drawn after the repeat mode was changed. -/
theorem dirty_complete_repeat : ∃ s, savedRun (fun s e => e.KeepsClean s)
    [.call (.setRepeat 1), .call (.getStarting 0 none)] = some s ∧ s.Complete := by
  obtain ⟨s, hrun⟩ : ∃ s, savedRun (fun s e => e.KeepsClean s)
    [.call (.setRepeat 1), .call (.getStarting 0 none)] = some s := ⟨_, rfl⟩
  obtain ⟨p, -, hs⟩ := Option.bind_eq_some_iff.mp hrun
  refine ⟨s, hrun, (dirty_complete (fun w hw => ?_) (reach_of_runEvents hs)).1⟩
  cases hw

/-- The first item is drawn right after the save: the pool starts behind it now, and nothing
asks for another save. -/
theorem dirty_misses_commit : ∃ p s, plsNew false 1 [112] = some p ∧
    Reach (fun s e t => SavedStep.apply s e = some t) (fun _ _ => True) ⟨p, fun _ => 0, none⟩ s ∧
    s.saved = some { s.pls.written with poolst := 0 } ∧ s.pls.poolst = 1 ∧ s.pls.dirty = false ∧
    ¬s.Complete := by
  have hrun : savedRun (fun _ _ => True) [.call (.getStarting 0 none)] =
      some ((savedRun (fun _ _ => True) [.call (.getStarting 0 none)]).get rfl) := rfl
  obtain ⟨p, hp, hs⟩ := Option.bind_eq_some_iff.mp hrun
  refine ⟨p, _, hp, reach_of_runEvents hs, by decide, by decide, by decide, fun h => ?_⟩
  exact absurd (h _ (by rfl) (by decide)) (by decide)

end MafwShared
