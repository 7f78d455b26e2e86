import MafwShared.Proofs.DirtyTracking
import MafwShared.SettleTimers

/-!
# What is pending for a playlist

`dirty_timer` is right about the pending sources after every event, so that the two functions
that assert this never stop. A run remembers, next to the state, which playlists have an edit
that is not saved: they are the ones that must have a timer. A loaded playlist is dirty and
has none until it is edited.
-/

namespace MafwShared
open CLib

/-! ### Calls that do not dirty -/

def PlsOp.Navigates : PlsOp → Prop
  | .getStarting _ _ | .getLast _ _ | .getNext _ _ | .getPrev _ _ => True
  | _ => False

/-- A call that gets to `i_am_dirty` is an edit of `p`, and so is any other that makes it
another playlist `q`, navigation apart. -/
def PlsOp.Edits (p q : Pls) (op : PlsOp) : Prop := op.CallsIAmDirty p ∨ ¬op.Navigates ∧ q ≠ p

lemma plsMove_uncalled {p : Pls} {src dst : Nat} (h : ¬(src ≠ dst ∧ src < p.len ∧ dst < p.len)) :
    (plsMove p src dst).2 = p := by
  by_cases hsame : src = dst
  · rw [plsMove, if_pos hsame]
  · rw [plsMove_rejected hsame fun hin => h ⟨hsame, hin⟩]

/-- What does not get to `i_am_dirty` is navigation or changes nothing. -/
lemma PlsOp.apply_uncalled {s t : Pls × Draws} {op : PlsOp} (h : op.apply s = some t)
    (hc : ¬op.CallsIAmDirty s.1) : op.Navigates ∨ t.1 = s.1 := by
  cases op with
  | append | clear | shuffle | setRepeat => exact absurd trivial hc
  | getStarting | getLast | getNext | getPrev => exact .inl trivial
  | inserts idx oids =>
    have hrej : oids = [] ∨ idx > s.1.len := by
      rw [PlsOp.CallsIAmDirty, not_and_or, not_not, not_le] at hc
      exact hc
    rw [PlsOp.apply, plsInserts_rejected hrej] at h
    cases h
    exact .inr rfl
  | remove idx =>
    rw [PlsOp.apply, plsRemove_rejected (not_lt.mp hc)] at h
    cases h
    exact .inr rfl
  | move src dst =>
    cases h
    exact .inr (plsMove_uncalled hc)
  | unshuffle =>
    cases h
    exact .inr (if_neg hc)
  | setName name =>
    cases h
    exact .inr (by rw [plsSetName, if_pos (not_not.mp hc)])

lemma PlsOp.apply_dirty {s t : Pls × Draws} {op : PlsOp} (h : op.apply s = some t)
    (hd : s.1.dirty = true) : t.1.dirty = true := by
  rcases PlsOp.apply_tracks h fun _ => hd with hdirty | hsame
  · exact hdirty
  · rw [hsame, hd]

namespace TimerState
variable {ids : IdSupply} {s s' : TimerState} {p q : Ptr} {t t' : TimedPls} {unsaved : Set Ptr}
  {allowed : Halt → Prop}

/-! ### The invariant -/

/-- The timer at an address, zero when there is no playlist. -/
def timerAt (s : TimerState) (p : Ptr) : Nat := (s.heap p).elim 0 TimedPls.dirtyTimer

/-- Every variable is right, a playlist with a timer is dirty, and one with an edit that is not
saved has a timer. -/
structure Consistent (s : TimerState) (unsaved : Set Ptr) : Prop where
  unallocated : ∀ p, s.brk ≤ p → s.heap p = none
  records : ∀ p, s.timeouts.Records p (s.timerAt p)
  dirty : ∀ p t, s.heap p = some t → t.dirtyTimer ≠ 0 → t.pls.dirty = true
  armed : ∀ p ∈ unsaved, s.timerAt p ≠ 0

lemma timerAt_of_heap (hp : s.heap p = some t) : s.timerAt p = t.dirtyTimer := by
  rw [timerAt, hp]
  rfl

lemma init_consistent (fs : FS) (draws : Draws) : (init fs draws).Consistent ∅ :=
  ⟨fun _ _ => rfl, fun _ => Timeouts.records_empty, fun _ _ h => absurd h.symm (Option.some_ne_none _),
    fun _ h => absurd h (Set.notMem_empty _)⟩

namespace Consistent

lemma recordsAt (h : s.Consistent unsaved) (hp : s.heap p = some t) : s.timeouts.Records p t.dirtyTimer :=
  timerAt_of_heap hp ▸ h.records p

lemma mono (h : s.Consistent unsaved) {unsaved' : Set Ptr} (hle : unsaved' ⊆ unsaved) :
    s.Consistent unsaved' := { h with armed := fun p hp => h.armed p (hle hp) }

lemma lt_brk (h : s.Consistent unsaved) (hp : s.heap p = some t) : p < s.brk := by
  by_contra hle
  rw [h.unallocated p (not_lt.mp hle)] at hp
  cases hp

lemma update (h : s.Consistent unsaved) {unsaved' : Set Ptr} (p : Ptr) (cell : Option TimedPls)
    (hheap : s'.heap = Function.update s.heap p cell) (hbrk : s.brk ≤ s'.brk) (hlt : p < s'.brk)
    (hself : s'.timeouts.Records p (cell.elim 0 TimedPls.dirtyTimer))
    (hother : ∀ q ≠ p, ∀ id, s.timeouts.Records q id → s'.timeouts.Records q id)
    (hdirty : ∀ t, cell = some t → t.dirtyTimer ≠ 0 → t.pls.dirty = true)
    (harmed : p ∈ unsaved' → cell.elim 0 TimedPls.dirtyTimer ≠ 0)
    (hsub : ∀ q ∈ unsaved', q ≠ p → q ∈ unsaved) : s'.Consistent unsaved' := by
  have hp : s'.timerAt p = cell.elim 0 TimedPls.dirtyTimer := by rw [timerAt, hheap, Function.update_self]
  have hq : ∀ q ≠ p, s'.heap q = s.heap q := fun q hne => by rw [hheap, Function.update_of_ne hne]
  have hqt : ∀ q ≠ p, s'.timerAt q = s.timerAt q := fun q hne => by rw [timerAt, hq q hne, timerAt]
  refine ⟨fun q hle => ?_, fun q => ?_, fun q t ht hid => ?_, fun q hmem => ?_⟩
  · rw [hq q (hlt.trans_le hle).ne']
    exact h.unallocated q (hbrk.trans hle)
  all_goals by_cases hne : q = p
  · subst hne
    exact hp ▸ hself
  · exact hqt q hne ▸ hother q hne _ (h.records q)
  · subst hne
    rw [hheap, Function.update_self] at ht
    exact hdirty t ht hid
  · rw [hq q hne] at ht
    exact h.dirty q t ht hid
  · subst hne
    exact hp ▸ harmed hmem
  · exact hqt q hne ▸ h.armed q (hsub q hmem hne)

lemma malloc (h : s.Consistent unsaved) (pls : Pls) : (s.malloc pls).2.Consistent unsaved := by
  have hfree : s.heap s.brk = none := h.unallocated _ le_rfl
  have hnone : s.timerAt s.brk = 0 := by
    rw [timerAt, hfree]
    rfl
  refine h.update s.brk (some ⟨pls, 0⟩) rfl (Nat.le_succ _) (Nat.lt_succ_self _) ?_ ?_ ?_ ?_ ?_
  · exact hnone ▸ h.records s.brk
  · exact fun _ _ _ hr => hr
  · rintro t ⟨⟩ hid
    exact absurd rfl hid
  · exact fun hmem => absurd hnone (h.armed _ hmem)
  · exact fun q hmem _ => hmem

lemma write (h : s.Consistent unsaved) (t' : TimedPls) (hp : s.heap p = some t)
    (htimer : t'.dirtyTimer = t.dirtyTimer)
    (hdirty : t.dirtyTimer ≠ 0 → t.pls.dirty = true → t'.pls.dirty = true) :
    (s.write p t').Consistent unsaved := by
  have hsame : t'.dirtyTimer = s.timerAt p := htimer.trans (timerAt_of_heap hp).symm
  refine h.update p (some t') rfl le_rfl (h.lt_brk hp) ?_ ?_ ?_ ?_ ?_
  · change s.timeouts.Records p t'.dirtyTimer
    rw [hsame]
    exact h.records p
  · exact fun _ _ _ hr => hr
  · rintro _ ⟨⟩ hid
    rw [htimer] at hid
    exact hdirty hid (h.dirty p t hp hid)
  · intro hmem
    change t'.dirtyTimer ≠ 0
    rw [hsame]
    exact h.armed p hmem
  · exact fun q hmem _ => hmem

lemma disarm (h : s.Consistent unsaved) (hp : s.heap p = some t) (cell : Option TimedPls)
    (hcell : cell.elim 0 TimedPls.dirtyTimer = 0) (hheap : s'.heap = Function.update s.heap p cell)
    (hbrk : s'.brk = s.brk) (htimeouts : s'.timeouts = (s.timeouts.remove t.dirtyTimer).2) :
    s'.Consistent (unsaved \ {p}) := by
  refine h.update p cell hheap hbrk.ge (hbrk ▸ h.lt_brk hp) ?_ ?_ ?_ ?_ ?_
  · rw [hcell, htimeouts]
    exact (h.recordsAt hp).remove_self
  · intro q hne id hq
    rw [htimeouts]
    exact hq.remove_other (h.recordsAt hp) hne
  · rintro t' rfl hid
    exact absurd hcell hid
  · exact fun hmem => absurd rfl hmem.2
  · exact fun q hmem _ => hmem.1

end Consistent

/-! ### Starting and removing a timer -/

lemma deref_eq (hp : s.heap p = some t) : s.deref p = .ok t := by rw [deref, hp]

lemma assertRemove_eq {id : Nat} (h : s.timeouts.Records p id) :
    s.assertRemove id = .ok { s with timeouts := (s.timeouts.remove id).2 } := by
  by_cases hid : id = 0
  · rw [assertRemove, if_pos hid, hid, Timeouts.remove_zero]
  · rw [assertRemove, if_neg hid]
    exact if_pos (h.removes hid)

/-- What `i_am_dirty` leaves behind. -/
def rearm (ids : IdSupply) (s : TimerState) (p : Ptr) (t : TimedPls) : TimerState :=
  let (id, timeouts) := (s.timeouts.remove t.dirtyTimer).2.add ids p
  { s with timeouts := timeouts }.write p { pls := MafwShared.iAmDirty t.pls, dirtyTimer := id }

lemma iAmDirty_eq (h : s.Consistent unsaved) (hp : s.heap p = some t) :
    s.iAmDirty ids p = .ok (s.rearm ids p t) := by
  have hremove := assertRemove_eq (h.recordsAt hp)
  rw [iAmDirty, deref_eq hp]
  change s.assertRemove t.dirtyTimer >>= _ = _
  rw [hremove]
  rfl

lemma Consistent.rearm (h : s.Consistent unsaved) (hp : s.heap p = some t) :
    (s.rearm ids p t).Consistent (insert p unsaved) := by
  have hremoved := (h.recordsAt hp).remove_self
  refine h.update p _ rfl le_rfl (h.lt_brk hp) hremoved.add_self ?_ ?_ ?_ ?_
  · exact fun q hne id hq => (hq.remove_other (h.recordsAt hp) hne).add_other hne
  · rintro _ ⟨⟩ -
    rfl
  · exact fun _ => Timeouts.add_ne_zero (x := p)
  · exact fun q hmem hne => Set.mem_of_mem_insert_of_ne hmem hne

/-! ### Each function

What an `_ends` lemma says for any `allowed` never stops. -/

/-- The only address at which the playlists may differ, and one is there. -/
structure Touches (s : TimerState) (p : Ptr) (s' : TimerState) : Prop where
  live : ∃ t, s'.heap p = some t
  frame : ∀ q ≠ p, s'.heap q = s.heap q

lemma Touches.write (s : TimerState) (p : Ptr) (t : TimedPls) : s.Touches p (s.write p t) :=
  ⟨⟨t, Function.update_self _ _ _⟩, fun _ hne => Function.update_of_ne hne _ _⟩

lemma malloc_heap (s : TimerState) (pls : Pls) : (s.malloc pls).2.heap s.brk = some ⟨pls, 0⟩ :=
  Function.update_self _ _ _

lemma Touches.malloc (s : TimerState) (pls : Pls) : s.Touches s.brk (s.malloc pls).2 :=
  ⟨⟨_, s.malloc_heap pls⟩, fun _ hne => Function.update_of_ne hne _ _⟩

lemma Touches.trans {u : TimerState} (h : s.Touches p s') (h' : s'.Touches p u) : s.Touches p u :=
  ⟨h'.live, fun q hne => (h'.frame q hne).trans (h.frame q hne)⟩

lemma Touches.created_subset (h : s.Touches p s') : {q | s.heap q = none ∧ s'.heap q ≠ none} ⊆ {p} := by
  rintro q ⟨hnone, hsome⟩
  by_contra hne
  exact hsome ((h.frame q hne).trans hnone)

lemma deref_ends : Ends (· ≠ Halt.assertion) (fun t => s.heap p = some t) (s.deref p) := by
  unfold deref
  cases hp : s.heap p with
  | none => exact fun h => nomatch h
  | some t => rfl

lemma iAmDirty_ends (h : s.Consistent unsaved) (hp : s.heap p = some t) :
    Ends allowed (fun s' => s'.Consistent (insert p unsaved) ∧ s.Touches p s') (s.iAmDirty ids p) := by
  rw [iAmDirty_eq h hp]
  exact ⟨h.rearm hp, ⟨_, Function.update_self _ _ _⟩, fun _ hne => Function.update_of_ne hne _ _⟩

lemma plsNew_ends (h : s.Consistent unsaved) (id : Nat) (name : Bytes) :
    Ends allowed
      (fun r => r = (none, s) ∨
        r.1 = some s.brk ∧ r.2.Consistent (insert s.brk unsaved) ∧ s.Touches s.brk r.2)
      (s.plsNew ids id name) := by
  unfold TimerState.plsNew
  split
  · exact .inl rfl
  · rename_i pls _
    refine (iAmDirty_ends (h.malloc pls) (s.malloc_heap pls)).bind fun s' hs' => ?_
    exact .inr ⟨rfl, hs'.1, (Touches.malloc s pls).trans hs'.2⟩

/-- The addresses that a call edits. -/
def editedBy (s : TimerState) (p : Ptr) (op : PlsOp) (s' : TimerState) : Set Ptr :=
  {q | q = p ∧ ∃ t t', s.heap p = some t ∧ s'.heap p = some t' ∧ op.Edits t.pls t'.pls}

lemma call_ends (h : s.Consistent unsaved) (p : Ptr) (op : PlsOp) :
    Ends (· ≠ Halt.assertion)
      (fun s' => s'.Consistent (unsaved ∪ s.editedBy p op s') ∧ s.Touches p s') (s.call ids p op) := by
  refine deref_ends.bind fun t hp => ?_
  split
  · exact fun h => nomatch h
  · rename_i pls draws happly
    have hs : TimerState.Consistent { s with draws := draws } unsaved := ⟨h.1, h.2, h.3, h.4⟩
    have hwritten : Consistent _ unsaved :=
      hs.write { t with pls := pls } hp rfl fun _ => PlsOp.apply_dirty happly
    have htouches := Touches.write { s with draws := draws } p { t with pls := pls }
    have hcell := Function.update_self p (some { t with pls := pls }) s.heap
    by_cases hc : op.CallsIAmDirty t.pls
    · rw [if_pos hc]
      refine (iAmDirty_ends hwritten hcell).mono fun s' hs' => ⟨hs'.1.mono ?_, ?_⟩
      · exact Set.union_subset (Set.subset_insert _ _) fun q hq => hq.1 ▸ Set.mem_insert _ _
      · exact ⟨hs'.2.live, fun q hne => (hs'.2.frame q hne).trans (htouches.frame q hne)⟩
    · rw [if_neg hc]
      refine ⟨hwritten.mono (Set.union_subset le_rfl ?_), htouches.live, htouches.frame⟩
      rintro _ ⟨-, t₀, t', ht₀, ht', hedits⟩
      cases hp.symm.trans ht₀
      cases hcell.symm.trans ht'
      rcases hedits with hcalls | ⟨hnavigates, hne⟩
      · exact absurd hcalls hc
      · exact absurd ((PlsOp.apply_uncalled happly hc).resolve_left hnavigates) hne

lemma plsSetUseCount_ends (h : s.Consistent unsaved) (p : Ptr) (useCount : Nat) :
    Ends (· ≠ Halt.assertion) (fun s' => s'.Consistent (unsaved ∪ {p})) (s.plsSetUseCount ids p useCount) := by
  refine deref_ends.bind fun t hp => ?_
  have hwritten := h.write { t with pls := MafwShared.plsSetUseCount t.pls useCount } hp rfl fun _ _ => rfl
  refine (iAmDirty_ends hwritten (Function.update_self _ _ _)).mono fun s' hs' => ?_
  exact hs'.1.mono (by rw [Set.union_singleton])

/-- The save in `ops_settled` succeeds. -/
def Saves (s : TimerState) (dir : Bytes) (ensured : Bool) (calls : SaveCalls) (pls : Pls) : Prop :=
  ensured = true ∧ (MafwShared.plsSave calls pls (playlistPath dir pls.id) s.fs).1 = true

lemma saveMe_saves {dir : Bytes} {ensured : Bool} {calls : SaveCalls} {pls : Pls}
    (hd : pls.dirty = true) (hclean : (saveMe ensured calls dir pls s.fs).1.dirty = false) :
    s.Saves dir ensured calls pls := by
  unfold saveMe at hclean
  by_cases he : ensured = false
  · rw [if_pos he, hd] at hclean
    cases hclean
  · rw [if_neg he] at hclean
    refine ⟨Bool.eq_true_of_not_eq_false he, ?_⟩
    by_contra hfails
    dsimp only at hclean
    rw [if_neg hfails, hd] at hclean
    cases hclean

/-- A timer that expires is the playlist's, and afterwards it has a new one unless it was saved. -/
lemma opsSettled_ends (h : s.Consistent unsaved) (hp : s.heap p = some t) (hid : t.dirtyTimer ≠ 0)
    (dir : Bytes) (ensured : Bool) (calls : SaveCalls) :
    Ends allowed
      (fun s' => s'.Consistent (unsaved \ {q | q = p ∧ s.Saves dir ensured calls t.pls}))
      (s.opsSettled ids p ensured calls dir) := by
  have hdirty := h.dirty p t hp hid
  have hremove := assertRemove_eq (h.recordsAt hp)
  rw [opsSettled, deref_eq hp]
  change Ends _ _ (if t.pls.dirty = false then _ else s.assertRemove t.dirtyTimer >>= _)
  rw [if_neg (Bool.not_eq_false _ ▸ hdirty), hremove]
  have hclean : ∀ pls fs, Consistent ({ s with timeouts := (s.timeouts.remove t.dirtyTimer).2, fs := fs }.write p
      ⟨pls, 0⟩) (unsaved \ {p}) := fun pls _ => h.disarm hp (some ⟨pls, 0⟩) rfl rfl rfl rfl
  change Ends _ _ (if (saveMe ensured calls dir t.pls s.fs).1.dirty then _ else _)
  by_cases hsave : (saveMe ensured calls dir t.pls s.fs).1.dirty = true
  · rw [if_pos hsave]
    refine (iAmDirty_ends (hclean _ _) (Function.update_self _ _ _)).mono fun s' hs' => hs'.1.mono ?_
    rw [Set.insert_sdiff_singleton]
    exact Set.sdiff_subset.trans (Set.subset_insert _ _)
  · rw [if_neg hsave]
    have hsaves := saveMe_saves hdirty (Bool.eq_false_of_not_eq_true hsave)
    exact (hclean _ _).mono fun q hq => ⟨hq.1, fun he => hq.2 ⟨he, hsaves⟩⟩

lemma plsFree_ends (h : s.Consistent unsaved) (p : Ptr) :
    Ends (· ≠ Halt.assertion) (fun s' => s'.Consistent (unsaved \ {p})) (s.plsFree ids p) := by
  refine (call_ends h p .clear).bind fun s₁ ⟨hs₁, htouches⟩ => ?_
  obtain ⟨t, hp⟩ := htouches.live
  rw [deref_eq hp]
  have hremove : (if t.dirtyTimer ≠ 0 then { s₁ with timeouts := (s₁.timeouts.remove t.dirtyTimer).2 } else s₁) =
      { s₁ with timeouts := (s₁.timeouts.remove t.dirtyTimer).2 } := by
    by_cases hid : t.dirtyTimer = 0
    · rw [if_neg (not_not.mpr hid), hid, Timeouts.remove_zero]
    · rw [if_pos hid]
  change Consistent { (if t.dirtyTimer ≠ 0 then _ else s₁) with heap := _ } _
  rw [hremove]
  have hkept : s₁.Consistent unsaved := hs₁.mono Set.subset_union_left
  exact hkept.disarm hp none rfl rfl rfl rfl

lemma loadText_eq_header (f : Bytes) :
    loadText f = loadHeader f >>= fun r => loadEntries r.2.1 r.2.1 0 r.1 r.2.2 := by
  unfold loadText loadHeader
  simp only [bind_assoc]
  repeat refine bind_congr fun _ => ?_
  generalize MafwShared.plsNew true _ _ = p
  cases p with
  | none => rfl
  | some p =>
    dsimp only
    generalize maybeRealloc _ _ = p
    cases p <;> rfl

/-- A file that holds a playlist puts it into memory and starts no timer. -/
lemma plsLoad_loaded {f : Bytes} {pls : Pls} (h : loadText f = .ok pls) :
    ∃ s', s.plsLoad ids f = .ok s' ∧ s'.heap s.brk = some ⟨pls, 0⟩ ∧ s'.timeouts = s.timeouts := by
  rw [loadText_eq_header] at h
  obtain ⟨⟨header, len, rest⟩, hheader, hentries⟩ := bind_ok h
  dsimp only at hentries
  have hload : s.plsLoad ids f = .ok ((s.malloc header).2.write s.brk ⟨pls, 0⟩) := by
    rw [TimerState.plsLoad, hheader]
    dsimp only
    rw [hentries]
    rfl
  exact ⟨_, hload, Function.update_self _ _ _, rfl⟩

lemma Consistent.brk_notMem (h : s.Consistent unsaved) : s.brk ∉ unsaved := by
  intro hmem
  refine h.armed _ hmem ?_
  rw [timerAt, h.unallocated _ le_rfl]
  rfl

lemma plsLoad_ends (h : s.Consistent unsaved) (f : Bytes) :
    Ends (· ≠ Halt.assertion) (fun s' => s'.Consistent unsaved) (s.plsLoad ids f) := by
  have hstop : ∀ stop, Halt.load stop ≠ Halt.assertion := fun stop he => nomatch he
  unfold TimerState.plsLoad
  split
  · exact h
  · exact h
  · exact hstop _
  · rename_i pls len f _
    have hfree : Ends (· ≠ Halt.assertion) (fun s' => s'.Consistent unsaved) ((s.malloc pls).2.plsFree ids s.brk) :=
      (plsFree_ends (h.malloc pls) s.brk).mono fun _ hs' =>
        hs'.mono (Set.sdiff_singleton_eq_self h.brk_notMem).ge
    dsimp only
    split
    · exact (h.malloc pls).write _ (s.malloc_heap pls) rfl fun hid => absurd rfl hid
    · exact hfree
    · exact hfree
    · exact hstop _

/-- `pls_set_repeat` dirties the duplicate when its fields are in place. -/
lemma duplicatePlaylist_ends (h : s.Consistent unsaved) (src : Ptr) (id : Nat) (newName : Bytes) :
    Ends (· ≠ Halt.assertion)
      (fun s' => s'.Consistent (unsaved ∪ {q | s.heap q = none ∧ s'.heap q ≠ none}))
      (s.duplicatePlaylist ids src id newName) := by
  refine deref_ends.bind fun t _ => ?_
  refine (plsNew_ends h id newName).bind fun r hr => ?_
  obtain ⟨new, s₁⟩ := r
  rcases hr with hnone | ⟨hnew, hs₁, htouches⟩
  · cases hnone
    exact h.mono (Set.union_subset le_rfl fun q hq => absurd hq.1 hq.2)
  · cases hnew
    obtain ⟨new, hp⟩ := htouches.live
    have hwritten := hs₁.write { new with pls := duplicateFields new.pls t.pls } hp rfl fun _ _ => rfl
    change Ends _ _ (s₁.deref s.brk >>= _)
    rw [deref_eq hp]
    refine (iAmDirty_ends hwritten (Function.update_self _ _ _)).mono fun s' hs' => ?_
    have htouched := htouches.trans ((Touches.write s₁ _ _).trans hs'.2)
    refine hs'.1.mono (Set.union_subset (fun q hq => .inr (.inr hq)) ?_)
    exact htouched.created_subset.trans fun q hq => .inl hq

end TimerState

/-! ### Runs -/

/-- The playlists to which an event outside loading makes an edit; a new one is among them. -/
def TimerEvent.edited (s s' : TimerState) : TimerEvent → Set Ptr
  | .create _ _ | .duplicate _ _ _ => {p | s.heap p = none ∧ s'.heap p ≠ none}
  | .call p op => s.editedBy p op s'
  | .setUseCount p _ => {p}
  | .load _ | .expire _ _ _ | .free _ => ∅

/-- The playlists that an event saves or frees. -/
def TimerEvent.settled (dir : Bytes) (s : TimerState) : TimerEvent → Set Ptr
  | .expire id ensured calls =>
    {p | s.timeouts.pending id = some p ∧ ∃ t, s.heap p = some t ∧ s.Saves dir ensured calls t.pls}
  | .free p => {p}
  | _ => ∅

/-- A state with the playlists that have an edit which is not saved. -/
structure EditedState where
  state : TimerState
  unsaved : Set Ptr

/-- An event that returns. -/
def EditedState.next (ids : IdSupply) (dir : Bytes) (s : EditedState) (e : TimerEvent) : Option EditedState :=
  (s.state.handle ids dir e).toOption.map fun s' => ⟨s', s.unsaved \ e.settled dir s.state ∪ e.edited s.state s'⟩

/-- The daemon at startup, before it loads its playlists. -/
def EditedState.init (fs : FS) (draws : Draws) : EditedState := ⟨.init fs draws, ∅⟩

namespace TimerState
variable {ids : IdSupply} {s : TimerState} {unsaved : Set Ptr} {allowed : Halt → Prop}

lemma expire_ends (h : s.Consistent unsaved) (dir : Bytes) (id : Nat) (ensured : Bool) (calls : SaveCalls) :
    Ends allowed
      (fun s' => s'.Consistent (unsaved \ TimerEvent.settled dir s (.expire id ensured calls)))
      (s.handle ids dir (.expire id ensured calls)) := by
  cases hpending : s.timeouts.pending id with
  | none =>
    have hhandle : s.handle ids dir (.expire id ensured calls) = .ok s := by rw [handle, hpending]
    rw [hhandle]
    exact h.mono Set.sdiff_subset
  | some p =>
    have hhandle : s.handle ids dir (.expire id ensured calls) = s.opsSettled ids p ensured calls dir := by
      rw [handle, hpending]
    rw [hhandle]
    have htimer := (h.records p).ne_zero_of_pending hpending
    cases hp : s.heap p with
    | none =>
      rw [timerAt, hp] at htimer
      exact absurd rfl htimer
    | some t =>
      rw [timerAt_of_heap hp] at htimer
      refine (opsSettled_ends h hp htimer dir ensured calls).mono fun s' hs' => hs'.mono ?_
      refine Set.sdiff_subset_sdiff_right ?_
      rintro _ ⟨rfl, hsaves⟩
      exact ⟨hpending, t, hp, hsaves⟩

lemma handle_ends (h : s.Consistent unsaved) (dir : Bytes) (e : TimerEvent) :
    Ends (· ≠ Halt.assertion)
      (fun s' => s'.Consistent (unsaved \ e.settled dir s ∪ e.edited s s')) (s.handle ids dir e) := by
  have hnone : ∀ {s' : TimerState} {edited : Set Ptr},
      s'.Consistent (unsaved ∪ edited) → s'.Consistent (unsaved \ ∅ ∪ edited) :=
    fun hs' => hs'.mono (Set.union_subset_union_left _ Set.sdiff_subset)
  cases e with
  | create id name =>
    refine (plsNew_ends h id name).map fun r hr => hnone ?_
    rcases hr with rfl | ⟨-, hs', htouches⟩
    · exact h.mono (Set.union_subset le_rfl fun q hq => absurd hq.1 hq.2)
    · refine hs'.mono (Set.union_subset (Set.subset_insert _ _) ?_)
      exact htouches.created_subset.trans fun q hq => .inl hq
  | load f => exact (plsLoad_ends h f).mono fun s' hs' => hnone (hs'.mono (Set.union_empty _).le)
  | duplicate src id newName => exact (duplicatePlaylist_ends h src id newName).mono fun _ => hnone
  | call p op => exact (call_ends h p op).mono fun _ hs' => hnone hs'.1
  | setUseCount p useCount => exact (plsSetUseCount_ends h p useCount).mono fun _ => hnone
  | expire id ensured calls =>
    exact (expire_ends h dir id ensured calls).mono fun _ hs' =>
      hs'.mono (Set.union_empty _).le
  | free p => exact (plsFree_ends h p).mono fun _ hs' => hs'.mono (Set.union_empty _).le

end TimerState

lemma EditedState.next_consistent {ids : IdSupply} {dir : Bytes} {s s' : EditedState} {e : TimerEvent}
    (h : s.state.Consistent s.unsaved) (hnext : s.next ids dir e = some s') : s'.state.Consistent s'.unsaved := by
  obtain ⟨t, ht, rfl⟩ := Option.map_eq_some_iff.mp hnext
  exact (TimerState.handle_ends h dir e).of_toOption ht

/-- In every state that any events lead to, a playlist's `dirty_timer` is the id of its only pending
source, or zero when it has none; a playlist with a timer is dirty, one with an edit that is not
saved has a timer, and one that was freed has none. Whatever the next event is, no assertion of
`i_am_dirty` or `ops_settled` fails, and a timer that expires does its work. -/
theorem settle_timers {ids : IdSupply} {dir : Bytes} {fs : FS} {draws : Draws} {s : EditedState}
    (h : Reach (fun s e s' => EditedState.next ids dir s e = some s') (fun _ _ => True) (.init fs draws) s) :
    (∀ p t, s.state.heap p = some t →
      (∀ id, s.state.timeouts.pending id = some p ↔ id ≠ 0 ∧ id = t.dirtyTimer) ∧
      (t.dirtyTimer ≠ 0 → t.pls.dirty = true)) ∧
    (∀ p ∈ s.unsaved, ∃ id, s.state.timeouts.pending id = some p) ∧
    (∀ p, s.state.heap p = none → ∀ id, s.state.timeouts.pending id ≠ some p) ∧
    (∀ e, s.state.handle ids dir e ≠ .error .assertion) ∧
    ∀ id ensured calls, ∃ s', s.state.handle ids dir (.expire id ensured calls) = .ok s' := by
  have hs : s.state.Consistent s.unsaved := h.invariant (fun s => s.state.Consistent s.unsaved)
    (TimerState.init_consistent fs draws) fun _ _ _ hs _ hnext => EditedState.next_consistent hs hnext
  refine ⟨fun p t hp => ⟨hs.recordsAt hp, hs.dirty p t hp⟩, fun p hp => ?_, fun p hp => ?_, fun e he => ?_,
    fun id ensured calls => ?_⟩
  · exact ⟨_, (hs.records p).pending_eq (hs.armed p hp)⟩
  · have htimer : s.state.timerAt p = 0 := by
      rw [TimerState.timerAt, hp]
      rfl
    exact Timeouts.records_zero_iff.mp (htimer ▸ hs.records p)
  · exact (TimerState.handle_ends hs dir e).of_error he rfl
  · obtain ⟨s', hs', -⟩ := (TimerState.expire_ends hs dir id ensured calls).exists_ok
    exact ⟨s', hs'⟩

/-- A new playlist gets an item, the first save of it fails, and there is another timer. -/
theorem settle_timers_append : ∃ s,
    runEvents (EditedState.next .ascending [100]) (fun _ _ => True) (.init (fun _ => none) fun _ => 0)
      [.create 1 [112], .call 0 (.append [97]), .expire 2 false .succeed] = some s ∧
    0 ∈ s.unsaved ∧ (∃ id, s.state.timeouts.pending id = some 0) ∧
    ∃ s', s.state.handle .ascending [100] (.expire 3 true .succeed) = .ok s' := by
  obtain ⟨s, hrun, hunsaved⟩ : ∃ s, runEvents (EditedState.next .ascending [100]) (fun _ _ => True)
      (.init (fun _ => none) fun _ => 0)
      [.create 1 [112], .call 0 (.append [97]), .expire 2 false .succeed] = some s ∧ 0 ∈ s.unsaved := by
    refine ⟨_, rfl, .inl ⟨.inr ?_, ?_⟩⟩
    · exact ⟨rfl, _, _, rfl, rfl, .inl trivial⟩
    · rintro ⟨-, _, -, hensured, -⟩
      cases hensured
  obtain ⟨-, harmed, -, -, hexpire⟩ := settle_timers (reach_of_runEvents hrun)
  exact ⟨s, hrun, hunsaved, harmed 0 hunsaved, hexpire 3 true .succeed⟩

end MafwShared
