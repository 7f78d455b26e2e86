import MafwShared.Proofs.Duplicates
import MafwShared.Proofs.ImportSessions
import MafwShared.Proofs.UseCounts

/-!
# The daemon goes on

An event of the main loop can stop the daemon in four ways. None of them happens in a run in which
clients give back what they hold, lists stay below the size that `maybe_realloc` can allocate and
imports have a name. The three conditions are those of other modules; here they are put together.
-/

namespace MafwShared
open CLib

/-- What a run keeps. -/
structure Standing (d : Daemon) : Prop where
  counted : Counted d
  wellFormed : d.WellFormed

/-- An import that completes has a name. -/
def DaemonEvent.Named : DaemonEvent → Prop
  | .imported data none => data.plUri ≠ []
  | _ => True

/-- Uses are counted right, and lists keep their shape. -/
structure DaemonEvent.Behaves (d : Daemon) (e : DaemonEvent) : Prop where
  counts : KeepsCounts d e
  keeps : e.Keeps d
  named : e.Named

/-- Every loop of a handler ends. -/
abbrev Loops (r : Except Crash (Daemon × List Sent)) : Prop := Ends (· ≠ Crash.noReturn) (fun _ => True) r

section
variable {createObjectid : Bytes → Bytes} {d d' : Daemon}

/-! ### Loops -/

lemma deref_loops (d : Daemon) (p : Ptr) : Ends (· ≠ Crash.noReturn) (fun _ => True) (d.deref p) := by
  unfold Daemon.deref
  split
  · exact fun h => by cases h
  · trivial

lemma addPlaylist_loops (d : Daemon) (name : Bytes) :
    Ends (· ≠ Crash.noReturn) (fun _ => True) (d.addPlaylist name) := by
  unfold Daemon.addPlaylist
  dsimp only
  split
  · exact fun h => by cases h
  · trivial

lemma createPlaylist_loops (d : Daemon) (sender : Client) (name : Bytes) : Loops (d.createPlaylist sender name) := by
  unfold Daemon.createPlaylist
  split
  · trivial
  · split
    · exact (deref_loops d _).bind fun _ _ => trivial
    · exact (addPlaylist_loops d name).bind fun _ _ => trivial

lemma destroyPlaylist_loops (d : Daemon) (id : Nat) : Loops (d.destroyPlaylist id) := by
  unfold Daemon.destroyPlaylist
  split
  · trivial
  · refine (deref_loops d _).bind fun pls _ => ?_
    split
    · exact fun h => by cases h
    · split
      · trivial
      · dsimp only
        split
        · exact fun h => by cases h
        · split
          · exact fun h => by cases h
          · trivial

lemma duplicatePlaylist_loops (d : Daemon) (sender : Client) (srcId : Nat) (newName : Bytes) :
    Loops (d.duplicatePlaylist sender srcId newName) := by
  unfold Daemon.duplicatePlaylist
  split
  · trivial
  · split
    · trivial
    · split
      · trivial
      · refine (deref_loops d _).bind fun pls _ => ?_
        dsimp only
        split
        · exact fun h => by cases h
        · trivial

lemma handleEdit_returns {pls : Pls} (h : pls.WF) {m : EditMember} {r : Draws} (hfit : (m.op pls).Fits (pls, r))
    (sender : Client) (plid : Nat) : ∃ new sent, handleEdit sender plid pls m = some (new, sent) := by
  cases m with
  | insertItem index objectids =>
    have hsize : pls.len + objectids.length < 2 ^ 31 := hfit
    obtain ⟨b, q, hq, -⟩ := plsInserts_wf h index hsize.le
    rw [handleEdit, hq]
    exact ⟨_, _, rfl⟩
  | appendItem objectids =>
    have hsize : pls.len + objectids.length < 2 ^ 31 := hfit
    obtain ⟨b, q, hq, -⟩ := plsInserts_wf h pls.len hsize.le
    rw [handleEdit, plsAppends, hq]
    exact ⟨_, _, rfl⟩
  | removeItem index =>
    simp only [handleEdit]
    split <;> exact ⟨_, _, rfl⟩
  | move src dst =>
    simp only [handleEdit]
    split <;> exact ⟨_, _, rfl⟩
  | clear => exact ⟨_, _, rfl⟩

lemma handlePlaylistRequest_loops (h : d.WellFormed) {sender : Client} {path : Bytes} {m : Member}
    (hk : DaemonEvent.Keeps d (.playlist sender path m)) : Loops (handlePlaylistRequest d sender path m) := by
  unfold handlePlaylistRequest
  dsimp only
  split
  · trivial
  · split
    · trivial
    · rename_i p hl
      cases hp : d.heap p with
      | none =>
        rw [Daemon.deref, hp]
        exact fun h => by cases h
      | some pls =>
        rw [deref_eq hp]
        simp only [bind, Except.bind]
        cases m with
        | setName name =>
          dsimp only
          split
          · trivial
          · split
            · split
              · trivial
              · exact fun h => by cases h
            · trivial
        | incrementUseCount | decrementUseCount | play => trivial
        | edit m =>
          have hof : pls ∈ d.playlistOf (atoi path) := by
            rw [Daemon.playlistOf, hl]
            exact hp
          obtain ⟨hfit, -⟩ := hk pls hof
          obtain ⟨new, sent, hnew⟩ := handleEdit_returns (h p pls hp) hfit sender (atoi path)
          dsimp only
          rw [hnew]
          trivial

lemma releaseAll_loops (l : List Ptr) (d : Daemon) : Ends (· ≠ Crash.noReturn) (fun _ => True) (d.releaseAll l) := by
  induction l generalizing d with
  | nil => trivial
  | cons p l ih =>
    rw [Daemon.releaseAll]
    exact (deref_loops d p).bind fun pls _ => ih (d.write p (plsDecrement pls))

lemma handleUsecountHolderMsgs_loops (d : Daemon) (client newname : Client) :
    Ends (· ≠ Crash.noReturn) (fun _ => True) (d.handleUsecountHolderMsgs client newname) := by
  unfold Daemon.handleUsecountHolderMsgs
  split
  · trivial
  · split
    · split
      · trivial
      · trivial
      · exact (releaseAll_loops _ d).bind fun _ _ => trivial
    · trivial

lemma handle_loops (h : d.WellFormed) {e : DaemonEvent} (he : e.Behaves d) : Loops (d.handle createObjectid e) := by
  cases e with
  | create sender name => exact createPlaylist_loops d sender name
  | destroy sender id => exact destroyPlaylist_loops d id
  | duplicate sender srcId newName => exact duplicatePlaylist_loops d sender srcId newName
  | list sender ids =>
    have hall : ∀ l : List Ptr, Ends (· ≠ Crash.noReturn) (fun _ => True) (l.mapM d.appendPls) := fun l =>
      Ends.mapM fun p _ => (deref_loops d p).bind fun _ _ => trivial
    cases ids with
    | some ids => exact (hall _).bind fun _ _ => trivial
    | none => exact (hall _).bind fun _ _ => trivial
  | imported data err =>
    cases err with
    | some err => trivial
    | none =>
      have hsize : data.urilist.length < 2 ^ 31 := he.keeps
      obtain ⟨d', plid, hd'⟩ := importDone_returns createObjectid d he.named hsize.le
      rw [Daemon.handle, hd']
      trivial
  | playlist sender path m => exact handlePlaylistRequest_loops h he.keeps
  | disconnected client => exact (handleUsecountHolderMsgs_loops d client []).bind fun _ _ => trivial

/-! ### Runs -/

lemma Standing.returns (h : Standing d) {e : DaemonEvent} (he : e.Behaves d) :
    ∃ d' sent, d.handle createObjectid e = .ok (d', sent) := by
  have hout : Outcome createObjectid d e (d.handle createObjectid e) := handle_turned h.counted.registry he.counts.fresh
  cases hr : d.handle createObjectid e with
  | ok r => exact ⟨r.1, r.2, rfl⟩
  | error crash =>
    rw [hr] at hout
    cases crash with
    | assertion => exact hout.elim
    | nullDeref =>
      obtain ⟨data, rfl, huri⟩ := hout
      exact absurd huri he.named
    | useAfterFree => exact absurd hr (h.counted.no_useAfterFree he.counts)
    | noReturn => exact absurd rfl ((handle_loops h.wellFormed he).of_error hr)

/-- The daemon after an event that is handled to its end. -/
def Daemon.next (createObjectid : Bytes → Bytes) (d : Daemon) (e : DaemonEvent) : Option Daemon :=
  (d.handle createObjectid e).toOption.map Prod.fst

/-- The runs of a daemon whose clients behave. -/
abbrev BehavingReach (createObjectid : Bytes → Bytes) : Daemon → Daemon → Prop :=
  Reach (fun s e t => s.next createObjectid e = some t) (fun s e => e.Behaves s)

lemma Standing.step (h : Standing d) {e : DaemonEvent} (he : e.Behaves d) (hnext : d.next createObjectid e = some d') :
    Standing d' := by
  obtain ⟨t, sent, hd⟩ := h.returns he
  rw [Daemon.next, hd] at hnext
  cases hnext
  have hagreed : Agreed (d, d.holdsOn) := ⟨h.counted, fun _ _ => rfl⟩
  have hstep : useCountStep createObjectid (d, d.holdsOn) e = some (t, outstandingAfter d d.holdsOn e) :=
    useCountStep_of_ok hd
  exact ⟨(hagreed.step he.counts hstep).counted,
    (Turned.of_ok h.counted.registry he.counts.fresh hd).wellFormed h.wellFormed he.keeps⟩

end

instance (d : Daemon) : (e : DaemonEvent) → Decidable (KeepsCounts d e)
  | .playlist _ path .incrementUseCount =>
    inferInstanceAs (Decidable (∀ p ∈ d.addressee path, d.uses p + 1 < 2 ^ 32))
  | .playlist sender path .decrementUseCount =>
    inferInstanceAs (Decidable (∀ p ∈ d.addressee path, p ∈ d.heldBy sender))
  | .playlist _ _ (.edit _) | .playlist _ _ (.play _) | .playlist _ _ (.setName _) | .destroy _ _ | .list _ _
  | .imported _ (some _) | .disconnected _ => .isTrue fun h => h.elim
  | .create _ _ | .duplicate _ _ _ | .imported _ none =>
    decidable_of_iff (d.playlists.lookup d.lastId = none) ⟨fun h _ => h, fun h => h trivial⟩

instance : (e : DaemonEvent) → Decidable e.Named
  | .imported data none => inferInstanceAs (Decidable (data.plUri ≠ []))
  | .create _ _ | .destroy _ _ | .duplicate _ _ _ | .list _ _ | .imported _ (some _) | .playlist _ _ _
  | .disconnected _ => .isTrue trivial

instance (d : Daemon) (e : DaemonEvent) : Decidable (e.Behaves d) :=
  decidable_of_iff (KeepsCounts d e ∧ e.Keeps d ∧ e.Named)
    ⟨fun h => ⟨h.1, h.2.1, h.2.2⟩, fun h => ⟨h.counts, h.keeps, h.named⟩⟩

/-- Two clients share a playlist while a file is imported. The one that has counted its use goes away,
then the playlist is destroyed. -/
def sharedAndImported : List DaemonEvent :=
  [.create [49] [112], .playlist [49] [49] .incrementUseCount,
    .playlist [50] [49] (.edit (.appendItem [[97], [98], [99]])), .playlist [50] [49] (.play .shuffle),
    .imported { plUri := [112], sender := [50], importId := 7, urilist := [[100]], listFromBrowse := true } none,
    .playlist [49] [49] (.play (.getStarting 0)), .destroy [50] 1, .disconnected [49], .destroy [50] 1]

end MafwShared
