import MafwShared.Lib.Index
import MafwShared.Lib.Runs
import MafwShared.PlaylistManagerWrapper
import MafwShared.Proofs.PlaylistEdits

/-!
# What one turn of the daemon can do

`Registry` says that both trees index exactly the live playlists, by id and by name.
`Turned` lists the ways in which a handled event can change the daemon, and
`handle_turned` shows that there are no others. The invariants of whole runs are proved
from `Turned`, without looking at the handlers again.
-/

namespace MafwShared
open CLib

/-! ### Operations that keep what the registry looks at -/

/-- Same id, same name, same use count. -/
structure SameIdentity (p q : Pls) : Prop where
  id_eq : q.id = p.id
  name_eq : q.name = p.name
  useCount_eq : q.useCount = p.useCount

namespace SameIdentity

lemma refl (p : Pls) : SameIdentity p p := ⟨rfl, rfl, rfl⟩

lemma trans {p q r : Pls} (h : SameIdentity p q) (h' : SameIdentity q r) : SameIdentity p r :=
  ⟨h'.id_eq.trans h.id_eq, h'.name_eq.trans h.name_eq, h'.useCount_eq.trans h.useCount_eq⟩

end SameIdentity

lemma plsInserts_identity {p q : Pls} {idx : Nat} {oids : List Bytes} {b : Bool}
    (h : plsInserts p idx oids = some (b, q)) : SameIdentity p q := by
  unfold plsInserts at h
  split at h
  · cases h
    exact .refl p
  · split at h
    · cases h
      exact .refl p
    · obtain ⟨p', hp', hq⟩ := Option.map_eq_some_iff.mp h
      obtain ⟨heq, -, -⟩ := maybeRealloc_spec hp'
      have hp : SameIdentity p p' := by
        rw [heq]
        exact ⟨rfl, rfl, rfl⟩
      refine hp.trans ?_
      obtain ⟨-, rfl⟩ := Prod.mk.inj hq
      dsimp only
      split
      · rw [appendIndices_eq, raiseIndices_eq]
        exact ⟨rfl, rfl, rfl⟩
      · exact ⟨rfl, rfl, rfl⟩

lemma plsRemove_identity (p : Pls) (idx : Nat) : SameIdentity p (plsRemove p idx).2 := by
  unfold plsRemove
  split
  · exact .refl p
  · dsimp only
    split
    · have h := removeShuffled_frame { p with vidx := memmove p.vidx idx (idx + 1) (p.len - idx - 1) } idx
      refine ⟨?_, ?_, ?_⟩
      · exact (congrArg Pls.id h :)
      · exact (congrArg Pls.name h :)
      · exact (congrArg Pls.useCount h :)
    · exact ⟨rfl, rfl, rfl⟩

lemma plsMove_identity (p : Pls) (src dst : Nat) : SameIdentity p (plsMove p src dst).2 := by
  unfold plsMove
  split
  · exact .refl p
  · split <;> exact ⟨rfl, rfl, rfl⟩

lemma handleEdit_identity {sender : Client} {plid : Nat} {p q : Pls} {m : EditMember} {sent : List Sent}
    (h : handleEdit sender plid p m = some (q, sent)) : SameIdentity p q := by
  cases m with
  | insertItem index objectids =>
    obtain ⟨⟨b, q'⟩, hins, hq⟩ := Option.map_eq_some_iff.mp h
    obtain ⟨rfl, -⟩ := Prod.mk.inj hq
    exact plsInserts_identity hins
  | appendItem objectids =>
    obtain ⟨⟨b, q'⟩, hins, hq⟩ := Option.map_eq_some_iff.mp h
    obtain ⟨rfl, -⟩ := Prod.mk.inj hq
    exact plsInserts_identity hins
  | removeItem index =>
    have hid := plsRemove_identity p index
    unfold handleEdit at h
    dsimp only at h
    split at h
    · cases h
      exact hid
    · cases h
      exact hid
  | move src dst =>
    have hid := plsMove_identity p src dst
    unfold handleEdit at h
    dsimp only at h
    split at h
    · cases h
      exact hid
    · cases h
      exact hid
  | clear =>
    cases h
    exact ⟨rfl, rfl, rfl⟩

lemma Redrawn.identity {p q : Pls} (h : Redrawn p q) : SameIdentity p q := by
  refine ⟨?_, ?_, ?_⟩
  · exact (congrArg Pls.id h.frame :)
  · exact (congrArg Pls.name h.frame :)
  · exact (congrArg Pls.useCount h.frame :)

lemma handlePlay_identity (sender : Client) (plid : Nat) (p : Pls) (r : Draws) (m : PlayMember) :
    SameIdentity p (handlePlay sender plid p r m).1 := by
  cases m with
  | getName | getRepeat | isShuffled | getItem | getSize => exact .refl p
  | setRepeat => exact ⟨rfl, rfl, rfl⟩
  | shuffle =>
    have hloop : ∀ n, SameIdentity p (forUpto n (fun i (q : Pls) =>
        { q with pidx := Function.update q.pidx i i, iidx := Function.update q.iidx i i })
        { p with pidx := nullArray, iidx := nullArray }) := fun n =>
      forUpto_invariant (fun _ q => SameIdentity p q) ⟨rfl, rfl, rfl⟩
        (fun _ _ _ h => h.trans ⟨rfl, rfl, rfl⟩)
    simp only [handlePlay, plsShuffle]
    split
    · exact (hloop p.len).trans ⟨rfl, rfl, rfl⟩
    · exact ⟨rfl, rfl, rfl⟩
  | unshuffle =>
    simp only [handlePlay, plsUnshuffle]
    split
    · exact ⟨rfl, rfl, rfl⟩
    · exact .refl p
  | getItems startIndex endIndex =>
    simp only [handlePlay]
    split <;> exact .refl p
  | getStarting index => exact (plsGetStarting_step ⟨p, r, index, none⟩).redrawn.identity
  | getLast index => exact (plsGetLast_step ⟨p, r, index, none⟩).redrawn.identity
  | getNext index => exact (plsGetNext_step ⟨p, r, index, none⟩).redrawn.identity
  | getPrev index => exact (plsGetPrev_step ⟨p, r, index, none⟩).redrawn.identity

/-! ### The two trees -/

/-- Both trees index exactly the live playlists. -/
structure Registry (d : Daemon) : Prop where
  byId : Indexes Pls.id d.heap d.playlists
  byName : Indexes Pls.name d.heap d.playlistsByName
  name_ne : ∀ p pls, d.heap p = some pls → pls.name ≠ []
  fresh : ∀ p, (d.heap p).isSome → p < d.brk

/-- A new playlist with the next id. -/
def Daemon.added (d : Daemon) (pls : Pls) : Daemon :=
  { d with
    heap := Function.update d.heap d.brk (some pls)
    brk := d.brk + 1
    playlists := d.playlists.insert pls.id d.brk
    playlistsByName := d.playlistsByName.insert pls.name d.brk
    lastId := (d.lastId + 1) % 2 ^ 32 }

def Daemon.renamed (d : Daemon) (p : Ptr) (old : Pls) (name : Bytes) : Daemon :=
  { d with
    heap := Function.update d.heap p (some { old with name := name, dirty := true })
    playlistsByName := (d.playlistsByName.erase old.name).insert name p }

def Daemon.removed (d : Daemon) (p : Ptr) (pls : Pls) : Daemon :=
  { d with
    heap := Function.update d.heap p none
    playlists := d.playlists.erase pls.id
    playlistsByName := d.playlistsByName.erase pls.name }

namespace Registry
variable {d : Daemon}

lemma heap_brk (h : Registry d) : d.heap d.brk = none := eq_none_of_fresh h.fresh

lemma congr {d' : Daemon} (h : Registry d) (hheap : d'.heap = d.heap) (hbrk : d'.brk = d.brk)
    (hid : d'.playlists = d.playlists) (hname : d'.playlistsByName = d.playlistsByName) : Registry d' := by
  refine ⟨?_, ?_, ?_, ?_⟩
  · rw [hheap, hid]
    exact h.byId
  · rw [hheap, hname]
    exact h.byName
  · rw [hheap]
    exact h.name_ne
  · rw [hheap, hbrk]
    exact h.fresh

lemma update_live (h : Registry d) {p : Ptr} {y : Pls} {brk : Ptr} (hne : y.name ≠ []) (hp : p < brk)
    (hbrk : d.brk ≤ brk) :
    (∀ q x, Function.update d.heap p (some y) q = some x → x.name ≠ []) ∧
      ∀ q, (Function.update d.heap p (some y) q).isSome → q < brk := by
  refine ⟨fun q x hx => ?_, fun q hq => ?_⟩
  · rcases of_update_some hx with ⟨-, rfl⟩ | ⟨-, hx⟩
    · exact hne
    · exact h.name_ne q x hx
  · by_cases hqp : q = p
    · rw [hqp]
      exact hp
    · rw [Function.update_of_ne hqp] at hq
      exact (h.fresh q hq).trans_le hbrk

lemma write (h : Registry d) {p : Ptr} {old pls : Pls} (hp : d.heap p = some old)
    (hid : pls.id = old.id) (hname : pls.name = old.name) : Registry (d.write p pls) := by
  have hlive := h.update_live (p := p) (y := pls) (hname ▸ h.name_ne p old hp)
    (h.fresh p (by rw [hp]; rfl)) le_rfl
  exact ⟨h.byId.store hp hid, h.byName.store hp hname, hlive.1, hlive.2⟩

lemma added (h : Registry d) {pls : Pls} (hid : d.playlists.lookup pls.id = none)
    (hname : d.playlistsByName.lookup pls.name = none) (hne : pls.name ≠ []) : Registry (d.added pls) := by
  have hlive := h.update_live hne (Nat.lt_succ_self d.brk) (Nat.le_succ d.brk)
  exact ⟨h.byId.insert h.heap_brk hid, h.byName.insert h.heap_brk hname, hlive.1, hlive.2⟩

lemma renamed (h : Registry d) {p : Ptr} {old : Pls} (hp : d.heap p = some old) {name : Bytes}
    (hname : d.playlistsByName.lookup name = none) (hne : name ≠ []) : Registry (d.renamed p old name) := by
  have hlive := h.update_live (p := p) (y := { old with name := name, dirty := true }) hne
    (h.fresh p (by rw [hp]; rfl)) le_rfl
  exact ⟨h.byId.store hp rfl, h.byName.rekey hp hname, hlive.1, hlive.2⟩

lemma removed (h : Registry d) {p : Ptr} {pls : Pls} (hp : d.heap p = some pls) :
    Registry (d.removed p pls) := by
  refine ⟨h.byId.erase hp, h.byName.erase hp, fun q x hx => h.name_ne q x (of_update_none hx).2,
    fun q hq => ?_⟩
  obtain ⟨x, hx⟩ := Option.isSome_iff_exists.mp hq
  exact h.fresh q (by rw [(of_update_none hx).2]; rfl)

end Registry

/-! ### The turns -/

/-- The ids that `playlist_created` was sent for. -/
def createdIds (sent : List Sent) : List Nat :=
  sent.filterMap fun
    | .signal (.playlistCreated id) => some id
    | _ => none

/-- The ids that `playlist_destroyed` was sent for. -/
def destroyedIds (sent : List Sent) : List Nat :=
  sent.filterMap fun
    | .signal (.playlistDestroyed id) => some id
    | _ => none

/-- Nobody is told that a playlist has come or gone. -/
def Quiet (sent : List Sent) : Prop := createdIds sent = [] ∧ destroyedIds sent = []

/-- The playlists that an event can add. -/
inductive Fresh (createObjectid : Bytes → Bytes) (d : Daemon) : DaemonEvent → Pls → Prop
  | created {sender name pls} : plsNew false d.lastId name = some pls →
      Fresh createObjectid d (.create sender name) pls
  | duplicated {sender srcId newName p src pls} : d.playlists.lookup srcId = some p →
      d.heap p = some src → plsNew false d.lastId newName = some pls →
      Fresh createObjectid d (.duplicate sender srcId newName) (duplicateFields pls src)
  | imported {data name new pls} :
      d.freeName data.plUri (d.playlistsByName.entries.length + 1) 0 = some name →
      plsNew false d.lastId name = some new →
      appendAll (if data.listFromBrowse then data.urilist else data.urilist.map createObjectid) new =
        some pls → Fresh createObjectid d (.imported data none) pls

/-- How an event that is handled can change the daemon, and what is sent about it. -/
inductive Turned (createObjectid : Bytes → Bytes) (d : Daemon) : DaemonEvent → Daemon → List Sent → Prop
  | kept {e sent} : Quiet sent → Turned createObjectid d e d sent
  | edited {sender path m p old pls sent} : d.playlists.lookup (atoi path) = some p →
      d.heap p = some old → handleEdit sender (atoi path) old m = some (pls, sent) →
      Turned createObjectid d (.playlist sender path (.edit m)) (d.write p pls) sent
  | played {sender path m p old pls r sent} : d.playlists.lookup (atoi path) = some p →
      d.heap p = some old → handlePlay sender (atoi path) old d.draws m = (pls, r, sent) →
      Turned createObjectid d (.playlist sender path (.play m)) { d.write p pls with draws := r } sent
  | renamed {sender path name p old} : d.playlists.lookup (atoi path) = some p →
      d.heap p = some old → d.playlistsByName.lookup name = none → name ≠ [] →
      Turned createObjectid d (.playlist sender path (.setName name)) (d.renamed p old name)
        [sendPropertyChanged (atoi path) .name]
  | incremented {sender path p old} : d.playlists.lookup (atoi path) = some p → d.heap p = some old →
      Turned createObjectid d (.playlist sender path .incrementUseCount)
        ((d.write p (plsIncrement old)).storeUsecountHolder sender p) [ackOrError sender none]
  | decremented {sender path p old} : d.playlists.lookup (atoi path) = some p → d.heap p = some old →
      Turned createObjectid d (.playlist sender path .decrementUseCount)
        ((d.write p (plsDecrement old)).removeUsecountHolder sender p) [ackOrError sender none]
  | released {client d'} : d.handleUsecountHolderMsgs client [] = .ok d' →
      Turned createObjectid d (.disconnected client) d' []
  | added {e pls sent} : Fresh createObjectid d e pls → d.playlistsByName.lookup pls.name = none →
      createdIds sent = [d.lastId] → destroyedIds sent = [] →
      Turned createObjectid d e (d.added pls) sent
  | removed {sender p pls} : d.heap p = some pls → pls.useCount = 0 →
      Turned createObjectid d (.destroy sender pls.id) (d.removed p pls) [.signal (.playlistDestroyed pls.id)]

/-- The events that may add a playlist. -/
def DaemonEvent.Creates : DaemonEvent → Prop
  | .create _ _ => True
  | .duplicate _ _ _ => True
  | .imported _ none => True
  | _ => False

/-- The ways in which an event may not be handled to its end. -/
def Excusable (e : DaemonEvent) : Crash → Prop
  | .assertion => False
  | .nullDeref => ∃ data, e = .imported data none ∧ data.plUri = []
  | .useAfterFree => ∃ client, e = .disconnected client
  | .noReturn => True

/-- The outcome of an event. -/
def Outcome (createObjectid : Bytes → Bytes) (d : Daemon) (e : DaemonEvent)
    (r : Except Crash (Daemon × List Sent)) : Prop :=
  match r with
  | .ok (d', sent) => Turned createObjectid d e d' sent
  | .error c => Excusable e c

section
variable {createObjectid : Bytes → Bytes} {d : Daemon}

lemma plsNew_eq {id : Nat} {name : Bytes} {pls : Pls} (h : plsNew false id name = some pls) :
    name ≠ [] ∧ pls.id = id ∧ pls.name = name ∧ pls.useCount = 0 := by
  unfold plsNew plsSetName at h
  by_cases hn : name = []
  · rw [if_pos hn] at h
    cases h
  · simp only [hn, if_false, Option.some.injEq] at h
    subst h
    exact ⟨hn, rfl, rfl, rfl⟩

lemma plsNew_isSome (id : Nat) {name : Bytes} (h : name ≠ []) : ∃ pls, plsNew false id name = some pls := by
  unfold plsNew
  rw [if_neg h]
  exact ⟨_, rfl⟩

lemma duplicateFields_identity (new src : Pls) : SameIdentity new (duplicateFields new src) := by
  unfold duplicateFields
  dsimp only
  split <;> exact ⟨rfl, rfl, rfl⟩

lemma appendAll_identity {oids : List Bytes} {p q : Pls} (h : appendAll oids p = some q) :
    SameIdentity p q := by
  induction oids generalizing p with
  | nil =>
    cases h
    exact .refl _
  | cons oid oids ih =>
    obtain ⟨⟨b, p'⟩, hp, hrest⟩ := Option.bind_eq_some_iff.mp h
    exact (plsInserts_identity hp).trans (ih hrest)

lemma Fresh.identity {e : DaemonEvent} {pls : Pls} (h : Fresh createObjectid d e pls) :
    pls.id = d.lastId ∧ pls.name ≠ [] ∧ pls.useCount = 0 := by
  cases h with
  | created hnew =>
    obtain ⟨hne, hid, hname, hu⟩ := plsNew_eq hnew
    exact ⟨hid, by rwa [hname], hu⟩
  | @duplicated _ _ _ _ src new _ _ hnew =>
    obtain ⟨hne, hid, hname, hu⟩ := plsNew_eq hnew
    have hsame := duplicateFields_identity new src
    exact ⟨hsame.id_eq.trans hid, by rwa [hsame.name_eq, hname], hsame.useCount_eq.trans hu⟩
  | imported _ hnew hall =>
    obtain ⟨hne, hid, hname, hu⟩ := plsNew_eq hnew
    have hsame := appendAll_identity hall
    exact ⟨hsame.id_eq.trans hid, by rwa [hsame.name_eq, hname], hsame.useCount_eq.trans hu⟩

lemma insert_added {pls : Pls} (hfresh : d.playlists.lookup pls.id = none) :
    ((d.nextId.2.malloc pls).2.insertPlaylist pls.id (d.nextId.2.malloc pls).1).insertName pls.name
      (d.nextId.2.malloc pls).1 = d.added pls := by
  have hlookup : (d.nextId.2.malloc pls).2.playlists.lookup pls.id = none := hfresh
  rw [Daemon.insertPlaylist, hlookup]
  rfl

lemma addPlaylist_eq {name : Bytes} (hfresh : d.playlists.lookup d.lastId = none) {pls : Pls}
    (hnew : plsNew false d.lastId name = some pls) : d.addPlaylist name = .ok (pls, d.brk, d.added pls) := by
  have hid := (plsNew_eq hnew).2.1
  have hnext : plsNew false d.nextId.1 name = some pls := hnew
  rw [Daemon.addPlaylist]
  simp only [hnext]
  rw [insert_added (by rw [hid]; exact hfresh)]
  rfl

lemma deref_eq {p : Ptr} {pls : Pls} (h : d.heap p = some pls) : d.deref p = .ok pls := by
  rw [Daemon.deref, h]

lemma Registry.deref_id (h : Registry d) {id : Nat} {p : Ptr} (hp : d.playlists.lookup id = some p) :
    ∃ pls, d.heap p = some pls ∧ d.deref p = .ok pls ∧ pls.id = id := by
  obtain ⟨pls, hpls, hid⟩ := (h.byId id p).mp hp
  exact ⟨pls, hpls, deref_eq hpls, hid⟩

lemma createPlaylist_outcome (h : Registry d) (hfresh : d.playlists.lookup d.lastId = none)
    (sender : Client) (name : Bytes) :
    Outcome createObjectid d (.create sender name) (d.createPlaylist sender name) := by
  unfold Daemon.createPlaylist
  by_cases hn : name = []
  · rw [if_pos hn]
    exact .kept ⟨rfl, rfl⟩
  · rw [if_neg hn]
    cases hl : d.playlistsByName.lookup name with
    | some p =>
      obtain ⟨pls, hpls, -⟩ := (h.byName name p).mp hl
      simp only [deref_eq hpls, bind, Except.bind]
      exact .kept ⟨rfl, rfl⟩
    | none =>
      obtain ⟨pls, hnew⟩ := plsNew_isSome d.lastId hn
      obtain ⟨-, hid, hname, -⟩ := plsNew_eq hnew
      simp only [addPlaylist_eq hfresh hnew, bind, Except.bind]
      refine .added (.created hnew) (by rwa [hname]) ?_ rfl
      rw [← hid]
      rfl

lemma destroyPlaylist_outcome (h : Registry d) (sender : Client) (id : Nat) :
    Outcome createObjectid d (.destroy sender id) (d.destroyPlaylist id) := by
  unfold Daemon.destroyPlaylist
  cases hl : d.playlists.lookup id with
  | none => exact .kept ⟨rfl, rfl⟩
  | some p =>
    obtain ⟨pls, hpls, hderef, rfl⟩ := h.deref_id hl
    simp only [hderef, bind, Except.bind, ne_eq, not_true_eq_false, if_false]
    by_cases hu : pls.useCount = 0
    · have hname : d.playlistsByName.lookup pls.name = some p := h.byName.lookup hpls
      simp only [hu, not_true_eq_false, if_false, Daemon.removeName, hname, Option.isSome_some,
        Bool.true_eq_false, Daemon.removePlaylist, hl]
      exact .removed hpls hu
    · simp only [hu, not_false_eq_true, if_true]
      exact .kept ⟨rfl, rfl⟩

lemma duplicatePlaylist_outcome (h : Registry d) (hfresh : d.playlists.lookup d.lastId = none)
    (sender : Client) (srcId : Nat) (newName : Bytes) :
    Outcome createObjectid d (.duplicate sender srcId newName) (d.duplicatePlaylist sender srcId newName) := by
  unfold Daemon.duplicatePlaylist
  by_cases hn : newName = []
  · rw [if_pos hn]
    exact .kept ⟨rfl, rfl⟩
  · rw [if_neg hn]
    cases hname : d.playlistsByName.lookup newName with
    | some p =>
      rw [if_pos Option.isSome_some]
      exact .kept ⟨rfl, rfl⟩
    | none =>
      rw [if_neg (by simp)]
      cases hl : d.playlists.lookup srcId with
      | none => exact .kept ⟨rfl, rfl⟩
      | some p =>
        obtain ⟨src, hsrc, hderef, -⟩ := h.deref_id hl
        obtain ⟨new, hnew⟩ := plsNew_isSome d.lastId hn
        have hnext : plsNew false d.nextId.1 newName = some new := hnew
        have hf : Fresh createObjectid d (.duplicate sender srcId newName) (duplicateFields new src) :=
          .duplicated hl hsrc hnew
        obtain ⟨hid, -, -⟩ := hf.identity
        have hnm : (duplicateFields new src).name = newName :=
          (duplicateFields_identity new src).name_eq.trans (plsNew_eq hnew).2.2.1
        simp only [hderef, bind, Except.bind, hnext]
        rw [insert_added (by rw [hid]; exact hfresh)]
        refine .added hf (by rwa [hnm]) ?_ rfl
        rw [← hid]
        rfl

lemma freeName_first {plUri name : Bytes} {fuel count : Nat} (h : d.freeName plUri fuel count = some name) :
    name ∉ d.playlistsByName ∧ ∃ c, name = importName plUri c ∧
      ∀ k, count ≤ k → k < c → importName plUri k ∈ d.playlistsByName := by
  induction fuel generalizing count with
  | zero => cases h
  | succ fuel ih =>
    rw [Daemon.freeName] at h
    by_cases hl : (d.playlistsByName.lookup (importName plUri count)).isSome
    · rw [if_pos hl] at h
      obtain ⟨hfree, c, hc, htaken⟩ := ih h
      refine ⟨hfree, c, hc, fun k h1 h2 => ?_⟩
      by_cases hk : k = count
      · rw [hk]
        exact AList.lookup_isSome.mp hl
      · exact htaken k (by omega) h2
    · rw [if_neg hl] at h
      cases h
      exact ⟨fun hmem => hl (AList.lookup_isSome.mpr hmem), count, rfl, fun k h1 h2 => absurd h2 (by omega)⟩

lemma freeName_eq {plUri name : Bytes} {fuel count : Nat} (h : d.freeName plUri fuel count = some name) :
    d.playlistsByName.lookup name = none ∧ ∃ c, name = importName plUri c := by
  obtain ⟨hfree, c, hc, -⟩ := freeName_first h
  exact ⟨AList.lookup_eq_none.mpr hfree, c, hc⟩

lemma importName_ne {plUri : Bytes} (h : plUri ≠ []) (count : Nat) : importName plUri count ≠ [] := by
  unfold importName
  split
  · exact h
  · simp

lemma added_write {new pls : Pls} (h : SameIdentity new pls) :
    (d.added new).write d.brk pls = d.added pls := by
  simp only [Daemon.added, Daemon.write, Function.update_idem, h.id_eq, h.name_eq]

lemma importDone_outcome (data : PlparseData) (err : Option GError)
    (hfresh : (DaemonEvent.imported data err).Creates → d.playlists.lookup d.lastId = none) :
    Outcome createObjectid d (.imported data err) (d.importDone createObjectid data err) := by
  unfold Daemon.importDone
  cases err with
  | some err => exact .kept ⟨rfl, rfl⟩
  | none =>
    cases hf : d.freeName data.plUri (d.playlistsByName.entries.length + 1) 0 with
    | none => exact trivial
    | some name =>
      obtain ⟨hname, count, hcount⟩ := freeName_eq hf
      cases hnew : plsNew false d.lastId name with
      | none =>
        have hnext : plsNew false d.nextId.1 name = none := hnew
        simp only [Daemon.addPlaylist, hnext, bind, Except.bind]
        refine ⟨data, rfl, ?_⟩
        by_contra huri
        obtain ⟨pls, hpls⟩ := plsNew_isSome d.lastId (hcount ▸ importName_ne huri count)
        rw [hnew] at hpls
        cases hpls
      | some new =>
        simp only [addPlaylist_eq (hfresh trivial) hnew, bind, Except.bind]
        cases hall : appendAll (if data.listFromBrowse then data.urilist else data.urilist.map createObjectid)
            new with
        | none => exact trivial
        | some pls =>
          have hsame := appendAll_identity hall
          have hfr : Fresh createObjectid d (.imported data none) pls := .imported hf hnew hall
          simp only [added_write hsame]
          refine .added hfr ?_ ?_ rfl
          · rw [hsame.name_eq, (plsNew_eq hnew).2.2.1]
            exact hname
          · rw [← hfr.identity.1]
            rfl

lemma handleEdit_quiet {sender : Client} {plid : Nat} {p q : Pls} {m : EditMember} {sent : List Sent}
    (h : handleEdit sender plid p m = some (q, sent)) : Quiet sent := by
  have hack : ∀ (err : Option (PlaylistError × String)) (a b c : Nat),
      Quiet [ackOrError sender err, sendContentsChanged plid a b c] := by
    intro err a b c
    cases err <;> exact ⟨rfl, rfl⟩
  cases m with
  | insertItem index objectids =>
    obtain ⟨⟨b, q'⟩, -, hq⟩ := Option.map_eq_some_iff.mp h
    obtain ⟨-, rfl⟩ := Prod.mk.inj hq
    exact hack _ _ _ _
  | appendItem objectids =>
    obtain ⟨⟨b, q'⟩, -, hq⟩ := Option.map_eq_some_iff.mp h
    obtain ⟨-, rfl⟩ := Prod.mk.inj hq
    exact hack _ _ _ _
  | removeItem index =>
    unfold handleEdit at h
    dsimp only at h
    split at h <;> cases h <;> exact ⟨rfl, rfl⟩
  | move src dst =>
    unfold handleEdit at h
    dsimp only at h
    split at h <;> cases h <;> exact ⟨rfl, rfl⟩
  | clear =>
    cases h
    exact hack none _ _ _

lemma handlePlay_quiet (sender : Client) (plid : Nat) (p : Pls) (r : Draws) (m : PlayMember) :
    Quiet (handlePlay sender plid p r m).2.2 := by
  cases m with
  | getItems startIndex endIndex =>
    simp only [handlePlay]
    split <;> exact ⟨rfl, rfl⟩
  | getName | setRepeat | getRepeat | shuffle | isShuffled | unshuffle | getItem | getStarting | getLast
  | getNext | getPrev | getSize => exact ⟨rfl, rfl⟩

lemma handlePlaylistRequest_outcome (h : Registry d) (sender : Client) (path : Bytes) (member : Member) :
    Outcome createObjectid d (.playlist sender path member) (handlePlaylistRequest d sender path member) := by
  unfold handlePlaylistRequest
  by_cases h0 : atoi path = 0
  · rw [if_pos h0]
    exact .kept ⟨rfl, rfl⟩
  · rw [if_neg h0]
    cases hl : d.playlists.lookup (atoi path) with
    | none => exact .kept ⟨rfl, rfl⟩
    | some p =>
      obtain ⟨old, hold, hderef, hid⟩ := h.deref_id hl
      simp only [hderef, bind, Except.bind]
      cases member with
      | setName name =>
        cases hname : d.playlistsByName.lookup name with
        | some q =>
          simp only [hname, Option.isSome_some, if_true]
          exact .kept ⟨rfl, rfl⟩
        | none =>
          by_cases hn : name = []
          · simp only [hname, Option.isSome_none, hn, plsSetName, if_true, Bool.false_eq_true, if_false]
            exact .kept ⟨rfl, rfl⟩
          · have hrem : (d.playlistsByName.lookup old.name).isSome := by
              rw [h.byName.lookup hold]
              rfl
            simp only [hname, Option.isSome_none, hn, plsSetName, Bool.false_eq_true, if_false,
              Daemon.removeName, Daemon.write, hrem, if_true]
            exact .renamed hl hold hname hn
      | incrementUseCount => exact .incremented hl hold
      | decrementUseCount => exact .decremented hl hold
      | edit m =>
        cases hedit : handleEdit sender (atoi path) old m with
        | none =>
          simp only [hedit]
          exact trivial
        | some r =>
          simp only [hedit]
          exact .edited hl hold hedit
      | play m => exact .played hl hold rfl

lemma mapM_appendPls {l : List Ptr} (hl : ∀ p ∈ l, (d.heap p).isSome) :
    ∃ found, l.mapM d.appendPls = .ok found := by
  induction l with
  | nil => exact ⟨[], rfl⟩
  | cons p l ih =>
    obtain ⟨found, hfound⟩ := ih (fun q hq => hl q (List.mem_cons_of_mem _ hq))
    obtain ⟨pls, hpls⟩ := Option.isSome_iff_exists.mp (hl p List.mem_cons_self)
    refine ⟨(pls.id, pls.name) :: found, ?_⟩
    simp only [List.mapM_cons, Daemon.appendPls, deref_eq hpls, bind, Except.bind, pure, Except.pure]
    rw [show l.mapM (fun p => d.appendPls p) = _ from hfound]

lemma listPlaylists_outcome (h : Registry d) (sender : Client) (ids : Option (List Nat)) :
    Outcome createObjectid d (.list sender ids) (d.listPlaylists sender ids) := by
  have hlive : ∀ id p, d.playlists.lookup id = some p → (d.heap p).isSome := by
    intro id p hp
    obtain ⟨pls, hpls, -⟩ := (h.byId id p).mp hp
    rw [hpls]
    rfl
  unfold Daemon.listPlaylists
  cases ids with
  | some ids =>
    obtain ⟨found, hfound⟩ := mapM_appendPls (l := ids.filterMap fun id => d.playlists.lookup id) (by
      intro p hp
      obtain ⟨id, -, hl⟩ := List.mem_filterMap.mp hp
      exact hlive id p hl)
    simp only [hfound, bind, Except.bind]
    exact .kept ⟨rfl, rfl⟩
  | none =>
    obtain ⟨found, hfound⟩ := mapM_appendPls (l := d.playlists.entries.map fun e => e.2) (by
      intro p hp
      obtain ⟨e, he, rfl⟩ := List.mem_map.mp hp
      exact hlive e.1 e.2 (AList.mem_lookup_iff.mpr he))
    simp only [hfound, bind, Except.bind]
    exact .kept ⟨rfl, rfl⟩

lemma releaseAll_invariant {d' : Daemon} (P : Daemon → Prop)
    (hwrite : ∀ d p pls, P d → d.heap p = some pls → P (d.write p (plsDecrement pls))) {l : List Ptr} (h : P d)
    (hr : d.releaseAll l = .ok d') : P d' := by
  induction l generalizing d with
  | nil =>
    cases hr
    exact h
  | cons p l ih =>
    rw [Daemon.releaseAll, Daemon.deref] at hr
    cases hp : d.heap p with
    | none =>
      rw [hp] at hr
      cases hr
    | some pls =>
      rw [hp] at hr
      exact ih (hwrite d p pls h hp) hr

lemma handleUsecountHolderMsgs_invariant {d' : Daemon} (P : Daemon → Prop)
    (hwrite : ∀ d p pls, P d → d.heap p = some pls → P (d.write p (plsDecrement pls)))
    (hforget : ∀ d client, P d → P (d.unregisterRequestor client)) {client newname : Client} (h : P d)
    (hr : d.handleUsecountHolderMsgs client newname = .ok d') : P d' := by
  unfold Daemon.handleUsecountHolderMsgs at hr
  split at hr
  · cases hr
    exact h
  · split at hr
    · split at hr
      · cases hr
        exact h
      · cases hr
        exact h
      · obtain ⟨d1, hrel, hd⟩ := bind_ok hr
        cases hd
        exact hforget d1 client (releaseAll_invariant P hwrite h hrel)
    · cases hr
      exact h

lemma releaseAll_error {l : List Ptr} {c : Crash} (h : d.releaseAll l = .error c) : c = .useAfterFree := by
  induction l generalizing d with
  | nil => cases h
  | cons p l ih =>
    rw [Daemon.releaseAll, Daemon.deref] at h
    cases hp : d.heap p with
    | none =>
      rw [hp] at h
      exact (Except.error.inj h).symm
    | some pls =>
      rw [hp] at h
      exact ih h

lemma disconnected_outcome (client : Client) : Outcome createObjectid d (.disconnected client)
    (d.handleUsecountHolderMsgs client [] >>= fun d => .ok (d, [])) := by
  cases hr : d.handleUsecountHolderMsgs client [] with
  | ok d' => exact .released hr
  | error c =>
    have hc : c = .useAfterFree := by
      unfold Daemon.handleUsecountHolderMsgs at hr
      rw [if_neg (by simp)] at hr
      split at hr
      · split at hr
        · cases hr
        · cases hr
        · rename_i p pllist _
          cases hrel : d.releaseAll (p :: pllist) with
          | ok d' =>
            rw [hrel] at hr
            cases hr
          | error c' =>
            rw [hrel] at hr
            cases hr
            exact releaseAll_error hrel
      · cases hr
    rw [hc]
    exact ⟨client, rfl⟩

/-- Every event that is handled changes the daemon in one of the ways of `Turned`, and the
assertions of the handlers hold, as long as a new playlist finds its id unused. -/
theorem handle_turned (h : Registry d) {e : DaemonEvent}
    (hfresh : e.Creates → d.playlists.lookup d.lastId = none) :
    Outcome createObjectid d e (d.handle createObjectid e) := by
  cases e with
  | create sender name => exact createPlaylist_outcome h (hfresh trivial) sender name
  | destroy sender id => exact destroyPlaylist_outcome h sender id
  | duplicate sender srcId newName => exact duplicatePlaylist_outcome h (hfresh trivial) sender srcId newName
  | list sender ids => exact listPlaylists_outcome h sender ids
  | imported data err => exact importDone_outcome data err hfresh
  | playlist sender path member => exact handlePlaylistRequest_outcome h sender path member
  | disconnected client => exact disconnected_outcome client

lemma Turned.of_ok (h : Registry d) {e : DaemonEvent}
    (hfresh : e.Creates → d.playlists.lookup d.lastId = none) {d' : Daemon} {sent : List Sent}
    (he : d.handle createObjectid e = .ok (d', sent)) : Turned createObjectid d e d' sent := by
  have hout : Outcome createObjectid d e (d.handle createObjectid e) := handle_turned h hfresh
  rw [he] at hout
  exact hout

lemma Fresh.creates {e : DaemonEvent} {pls : Pls} (h : Fresh createObjectid d e pls) : e.Creates := by
  cases h <;> trivial

end

end MafwShared
