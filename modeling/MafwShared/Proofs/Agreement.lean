import MafwShared.Lib.News
import MafwShared.PlaylistManager
import MafwShared.Proofs.RegistryRuns

/-!
# The clients agree with the daemon

The signals of the daemon are news about its ids, and a client's queue of signals is a
queue of news. A reply may tell a client of an id before the signal does; what saves it is
that an id it learned of is there or its `playlist_destroyed` is still in the queue.
-/

namespace MafwShared
open CLib
open scoped List

variable {createObjectid : Bytes → Bytes} {d d' : Daemon}

/-! ### Signals as news -/

def signalNews : Signal → Option (News Nat)
  | .playlistCreated id => some (.came id)
  | .playlistDestroyed id => some (.went id)
  | _ => none

def newsOf (l : List Signal) : List (News Nat) := l.filterMap signalNews

lemma newsOf_append (l l' : List Signal) : newsOf (l ++ l') = newsOf l ++ newsOf l' := List.filterMap_append

lemma newsOf_signalsOf (sent : List Sent) :
    (destroyedIds sent = [] → newsOf (signalsOf sent) = (createdIds sent).map .came) ∧
      (createdIds sent = [] → newsOf (signalsOf sent) = (destroyedIds sent).map .went) := by
  induction sent with
  | nil => exact ⟨fun _ => rfl, fun _ => rfl⟩
  | cons m sent ih =>
    rcases m with _ | _ | s | _
    · exact ih
    · exact ih
    · cases s with
      | playlistCreated id =>
        refine ⟨fun h => ?_, fun h => ?_⟩
        · exact congrArg (News.came id :: ·) (ih.1 h)
        · cases h
      | playlistDestroyed id =>
        refine ⟨fun h => ?_, fun h => ?_⟩
        · cases h
        · exact congrArg (News.went id :: ·) (ih.2 h)
      | playlistDestructionFailed => exact ih
      | propertyChanged => exact ih
      | contentsChanged => exact ih
      | itemMoved => exact ih
    · exact ih

/-- The daemon has a playlist with the id. -/
abbrev Daemon.Has (d : Daemon) (id : Nat) : Prop := id ∈ d.playlists

/-- The ids given out so far are below the counter. -/
abbrev Daemon.Used (d : Daemon) (id : Nat) : Prop := id < d.lastId

namespace IdsTurned
variable {sent : List Sent}

lemma announced (h : IdsTurned d d' sent) : Announced d.Has d'.Has (newsOf (signalsOf sent)) := by
  cases h with
  | quiet hq hids _ =>
    rw [(newsOf_signalsOf sent).1 hq.2, hq.1]
    refine .quiet fun id => ?_
    rw [Daemon.Has, hids]
  | created hc hd hids _ =>
    rw [(newsOf_signalsOf sent).1 hd, hc]
    exact .came hids
  | destroyed _ hc hd hids _ =>
    rw [(newsOf_signalsOf sent).2 hc, hd]
    exact .went hids

/-- A turn in which the id counter does not wrap continues the chronicle. -/
lemma chronicle (h : IdsTurned d d' sent) (hwrap : d.lastId ≤ d'.lastId) {history : List (News Nat)}
    (hc : Chronicle d.Used d.Has history) :
    Chronicle d'.Used d'.Has (history ++ newsOf (signalsOf sent)) := by
  cases h with
  | quiet hq hids hlast =>
    rw [(newsOf_signalsOf sent).1 hq.2, hq.1, List.map_nil, List.append_nil]
    refine hc.quiet (fun id hid => ?_) fun id => ?_
    · rwa [Daemon.Used, hlast]
    · rw [Daemon.Has, hids]
  | created hcr hd hids hlast =>
    rw [(newsOf_signalsOf sent).1 hd, hcr]
    refine hc.came (Nat.lt_irrefl d.lastId) (fun id hid => ?_) hids
    have hlt : d.lastId < d'.lastId := by omega
    rcases hid with hid | rfl
    · exact Nat.lt_trans hid hlt
    · exact hlt
  | destroyed hmem hcr hd hids hlast =>
    rw [(newsOf_signalsOf sent).2 hcr, hd]
    refine hc.went hmem (fun id hid => ?_) hids
    rwa [Daemon.Used, hlast]

end IdsTurned

/-! ### What the manager of a client does -/

namespace PlaylistManager

def ids (m : PlaylistManager) : List Nat := m.playlists.map fun o => o.id

/-- Objects for some ids are added and nothing is emitted. -/
structure Gains (m m' : PlaylistManager) (new : List Nat) : Prop where
  emitted : m'.emitted = m.emitted
  nodup : m.ids.Nodup → m'.ids.Nodup
  mem : ∀ id ∈ m'.ids, id ∈ m.ids ∨ id ∈ new

lemma Gains.same {m m' : PlaylistManager} (hids : m'.ids = m.ids) (hemit : m'.emitted = m.emitted)
    (new : List Nat) : Gains m m' new :=
  ⟨hemit, fun h => by rwa [hids], fun id hid => Or.inl (by rwa [hids] at hid)⟩

lemma Gains.trans {m m₁ m₂ : PlaylistManager} {new new' : List Nat} (h : Gains m m₁ new)
    (h' : Gains m₁ m₂ new') : Gains m m₂ (new ++ new') := by
  refine ⟨h'.emitted.trans h.emitted, fun hn => h'.nodup (h.nodup hn), fun id hid => ?_⟩
  rw [List.mem_append, ← or_assoc]
  exact (h'.mem id hid).imp_left (h.mem id)

lemma find_none {m : PlaylistManager} {id : Nat} : m.find id = none ↔ id ∉ m.ids := by
  simp [find, ids]

lemma registerPlaylist_gains (m : PlaylistManager) (id : Nat) : Gains m (m.registerPlaylist id) [id] := by
  unfold registerPlaylist
  by_cases hf : (m.find id).isSome
  · rw [if_pos hf]
    exact .same rfl rfl _
  · rw [if_neg hf]
    have hnot : id ∉ m.ids := find_none.mp (by simpa using hf)
    have hids : ({ m with playlists := m.playlists ++ [⟨id, 1⟩] } : PlaylistManager).ids = m.ids ++ [id] := by
      simp [ids]
    refine ⟨rfl, fun hn => ?_, fun i hi => ?_⟩
    · rw [hids, ← List.concat_eq_append, List.nodup_concat]
      exact ⟨hnot, hn⟩
    · rwa [hids, List.mem_append] at hi

lemma modifyRef_ids (m : PlaylistManager) (id : Nat) (f : Nat → Nat) : (m.modifyRef id f).ids = m.ids := by
  refine List.ext_getElem? fun k => ?_
  simp only [ids, modifyRef, List.getElem?_map, List.getElem?_modify]
  cases m.playlists[k]? with
  | none => rfl
  | some o => by_cases hk : (m.playlists.findIdx fun o => o.id = id) = k <;> simp [hk]

lemma objectRef_gains (m : PlaylistManager) (id : Nat) (new : List Nat) : Gains m (m.objectRef id) new :=
  .same (m.modifyRef_ids id _) rfl new

lemma objectUnref_gains {m m' : PlaylistManager} {id : Nat} (h : m.objectUnref id = some m')
    (new : List Nat) : Gains m m' new := by
  unfold objectUnref at h
  split at h
  · cases h
    exact .same rfl rfl new
  · split at h
    · cases h
      exact .same (m.modifyRef_ids id _) rfl new
    · cases h

lemma foldl_register_gains (l : List Nat) (m : PlaylistManager) : Gains m (l.foldl registerPlaylist m) l := by
  induction l generalizing m with
  | nil => exact .same rfl rfl _
  | cons id l ih => exact (m.registerPlaylist_gains id).trans (ih _)

lemma foldl_ref_gains (l : List Nat) (m : PlaylistManager) : Gains m (l.foldl objectRef m) [] := by
  induction l generalizing m with
  | nil => exact .same rfl rfl _
  | cons id l ih => exact (m.objectRef_gains id []).trans (ih _)

lemma finish_gains (m : PlaylistManager) (c : ManagerCall) (args : List Arg) :
    Gains m (m.finish c (some args)) (c.replyIds args) := by
  have hreg := foldl_register_gains (c.replyIds args) m
  have href := hreg.trans (foldl_ref_gains (c.replyIds args) _)
  rw [List.append_nil] at href
  cases c with
  | createPlaylist name => exact href
  | dupPlaylist id newName => exact href
  | getPlaylist id => exact href
  | getPlaylists => exact hreg

lemma shortcut_gains {m m' : PlaylistManager} {c : ManagerCall} (h : m.shortcut c = some m') :
    Gains m m' [] := by
  cases c with
  | createPlaylist name => cases h
  | dupPlaylist id newName => cases h
  | getPlaylists => cases h
  | getPlaylist id =>
    simp only [shortcut] at h
    split at h
    · cases h
      exact .same rfl rfl _
    · split at h
      · cases h
        exact m.objectRef_gains id _
      · cases h

lemma dbusHandler_emitted (m : PlaylistManager) (s : Signal) :
    (m.dbusHandler s).emitted = m.emitted ∨ (m.dbusHandler s).emitted = m.emitted ++ [s] := by
  cases s with
  | playlistCreated id =>
    right
    rw [dbusHandler, emit, (m.registerPlaylist_gains id).emitted]
  | playlistDestroyed id =>
    rw [dbusHandler]
    split
    · exact Or.inl rfl
    · dsimp only
      split
      · exact Or.inr rfl
      · exact Or.inl rfl
  | playlistDestructionFailed id =>
    rw [dbusHandler]
    split
    · exact Or.inr rfl
    · exact Or.inl rfl
  | propertyChanged => exact Or.inl rfl
  | contentsChanged => exact Or.inl rfl
  | itemMoved => exact Or.inl rfl

lemma dbusHandler_created (m : PlaylistManager) (id : Nat) :
    (m.dbusHandler (.playlistCreated id)).ids = (m.registerPlaylist id).ids := rfl

lemma eraseP_ids (id : Nat) (l : List ProxyPlaylist) :
    (l.eraseP fun o => o.id = id).map (fun o => o.id) = (l.map fun o => o.id).erase id := by
  induction l with
  | nil => rfl
  | cons o l ih =>
    by_cases ho : o.id = id
    · simp [ho]
    · simp [ho, ih]

lemma dbusHandler_destroyed (m : PlaylistManager) (id : Nat) :
    (m.dbusHandler (.playlistDestroyed id)).ids = m.ids.erase id := by
  rw [dbusHandler]
  split
  · rename_i hf
    exact (List.erase_of_not_mem (find_none.mp hf)).symm
  · dsimp only
    split <;> exact eraseP_ids id m.playlists

lemma dbusHandler_ids {s : Signal} (h : signalNews s = none) (m : PlaylistManager) :
    (m.dbusHandler s).ids = m.ids := by
  cases s with
  | playlistCreated => cases h
  | playlistDestroyed => cases h
  | playlistDestructionFailed id =>
    rw [dbusHandler]
    split <;> rfl
  | propertyChanged => rfl
  | contentsChanged => rfl
  | itemMoved => rfl

end PlaylistManager

/-! ### The ids in a reply -/

lemma has_of_lookup {id : Nat} {p : Ptr} (h : d.playlists.lookup id = some p) : d.Has id := by
  rw [Daemon.Has, ← AList.lookup_isSome, h]
  rfl

lemma Registry.has_of_heap (h : Registry d) {p : Ptr} {pls : Pls} (hp : d.heap p = some pls) : d.Has pls.id :=
  has_of_lookup (h.byId.lookup hp)

lemma createPlaylist_reply (h : Registry d) (hfresh : d.playlists.lookup d.lastId = none) {sender : Client}
    {name : Bytes} {sent : List Sent} (he : d.createPlaylist sender name = .ok (d', sent)) {id : Nat}
    (hr : replyOf sent = some [.uint32 id]) : d'.Has id := by
  unfold Daemon.createPlaylist at he
  by_cases hn : name = []
  · rw [if_pos hn] at he
    cases he
    cases hr
  · rw [if_neg hn] at he
    cases hl : d.playlistsByName.lookup name with
    | some p =>
      obtain ⟨pls, hpls, -⟩ := (h.byName name p).mp hl
      simp only [hl, deref_eq hpls, bind, Except.bind] at he
      cases he
      cases hr
      exact h.has_of_heap hpls
    | none =>
      obtain ⟨pls, hnew⟩ := plsNew_isSome d.lastId hn
      simp only [hl, addPlaylist_eq hfresh hnew, bind, Except.bind] at he
      cases he
      cases hr
      exact (AList.mem_insert _).mpr (Or.inl rfl)

lemma duplicatePlaylist_reply (h : Registry d) (hfresh : d.playlists.lookup d.lastId = none) {sender : Client}
    {srcId : Nat} {newName : Bytes} {sent : List Sent}
    (he : d.duplicatePlaylist sender srcId newName = .ok (d', sent)) {id : Nat}
    (hr : replyOf sent = some [.uint32 id]) : d'.Has id := by
  unfold Daemon.duplicatePlaylist at he
  by_cases hn : newName = []
  · rw [if_pos hn] at he
    cases he
    cases hr
  · rw [if_neg hn] at he
    split at he
    · cases he
      cases hr
    · cases hl : d.playlists.lookup srcId with
      | none =>
        simp only [hl] at he
        cases he
        cases hr
      | some p =>
        obtain ⟨src, hsrc, hderef, -⟩ := h.deref_id hl
        obtain ⟨new, hnew⟩ := plsNew_isSome d.lastId hn
        have hnext : plsNew false d.nextId.1 newName = some new := hnew
        have hid : (duplicateFields new src).id = d.lastId :=
          (duplicateFields_identity new src).id_eq.trans (plsNew_eq hnew).2.1
        simp only [hl, hderef, bind, Except.bind, hnext] at he
        rw [insert_added (by rw [hid]; exact hfresh)] at he
        cases he
        cases hr
        exact (AList.mem_insert _).mpr (Or.inl rfl)

lemma appendPls_mapM (h : Registry d) {l : List Ptr} {found : List (Nat × Bytes)}
    (hm : l.mapM d.appendPls = .ok found) : found.length = l.length ∧ ∀ e ∈ found, d.Has e.1 := by
  induction l generalizing found with
  | nil =>
    cases hm
    exact ⟨rfl, fun e he => by cases he⟩
  | cons p l ih =>
    rw [List.mapM_cons] at hm
    cases hp : d.heap p with
    | none =>
      simp only [Daemon.appendPls, Daemon.deref, hp, bind, Except.bind] at hm
      cases hm
    | some pls =>
      cases hl : l.mapM d.appendPls with
      | error c =>
        simp only [Daemon.appendPls, Daemon.deref, hp, hl, bind, Except.bind] at hm
        cases hm
      | ok rest =>
        simp only [Daemon.appendPls, Daemon.deref, hp, hl, bind, Except.bind] at hm
        cases hm
        obtain ⟨hlen, hrest⟩ := ih hl
        refine ⟨by rw [List.length_cons, List.length_cons, hlen], fun e he => ?_⟩
        rcases List.mem_cons.mp he with rfl | he
        · exact h.has_of_heap hp
        · exact hrest e he

lemma listPlaylists_reply (h : Registry d) {sender : Client} {ids : Option (List Nat)} {sent : List Sent}
    (he : d.listPlaylists sender ids = .ok (d', sent)) {found : List (Nat × Bytes)}
    (hr : replyOf sent = some [.playlists found]) :
    d' = d ∧ (∀ e ∈ found, d.Has e.1) ∧
      ∀ l, ids = some l → found.length = (l.filterMap fun id => d.playlists.lookup id).length := by
  unfold Daemon.listPlaylists at he
  cases ids with
  | none =>
    obtain ⟨found', hm, hd⟩ := bind_ok he
    cases hd
    cases hr
    exact ⟨rfl, (appendPls_mapM h hm).2, fun l hl => by cases hl⟩
  | some l =>
    obtain ⟨found', hm, hd⟩ := bind_ok he
    cases hd
    cases hr
    refine ⟨rfl, (appendPls_mapM h hm).2, fun l' hl => ?_⟩
    cases hl
    exact (appendPls_mapM h hm).1

/-- Every id that a client reads from a reply is there when the reply is sent. -/
lemma replyIds_has (h : Registry d) (hfresh : d.playlists.lookup d.lastId = none) {c : ManagerCall}
    {sender : Client} {sent : List Sent} (he : d.handle createObjectid (c.request sender) = .ok (d', sent))
    {args : List Arg} (hr : replyOf sent = some args) {id : Nat} (hid : id ∈ c.replyIds args) : d'.Has id := by
  unfold ManagerCall.replyIds at hid
  split at hid
  · cases List.mem_singleton.mp hid
    exact createPlaylist_reply h hfresh he hr
  · cases List.mem_singleton.mp hid
    exact duplicatePlaylist_reply h hfresh he hr
  · cases List.mem_singleton.mp hid
    have hlist : d.listPlaylists sender (some [id]) = .ok (d', sent) := he
    obtain ⟨rfl, -, hlen⟩ := listPlaylists_reply h hlist hr
    have hsome := hlen _ rfl
    rw [List.filterMap_cons] at hsome
    split at hsome
    · cases hsome
    · rename_i hl
      exact has_of_lookup hl
  · have hlist : d.listPlaylists sender none = .ok (d', sent) := he
    obtain ⟨rfl, hall, -⟩ := listPlaylists_reply h hlist hr
    obtain ⟨e, he, rfl⟩ := List.mem_map.mp hid
    exact hall e he
  · cases hid

/-! ### One client -/

/-- What holds of a client when the daemon has announced `history`. -/
structure Follows (d : Daemon) (history : List (News Nat)) (p : Peer) : Prop where
  absent : p.started = false → p = Peer.init
  told : newsOf (p.manager.emitted ++ p.inbox) <+ history
  distinct : p.manager.ids.Nodup
  queued : Queued d.Has (newsOf p.inbox)
  held : ∀ id ∈ p.manager.ids, Owed d.Has (newsOf p.inbox) id
  answered : ∀ c args, p.progress = .answered c (some args) →
    ∀ id ∈ c.replyIds args, Owed d.Has (newsOf p.inbox) id

namespace Follows
variable {history : List (News Nat)} {p p' : Peer}

lemma fresh (b : Bool) (hs : b = false → p = Peer.init) (hp : p = { Peer.init with started := b }) :
    Follows d history p := by
  subst hp
  refine ⟨hs, List.nil_sublist _, List.nodup_nil, fun a rest h => ?_, fun id h => ?_, fun c args h => ?_⟩
  · cases List.suffix_nil.mp h
  · cases h
  · cases h

lemma init : Follows d history Peer.init := .fresh false (fun _ => rfl) rfl

lemma hear (h : Follows d history p) {sent : List Sent} (hids : IdsTurned d d' sent) :
    Follows d' (history ++ newsOf (signalsOf sent)) (p.hear sent) := by
  unfold Peer.hear
  by_cases hst : p.started = true
  · rw [if_pos hst]
    have hnews : newsOf (p.inbox ++ signalsOf sent) = newsOf p.inbox ++ newsOf (signalsOf sent) :=
      newsOf_append _ _
    refine ⟨fun hf => ?_, ?_, h.distinct, ?_, fun id hid => ?_, fun c args hc id hid => ?_⟩
    · rw [hst] at hf
      cases hf
    · rw [← List.append_assoc, newsOf_append]
      exact h.told.append_right _
    · rw [hnews]
      exact hids.announced.queued h.queued
    · rw [hnews]
      exact hids.announced.owed (h.held id hid)
    · rw [hnews]
      exact hids.announced.owed (h.answered c args hc id hid)
  · rw [if_neg hst, h.absent (by simpa using hst)]
    exact init

lemma served (h : Follows d history p) (hst : p.started = true) {r : Request} (rest : List Request)
    {sent : List Sent} (hreply : ∀ c args, r = .call c → replyOf sent = some args → ∀ id ∈ c.replyIds args, d.Has id) :
    Follows d history (p.served r rest sent) := by
  have hstill : ∀ q : Peer, q.started = p.started → q.started = false → q = Peer.init := by
    intro q hq hf
    rw [hq, hst] at hf
    cases hf
  cases r with
  | call c =>
    refine ⟨hstill _ rfl, h.told, h.distinct, h.queued, h.held, fun c' args hc id hid => Or.inl ?_⟩
    obtain ⟨rfl, hr⟩ := Progress.answered.inj hc
    exact hreply c args rfl hr id hid
  | lapsed c => exact ⟨hstill _ rfl, h.told, h.distinct, h.queued, h.held, h.answered⟩
  | destroy id => exact ⟨hstill _ rfl, h.told, h.distinct, h.queued, h.held, h.answered⟩

lemma gains (h : Follows d history p) (hst : p'.started = true) {new : List Nat}
    (hm : PlaylistManager.Gains p.manager p'.manager new) (hin : p'.inbox = p.inbox)
    (hnew : ∀ id ∈ new, Owed d.Has (newsOf p.inbox) id)
    (hprog : ∀ c args, p'.progress = .answered c (some args) → p.progress = .answered c (some args)) :
    Follows d history p' := by
  refine ⟨fun hf => ?_, ?_, hm.nodup h.distinct, ?_, fun id hid => ?_, fun c args hc => ?_⟩
  · rw [hst] at hf
    cases hf
  · rw [hm.emitted, hin]
    exact h.told
  · rw [hin]
    exact h.queued
  · rw [hin]
    exact (hm.mem id hid).elim (h.held id) (hnew id)
  · rw [hin]
    exact h.answered c args (hprog c args hc)

lemma delivered (h : Follows d history p) (hidle : p.Idle) {s : Signal} {rest : List Signal}
    (hin : p.inbox = s :: rest) :
    Follows d history { p with manager := p.manager.dbusHandler s, inbox := rest } := by
  have hcons : newsOf p.inbox = (signalNews s).toList ++ newsOf rest := by
    rw [hin, newsOf, List.filterMap_cons]
    cases signalNews s <;> rfl
  have hqueue := h.queued
  have hheld := h.held
  have hdist := h.distinct
  rw [hcons] at hqueue hheld
  have htold : newsOf ((p.manager.dbusHandler s).emitted ++ rest) <+ history := by
    refine List.Sublist.trans (List.Sublist.filterMap _ ?_) h.told
    rw [hin]
    rcases p.manager.dbusHandler_emitted s with he | he
    · rw [he]
      exact List.Sublist.append_left (List.sublist_cons_self _ _) _
    · rw [he, List.append_assoc, List.singleton_append]
  have hall : (p.manager.dbusHandler s).ids.Nodup ∧ Queued d.Has (newsOf rest) ∧
      ∀ id ∈ (p.manager.dbusHandler s).ids, Owed d.Has (newsOf rest) id := by
    cases hs : signalNews s with
    | none =>
      rw [hs] at hqueue hheld
      rw [PlaylistManager.dbusHandler_ids hs]
      exact ⟨hdist, hqueue, hheld⟩
    | some n =>
      rw [hs] at hqueue hheld
      cases s with
      | playlistCreated a =>
        cases hs
        have hreg := p.manager.registerPlaylist_gains a
        rw [PlaylistManager.dbusHandler_created]
        refine ⟨hreg.nodup hdist, hqueue.tail, fun id hid => ?_⟩
        rcases hreg.mem id hid with hid | hid
        · exact (hheld id hid).of_came
        · cases List.mem_singleton.mp hid
          exact hqueue.head
      | playlistDestroyed a =>
        cases hs
        rw [PlaylistManager.dbusHandler_destroyed]
        refine ⟨hdist.erase a, hqueue.tail, fun id hid => ?_⟩
        obtain ⟨hne, hmem⟩ := hdist.mem_erase_iff.mp hid
        exact (hheld id hmem).of_went hne
      | playlistDestructionFailed => cases hs
      | propertyChanged => cases hs
      | contentsChanged => cases hs
      | itemMoved => cases hs
  refine ⟨fun hf => ?_, htold, hall.1, hall.2.1, hall.2.2, fun c args hc => ?_⟩
  · have hst := hidle.1
    rw [hf] at hst
    cases hst
  · have hp : p.progress = .answered c (some args) := hc
    rw [hidle.2] at hp
    cases hp

lemma started_of_ne (h : Follows d history p) (hne : p ≠ Peer.init) : p.started = true := by
  by_contra hf
  exact hne (h.absent (by simpa using hf))

lemma step (h : Follows d history p) {e : PeerEvent} (he : p.step e = some p') : Follows d history p' := by
  cases e with
  | start =>
    rw [Peer.step] at he
    split at he
    · cases he
    · cases he
      exact .fresh true (fun hf => by cases hf) rfl
  | call c =>
    rw [Peer.step] at he
    split at he
    · rename_i hidle
      split at he
      · rename_i m hm
        cases he
        exact h.gains hidle.1 (PlaylistManager.shortcut_gains hm) rfl (fun id hid => by cases hid) fun _ _ hc => hc
      · cases he
        exact h.gains hidle.1 (.same rfl rfl []) rfl (fun id hid => by cases hid) fun _ _ hc => by cases hc
    · cases he
  | ref id =>
    rw [Peer.step] at he
    split at he
    · rename_i hidle
      cases he
      exact h.gains hidle.1 (p.manager.objectRef_gains id []) rfl (fun id hid => by cases hid) fun _ _ hc => hc
    · cases he
  | destroyPlaylist id | unref id =>
    rw [Peer.step] at he
    split at he
    · rename_i hidle
      obtain ⟨m, hm, rfl⟩ := Option.map_eq_some_iff.mp he
      exact h.gains hidle.1 (PlaylistManager.objectUnref_gains hm []) rfl (fun id hid => by cases hid)
        fun _ _ hc => hc
    · cases he
  | receiveReply =>
    rw [Peer.step] at he
    split at he
    · rename_i c reply hprog
      cases he
      have hst : p.started = true := h.started_of_ne fun heq => by
        rw [heq] at hprog
        cases hprog
      cases reply with
      | none => exact h.gains hst (.same rfl rfl []) rfl (fun id hid => by cases hid) fun _ _ hc => by cases hc
      | some args =>
        exact h.gains hst (p.manager.finish_gains c args) rfl (h.answered c args hprog) fun _ _ hc => by cases hc
    · cases he
  | timeout =>
    rw [Peer.step] at he
    split at he
    · cases he
    · rename_i hprog
      cases he
      have hst : p.started = true := h.started_of_ne fun heq => by
        rw [heq] at hprog
        exact hprog rfl
      exact h.gains hst (.same rfl rfl []) rfl (fun id hid => by cases hid) fun _ _ hc => by cases hc
  | deliverSignal =>
    rw [Peer.step] at he
    split at he
    · rename_i hidle
      split at he
      · rename_i s rest hin
        cases he
        exact h.delivered hidle hin
      · cases he
    · cases he

end Follows

/-! ### The daemon and all clients -/

section
variable {ι : Type*} {busName : ι → Client} {s t : Framework ι}

/-- The daemon is consistent, and every client follows what it has announced. -/
structure Coherent (s : Framework ι) (history : List (News Nat)) : Prop where
  registry : Registry s.daemon
  chronicle : Chronicle s.daemon.Used s.daemon.Has history
  follows : ∀ i, Follows s.daemon history (s.peers i)

namespace Coherent
variable {history : List (News Nat)}

lemma fresh (h : Coherent s history) : s.daemon.playlists.lookup s.daemon.lastId = none := by
  rw [AList.lookup_eq_none]
  intro hmem
  exact absurd (h.chronicle.present_used _ hmem) (Nat.lt_irrefl _)

lemma turn (h : Coherent s history) {e : DaemonEvent} {sent : List Sent}
    (ht : s.turn createObjectid e = some (sent, t)) (hwrap : s.daemon.lastId ≤ t.daemon.lastId) :
    s.daemon.handle createObjectid e = .ok (t.daemon, sent) ∧
      Coherent t (history ++ newsOf (signalsOf sent)) := by
  unfold Framework.turn at ht
  cases hd : s.daemon.handle createObjectid e with
  | error c =>
    rw [hd] at ht
    cases ht
  | ok r =>
    rw [hd] at ht
    cases ht
    have hturn := Turned.of_ok h.registry (fun _ => h.fresh) hd
    have hids := hturn.ids h.registry
    exact ⟨rfl, hturn.registry h.registry fun _ => h.fresh, hids.chronicle hwrap h.chronicle,
      fun i => (h.follows i).hear hids⟩

variable [DecidableEq ι]

lemma setPeer (h : Coherent s history) {i : ι} {p : Peer} (hp : Follows s.daemon history p) :
    Coherent (s.setPeer i p) history := by
  refine ⟨h.registry, h.chronicle, fun j => ?_⟩
  by_cases hj : j = i
  · subst hj
    simp only [Framework.setPeer, Function.update_self]
    exact hp
  · simp only [Framework.setPeer, Function.update_of_ne hj]
    exact h.follows j

lemma step (h : Coherent s history) {e : FrameworkEvent ι} (he : s.step createObjectid busName e = some t)
    (hwrap : s.daemon.lastId ≤ t.daemon.lastId) : ∃ history, Coherent t history := by
  cases e with
  | peer i e =>
    obtain ⟨p, hp, rfl⟩ := Option.map_eq_some_iff.mp he
    exact ⟨history, h.setPeer ((h.follows i).step hp)⟩
  | other e =>
    obtain ⟨⟨sent, u⟩, hu, rfl⟩ := Option.map_eq_some_iff.mp he
    exact ⟨_, (h.turn hu hwrap).2⟩
  | serve i =>
    rw [Framework.step] at he
    split at he
    · cases he
    · rename_i r rest hout
      obtain ⟨⟨sent, u⟩, hu, rfl⟩ := Option.map_eq_some_iff.mp he
      obtain ⟨hd, hcoh⟩ := h.turn hu hwrap
      have hst : (s.peers i).started = true := (h.follows i).started_of_ne fun heq => by
        rw [heq] at hout
        cases hout
      have hheard : (u.peers i).started = true := by
        have hpeer : u.peers i = (s.peers i).hear sent := by
          simp only [Framework.turn, hd, Option.some.injEq, Prod.mk.injEq, true_and] at hu
          rw [← hu]
        rw [hpeer, Peer.hear, if_pos hst]
        exact hst
      refine ⟨_, hcoh.setPeer ((hcoh.follows i).served hheard rest fun c args hr hreply id hid => ?_)⟩
      subst hr
      exact replyIds_has h.registry h.fresh hd hreply hid

end Coherent

variable [DecidableEq ι]

/-- The id counter does not wrap in this step. -/
def NoWrap (createObjectid : Bytes → Bytes) (busName : ι → Client) (s : Framework ι)
    (e : FrameworkEvent ι) : Prop :=
  ∀ t ∈ s.step createObjectid busName e, s.daemon.lastId ≤ t.daemon.lastId

instance (s : Framework ι) (e : FrameworkEvent ι) : Decidable (NoWrap createObjectid busName s e) :=
  inferInstanceAs (Decidable (∀ t ∈ s.step createObjectid busName e, _))

/-- A run of a daemon and its clients. -/
abbrev FrameworkReach (createObjectid : Bytes → Bytes) (busName : ι → Client)
    (guard : Framework ι → FrameworkEvent ι → Prop) : Framework ι → Framework ι → Prop :=
  Reach (fun s e t => s.step createObjectid busName e = some t) guard

lemma coherent_run {d : Daemon} (h : Registry d) (hlast : ∀ id ∈ d.playlists, id < d.lastId)
    (hr : FrameworkReach createObjectid busName (NoWrap createObjectid busName) (Framework.init d) s) :
    ∃ history, Coherent s history := by
  refine hr.invariant (fun s => ∃ history, Coherent s history) ?_ fun s e t ⟨_, hs⟩ hg hstep => ?_
  · exact ⟨[], h, .nil hlast, fun _ => .init⟩
  · exact hs.step hstep (hg t hstep)

/-- A manager emits what it was told, so that no signal comes twice or out of order. -/
lemma Follows.once {d : Daemon} {history : List (News Nat)} {p : Peer} (h : Follows d history p)
    (hc : Chronicle d.Used d.Has history) {a b : Signal} {n n' : News Nat} (ha : signalNews a = some n)
    (hb : signalNews b = some n') (hsub : [a, b] <+ p.manager.emitted) :
    n ≠ n' ∧ ∀ id, ¬ (n = .went id ∧ n' = .came id) := by
  have hnews : [n, n'] <+ history := by
    have hfilter : newsOf [a, b] <+ newsOf (p.manager.emitted ++ p.inbox) :=
      (hsub.trans (List.sublist_append_left _ _)).filterMap _
    have hpair : newsOf [a, b] = [n, n'] := by simp [newsOf, ha, hb]
    rw [hpair] at hfilter
    exact hfilter.trans h.told
  refine ⟨fun heq => ?_, fun id hid => ?_⟩
  · subst heq
    exact List.nodup_iff_sublist.mp hc.once n hnews
  · obtain ⟨rfl, rfl⟩ := hid
    exact hc.order id hnews

/-- A daemon with one playlist whose id counter is at its end. -/
def lastIdAtEnd : Daemon :=
  { Daemon.init.added ⟨1, [97], 0, 0, 0, 0, 0, 0, nullArray, nullArray, nullArray, false⟩ with
    lastId := 2 ^ 32 - 1 }

end

end MafwShared
