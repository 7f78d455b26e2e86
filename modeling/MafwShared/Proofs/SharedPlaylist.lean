import MafwShared.Lib.Objects
import MafwShared.ProxyEdits
import MafwShared.Proofs.ClientNavigation
import MafwShared.Proofs.Duplicates
import MafwShared.Proofs.Replica
import MafwShared.Proofs.SharedPlayback

/-!
# A playlist is one object to all clients

Any number of clients edit a playlist of the daemon, set its modes and read its items, each through
a proxy of its own. Together they see a single list that takes their calls one at a time.
-/

namespace MafwShared
open CLib

/-! ### The object -/

/-- What a playlist is to its clients. -/
structure SharedPlaylist where
  items : List Bytes
  repeats : Bool
  shuffled : Bool

namespace SharedPlaylist

/-- A call that returned a boolean and left `error` alone. -/
def answered (value : Bool) : PlaylistAnswer := .boolean ⟨value, none⟩

def refused (text : String) : PlaylistAnswer := .boolean ⟨false, some (.daemon .invalidIndex text)⟩

def insert (s : SharedPlaylist) (index : Nat) (objectids : List Bytes) : PlaylistAnswer × SharedPlaylist :=
  if objectids ≠ [] ∧ index ≤ s.items.length then
    (answered true, { s with items := s.items.take index ++ objectids ++ s.items.drop index })
  else (refused "Wrong index", s)

def append (s : SharedPlaylist) (objectids : List Bytes) : PlaylistAnswer × SharedPlaylist :=
  if objectids ≠ [] then (answered true, { s with items := s.items ++ objectids }) else (refused "and what now", s)

def remove (s : SharedPlaylist) (index : Nat) : PlaylistAnswer × SharedPlaylist :=
  if index < s.items.length then (answered true, { s with items := s.items.eraseIdx index })
  else (refused "Wrong index", s)

/-- Nothing is moved to where it is, and be it nowhere. -/
def move (s : SharedPlaylist) (src dst : Nat) : PlaylistAnswer × SharedPlaylist :=
  if src = dst then (answered true, s)
  else if src < s.items.length ∧ dst < s.items.length then
    (answered true, { s with items := moveItem s.items src dst })
  else (answered false, s)

/-- Items from one index to another one, both of them included. -/
def slice (s : SharedPlaylist) (firstIndex lastIndex : Nat) : PlaylistAnswer :=
  if firstIndex < s.items.length ∧ firstIndex ≤ lastIndex then
    .items ⟨some ((s.items.drop firstIndex).take (lastIndex + 1 - firstIndex)), none⟩
  else .items ⟨none, some (.daemon .invalidIndex "Wrong index")⟩

/-- One call. An item with an empty object id is no item. -/
def call (s : SharedPlaylist) : PlaylistCall → PlaylistAnswer × SharedPlaylist
  | .insertItem index objectid => s.insert index [objectid]
  | .insertItems index objectids => s.insert index objectids
  | .appendItem objectid => s.append [objectid]
  | .appendItems objectids => s.append objectids
  | .removeItem index => s.remove index
  | .moveItem src dst => s.move src dst
  | .clear => (answered true, { s with items := [] })
  | .getItem index => (.item (s.items[index]?.filter fun oid => oid ≠ []), s)
  | .getItems firstIndex lastIndex => (s.slice firstIndex lastIndex, s)
  | .getSize => (.size ⟨s.items.length, none⟩, s)
  | .shuffle => (answered true, { s with shuffled := true })
  | .unshuffle => (answered true, { s with shuffled := false })
  | .isShuffled => (answered s.shuffled, s)
  | .setRepeat repeatMode => (.sent, { s with repeats := repeatMode })
  | .getRepeat => (answered s.repeats, s)
  | .incrementUseCount => (answered true, s)
  | .decrementUseCount => (answered true, s)

end SharedPlaylist

/-- The playlist as its clients see it. -/
def Pls.shared (p : Pls) : SharedPlaylist := ⟨cells p.vidx p.len, p.repeatMode ≠ 0, p.shuffled ≠ 0⟩

/-- The request that a call makes. -/
def PlaylistCall.member : PlaylistCall → Member
  | .insertItem index objectid => .edit (.insertItem index [objectid])
  | .insertItems index objectids => .edit (.insertItem index objectids)
  | .appendItem objectid => .edit (.appendItem [objectid])
  | .appendItems objectids => .edit (.appendItem objectids)
  | .removeItem index => .edit (.removeItem index)
  | .moveItem src dst => .edit (.move src dst)
  | .clear => .edit .clear
  | .getItem index => .play (.getItem index)
  | .getItems firstIndex lastIndex => .play (.getItems firstIndex lastIndex)
  | .getSize => .play .getSize
  | .shuffle => .play .shuffle
  | .unshuffle => .play .unshuffle
  | .isShuffled => .play .isShuffled
  | .setRepeat repeatMode => .play (.setRepeat repeatMode)
  | .getRepeat => .play .getRepeat
  | .incrementUseCount => .incrementUseCount
  | .decrementUseCount => .decrementUseCount

/-- A call leaves room for the items it adds, and removes no committed item in front of a pool. -/
def Daemon.Fits (d : Daemon) (id : Nat) (c : PlaylistCall) : Prop :=
  DaemonEvent.Keeps d (.playlist [] (decimal id) c.member)

instance (d : Daemon) (id : Nat) (c : PlaylistCall) : Decidable (d.Fits id c) :=
  inferInstanceAs (Decidable (DaemonEvent.Keeps d (.playlist [] (decimal id) c.member)))

@[simp] lemma answerTo_reply (dest : Client) (args : List Arg) :
    Sent.answerTo dest (.reply dest args) = some (.ok args) := if_pos rfl

@[simp] lemma answerTo_error (dest : Client) (code : PlaylistError) (text : String) :
    Sent.answerTo dest (.error dest code text) = some (.error (.daemon code text)) := if_pos rfl

@[simp] lemma answerTo_signal (dest : Client) (s : Signal) : Sent.answerTo dest (.signal s) = none := rfl

@[simp] lemma answerTo_ack (dest : Client) : Sent.answerTo dest (ackOrError dest none) = some (.ok []) := if_pos rfl

@[simp] lemma answerTo_ackError (dest : Client) (code : PlaylistError) (text : String) :
    Sent.answerTo dest (ackOrError dest (some (code, text))) = some (.error (.daemon code text)) := if_pos rfl

/-! ### Setting the modes -/

lemma plsShuffle_frame (p : Pls) : { plsShuffle p with
    pidx := p.pidx, iidx := p.iidx, poolst := p.poolst, shuffled := p.shuffled, dirty := p.dirty } = p ∧
      (plsShuffle p).shuffled = 1 := by
  have hloop : ∀ n, { forUpto n (fun i (q : Pls) =>
      { q with pidx := Function.update q.pidx i i, iidx := Function.update q.iidx i i })
      { p with pidx := nullArray, iidx := nullArray } with pidx := p.pidx, iidx := p.iidx } = p := fun n =>
    forUpto_invariant (fun _ (q : Pls) => { q with pidx := p.pidx, iidx := p.iidx } = p) rfl fun _ _ _ h => h
  refine ⟨?_, rfl⟩
  unfold plsShuffle
  split
  · have h := hloop p.len
    exact congrArg (fun q : Pls => { q with poolst := p.poolst, shuffled := p.shuffled, dirty := p.dirty }) h
  · rfl

lemma plsShuffle_shared (p : Pls) : (plsShuffle p).shared = { p.shared with shuffled := true } := by
  obtain ⟨hframe, hshuf⟩ := plsShuffle_frame p
  have hlen : (plsShuffle p).len = p.len := (congrArg Pls.len hframe :)
  have hvidx : (plsShuffle p).vidx = p.vidx := (congrArg Pls.vidx hframe :)
  have hrep : (plsShuffle p).repeatMode = p.repeatMode := (congrArg Pls.repeatMode hframe :)
  rw [Pls.shared, hlen, hvidx, hrep, hshuf]
  rfl

lemma plsUnshuffle_shared (p : Pls) : (plsUnshuffle p).shared = { p.shared with shuffled := false } := by
  unfold plsUnshuffle
  by_cases hs : p.shuffled = 0
  · rw [if_neg (not_not.mpr hs)]
    simp [Pls.shared, hs]
  · rw [if_pos hs]
    rfl

lemma handlePlay_shared (sender : Client) (plid : Nat) (p : Pls) (r : Draws) {m : PlayMember} (hm : ¬m.SetsMode) :
    (handlePlay sender plid p r m).1.shared = p.shared := by
  have hsame : ∀ q, Redrawn p q → q.shared = p.shared := fun q hq => by
    rw [Pls.shared, hq.len_eq, hq.vidx_eq, hq.repeatMode_eq, hq.shuffled_eq]
    rfl
  cases m with
  | getName | getRepeat | isShuffled | getItem | getSize => rfl
  | setRepeat | shuffle | unshuffle => exact absurd trivial hm
  | getItems startIndex endIndex =>
    simp only [handlePlay]
    split <;> rfl
  | getStarting index => exact hsame _ (plsGetStarting_step ⟨p, r, index, none⟩).redrawn
  | getLast index => exact hsame _ (plsGetLast_step ⟨p, r, index, none⟩).redrawn
  | getNext index => exact hsame _ (plsGetNext_step ⟨p, r, index, none⟩).redrawn
  | getPrev index => exact hsame _ (plsGetPrev_step ⟨p, r, index, none⟩).redrawn

lemma plsGetItems_accepted {p : Pls} {fidx lidx : Nat} (hf : fidx < p.len) (hle : fidx ≤ lidx) :
    plsGetItems p fidx lidx = some (((cells p.vidx p.len).drop fidx).take (lidx + 1 - fidx)) := by
  unfold plsGetItems
  rw [if_neg (by omega)]
  refine congrArg some (List.ext_getElem ?_ ?_)
  · simp only [List.length_map, List.length_range, List.length_take, List.length_drop, length_cells]
    split <;> omega
  · intro i _ _
    simp

/-! ### One call -/

section
variable {proxy : MafwProxyPlaylist} {d : Daemon} {ptr : Ptr} {cur new : Pls} {sent : List Sent}

lemma MafwProxyPlaylist.BoundTo.playlistOf (h : proxy.BoundTo d ptr cur) : d.playlistOf proxy.id = some cur := by
  rw [Daemon.playlistOf, h.lookup, Option.bind_some, h.heap]

/-- A request that reaches the playlist is handled and leaves `new` in its place. -/
structure Serves (proxy : MafwProxyPlaylist) (d : Daemon) (m : Member) (sent : List Sent) (new : Pls) (d' : Daemon) :
    Prop where
  handled : handlePlaylistRequest d proxy.connection proxy.objPath m = .ok (d', sent)
  playlistOf : d'.playlistOf proxy.id = some new

lemma serves_edit (h : proxy.BoundTo d ptr cur) {m : EditMember}
    (hm : handleEdit proxy.connection proxy.id cur m = some (new, sent)) :
    ∃ d', Serves proxy d (.edit m) sent new d' := by
  have hpos := h.id_pos
  refine ⟨d.write ptr new, ?_, ?_⟩
  · unfold handlePlaylistRequest MafwProxyPlaylist.objPath
    dsimp only
    rw [atoi_decimal h.id_lt, if_neg hpos.ne', h.lookup]
    dsimp only
    rw [deref_eq h.heap]
    simp only [bind, Except.bind, hm]
  · simp only [Daemon.playlistOf, Daemon.write, h.lookup, Option.bind_some, Function.update_self]

lemma serves_play (h : proxy.BoundTo d ptr cur) {m : PlayMember} {r : Draws}
    (hm : handlePlay proxy.connection proxy.id cur d.draws m = (new, r, sent)) :
    Serves proxy d (.play m) sent new { d.write ptr new with draws := r } := by
  have hpos := h.id_pos
  refine ⟨?_, ?_⟩
  · unfold handlePlaylistRequest MafwProxyPlaylist.objPath
    dsimp only
    rw [atoi_decimal h.id_lt, if_neg hpos.ne', h.lookup]
    dsimp only
    rw [deref_eq h.heap]
    simp only [bind, Except.bind, hm]
  · simp only [Daemon.playlistOf, Daemon.write, h.lookup, Option.bind_some, Function.update_self]

lemma serves_increment (h : proxy.BoundTo d ptr cur) :
    ∃ d', Serves proxy d .incrementUseCount [ackOrError proxy.connection none] (plsIncrement cur) d' := by
  have hpos := h.id_pos
  refine ⟨(d.write ptr (plsIncrement cur)).storeUsecountHolder proxy.connection ptr, ?_, ?_⟩
  · unfold handlePlaylistRequest MafwProxyPlaylist.objPath
    dsimp only
    rw [atoi_decimal h.id_lt, if_neg hpos.ne', h.lookup]
    dsimp only
    rw [deref_eq h.heap]
    simp only [bind, Except.bind]
  · simp only [Daemon.playlistOf, Daemon.storeUsecountHolder, Daemon.write, h.lookup, Option.bind_some,
      Function.update_self]

lemma serves_decrement (h : proxy.BoundTo d ptr cur) :
    ∃ d', Serves proxy d .decrementUseCount [ackOrError proxy.connection none] (plsDecrement cur) d' := by
  have hpos := h.id_pos
  obtain ⟨hheap, -, hids, -⟩ := removeUsecountHolder_frame (d.write ptr (plsDecrement cur)) proxy.connection ptr
  refine ⟨(d.write ptr (plsDecrement cur)).removeUsecountHolder proxy.connection ptr, ?_, ?_⟩
  · unfold handlePlaylistRequest MafwProxyPlaylist.objPath
    dsimp only
    rw [atoi_decimal h.id_lt, if_neg hpos.ne', h.lookup]
    dsimp only
    rw [deref_eq h.heap]
    simp only [bind, Except.bind]
  · rw [Daemon.playlistOf, hheap, hids]
    simp only [Daemon.write, h.lookup, Option.bind_some, Function.update_self]

section
variable {m : Member} {d' : Daemon} (h : Serves proxy d m sent new d')
include h

lemma mafwDbusCallMember_eq (reply : Except CallError (List Arg))
    (hsent : sent.findSome? (Sent.answerTo proxy.connection) = some reply) :
    proxy.mafwDbusCallMember d m = .ok (reply, d') := by
  unfold MafwProxyPlaylist.mafwDbusCallMember
  rw [h.handled]
  simp only [bind, Except.bind, hsent, Option.getD_some]

lemma callForReply_ok (hsent : sent.findSome? (Sent.answerTo proxy.connection) = some (.ok [])) :
    proxy.callForReply d m = .ok (⟨true, none⟩, d') := by
  unfold MafwProxyPlaylist.callForReply
  rw [mafwDbusCallMember_eq h _ hsent]
  rfl

lemma callForReply_error (error : CallError)
    (hsent : sent.findSome? (Sent.answerTo proxy.connection) = some (.error error)) :
    proxy.callForReply d m = .ok (⟨false, some error⟩, d') := by
  unfold MafwProxyPlaylist.callForReply
  rw [mafwDbusCallMember_eq h _ hsent]
  rfl

lemma callForBoolean_ok (b : Bool)
    (hsent : sent.findSome? (Sent.answerTo proxy.connection) = some (.ok [.boolean b])) :
    proxy.callForBoolean d m = .ok (⟨b, none⟩, d') := by
  unfold MafwProxyPlaylist.callForBoolean
  rw [mafwDbusCallMember_eq h _ hsent]
  rfl

lemma callForBoolean_error (error : CallError)
    (hsent : sent.findSome? (Sent.answerTo proxy.connection) = some (.error error)) :
    proxy.callForBoolean d m = .ok (⟨false, some error⟩, d') := by
  unfold MafwProxyPlaylist.callForBoolean
  rw [mafwDbusCallMember_eq h _ hsent]
  rfl

end

/-- A call is served, and it returns what the object answers. -/
def Answers (proxy : MafwProxyPlaylist) (d : Daemon) (m : Member) (result : Except Crash (PlaylistAnswer × Daemon))
    (answer : PlaylistAnswer × SharedPlaylist) : Prop :=
  ∃ sent new d', Serves proxy d m sent new d' ∧ result = .ok (answer.1, d') ∧ new.shared = answer.2

section
variable (h : proxy.BoundTo d ptr cur)
include h

lemma insert_answers (halloc : cur.len ≤ cur.alloc) (index : Nat) {objectids : List Bytes}
    (hfit : cur.len + objectids.length < 2 ^ 31) :
    Answers proxy d (.edit (.insertItem index objectids))
      ((proxy.insertItems d index objectids).map fun r => (.boolean r.1, r.2))
      (cur.shared.insert index objectids) := by
  have hitems : cur.shared.items.length = cur.len := length_cells _ _
  unfold SharedPlaylist.insert
  rw [hitems]
  by_cases hacc : objectids ≠ [] ∧ index ≤ cur.len
  · obtain ⟨new, hq, -, hins⟩ := plsInserts_accepted hacc.1 hacc.2 halloc hfit.le
    have hedit : handleEdit proxy.connection proxy.id cur (.insertItem index objectids) =
        some (new, [ackOrError proxy.connection none, sendContentsChanged proxy.id index 0 objectids.length]) := by
      simp [handleEdit, hq]
    obtain ⟨d', hs⟩ := serves_edit h hedit
    rw [if_pos hacc]
    refine ⟨_, new, d', hs, ?_, ?_⟩
    · rw [MafwProxyPlaylist.insertItems, callForReply_ok hs (by simp)]
      rfl
    · have hrep : new.repeatMode = cur.repeatMode := (congrArg Pls.repeatMode hins.frame :)
      have hshuf : new.shuffled = cur.shuffled := (congrArg Pls.shuffled hins.frame :)
      rw [Pls.shared, hins.items, hrep, hshuf]
      rfl
  · have hrej : objectids = [] ∨ index > cur.len := by
      rw [not_and_or, not_not] at hacc
      exact hacc.imp_right not_le.mp
    have hedit : handleEdit proxy.connection proxy.id cur (.insertItem index objectids) =
        some (cur, [ackOrError proxy.connection (some (.invalidIndex, "Wrong index")),
          sendContentsChanged proxy.id index 0 objectids.length]) := by
      simp [handleEdit, plsInserts_rejected hrej]
    obtain ⟨d', hs⟩ := serves_edit h hedit
    rw [if_neg hacc]
    refine ⟨_, cur, d', hs, ?_, rfl⟩
    rw [MafwProxyPlaylist.insertItems, callForReply_error hs (.daemon .invalidIndex "Wrong index") (by simp)]
    rfl

lemma append_answers (halloc : cur.len ≤ cur.alloc) {objectids : List Bytes}
    (hfit : cur.len + objectids.length < 2 ^ 31) :
    Answers proxy d (.edit (.appendItem objectids)) ((proxy.appendItems d objectids).map fun r => (.boolean r.1, r.2))
      (cur.shared.append objectids) := by
  unfold SharedPlaylist.append
  by_cases hne : objectids = []
  · have hedit : ∃ start, handleEdit proxy.connection proxy.id cur (.appendItem objectids) =
        some (cur, [ackOrError proxy.connection (some (.invalidIndex, "and what now")),
          sendContentsChanged proxy.id start 0 objectids.length]) := by
      rw [handleEdit, plsAppends, plsInserts_rejected (Or.inl hne)]
      exact ⟨_, rfl⟩
    obtain ⟨start, hedit⟩ := hedit
    obtain ⟨d', hs⟩ := serves_edit h hedit
    rw [if_neg (not_not.mpr hne)]
    refine ⟨_, cur, d', hs, ?_, rfl⟩
    rw [MafwProxyPlaylist.appendItems, callForReply_error hs (.daemon .invalidIndex "and what now") (by simp)]
    rfl
  · obtain ⟨new, hq, -, hins⟩ := plsInserts_accepted hne le_rfl halloc hfit.le
    have hedit : ∃ start, handleEdit proxy.connection proxy.id cur (.appendItem objectids) =
        some (new, [ackOrError proxy.connection none, sendContentsChanged proxy.id start 0 objectids.length]) := by
      rw [handleEdit, plsAppends, hq]
      exact ⟨_, rfl⟩
    obtain ⟨start, hedit⟩ := hedit
    obtain ⟨d', hs⟩ := serves_edit h hedit
    rw [if_pos hne]
    refine ⟨_, new, d', hs, ?_, ?_⟩
    · rw [MafwProxyPlaylist.appendItems, callForReply_ok hs (by simp)]
      rfl
    · have hrep : new.repeatMode = cur.repeatMode := (congrArg Pls.repeatMode hins.frame :)
      have hshuf : new.shuffled = cur.shuffled := (congrArg Pls.shuffled hins.frame :)
      rw [Pls.shared, hins.items, hrep, hshuf, List.take_of_length_le (by simp), List.drop_of_length_le (by simp),
        List.append_nil]
      rfl

lemma remove_answers (index : Nat) :
    Answers proxy d (.edit (.removeItem index)) ((proxy.removeItem d index).map fun r => (.boolean r.1, r.2))
      (cur.shared.remove index) := by
  have hitems : cur.shared.items.length = cur.len := length_cells _ _
  unfold SharedPlaylist.remove
  rw [hitems]
  by_cases hi : index < cur.len
  · obtain ⟨new, hq, -, hrem, -⟩ := plsRemove_accepted hi
    have hedit : handleEdit proxy.connection proxy.id cur (.removeItem index) =
        some (new, [.reply proxy.connection [.boolean true], sendContentsChanged proxy.id index 1 0]) := by
      simp [handleEdit, hq]
    obtain ⟨d', hs⟩ := serves_edit h hedit
    rw [if_pos hi]
    refine ⟨_, new, d', hs, ?_, ?_⟩
    · rw [MafwProxyPlaylist.removeItem, callForBoolean_ok hs true (by simp)]
      rfl
    · have hrep : new.repeatMode = cur.repeatMode := (congrArg Pls.repeatMode hrem.frame :)
      have hshuf : new.shuffled = cur.shuffled := (congrArg Pls.shuffled hrem.frame :)
      rw [Pls.shared, hrem.items, hrep, hshuf]
      rfl
  · have hedit : handleEdit proxy.connection proxy.id cur (.removeItem index) =
        some (cur, [.error proxy.connection .invalidIndex "Wrong index"]) := by
      simp [handleEdit, plsRemove_rejected (not_lt.mp hi)]
    obtain ⟨d', hs⟩ := serves_edit h hedit
    rw [if_neg hi]
    refine ⟨_, cur, d', hs, ?_, rfl⟩
    rw [MafwProxyPlaylist.removeItem, callForBoolean_error hs (.daemon .invalidIndex "Wrong index") (by simp)]
    rfl

lemma move_answers (src dst : Nat) :
    Answers proxy d (.edit (.move src dst)) ((proxy.moveItem d src dst).map fun r => (.boolean r.1, r.2))
      (cur.shared.move src dst) := by
  have hitems : cur.shared.items.length = cur.len := length_cells _ _
  -- a move that is done leaves everything but the items alone
  have hdone : ∀ new, plsMove cur src dst = (true, new) → new.shared = (cur.shared.move src dst).2 →
      (cur.shared.move src dst).1 = SharedPlaylist.answered true →
      Answers proxy d (.edit (.move src dst)) ((proxy.moveItem d src dst).map fun r => (.boolean r.1, r.2))
        (cur.shared.move src dst) := by
    intro new hq hshared hanswer
    have hedit : handleEdit proxy.connection proxy.id cur (.move src dst) =
        some (new, [.reply proxy.connection [.boolean true], sendItemMoved proxy.id src dst]) := by
      simp [handleEdit, hq]
    obtain ⟨d', hs⟩ := serves_edit h hedit
    refine ⟨_, new, d', hs, ?_, hshared⟩
    rw [MafwProxyPlaylist.moveItem, callForBoolean_ok hs true (by simp), hanswer]
    rfl
  by_cases hsame : src = dst
  · refine hdone cur (by rw [plsMove, if_pos hsame]) ?_ ?_ <;> rw [SharedPlaylist.move, if_pos hsame]
  · by_cases hin : src < cur.len ∧ dst < cur.len
    · obtain ⟨new, hq, hmoved⟩ := plsMove_accepted hin.1 hin.2
      have hin' : src < cur.shared.items.length ∧ dst < cur.shared.items.length := by rwa [hitems]
      refine hdone new hq ?_ ?_
      · have hrep : new.repeatMode = cur.repeatMode := (congrArg Pls.repeatMode hmoved.frame :)
        have hshuf : new.shuffled = cur.shuffled := (congrArg Pls.shuffled hmoved.frame :)
        rw [SharedPlaylist.move, if_neg hsame, if_pos hin', Pls.shared, hmoved.items, hrep, hshuf]
        rfl
      · rw [SharedPlaylist.move, if_neg hsame, if_pos hin']
    · have hedit : handleEdit proxy.connection proxy.id cur (.move src dst) =
          some (cur, [.reply proxy.connection [.boolean false]]) := by
        simp [handleEdit, plsMove_rejected hsame hin]
      obtain ⟨d', hs⟩ := serves_edit h hedit
      rw [SharedPlaylist.move, if_neg hsame, hitems, if_neg hin]
      refine ⟨_, cur, d', hs, ?_, rfl⟩
      rw [MafwProxyPlaylist.moveItem, callForBoolean_ok hs false (by simp)]
      rfl

lemma clear_answers :
    Answers proxy d (.edit .clear) ((proxy.clear d).map fun r => (.boolean r.1, r.2)) (cur.shared.call .clear) := by
  obtain ⟨d', hs⟩ := serves_edit h (m := .clear) rfl
  refine ⟨_, plsClear cur, d', hs, ?_, rfl⟩
  rw [MafwProxyPlaylist.clear, callForReply_ok hs (by simp)]
  rfl

lemma acked_answers {m : PlayMember} {r : Draws} {property : Property}
    (hm : handlePlay proxy.connection proxy.id cur d.draws m =
      (new, r, [sendPropertyChanged proxy.id property, ackOrError proxy.connection none])) :
    Answers proxy d (.play m) ((proxy.callForReply d (.play m)).map fun r => (.boolean r.1, r.2))
      (SharedPlaylist.answered true, new.shared) := by
  have hs := serves_play h hm
  refine ⟨_, new, _, hs, ?_, rfl⟩
  rw [callForReply_ok hs (by rw [List.findSome?_cons, sendPropertyChanged, answerTo_signal]; simp)]
  rfl

lemma shuffle_answers :
    Answers proxy d (.play .shuffle) ((proxy.shuffle d).map fun r => (.boolean r.1, r.2))
      (cur.shared.call .shuffle) := by
  have hans := acked_answers h (m := .shuffle) rfl
  rw [plsShuffle_shared] at hans
  exact hans

lemma unshuffle_answers :
    Answers proxy d (.play .unshuffle) ((proxy.unshuffle d).map fun r => (.boolean r.1, r.2))
      (cur.shared.call .unshuffle) := by
  have hans := acked_answers h (m := .unshuffle) rfl
  rw [plsUnshuffle_shared] at hans
  exact hans

lemma setRepeat_answers (repeatMode : Bool) :
    Answers proxy d (.play (.setRepeat repeatMode)) ((proxy.setRepeat d repeatMode).map fun d => (.sent, d))
      (cur.shared.call (.setRepeat repeatMode)) := by
  have hs := serves_play h (m := .setRepeat repeatMode) rfl
  refine ⟨_, _, _, hs, ?_, ?_⟩
  · unfold MafwProxyPlaylist.setRepeat
    rw [hs.handled]
    rfl
  · cases repeatMode <;> rfl

lemma useCount_answers :
    Answers proxy d .incrementUseCount ((proxy.incrementUseCount d).map fun r => (.boolean r.1, r.2))
        (cur.shared.call .incrementUseCount) ∧
      Answers proxy d .decrementUseCount ((proxy.decrementUseCount d).map fun r => (.boolean r.1, r.2))
        (cur.shared.call .decrementUseCount) := by
  obtain ⟨d1, hinc⟩ := serves_increment h
  obtain ⟨d2, hdec⟩ := serves_decrement h
  refine ⟨⟨_, _, d1, hinc, ?_, rfl⟩, ⟨_, _, d2, hdec, ?_, rfl⟩⟩
  · rw [MafwProxyPlaylist.incrementUseCount, callForReply_ok hinc (by simp)]
    rfl
  · rw [MafwProxyPlaylist.decrementUseCount, callForReply_ok hdec (by simp)]
    rfl

lemma serves_read {m : PlayMember} (hm : handlePlay proxy.connection proxy.id cur d.draws m = (cur, d.draws, sent)) :
    Serves proxy d (.play m) sent cur d := by
  have hs := serves_play h hm
  rwa [h.write_self] at hs

lemma getItem_answers (index : Nat) :
    Answers proxy d (.play (.getItem index)) ((proxy.getItem .intact d index).map fun r => (.item r.1, r.2))
      (cur.shared.call (.getItem index)) := by
  have hitem : plsGetItem cur index = cur.shared.items[index]? := by
    unfold plsGetItem
    by_cases hi : index < cur.len
    · rw [if_neg (not_le.mpr hi)]
      exact (getElem?_cells _ hi).symm
    · rw [if_pos (not_lt.mp hi)]
      exact (List.getElem?_eq_none (by rw [Pls.shared, length_cells]; exact not_lt.mp hi)).symm
  refine ⟨_, cur, d, serves_read h rfl, ?_, rfl⟩
  rw [getItem_intact h, hitem]
  rfl

lemma boolean_answers {m : PlayMember} {b : Bool}
    (hm : handlePlay proxy.connection proxy.id cur d.draws m = (cur, d.draws, [.reply proxy.connection [.boolean b]])) :
    Answers proxy d (.play m) ((proxy.callForBoolean d (.play m)).map fun r => (.boolean r.1, r.2))
      (SharedPlaylist.answered b, cur.shared) := by
  have hs := serves_read h hm
  refine ⟨_, cur, d, hs, ?_, rfl⟩
  rw [callForBoolean_ok hs b (by simp)]
  rfl

lemma getSize_answers :
    Answers proxy d (.play .getSize) ((proxy.getSize d).map fun r => (.size r.1, r.2)) (cur.shared.call .getSize) := by
  have hs := serves_read h (m := .getSize) rfl
  refine ⟨_, cur, d, hs, ?_, rfl⟩
  unfold MafwProxyPlaylist.getSize
  rw [mafwDbusCallMember_eq hs (.ok [.uint32 cur.len]) (by simp)]
  have hitems : cur.shared.items.length = cur.len := length_cells _ _
  rw [SharedPlaylist.call, hitems]
  rfl

lemma getItems_answers (firstIndex lastIndex : Nat) :
    Answers proxy d (.play (.getItems firstIndex lastIndex))
      ((proxy.getItems d firstIndex lastIndex).map fun r => (.items r.1, r.2))
      (cur.shared.call (.getItems firstIndex lastIndex)) := by
  have hitems : cur.shared.items.length = cur.len := length_cells _ _
  rw [SharedPlaylist.call, SharedPlaylist.slice, hitems]
  by_cases hin : firstIndex < cur.len ∧ firstIndex ≤ lastIndex
  · have hget := plsGetItems_accepted hin.1 hin.2
    have hplay : handlePlay proxy.connection proxy.id cur d.draws (.getItems firstIndex lastIndex) =
        (cur, d.draws, [.reply proxy.connection
          [.strings ((cur.shared.items.drop firstIndex).take (lastIndex + 1 - firstIndex))]]) := by
      rw [handlePlay, hget]
      rfl
    have hne : (cur.shared.items.drop firstIndex).take (lastIndex + 1 - firstIndex) ≠ [] := by
      refine List.ne_nil_of_length_pos ?_
      rw [List.length_take, List.length_drop, hitems]
      omega
    have hs := serves_read h hplay
    rw [if_pos hin]
    refine ⟨_, cur, d, hs, ?_, rfl⟩
    unfold MafwProxyPlaylist.getItems
    rw [mafwDbusCallMember_eq hs (.ok [.strings ((cur.shared.items.drop firstIndex).take
      (lastIndex + 1 - firstIndex))]) (by simp)]
    simp only [bind, Except.bind, Except.map, if_neg hne]
  · have hget : plsGetItems cur firstIndex lastIndex = none := if_pos (by omega)
    have hplay : handlePlay proxy.connection proxy.id cur d.draws (.getItems firstIndex lastIndex) =
        (cur, d.draws, [.error proxy.connection .invalidIndex "Wrong index"]) := by
      rw [handlePlay, hget]
    have hs := serves_read h hplay
    rw [if_neg hin]
    refine ⟨_, cur, d, hs, ?_, rfl⟩
    unfold MafwProxyPlaylist.getItems
    rw [mafwDbusCallMember_eq hs (.error (.daemon .invalidIndex "Wrong index")) (by simp)]
    rfl

lemma run_answers (halloc : cur.len ≤ cur.alloc) (c : PlaylistCall) (hfit : d.Fits proxy.id c) :
    Answers proxy d c.member (c.run proxy .intact d) (cur.shared.call c) := by
  have hof : cur ∈ d.playlistOf (atoi (decimal proxy.id)) := by
    rw [atoi_decimal h.id_lt]
    exact h.playlistOf
  cases c with
  | insertItem index objectid => exact insert_answers h halloc index (hfit cur hof).1
  | insertItems index objectids => exact insert_answers h halloc index (hfit cur hof).1
  | appendItem objectid => exact append_answers h halloc (hfit cur hof).1
  | appendItems objectids => exact append_answers h halloc (hfit cur hof).1
  | removeItem index => exact remove_answers h index
  | moveItem src dst => exact move_answers h src dst
  | clear => exact clear_answers h
  | getItem index => exact getItem_answers h index
  | getItems firstIndex lastIndex => exact getItems_answers h firstIndex lastIndex
  | getSize => exact getSize_answers h
  | shuffle => exact shuffle_answers h
  | unshuffle => exact unshuffle_answers h
  | isShuffled => exact boolean_answers h rfl
  | setRepeat repeatMode => exact setRepeat_answers h repeatMode
  | getRepeat => exact boolean_answers h rfl
  | incrementUseCount => exact (useCount_answers h).1
  | decrementUseCount => exact (useCount_answers h).2

end

end

/-! ### Whole runs -/

/-- A client calls a function of its proxy, or something else happens to the daemon. -/
inductive SharedEvent
  | call (client : Client) (c : PlaylistCall)
  | other (e : DaemonEvent)

/-- The daemon, and what clients have called and been answered. -/
abbrev Shared := Daemon × List (PlaylistCall × PlaylistAnswer)

/-- What reads of a reply give that is given back is for `released` to say. -/
def SharedEvent.step (createObjectid : Bytes → Bytes) (released : Released) (id : Nat) (s : Shared) :
    SharedEvent → Option Shared
  | .call client c =>
    match c.run ⟨id, client⟩ released s.1 with
    | .ok (answer, d) => some (d, s.2 ++ [(c, answer)])
    | .error _ => none
  | .other e =>
    match s.1.handle createObjectid e with
    | .ok (d, _) => some (d, s.2)
    | .error _ => none

/-- All calls fit. Whatever else there is neither edits the playlist nor destroys it, leaves its modes
alone, takes no id for a new playlist that is in use and keeps the other playlists as calls keep this one. -/
def SharedEvent.Fair (id : Nat) (s : Shared) : SharedEvent → Prop
  | .call _ c => s.1.Fits id c
  | .other e => e.LeavesOrder id ∧ (e.Creates → s.1.playlists.lookup s.1.lastId = none) ∧ e.Keeps s.1

instance (id : Nat) (s : Shared) : (e : SharedEvent) → Decidable (e.Fair id s)
  | .call _ c => inferInstanceAs (Decidable (s.1.Fits id c))
  | .other e => inferInstanceAs (Decidable (e.LeavesOrder id ∧ (e.Creates → s.1.playlists.lookup s.1.lastId = none) ∧
      e.Keeps s.1))

abbrev SharedReach (createObjectid : Bytes → Bytes) (released : Released) (id : Nat) (d : Daemon) : Shared → Prop :=
  Reach (fun s e t => SharedEvent.step createObjectid released id s e = some t) (SharedEvent.Fair id) (d, [])

/-- The playlist is where the object is after the calls so far. -/
def Agrees (start : SharedPlaylist) (record : List (PlaylistCall × PlaylistAnswer)) (cur : Pls) : Prop :=
  Legal SharedPlaylist.call start record cur.shared

lemma agrees_intrinsic (start : SharedPlaylist) (record : List (PlaylistCall × PlaylistAnswer)) :
    Intrinsic (Agrees start record) := by
  intro p q hlegal hsame
  have hlen : q.len = p.len := (congrArg Pls.len hsame :)
  have hvidx : q.vidx = p.vidx := (congrArg Pls.vidx hsame :)
  have hrep : q.repeatMode = p.repeatMode := (congrArg Pls.repeatMode hsame :)
  have hshuf : q.shuffled = p.shuffled := (congrArg Pls.shuffled hsame :)
  rw [Agrees, Pls.shared, hlen, hvidx, hrep, hshuf]
  exact hlegal

lemma DaemonEvent.LeavesOrder.spares_shared {e : DaemonEvent} {id : Nat} (he : e.LeavesOrder id)
    (start : SharedPlaylist) (record : List (PlaylistCall × PlaylistAnswer)) :
    e.Spares id (Agrees start record) := by
  refine ⟨?_, ?_, ?_⟩
  · rintro sender rfl
    exact he rfl
  · rintro sender path m rfl
    exact he
  · rintro sender path m rfl hid p r hlegal
    rw [Agrees, handlePlay_shared sender id p r (he hid)]
    exact hlegal

/-- What a run keeps. -/
structure OneObject (start : SharedPlaylist) (id : Nat) (s : Shared) : Prop where
  registry : Registry s.1
  wellFormed : s.1.WellFormed
  agrees : s.1.Holds id (Agrees start s.2)

section
variable {createObjectid : Bytes → Bytes} {released : Released} {start : SharedPlaylist} {id : Nat} {s t : Shared}

lemma OneObject.call (h : OneObject start id s) (hpos : 0 < id) (hlt : id < 2 ^ 32) {c : PlaylistCall}
    (hfit : s.1.Fits id c) (client : Client) (createObjectid : Bytes → Bytes) :
    ∃ t, SharedEvent.step createObjectid .intact id s (.call client c) = some t ∧ OneObject start id t := by
  obtain ⟨cur, hcur, hlegal⟩ := h.agrees
  obtain ⟨ptr, hl, hcell⟩ := Option.bind_eq_some_iff.mp hcur
  have hwf : cur.WF := h.wellFormed ptr cur hcell
  have hbound : MafwProxyPlaylist.BoundTo ⟨id, client⟩ s.1 ptr cur := ⟨hpos, hlt, hl, hcell⟩
  obtain ⟨sent, new, d', hserves, hresult, hnew⟩ := run_answers hbound hwf.len_le c hfit
  have hquiet : ¬(DaemonEvent.playlist client (decimal id) c.member).Creates := fun hc => hc
  have hturn : Turned createObjectid s.1 (.playlist client (decimal id) c.member) d' sent :=
    Turned.of_ok h.registry (fun hc => absurd hc hquiet) hserves.handled
  have hkeeps : DaemonEvent.Keeps s.1 (.playlist client (decimal id) c.member) := by
    cases c <;> exact hfit
  have hreg := hturn.registry h.registry fun hc => absurd hc hquiet
  refine ⟨(d', s.2 ++ [(c, (cur.shared.call c).1)]), ?_, hreg, hturn.wellFormed h.wellFormed hkeeps, new,
    hserves.playlistOf, ?_⟩
  · rw [SharedEvent.step, hresult]
  · rw [Agrees, hnew]
    exact hlegal.concat rfl

lemma OneObject.step {e : SharedEvent} (h : OneObject start id s) (hpos : 0 < id) (hlt : id < 2 ^ 32)
    (he : e.Fair id s) (ht : SharedEvent.step createObjectid .intact id s e = some t) : OneObject start id t := by
  cases e with
  | call client c =>
    obtain ⟨t', ht', hone⟩ := h.call hpos hlt he client createObjectid
    rw [ht'] at ht
    cases ht
    exact hone
  | other e =>
    obtain ⟨hleaves, hfresh, hkeeps⟩ := he
    simp only [SharedEvent.step] at ht
    split at ht
    · rename_i d' sent hd
      cases ht
      have hturn := Turned.of_ok h.registry hfresh hd
      exact ⟨hturn.registry h.registry hfresh, hturn.wellFormed h.wellFormed hkeeps,
        hturn.holds (agrees_intrinsic start s.2) h.agrees h.registry hfresh (hleaves.spares_shared start s.2)⟩
    · cases ht

end

/-- Two clients change a playlist in turn, while a third one makes a playlist of its own. The first
client is refused once, and reads in the end what the others have left. -/
def twoEditors : List SharedEvent :=
  [.call [49] (.appendItem [100]), .call [50] (.removeItem 0), .call [49] (.removeItem 3), .other (.create [51] [113]),
    .call [50] (.moveItem 0 2), .other (.playlist [51] [49] (.play (.getStarting 0))), .call [50] .unshuffle,
    .call [49] .isShuffled, .call [49] (.getItems 0 9)]

def twoEditorsHear : List PlaylistAnswer :=
  [.boolean ⟨true, none⟩, .boolean ⟨true, none⟩, .boolean ⟨false, some (.daemon .invalidIndex "Wrong index")⟩,
    .boolean ⟨true, none⟩, .boolean ⟨true, none⟩, .boolean ⟨false, none⟩,
    .items ⟨some [[99], [100], [98]], none⟩]

/-- The playlist that the two clients change: three items, of which nothing was played yet. -/
def editedTriple : Option (Daemon × List Nat) :=
  runEvents (registryStep id) (fun s e => e.Keeps s.1) (Daemon.init, [])
    [.create [49] [112], .playlist [49] [49] (.edit (.appendItem [[97], [98], [99]])),
      .playlist [49] [49] (.play .shuffle)]

lemma editedTriple_shared : ∃ d pls, Registry d ∧ d.WellFormed ∧ d.playlistOf 1 = some pls ∧
    (runEvents (SharedEvent.step id .intact 1) (SharedEvent.Fair 1) (d, []) twoEditors).map
      (fun s => s.2.map Prod.snd) = some twoEditorsHear := by
  have hrun : editedTriple = some (editedTriple.get rfl) := rfl
  have hreach : KeptReach id Daemon.init (editedTriple.get rfl) := reach_of_runEvents hrun
  have hin := InStep.of_reach (registry_init 1) (by decide) hreach (by decide)
  have hinit : Daemon.init.WellFormed := fun p pls hp => (by cases hp)
  have hwf := hinit.run (registry_init 1) (by decide) hreach (by decide)
  exact ⟨(editedTriple.get rfl).1, ((editedTriple.get rfl).1.playlistOf 1).get rfl, hin.registry, hwf, rfl,
    by decide +kernel⟩

end MafwShared
