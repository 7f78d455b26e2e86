import MafwShared.PlaylistManagerWrapper

/-!
# The playlist managers of the clients

`mafw-playlist-manager.c`: the objects a client has for the playlists of the daemon, the
signals it emits about them, and its calls. A blocking call takes nothing from the queue
of signals until its reply is there; `destroy_playlist` does not wait.

`Framework` is the daemon with any number of clients.
-/

namespace MafwShared
open CLib

/-- A `MafwProxyPlaylist`, as far as its manager looks at it. -/
structure ProxyPlaylist where
  id : Nat
  refCount : Nat
  deriving DecidableEq

structure PlaylistManager where
  playlists : List ProxyPlaylist
  /-- The signals emitted so far. -/
  emitted : List Signal

/-- The calls that wait for a reply. -/
inductive ManagerCall
  | createPlaylist (name : Bytes)
  | dupPlaylist (id : Nat) (newName : Bytes)
  | getPlaylist (id : Nat)
  | getPlaylists
  deriving DecidableEq

/-- `MAFW_PLAYLIST_SERVICE`, `com.nokia.mafw.playlist`. -/
def playlistService : Bytes :=
  [99, 111, 109, 46, 110, 111, 107, 105, 97, 46, 109, 97, 102, 119, 46, 112, 108, 97, 121, 108, 105, 115, 116]

namespace PlaylistManager

def find (m : PlaylistManager) (id : Nat) : Option ProxyPlaylist := m.playlists.find? fun o => o.id = id

def registerPlaylist (m : PlaylistManager) (id : Nat) : PlaylistManager :=
  if (m.find id).isSome then m else { m with playlists := m.playlists ++ [⟨id, 1⟩] }

/-- A change of the reference count of the object with the id. -/
def modifyRef (m : PlaylistManager) (id : Nat) (f : Nat → Nat) : PlaylistManager :=
  { m with
    playlists := m.playlists.modify (m.playlists.findIdx fun o => o.id = id)
      (fun o => { o with refCount := f o.refCount }) }

def objectRef (m : PlaylistManager) (id : Nat) : PlaylistManager := m.modifyRef id fun n => n + 1

/-- A reference that the client gives up. It has none when only the manager's is left, and
an object that has left the manager is not counted here. -/
def objectUnref (m : PlaylistManager) (id : Nat) : Option PlaylistManager :=
  match m.find id with
  | none => some m
  | some o => if 1 < o.refCount then some (m.modifyRef id fun n => n - 1) else none

def emit (m : PlaylistManager) (s : Signal) : PlaylistManager := { m with emitted := m.emitted ++ [s] }

/-- The signals of the daemon in `dbus_handler`. -/
def dbusHandler (m : PlaylistManager) : Signal → PlaylistManager
  | .playlistCreated id => (m.registerPlaylist id).emit (.playlistCreated id)
  | .playlistDestroyed id =>
    match m.find id with
    | none => m
    | some o =>
      let m := { m with playlists := m.playlists.eraseP fun o => o.id = id }
      if 1 < o.refCount then m.emit (.playlistDestroyed id) else m
  | .playlistDestructionFailed id =>
    if (m.find id).isSome then m.emit (.playlistDestructionFailed id) else m
  | _ => m

/-- The inner loop for an object with this id. It runs once for each id, but looks at `ids[i]` every
time; without such a cell it is `none`. -/
def idListed (ids : List Nat) (i id : Nat) : (js : Nat) → Option Bool
  | 0 => some false
  | js + 1 =>
    match ids[i]? with
    | none => none
    | some x => if x = id then some true else idListed ids i id js

/-- The object at an index leaves the array, with a signal if somebody else has a reference to it. -/
def removeIndex (m : PlaylistManager) (i : Nat) (pls : ProxyPlaylist) : PlaylistManager :=
  let m := { m with playlists := m.playlists.eraseIdx i }
  if 1 < pls.refCount then m.emit (.playlistDestroyed pls.id) else m

/-- The loop over the objects, cut off after `rounds` tests. -/
def dropMissing (ids : List Nat) : (rounds i : Nat) → PlaylistManager → Option PlaylistManager
  | 0, _, m => some m
  | rounds + 1, i, m =>
    match m.playlists[i]? with
    | none => some m
    | some pls =>
      match idListed ids i pls.id ids.length with
      | none => none
      | some true => dropMissing ids rounds (i + 1) m
      | some false => dropMissing ids rounds (i + 1) (m.removeIndex i pls)

/-- `NameOwnerChanged` in `dbus_handler`; `ids` is what `do_get_playlists` returns. -/
def nameOwnerChanged (m : PlaylistManager) (name newname : Bytes) (ids : Option (List Nat)) :
    Option PlaylistManager :=
  if name ≠ playlistService ∨ newname = [] then some m
  else
    match ids with
    | none => some m
    | some ids => dropMissing ids (m.playlists.length + 1) 0 m

/-- A call that is answered without the daemon. -/
def shortcut (m : PlaylistManager) : ManagerCall → Option PlaylistManager
  | .getPlaylist id =>
    if id = 0 then some m
    else if (m.find id).isSome then some (m.objectRef id)
    else none
  | _ => none

end PlaylistManager

namespace ManagerCall

/-- The request of a call. -/
def request (sender : Client) : ManagerCall → DaemonEvent
  | createPlaylist name => .create sender name
  | dupPlaylist id newName => .duplicate sender id newName
  | getPlaylist id => .list sender (some [id])
  | getPlaylists => .list sender none

/-- The ids that a call reads from its reply. -/
def replyIds : ManagerCall → List Arg → List Nat
  | createPlaylist _, [.uint32 id] => [id]
  | dupPlaylist _ _, [.uint32 newId] => [newId]
  | getPlaylist id, [.playlists (_ :: _)] => [id]
  | getPlaylists, [.playlists l] => l.map fun e => e.1
  | _, _ => []

end ManagerCall

/-- A call when it has its reply, or none when that is an error. `get_playlists` hands out
its array without references. -/
def PlaylistManager.finish (m : PlaylistManager) (c : ManagerCall) : Option (List Arg) → PlaylistManager
  | none => m
  | some args =>
    let ids := c.replyIds args
    let m := ids.foldl registerPlaylist m
    match c with
    | .getPlaylists => m
    | _ => ids.foldl objectRef m

/-! ### The daemon and its clients -/

/-- What a client sends to the daemon. -/
inductive Request
  | call (c : ManagerCall)
  /-- A call whose reply is no longer waited for. -/
  | lapsed (c : ManagerCall)
  | destroy (id : Nat)
  deriving DecidableEq

namespace Request

def event (sender : Client) : Request → DaemonEvent
  | call c => c.request sender
  | lapsed c => c.request sender
  | destroy id => .destroy sender id

def lapse : Request → Request
  | call c => lapsed c
  | r => r

end Request

inductive Progress
  | idle
  | waiting
  | answered (c : ManagerCall) (reply : Option (List Arg))
  deriving DecidableEq

/-- A client with its connection to the bus. -/
structure Peer where
  started : Bool
  manager : PlaylistManager
  progress : Progress
  /-- The signals it has not looked at yet. -/
  inbox : List Signal
  /-- Its requests that the daemon has not looked at yet. -/
  outbox : List Request

def Peer.init : Peer := ⟨false, ⟨[], []⟩, .idle, [], []⟩

def signalsOf (sent : List Sent) : List Signal :=
  sent.filterMap fun
    | .signal s => some s
    | _ => none

/-- The reply among the messages of a turn, none when it is an error. -/
def replyOf (sent : List Sent) : Option (List Arg) :=
  sent.findSome? fun
    | .reply _ args => some args
    | _ => none

namespace Peer

def hear (p : Peer) (sent : List Sent) : Peer :=
  if p.started then { p with inbox := p.inbox ++ signalsOf sent } else p

/-- The daemon has handled the first request. -/
def served (p : Peer) (r : Request) (rest : List Request) (sent : List Sent) : Peer :=
  match r with
  | .call c => { p with outbox := rest, progress := .answered c (replyOf sent) }
  | _ => { p with outbox := rest }

/-- The client is there and waits for no reply. -/
def Idle (p : Peer) : Prop := p.started = true ∧ p.progress = .idle

instance (p : Peer) : Decidable p.Idle := inferInstanceAs (Decidable (_ ∧ _))

end Peer

structure Framework (ι : Type*) where
  daemon : Daemon
  peers : ι → Peer

/-- What a client does by itself. -/
inductive PeerEvent
  /-- It creates its manager. -/
  | start
  | call (c : ManagerCall)
  | destroyPlaylist (id : Nat)
  | ref (id : Nat)
  | unref (id : Nat)
  | receiveReply
  /-- No reply in time, which is an error. -/
  | timeout
  | deliverSignal

inductive FrameworkEvent (ι : Type*)
  | peer (i : ι) (e : PeerEvent)
  /-- The daemon handles the first request of a client. -/
  | serve (i : ι)
  /-- Anything else that happens to the daemon. -/
  | other (e : DaemonEvent)

/-- The client after an event, none when the event cannot happen to it now. -/
def Peer.step (p : Peer) : PeerEvent → Option Peer
  | .start => if p.started then none else some { Peer.init with started := true }
  | .call c =>
    if p.Idle then
      match p.manager.shortcut c with
      | some m => some { p with manager := m }
      | none => some { p with outbox := p.outbox ++ [.call c], progress := .waiting }
    else none
  | .destroyPlaylist id =>
    if p.Idle then
      (p.manager.objectUnref id).map fun m => { p with manager := m, outbox := p.outbox ++ [.destroy id] }
    else none
  | .ref id => if p.Idle then some { p with manager := p.manager.objectRef id } else none
  | .unref id => if p.Idle then (p.manager.objectUnref id).map fun m => { p with manager := m } else none
  | .receiveReply =>
    match p.progress with
    | .answered c reply => some { p with manager := p.manager.finish c reply, progress := .idle }
    | _ => none
  | .timeout =>
    if p.progress = .idle then none
    else some { p with progress := .idle, outbox := p.outbox.map Request.lapse }
  | .deliverSignal =>
    if p.Idle then
      match p.inbox with
      | s :: rest => some { p with manager := p.manager.dbusHandler s, inbox := rest }
      | [] => none
    else none

namespace Framework
variable {ι : Type*}

def init (d : Daemon) : Framework ι := ⟨d, fun _ => Peer.init⟩

/-- A turn of the daemon. Its signals go to everybody. -/
def turn (createObjectid : Bytes → Bytes) (s : Framework ι) (e : DaemonEvent) :
    Option (List Sent × Framework ι) :=
  match s.daemon.handle createObjectid e with
  | .error _ => none
  | .ok (d, sent) => some (sent, ⟨d, fun j => (s.peers j).hear sent⟩)

variable [DecidableEq ι]

def setPeer (s : Framework ι) (i : ι) (p : Peer) : Framework ι :=
  { s with peers := Function.update s.peers i p }

def step (createObjectid : Bytes → Bytes) (busName : ι → Client) (s : Framework ι) :
    FrameworkEvent ι → Option (Framework ι)
  | .peer i e => ((s.peers i).step e).map (s.setPeer i)
  | .serve i =>
    match (s.peers i).outbox with
    | [] => none
    | r :: rest =>
      (s.turn createObjectid (r.event (busName i))).map fun t =>
        t.2.setPeer i ((t.2.peers i).served r rest t.1)
  | .other e => (s.turn createObjectid e).map fun t => t.2

end Framework

end MafwShared
