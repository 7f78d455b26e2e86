import MafwShared.PlaylistWrapper

/-!
# Playing a playlist over the bus

`mafw-proxy-playlist.c`, as far as a client asks the daemon for items. Each call is a request
to the daemon's handler, and the daemon has nothing to say about success in its replies: an
empty object id is what both sides take for no item. `mafw_proxy_playlist_get_item` looks at the
string of its reply after `dbus_message_unref`; what is left of it there is up to libdbus, which
keeps the memory of a few small messages and frees any other.
-/

namespace MafwShared
open CLib

/-- A proxy, as far as its calls look at it. The connection is given by its unique name. -/
structure MafwProxyPlaylist where
  id : Nat
  connection : Client

/-- The variables of a caller behind `index` and `oid`. A `none` in their place is a `NULL`
pointer. -/
structure NavVars where
  index : Option Nat
  oid : Option (Option Bytes)
  deriving DecidableEq

/-- `*oid = g_strdup(retoid)` and `*index = retidx`, each if there is such a variable. -/
def NavVars.store (v : NavVars) (retidx : Nat) (retoid : Bytes) : NavVars :=
  { index := v.index.map fun _ => retidx, oid := v.oid.map fun _ => some retoid }

/-- What reading a string of a reply gives after the reply is given back: its length, and a copy.
A `none` is a read that does not come back. -/
structure Released where
  strlen : Bytes → Option Nat
  strdup : Bytes → Option Bytes

/-- The arguments of a reply to `dest`. -/
def Sent.replyTo (dest : Client) : Sent → Option (List Arg)
  | .reply dest' args => if dest' = dest then some args else none
  | _ => none

namespace MafwProxyPlaylist

/-- `obj_path`, without what all playlists have in common. -/
def objPath (self : MafwProxyPlaylist) : Bytes := decimal self.id

/-- `mafw_dbus_call` with a method of the playlist: the arguments of the reply, or `none` if
there is an error instead, and the daemon after it. -/
def mafwDbusCall (self : MafwProxyPlaylist) (d : Daemon) (m : PlayMember) :
    Except Crash (Option (List Arg) × Daemon) := do
  let (d, sent) ← handlePlaylistRequest d self.connection self.objPath (.play m)
  .ok (sent.findSome? (Sent.replyTo self.connection), d)

def getItem (self : MafwProxyPlaylist) (released : Released) (d : Daemon) (index : Nat) :
    Except Crash (Option Bytes × Daemon) := do
  let (reply, d) ← self.mafwDbusCall d (.getItem index)
  match reply with
  | none => .ok (none, d)
  | some [.string retval] =>
    -- `retval` points into the reply, which is gone by now
    match released.strlen retval, released.strdup retval with
    | none, _ => .error .useAfterFree
    | some 0, _ => .ok (none, d)
    | some _, none => .error .useAfterFree
    | some _, some retval => .ok (some retval, d)
  | some _ => .error .assertion

/-- `command` comes with the parameter that the source sends if `send_param` is set. -/
def sendMethodGetUintStrParams (self : MafwProxyPlaylist) (d : Daemon) (command : PlayMember) (v : NavVars) :
    Except Crash (Bool × NavVars × Daemon) := do
  let (reply, d) ← self.mafwDbusCall d command
  match reply with
  | none => .ok (false, v, d)
  | some [.uint32 retidx, .string retoid] =>
    if retoid = [] then .ok (false, v, d) else .ok (true, v.store retidx retoid, d)
  | some _ => .error .assertion

/-- `garbage` is what the daemon's variable holds before `pls_get_starting`. -/
def getStartingIndex (self : MafwProxyPlaylist) (d : Daemon) (garbage : Nat) (v : NavVars) :
    Except Crash (NavVars × Daemon) :=
  if v.index.isSome ∨ v.oid.isSome then do
    let (_, v, d) ← self.sendMethodGetUintStrParams d (.getStarting garbage) v
    .ok (v, d)
  else .ok (v, d)

/-- `garbage` is what the daemon's variable holds before `pls_get_last`. -/
def getLastIndex (self : MafwProxyPlaylist) (d : Daemon) (garbage : Nat) (v : NavVars) :
    Except Crash (NavVars × Daemon) :=
  if v.index.isSome ∨ v.oid.isSome then do
    let (_, v, d) ← self.sendMethodGetUintStrParams d (.getLast garbage) v
    .ok (v, d)
  else .ok (v, d)

def getNext (self : MafwProxyPlaylist) (d : Daemon) (v : NavVars) : Except Crash (Bool × NavVars × Daemon) :=
  match v.index with
  | none => .ok (false, v, d)
  | some index => self.sendMethodGetUintStrParams d (.getNext index) v

def getPrev (self : MafwProxyPlaylist) (d : Daemon) (v : NavVars) : Except Crash (Bool × NavVars × Daemon) :=
  match v.index with
  | none => .ok (false, v, d)
  | some index => self.sendMethodGetUintStrParams d (.getPrev index) v

end MafwProxyPlaylist

end MafwShared
