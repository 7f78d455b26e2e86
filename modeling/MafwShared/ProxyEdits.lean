import MafwShared.ProxyPlaylist

/-!
# Changing a playlist over the bus

`mafw-proxy-playlist.c`, as far as a client edits a playlist, sets its modes or reads its items. The
calls wait for the daemon's reply, but for the one that sets a property and returns at once.
-/

namespace MafwShared
open CLib

/-- Why a call has no reply: the daemon has sent an error, or nothing at all. -/
inductive CallError
  | daemon (code : PlaylistError) (text : String)
  | noReply
  deriving DecidableEq

/-- The reply to `dest`, or the error in its place. -/
def Sent.answerTo (dest : Client) : Sent → Option (Except CallError (List Arg))
  | .reply dest' args => if dest' = dest then some (.ok args) else none
  | .error dest' code text => if dest' = dest then some (.error (.daemon code text)) else none
  | _ => none

/-- What a call returns, and what it leaves behind `error`. -/
structure Returned (α : Type) where
  value : α
  error : Option CallError
  deriving DecidableEq

namespace MafwProxyPlaylist

/-- `mafw_dbus_call` with any method of the playlist. -/
def mafwDbusCallMember (self : MafwProxyPlaylist) (d : Daemon) (m : Member) :
    Except Crash (Except CallError (List Arg) × Daemon) := do
  let (d, sent) ← handlePlaylistRequest d self.connection self.objPath m
  .ok ((sent.findSome? (Sent.answerTo self.connection)).getD (.error .noReply), d)

/-- The calls that return `TRUE` if there is a reply. -/
def callForReply (self : MafwProxyPlaylist) (d : Daemon) (m : Member) : Except Crash (Returned Bool × Daemon) := do
  let (reply, d) ← self.mafwDbusCallMember d m
  match reply with
  | .error error => .ok (⟨false, some error⟩, d)
  | .ok _ => .ok (⟨true, none⟩, d)

/-- The calls that return the boolean in the reply, or `FALSE`. -/
def callForBoolean (self : MafwProxyPlaylist) (d : Daemon) (m : Member) : Except Crash (Returned Bool × Daemon) := do
  let (reply, d) ← self.mafwDbusCallMember d m
  match reply with
  | .error error => .ok (⟨false, some error⟩, d)
  | .ok [.boolean retval] => .ok (⟨retval, none⟩, d)
  | .ok _ => .error .assertion

def insertItem (self : MafwProxyPlaylist) (d : Daemon) (index : Nat) (objectid : Bytes) :=
  self.callForReply d (.edit (.insertItem index [objectid]))

def insertItems (self : MafwProxyPlaylist) (d : Daemon) (index : Nat) (objectids : List Bytes) :=
  self.callForReply d (.edit (.insertItem index objectids))

def appendItem (self : MafwProxyPlaylist) (d : Daemon) (objectid : Bytes) :=
  self.callForReply d (.edit (.appendItem [objectid]))

def appendItems (self : MafwProxyPlaylist) (d : Daemon) (objectids : List Bytes) :=
  self.callForReply d (.edit (.appendItem objectids))

def removeItem (self : MafwProxyPlaylist) (d : Daemon) (index : Nat) :=
  self.callForBoolean d (.edit (.removeItem index))

def moveItem (self : MafwProxyPlaylist) (d : Daemon) (src dst : Nat) :=
  self.callForBoolean d (.edit (.move src dst))

def clear (self : MafwProxyPlaylist) (d : Daemon) := self.callForReply d (.edit .clear)

def getItems (self : MafwProxyPlaylist) (d : Daemon) (firstIndex lastIndex : Nat) :
    Except Crash (Returned (Option (List Bytes)) × Daemon) := do
  let (reply, d) ← self.mafwDbusCallMember d (.play (.getItems firstIndex lastIndex))
  match reply with
  | .error error => .ok (⟨none, some error⟩, d)
  | .ok [.strings retval] => .ok (⟨if retval = [] then none else some retval, none⟩, d)
  | .ok _ => .error .assertion

def getSize (self : MafwProxyPlaylist) (d : Daemon) : Except Crash (Returned Nat × Daemon) := do
  let (reply, d) ← self.mafwDbusCallMember d (.play .getSize)
  match reply with
  | .error error => .ok (⟨0, some error⟩, d)
  | .ok [.uint32 retval] => .ok (⟨retval, none⟩, d)
  | .ok _ => .error .assertion

def shuffle (self : MafwProxyPlaylist) (d : Daemon) := self.callForReply d (.play .shuffle)

def unshuffle (self : MafwProxyPlaylist) (d : Daemon) := self.callForReply d (.play .unshuffle)

def isShuffled (self : MafwProxyPlaylist) (d : Daemon) := self.callForBoolean d (.play .isShuffled)

/-- `mafw_dbus_send`: nobody waits for a reply, and the daemon sends none. -/
def setRepeat (self : MafwProxyPlaylist) (d : Daemon) (repeatMode : Bool) : Except Crash Daemon := do
  let (d, _) ← handlePlaylistRequest d self.connection self.objPath (.play (.setRepeat repeatMode))
  .ok d

def getRepeat (self : MafwProxyPlaylist) (d : Daemon) := self.callForBoolean d (.play .getRepeat)

def incrementUseCount (self : MafwProxyPlaylist) (d : Daemon) := self.callForReply d .incrementUseCount

def decrementUseCount (self : MafwProxyPlaylist) (d : Daemon) := self.callForReply d .decrementUseCount

end MafwProxyPlaylist

/-! ### Any call -/

inductive PlaylistCall
  | insertItem (index : Nat) (objectid : Bytes)
  | insertItems (index : Nat) (objectids : List Bytes)
  | appendItem (objectid : Bytes)
  | appendItems (objectids : List Bytes)
  | removeItem (index : Nat)
  | moveItem (src dst : Nat)
  | clear
  | getItem (index : Nat)
  | getItems (firstIndex lastIndex : Nat)
  | getSize
  | shuffle
  | unshuffle
  | isShuffled
  | setRepeat (repeatMode : Bool)
  | getRepeat
  | incrementUseCount
  | decrementUseCount
  deriving DecidableEq

inductive PlaylistAnswer
  | boolean (r : Returned Bool)
  | item (oid : Option Bytes)
  | items (r : Returned (Option (List Bytes)))
  | size (r : Returned Nat)
  | sent
  deriving DecidableEq

/-- A call through the proxy. -/
def PlaylistCall.run (self : MafwProxyPlaylist) (released : Released) (d : Daemon) :
    PlaylistCall → Except Crash (PlaylistAnswer × Daemon)
  | .insertItem index objectid => (self.insertItem d index objectid).map fun r => (.boolean r.1, r.2)
  | .insertItems index objectids => (self.insertItems d index objectids).map fun r => (.boolean r.1, r.2)
  | .appendItem objectid => (self.appendItem d objectid).map fun r => (.boolean r.1, r.2)
  | .appendItems objectids => (self.appendItems d objectids).map fun r => (.boolean r.1, r.2)
  | .removeItem index => (self.removeItem d index).map fun r => (.boolean r.1, r.2)
  | .moveItem src dst => (self.moveItem d src dst).map fun r => (.boolean r.1, r.2)
  | .clear => (self.clear d).map fun r => (.boolean r.1, r.2)
  | .getItem index => (self.getItem released d index).map fun r => (.item r.1, r.2)
  | .getItems firstIndex lastIndex => (self.getItems d firstIndex lastIndex).map fun r => (.items r.1, r.2)
  | .getSize => (self.getSize d).map fun r => (.size r.1, r.2)
  | .shuffle => (self.shuffle d).map fun r => (.boolean r.1, r.2)
  | .unshuffle => (self.unshuffle d).map fun r => (.boolean r.1, r.2)
  | .isShuffled => (self.isShuffled d).map fun r => (.boolean r.1, r.2)
  | .setRepeat repeatMode => (self.setRepeat d repeatMode).map fun d => (.sent, d)
  | .getRepeat => (self.getRepeat d).map fun r => (.boolean r.1, r.2)
  | .incrementUseCount => (self.incrementUseCount d).map fun r => (.boolean r.1, r.2)
  | .decrementUseCount => (self.decrementUseCount d).map fun r => (.boolean r.1, r.2)

end MafwShared
