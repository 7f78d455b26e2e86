import MafwShared.Lib.Stdio

/-!
# Messages of the playlist daemon

What the daemon puts on the bus: replies and errors to the sender of a request, signals
to everybody, and the `playlist_imported` call. Uint32 arguments are naturals.
-/

namespace MafwShared
open CLib

/-- The unique bus name of a client. -/
abbrev Client := Bytes

/-- `MAFW_PLAYLIST_ERROR`. -/
inductive PlaylistError
  | playlistNotFound
  | invalidName
  | invalidIndex
  deriving DecidableEq

/-- The properties that `property_changed` names. -/
inductive Property
  | name
  | repeatMode
  | isShuffled
  deriving DecidableEq

inductive Arg
  | uint32 (n : Nat)
  | int32 (z : Int)
  | boolean (b : Bool)
  | string (s : Bytes)
  | strings (l : List Bytes)
  /-- An array of `(us)`. -/
  | playlists (l : List (Nat × Bytes))
  deriving DecidableEq

inductive Signal
  | playlistCreated (id : Nat)
  | playlistDestroyed (id : Nat)
  | playlistDestructionFailed (id : Nat)
  | propertyChanged (plid : Nat) (property : Property)
  | contentsChanged (plid start nremove nreplace : Nat)
  | itemMoved (plid src dst : Nat)
  deriving DecidableEq

inductive Sent
  | reply (dest : Client) (args : List Arg)
  | error (dest : Client) (code : PlaylistError) (text : String)
  | signal (s : Signal)
  | playlistImported (dest : Client) (args : List Arg)
  deriving DecidableEq

/-- `mafw_dbus_ack_or_error`. -/
def ackOrError (sender : Client) (err : Option (PlaylistError × String)) : Sent :=
  match err with
  | none => .reply sender []
  | some (code, text) => .error sender code text

end MafwShared
