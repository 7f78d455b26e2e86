import MafwShared.PlaylistWrapper

/-!
# Requests to the playlist manager

`playlist-manager-wrapper.c`: the requests that create, destroy, duplicate and list
playlists, and the end of an import. `DaemonEvent` is everything that can happen to a
daemon in one turn of its main loop, as far as its playlists are concerned.
-/

namespace MafwShared
open CLib

/-- `struct plparse_data`, as far as `import_done` looks at it. -/
structure PlparseData where
  plUri : Bytes
  sender : Client
  importId : Nat
  urilist : List Bytes
  listFromBrowse : Bool

/-- The error of a failed import: domain, code and message. -/
structure GError where
  domain : Bytes
  code : Int
  message : Bytes

def signalPlaylistCreated (newId : Nat) : Sent := .signal (.playlistCreated newId)

/-- The fields that a duplicate takes over. The source assigns `poolst` to itself. -/
def duplicateFields (newPls pls : Pls) : Pls :=
  let newPls := { newPls with
    shuffled := pls.shuffled
    alloc := pls.alloc
    len := pls.len
    vidx := forUpto pls.len (fun i a => Function.update a i (pls.vidx i)) newPls.vidx }
  let newPls :=
    if newPls.shuffled ≠ 0 then
      { newPls with
        pidx := forUpto pls.len (fun i a => Function.update a i (pls.pidx i)) newPls.pidx
        iidx := forUpto pls.len (fun i a => Function.update a i (pls.iidx i)) newPls.iidx }
    else newPls
  plsSetRepeat newPls pls.repeatMode

/-- The candidates for an imported playlist's name. -/
def importName (plUri : Bytes) (count : Nat) : Bytes :=
  if count = 0 then plUri else plUri ++ [32, 40] ++ decimal count ++ [41]

/-- Object ids appended one by one. -/
def appendAll : List Bytes → Pls → Option Pls
  | [], pls => some pls
  | oid :: oids, pls => (plsAppend pls oid).bind fun r => appendAll oids r.2

namespace Daemon

/-- A playlist with a fresh id under a name, in both trees. `pls_new` has no playlist for
an empty name. -/
def addPlaylist (d : Daemon) (name : Bytes) : Except Crash (Pls × Ptr × Daemon) :=
  let (id, d) := d.nextId
  match plsNew false id name with
  | none => .error .nullDeref
  | some pls =>
    let (p, d) := d.malloc pls
    .ok (pls, p, (d.insertPlaylist pls.id p).insertName pls.name p)

def createPlaylist (d : Daemon) (sender : Client) (name : Bytes) : Except Crash (Daemon × List Sent) :=
  if name = [] then .ok (d, [.error sender .invalidName "name cannot be empty"])
  else
    match d.playlistsByName.lookup name with
    | some p => do
      let pls ← d.deref p
      .ok (d, [.reply sender [.uint32 pls.id]])
    | none => do
      let (pls, _, d) ← d.addPlaylist name
      .ok (d, [signalPlaylistCreated pls.id, .reply sender [.uint32 pls.id]])

/-- The file of the playlist, which is unlinked as well, is not part of this state. -/
def destroyPlaylist (d : Daemon) (id : Nat) : Except Crash (Daemon × List Sent) :=
  match d.playlists.lookup id with
  | none => .ok (d, [])
  | some p => do
    let pls ← d.deref p
    if id ≠ pls.id then .error .assertion
    else if pls.useCount ≠ 0 then .ok (d, [.signal (.playlistDestructionFailed id)])
    else
      let (removed, d) := d.removeName pls.name
      if removed = false then .error .assertion
      else
        let (removed, d) := d.removePlaylist pls.id
        if removed = false then .error .assertion
        else .ok (d, [.signal (.playlistDestroyed id)])

def duplicatePlaylist (d : Daemon) (sender : Client) (srcId : Nat) (newName : Bytes) :
    Except Crash (Daemon × List Sent) :=
  if newName = [] then .ok (d, [.error sender .invalidName "name cannot be empty"])
  else if (d.playlistsByName.lookup newName).isSome then
    .ok (d, [.error sender .invalidName "Playlist already exists"])
  else
    match d.playlists.lookup srcId with
    | none => .ok (d, [.error sender .invalidName "playlist does not exist"])
    | some src => do
      let pls ← d.deref src
      let (id, d) := d.nextId
      match plsNew false id newName with
      | none => .error .nullDeref
      | some newPls =>
        let newPls := duplicateFields newPls pls
        let (p, d) := d.malloc newPls
        let d := (d.insertPlaylist newPls.id p).insertName newPls.name p
        .ok (d, [signalPlaylistCreated newPls.id, .reply sender [.uint32 newPls.id]])

/-- `append_pls` on one playlist. -/
def appendPls (d : Daemon) (p : Ptr) : Except Crash (Nat × Bytes) := do
  let pls ← d.deref p
  .ok (pls.id, pls.name)

/-- `list_playlists`, for the given ids or for all playlists. -/
def listPlaylists (d : Daemon) (sender : Client) (ids : Option (List Nat)) :
    Except Crash (Daemon × List Sent) := do
  let found ← match ids with
    | some ids => (ids.filterMap fun id => d.playlists.lookup id).mapM d.appendPls
    | none => (d.playlists.entries.map fun e => e.2).mapM d.appendPls
  .ok (d, [.reply sender [.playlists found]])

/-- The first candidate that is no playlist's name; `fuel` is how many are looked at. -/
def freeName (d : Daemon) (plUri : Bytes) : Nat → Nat → Option Bytes
  | 0, _ => none
  | fuel + 1, count =>
    if (d.playlistsByName.lookup (importName plUri count)).isSome then freeName d plUri fuel (count + 1)
    else some (importName plUri count)

/-- `import_done`. The names of all playlists are taken at the most, so that one more
candidate than there are playlists is enough. -/
def importDone (createObjectid : Bytes → Bytes) (d : Daemon) (data : PlparseData) :
    Option GError → Except Crash (Daemon × List Sent)
  | some err =>
    .ok (d, [.playlistImported data.sender
      [.uint32 data.importId, .string err.domain, .int32 err.code, .string err.message]])
  | none =>
    match d.freeName data.plUri (d.playlistsByName.entries.length + 1) 0 with
    | none => .error .noReturn
    | some name => do
      let (newPl, p, d) ← d.addPlaylist name
      let oids := if data.listFromBrowse then data.urilist else data.urilist.map createObjectid
      match appendAll oids newPl with
      | none => .error .noReturn
      | some newPl =>
        .ok (d.write p newPl, [.playlistImported data.sender [.uint32 data.importId, .uint32 newPl.id],
          signalPlaylistCreated newPl.id])

end Daemon

/-! ### One turn of the main loop -/

inductive DaemonEvent
  | create (sender : Client) (name : Bytes)
  | destroy (sender : Client) (id : Nat)
  | duplicate (sender : Client) (srcId : Nat) (newName : Bytes)
  | list (sender : Client) (ids : Option (List Nat))
  | imported (data : PlparseData) (err : Option GError)
  | playlist (sender : Client) (path : Bytes) (member : Member)
  /-- A client has left the bus. -/
  | disconnected (client : Client)

/-- `request`, `import_done` and the filter for `NameOwnerChanged`. -/
def Daemon.handle (createObjectid : Bytes → Bytes) (d : Daemon) :
    DaemonEvent → Except Crash (Daemon × List Sent)
  | .create sender name => d.createPlaylist sender name
  | .destroy _ id => d.destroyPlaylist id
  | .duplicate sender srcId newName => d.duplicatePlaylist sender srcId newName
  | .list sender ids => d.listPlaylists sender ids
  | .imported data err => d.importDone createObjectid data err
  | .playlist sender path member => handlePlaylistRequest d sender path member
  | .disconnected client => do
    let d ← d.handleUsecountHolderMsgs client []
    .ok (d, [])

end MafwShared
