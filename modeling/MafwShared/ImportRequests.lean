import MafwShared.PlaylistManagerWrapper

/-!
# Import sessions

The imports of `playlist-manager-wrapper.c`, from the request to `import_done`. An import whose
source is known is a session: its data stay in `import_requests` while the source is asked for
metadata and, if it is a container, browsed. The data of the imports live on a heap, whose
freed addresses are not given out again. A source calls back with the data that it was given:
once with metadata, and with browse results until one is final or the browse is cancelled. It
may do so before the call that asks for them has returned.
-/

namespace MafwShared.ImportRequests
open CLib

abbrev Source := Nat

/-- `struct plparse_data`. -/
structure ImportData extends PlparseData where
  base : Option Bytes
  source : Option Source
  browseId : Nat
  cancel : Bool

inductive ErrorCode
  | importFailed
  | invalidImportId

/-- What is used of the framework's library. -/
structure Libmafw where
  /-- The source's uuid, when the string is an object id. -/
  splitObjectid : Bytes → Option Bytes
  createObjectid : Bytes → Bytes
  /-- An error of the domain `MAFW_PLAYLIST_ERROR`. -/
  playlistError : ErrorCode → String → GError
  mimeContainer : Bytes

/-- What the playlist parser makes of a file: the URIs it has found, and whether it succeeds. -/
structure Parsed where
  uris : List Bytes
  success : Bool

/-- The metadata that are asked for, as far as they are strings. -/
structure Metadata where
  uri : Option Bytes
  mime : Option Bytes

/-- The arguments of the browse callback that are looked at. -/
structure BrowseReply where
  remainingCount : Int
  objectId : Option Bytes
  error : Option GError

/-- A call of a source that has not returned. -/
inductive Call
  /-- Of `mafw_source_get_metadata`, on the way to the reply to the request. -/
  | getMetadata (sender : Client) (importId : Nat)
  /-- Of `mafw_source_browse`, which is to return an id. -/
  | browse (p : Ptr) (browseId : Nat)

inductive Outcome
  | imported
  | failed
  | cancelled
  deriving DecidableEq

inductive Sent
  | importId (dest : Client) (importId : Nat)
  | error (dest : Client) (err : GError)
  | ack (dest : Client)
  /-- What `import_done` sends. -/
  | done (m : MafwShared.Sent)

structure Wrapper where
  daemon : Daemon
  heap : Ptr → Option ImportData
  brk : Ptr
  importRequests : Nat → Option Ptr
  /-- `next_id` of `get_next_import_id`. -/
  nextId : Nat
  /-- The last call first. -/
  calls : List Call
  /-- The sources that are still to call back with metadata, by their `user_data`. -/
  metadata : Ptr → Option Source
  /-- The browse sessions that go on at a source, by their `user_data`. -/
  browses : Ptr → Option (Source × Nat)
  /-- The data that were put into the table. -/
  registered : List Ptr
  /-- How the sessions have ended. -/
  outcomes : Ptr → List Outcome
  /-- The `playlist_imported` messages that were sent for some data. -/
  reports : Ptr → List MafwShared.Sent

def Wrapper.init (d : Daemon) : Wrapper :=
  { daemon := d, heap := fun _ => none, brk := 0, importRequests := fun _ => none, nextId := 0, calls := [],
    metadata := fun _ => none, browses := fun _ => none, registered := [], outcomes := fun _ => [],
    reports := fun _ => [] }

inductive Event
  /-- An import request, with the source that has the uuid and what the parser makes of the
  file; each is used only when it is asked for. -/
  | importPlaylist (sender : Client) (pl base : Bytes) (src : Option Source) (parsed : Parsed)
  | cancelImport (sender : Client) (importId : Nat)
  /-- A source calls back with metadata or an error. If it is browsed then, the session gets
  the id. -/
  | metadata (p : Ptr) (reply : Except GError Metadata) (parsed : Parsed) (browseId : Nat)
  | browseResult (p : Ptr) (reply : BrowseReply)
  /-- The last call of a source returns. -/
  | returns
  /-- Other requests change the playlists. -/
  | playlists (d : Daemon)

def isReport : MafwShared.Sent → Bool
  | .playlistImported _ _ => true
  | _ => false

namespace Wrapper

def deref (w : Wrapper) (p : Ptr) : Except Crash ImportData :=
  match w.heap p with
  | none => .error .useAfterFree
  | some data => .ok data

def write (w : Wrapper) (p : Ptr) (data : ImportData) : Wrapper :=
  { w with heap := Function.update w.heap p (some data) }

def freePlparseData (w : Wrapper) (p : Ptr) : Wrapper := { w with heap := Function.update w.heap p none }

def malloc (w : Wrapper) (data : ImportData) : Wrapper := { w.write w.brk data with brk := w.brk + 1 }

/-- The entry is removed and the data are freed, which ends the session. -/
def finish (w : Wrapper) (p : Ptr) (importId : Nat) (outcome : Outcome) : Wrapper :=
  { w.freePlparseData p with
    importRequests := Function.update w.importRequests importId none
    outcomes := Function.update w.outcomes p (w.outcomes p ++ [outcome]) }

def importDone (lib : Libmafw) (w : Wrapper) (p : Ptr) (err : Option GError) :
    Except Crash (Wrapper × List Sent) := do
  let data ← w.deref p
  let (d, sent) ← w.daemon.importDone lib.createObjectid data.toPlparseData err
  let w := { w with daemon := d, reports := Function.update w.reports p (w.reports p ++ sent.filter isReport) }
  .ok (w.finish p data.importId (if err.isSome then .failed else .imported), sent.map .done)

/-- `import_from_file`, which calls `import_done` when the parser succeeds. -/
def importFromFile (lib : Libmafw) (w : Wrapper) (p : Ptr) (parsed : Parsed) :
    Except Crash (Bool × Wrapper × List Sent) := do
  let data ← w.deref p
  let w := w.write p { data with urilist := data.urilist ++ parsed.uris }
  if parsed.success then
    let (w, sent) ← w.importDone lib p none
    .ok (true, w, sent)
  else .ok (false, w, [])

def parsingFailed (lib : Libmafw) : GError := lib.playlistError .importFailed "Playlist parsing failed."

def browseResCb (lib : Libmafw) (w : Wrapper) (p : Ptr) (reply : BrowseReply) :
    Except Crash (Wrapper × List Sent) :=
  match reply.error with
  | some err => w.importDone lib p (some err)
  | none => do
    let w ← match reply.objectId with
      | none => .ok w
      | some objectId => do
        let data ← w.deref p
        .ok (w.write p { data with urilist := data.urilist ++ [objectId] })
    if reply.remainingCount ≠ 0 then .ok (w, []) else w.importDone lib p none

/-- `mdata_res_cb` on a source; `browseId` is what `mafw_source_browse` will return. -/
def mdataResCb (lib : Libmafw) (w : Wrapper) (self : Source) (p : Ptr) (reply : Except GError Metadata)
    (parsed : Parsed) (browseId : Nat) : Except Crash (Wrapper × List Sent) := do
  let data ← w.deref p
  if data.cancel then .ok (w.finish p data.importId .cancelled, [])
  else
    match reply with
    | .error err => w.importDone lib p (some err)
    | .ok metadata => do
      let data := match metadata.uri with
        | none => data
        | some uri => { data with plUri := uri }
      if metadata.uri = none ∨ metadata.mime = some lib.mimeContainer then
        let w := w.write p { data with listFromBrowse := true, source := some self }
        .ok ({ w with
          calls := .browse p browseId :: w.calls
          browses := Function.update w.browses p (some (self, browseId)) }, [])
      else
        let (imported, w, sent) ← (w.write p data).importFromFile lib p parsed
        if imported then .ok (w, sent) else w.importDone lib p (some (parsingFailed lib))

def newPlparseData (sender : Client) (pl base : Bytes) (importId : Nat) : ImportData :=
  { plUri := pl, sender, importId, urilist := [], listFromBrowse := false
    base := if base = [] then none else some base
    source := none, browseId := 0, cancel := false }

def importPlaylist (lib : Libmafw) (w : Wrapper) (sender : Client) (pl base : Bytes) (src : Option Source)
    (parsed : Parsed) : Except Crash (Wrapper × List Sent) :=
  let importId := (w.nextId + 1) % 2 ^ 32
  let p := w.brk
  let w := { w.malloc (newPlparseData sender pl base importId) with nextId := importId }
  match lib.splitObjectid pl with
  | some _ =>
    match src with
    | some src =>
      .ok ({ w with
        importRequests := Function.update w.importRequests importId (some p)
        registered := p :: w.registered
        calls := .getMetadata sender importId :: w.calls
        metadata := Function.update w.metadata p (some src) }, [])
    | none => .ok (w.freePlparseData p, [.error sender (lib.playlistError .importFailed "Source not found")])
  | none => do
    let (imported, w, sent) ← w.importFromFile lib p parsed
    if imported then .ok (w, sent ++ [.importId sender importId])
    else .ok (w.freePlparseData p, [.error sender (parsingFailed lib)])

/-- `mafw_source_cancel_browse`: the source does not call back any more. -/
def cancelBrowse (w : Wrapper) (source : Source) (browseId : Nat) : Wrapper :=
  { w with browses := fun p => if w.browses p = some (source, browseId) then none else w.browses p }

def cancelImport (lib : Libmafw) (w : Wrapper) (sender : Client) (importId : Nat) :
    Except Crash (Wrapper × List Sent) :=
  match w.importRequests importId with
  | none => .ok (w, [.error sender (lib.playlistError .invalidImportId "ImportID not found")])
  | some p => do
    let data ← w.deref p
    match data.source with
    | some source => .ok (w.cancelBrowse source data.browseId, [.ack sender])
    | none => .ok (w.write p { data with cancel := true }, [.ack sender])

/-- The code behind a call of a source. -/
def callReturns (w : Wrapper) : Except Crash (Wrapper × List Sent) :=
  match w.calls with
  | [] => .ok (w, [])
  | .getMetadata sender importId :: calls => .ok ({ w with calls }, [.importId sender importId])
  | .browse p browseId :: calls => do
    let data ← w.deref p
    .ok ({ w.write p { data with browseId } with calls }, [])

/-- A reply after which the source does not call back. -/
def final (reply : BrowseReply) : Bool := reply.error.isSome ∨ reply.remainingCount = 0

/-- What can happen next. The main loop does not run while a source is called. -/
def Possible (w : Wrapper) : Event → Prop
  | .importPlaylist _ _ _ _ _ | .cancelImport _ _ | .playlists _ => w.calls = []
  | .metadata p _ _ _ => w.metadata p ≠ none
  | .browseResult p _ => w.browses p ≠ none
  | .returns => w.calls ≠ []

def handle (lib : Libmafw) (w : Wrapper) : Event → Except Crash (Wrapper × List Sent)
  | .importPlaylist sender pl base src parsed => w.importPlaylist lib sender pl base src parsed
  | .cancelImport sender importId => w.cancelImport lib sender importId
  | .metadata p reply parsed browseId =>
    match w.metadata p with
    | none => .ok (w, [])
    | some self =>
      { w with metadata := Function.update w.metadata p none }.mdataResCb lib self p reply parsed browseId
  | .browseResult p reply =>
    let w := if final reply then { w with browses := Function.update w.browses p none } else w
    w.browseResCb lib p reply
  | .returns => w.callReturns
  | .playlists d => .ok ({ w with daemon := d }, [])

end Wrapper
end MafwShared.ImportRequests
