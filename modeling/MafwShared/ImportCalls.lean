import MafwShared.ImportRequests
import MafwShared.PlaylistManager

/-!
# The clients' imports

`mafw_playlist_manager_import`, `mafw_playlist_manager_cancel_import` and `playlist_imported` in
`dbus_handler`, in any number of applications with one playlist daemon. An application waits for the
reply to a call without looking at what else has arrived. Between its calls, and also in a callback, it
takes the messages of the daemon in order.
-/

namespace MafwShared.ImportCalls
open CLib ImportRequests

/-- What the callback of an import is passed: the id of the playlist's object, or an error. -/
abbrev ImportResult := Except GError Nat

inductive Request
  | importPlaylist (playlist base : Bytes)
  | cancelImport (importId : Nat)
  deriving DecidableEq

inductive Reply
  | importId (importId : Nat)
  | error (err : GError)
  | ack

/-- The call that an application is in, with the serial of its message. -/
inductive Progress
  | idle
  | waiting (serial : Nat) (request : Request)
  | answered (serial : Nat) (request : Request) (reply : Reply)

/-- The messages that `dbus_handler` looks at. -/
inductive Incoming
  | signal (s : Signal)
  | playlistImported (args : List Arg)
  deriving DecidableEq

/-- What becomes of the imports of an application, which tells its calls apart by their serials. -/
inductive Seen
  /-- `mafw_playlist_manager_import` has returned the id. -/
  | returned (importId serial : Nat)
  /-- The request was taken out of the table by `mafw_playlist_manager_cancel_import`. -/
  | cancelled (importId : Nat)
  /-- The callback was called, with the `user_data` of the call. -/
  | called (importId serial : Nat) (result : ImportResult)

def Seen.importId : Seen → Nat
  | returned importId _ | cancelled importId | called importId _ _ => importId

structure App where
  manager : PlaylistManager
  /-- `import_requests`, with the serial of the call for its callback and `user_data`. -/
  importRequests : Nat → Option Nat
  progress : Progress
  /-- The callbacks that have not returned, by their import ids. The last one comes first. -/
  callbacks : List Nat
  /-- What the daemon has sent and the application has not looked at. -/
  inbox : List Incoming
  /-- Its requests that the daemon has not looked at. -/
  outbox : List (Nat × Request)
  nextSerial : Nat
  seen : List Seen

inductive AppEvent
  | importPlaylist (playlist : Bytes) (base : Option Bytes)
  | cancelImport (importId : Nat)
  | receiveReply
  /-- No reply in time, which is an error. -/
  | timeout
  /-- The main loop takes the next message. -/
  | deliver
  | callbackReturns

namespace App

def init : App :=
  { manager := ⟨[], []⟩, importRequests := fun _ => none, progress := .idle, callbacks := [], inbox := [],
    outbox := [], nextSerial := 0, seen := [] }

/-- A message that its sender waits for the reply to. -/
def mafwDbusCall (a : App) (request : Request) : App :=
  { a with
    progress := .waiting a.nextSerial request
    outbox := a.outbox ++ [(a.nextSerial, request)]
    nextSerial := a.nextSerial + 1 }

/-- `mafw_playlist_manager_import` up to the reply; `none` when the playlist has no name. -/
def importPlaylist (a : App) (playlist : Bytes) (base : Option Bytes) : Option App :=
  if playlist = [] then none else some (a.mafwDbusCall (.importPlaylist playlist (base.getD [])))

/-- `mafw_playlist_manager_cancel_import` up to the reply. It fails at once on an id that is not in the
table. -/
def cancelImport (a : App) (importId : Nat) : App :=
  match a.importRequests importId with
  | none => a
  | some _ =>
    { a with
      importRequests := Function.update a.importRequests importId none
      seen := a.seen ++ [Seen.cancelled importId] }.mafwDbusCall (.cancelImport importId)

/-- The rest of a call. -/
def finish (a : App) (serial : Nat) : Request → Reply → App
  | .importPlaylist _ _, .importId importId =>
    { a with
      progress := .idle
      importRequests := Function.update a.importRequests importId (some serial)
      seen := a.seen ++ [.returned importId serial] }
  | _, _ => { a with progress := .idle }

end App

/-- The arguments of `playlist_imported`: the id of the import and what its callback is to be passed.
The application aborts when it cannot parse them. -/
def parseImported : List Arg → Option (Nat × ImportResult)
  | [.uint32 importId, .uint32 newId] => some (importId, .ok newId)
  | [.uint32 importId, .string domain, .int32 code, .string message] =>
    some (importId, .error ⟨domain, code, message⟩)
  | _ => none

namespace App

/-- `dbus_handler` on `playlist_imported`, until the callback returns. -/
def playlistImported (a : App) (importId : Nat) (result : ImportResult) : App :=
  match a.importRequests importId with
  | none => a
  | some serial =>
    { a with
      manager := match result with
        | .ok newId => a.manager.registerPlaylist newId
        | .error _ => a.manager
      callbacks := importId :: a.callbacks
      seen := a.seen ++ [.called importId serial result] }

def dbusHandler (a : App) : Incoming → Option App
  | .signal s => some { a with manager := a.manager.dbusHandler s }
  | .playlistImported args => (parseImported args).map fun r => a.playlistImported r.1 r.2

/-- The end of `dbus_handler`, when the callback has returned. -/
def callbackReturns (a : App) (importId : Nat) (callbacks : List Nat) : App :=
  { a with importRequests := Function.update a.importRequests importId none, callbacks }

/-- The application after an event, none when the event cannot happen to it now. -/
def step (a : App) (e : AppEvent) : Option App :=
  match a.progress, e with
  | .idle, .importPlaylist playlist base => a.importPlaylist playlist base
  | .idle, .cancelImport importId => some (a.cancelImport importId)
  | .idle, .deliver =>
    match a.inbox with
    | [] => none
    | m :: rest => { a with inbox := rest }.dbusHandler m
  | .idle, .callbackReturns =>
    match a.callbacks with
    | [] => none
    | importId :: callbacks => some (a.callbackReturns importId callbacks)
  | .answered serial request reply, .receiveReply => some (a.finish serial request reply)
  | .waiting _ _, .timeout | .answered _ _ _, .timeout => some { a with progress := .idle }
  | _, _ => none

/-- A reply arrives. Nobody looks at it when its call has timed out. -/
def answer (a : App) (serial : Nat) (reply : Reply) : App :=
  match a.progress with
  | .waiting serial' request => if serial' = serial then { a with progress := .answered serial request reply } else a
  | _ => a

/-- Messages arrive. -/
def hear (a : App) (messages : List Incoming) : App := { a with inbox := a.inbox ++ messages }

end App

/-! ### The daemon and the applications -/

/-- The reply to the request that the daemon is at work on. -/
def replyOf : ImportRequests.Sent → Option Reply
  | .importId _ importId => some (.importId importId)
  | .error _ err => some (.error err)
  | .ack _ => some .ack
  | .done _ => none

/-- A message as it arrives at the application with the bus name. -/
def incomingOf (name : Client) : ImportRequests.Sent → Option Incoming
  | .done (.signal s) => some (.signal s)
  | .done (.playlistImported dest args) => if dest = name then some (.playlistImported args) else none
  | _ => none

structure Imports (ι : Type*) where
  wrapper : Wrapper
  apps : ι → App
  /-- Whose request `request` is at work on, and its serial. -/
  current : Option (ι × Nat)
  /-- The call that an import was started for. -/
  callOf : Nat → Option (ι × Nat)

inductive Event (ι : Type*)
  | app (i : ι) (e : AppEvent)
  /-- The daemon handles the first request of an application. The source and what the parser makes of the
  file are used when they are asked for. -/
  | serve (i : ι) (src : Option Source) (parsed : Parsed)
  | metadata (p : Ptr) (reply : Except GError Metadata) (parsed : Parsed) (browseId : Nat)
  | browseResult (p : Ptr) (reply : BrowseReply)
  | returns
  /-- Anything else that the daemon does with its playlists. -/
  | other (e : DaemonEvent)

/-- The end of an import, which is no event of its own here. -/
def isImport : DaemonEvent → Bool
  | .imported _ _ => true
  | _ => false

namespace Imports
variable {ι : Type*} (lib : Libmafw) (busName : ι → Client)

def init (d : Daemon) : Imports ι :=
  { wrapper := .init d, apps := fun _ => .init, current := none, callOf := fun _ => none }

/-- The daemon's messages arrive. -/
def hear (s : Imports ι) (messages : ι → List Incoming) : Imports ι :=
  { s with apps := fun i => (s.apps i).hear (messages i) }

variable [DecidableEq ι]

def setApp (s : Imports ι) (i : ι) (a : App) : Imports ι := { s with apps := Function.update s.apps i a }

/-- The reply of `request`. -/
def reply (s : Imports ι) (reply : Reply) : Imports ι :=
  match s.current with
  | none => s
  | some (i, serial) => { s.setApp i ((s.apps i).answer serial reply) with current := none }

/-- What the daemon does on an event, and what it sends. -/
def turn (s : Imports ι) (e : ImportRequests.Event) : Option (Imports ι) :=
  match s.wrapper.handle lib e with
  | .error _ => none
  | .ok (w, sent) =>
    let s := { s with wrapper := w }.hear fun i => sent.filterMap (incomingOf (busName i))
    some ((sent.findSome? replyOf).elim s s.reply)

/-- The daemon takes up a request. -/
def serve (s : Imports ι) (i : ι) (serial : Nat) (rest : List (Nat × Request)) (src : Option Source)
    (parsed : Parsed) (request : Request) : Option (Imports ι) :=
  let s := { s.setApp i { s.apps i with outbox := rest } with current := some (i, serial) }
  match request with
  | .importPlaylist playlist base =>
    { s with callOf := Function.update s.callOf ((s.wrapper.nextId + 1) % 2 ^ 32) (some (i, serial)) }.turn lib
      busName (.importPlaylist (busName i) playlist base src parsed)
  | .cancelImport importId => s.turn lib busName (.cancelImport (busName i) importId)

/-- The daemon and the applications after an event, none when the event cannot happen. -/
def step (s : Imports ι) : Event ι → Option (Imports ι)
  | .app i e => ((s.apps i).step e).map (s.setApp i)
  | .serve i src parsed =>
    match s.wrapper.calls, (s.apps i).outbox with
    | [], (serial, request) :: rest => s.serve lib busName i serial rest src parsed request
    | _, _ => none
  | .metadata p reply parsed browseId =>
    if (s.wrapper.metadata p).isSome then s.turn lib busName (.metadata p reply parsed browseId) else none
  | .browseResult p reply =>
    if (s.wrapper.browses p).isSome then s.turn lib busName (.browseResult p reply) else none
  | .returns => if s.wrapper.calls = [] then none else s.turn lib busName .returns
  | .other e =>
    if isImport e = true ∨ s.wrapper.calls ≠ [] then none
    else
      match s.wrapper.daemon.handle lib.createObjectid e with
      | .error _ => none
      | .ok (d, sent) =>
        some ({ s with wrapper := { s.wrapper with daemon := d } }.hear fun _ => (signalsOf sent).map Incoming.signal)

end Imports
end MafwShared.ImportCalls
