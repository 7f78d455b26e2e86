import MafwShared.SourceWrapper

/-!
# The browse sessions of all sources

One wrapper process exports several sources and keeps the data of all their sessions in one
table, by browse id. The data live on a heap. A source holds the pointer that it was given
with each of its sessions until it has called back with a final result or an error, or the
session is cancelled; its ids are new among its own. A freed address is not given out again.
-/

namespace MafwShared.BrowseRequests
open CLib

abbrev Source := Nat
abbrev Ptr := Nat

/-- A `struct browse_data` and the source that it is for. -/
structure Request where
  ecomp : Source
  data : BrowseData
  deriving DecidableEq

structure Wrapper where
  heap : Ptr → Option Request
  brk : Ptr
  browseRequests : Nat → Option Ptr
  /-- The ids that `remove_from_hash` is to be called with. -/
  idle : List Nat
  /-- A browse call that has not returned: the source, the id and the data. -/
  browsing : Option (Source × Nat × Ptr)
  /-- The sessions that a source runs, with their `user_data`. -/
  sessions : Source → Nat → Option Ptr
  /-- The ids that a source has given out. -/
  issued : List (Source × Nat)

def Wrapper.init : Wrapper :=
  { heap := fun _ => none, brk := 0, browseRequests := fun _ => none, idle := [], browsing := none,
    sessions := fun _ _ => none, issued := [] }

/-- What the wrapper sends to the client of a session. -/
inductive Sent
  | browseId (browseId : Nat)
  | browseError
  | result (ecomp : Source) (m : ResultMessage)
  | cancelled
  /-- The source has refused to cancel. -/
  | cancelError
  deriving DecidableEq

variable {μ : Type*}

inductive Event (μ : Type*)
  /-- A browse request; the source has started a session. -/
  | browse (s : Source) (browseId : Nat)
  /-- A browse request; the source calls back with `MAFW_SOURCE_INVALID_BROWSE_ID`. -/
  | browseFails (s : Source)
  | browseReturns
  | emit (s : Source) (browseId : Nat) (r : BrowseResult μ)
  /-- The timer of a session. -/
  | timeout (p : Ptr)
  | idle (browseId : Nat)
  /-- `error` is whether `mafw_source_cancel_browse` sets one. -/
  | cancelBrowse (s : Source) (browseId : Nat) (error : Bool)

namespace Wrapper

def endSession (w : Wrapper) (s : Source) (browseId : Nat) : Wrapper :=
  { w with sessions := Function.update w.sessions s (Function.update (w.sessions s) browseId none) }

def malloc (w : Wrapper) (req : Request) : Wrapper :=
  { w with heap := Function.update w.heap w.brk (some req), brk := w.brk + 1 }

/-- `free_browse_req` on the value of an entry. -/
def freeAt (w : Wrapper) (entry : Option Ptr) : Wrapper :=
  match entry with
  | none => w
  | some p => { w with heap := Function.update w.heap p none }

/-- `g_hash_table_remove` on `browse_requests`. -/
def hashRemove (w : Wrapper) (browseId : Nat) : Wrapper :=
  { w.freeAt (w.browseRequests browseId) with
    browseRequests := Function.update w.browseRequests browseId none }

/-- `g_hash_table_replace` on `browse_requests`. -/
def hashReplace (w : Wrapper) (browseId : Nat) (p : Ptr) : Wrapper :=
  { w.freeAt (w.browseRequests browseId) with
    browseRequests := Function.update w.browseRequests browseId (some p) }

/-- The request up to the call of the source, and the source's own part. -/
def browse (w : Wrapper) (s : Source) (browseId : Nat) : Wrapper :=
  { w.malloc ⟨s, BrowseData.init⟩ with
    browsing := some (s, browseId, w.brk)
    sessions := Function.update w.sessions s (Function.update (w.sessions s) browseId (some w.brk))
    issued := (s, browseId) :: w.issued }

/-- `emit_browse_result` with an invalid id frees the data that the request has allocated. -/
def browseFails (w : Wrapper) (s : Source) : Wrapper :=
  (w.malloc ⟨s, BrowseData.init⟩).freeAt (some w.brk)

def browseReturns (w : Wrapper) : Wrapper × List Sent :=
  match w.browsing with
  | none => (w, [])
  | some (_, browseId, p) =>
    ({ w.hashReplace browseId p with browsing := none }, [.browseId browseId])

/-- A result that ends the session: the source keeps nothing of it. -/
def final (r : BrowseResult μ) : Bool := r.remainingCount = 0 ∨ r.error.isSome

def emit (freeze : μ → Bytes) (w : Wrapper) (s : Source) (browseId : Nat) (p : Ptr)
    (r : BrowseResult μ) : Option (Wrapper × List Sent) :=
  match w.heap p with
  | none => none
  | some req =>
    let (data, messages) := emitBrowseResult freeze req.data browseId r
    let w := { w with heap := Function.update w.heap p (some { req with data }) }
    let w := if final r then { w.endSession s browseId with idle := w.idle ++ [browseId] } else w
    some (w, messages.map (.result req.ecomp))

def timeout (w : Wrapper) (p : Ptr) (req : Request) : Wrapper × List Sent :=
  let (data, messages) := sendBrowseRes req.data
  ({ w with heap := Function.update w.heap p (some { req with data }) }, messages.map (.result req.ecomp))

/-- The `cancel_browse` request. `error` is whether `mafw_source_cancel_browse` sets one, and then
the source runs on what it ran; the second component is whether the reply is an acknowledgement. -/
def handleCancelBrowse (w : Wrapper) (s : Source) (browseId : Nat) (error : Bool) : Wrapper × Bool :=
  let w := if error then w else w.endSession s browseId
  (w.hashRemove browseId, !error)

/-- What can happen next. The main loop does not run while a source is called. -/
def Possible (w : Wrapper) : Event μ → Prop
  | .browse s browseId => w.browsing = none ∧ (s, browseId) ∉ w.issued
  | .browseFails _ => w.browsing = none
  | .browseReturns => w.browsing ≠ none
  | .emit s browseId _ => w.sessions s browseId ≠ none
  | .timeout p => w.browsing = none ∧ ∃ req, w.heap p = some req ∧ req.data.timeoutId = true
  | .idle browseId => w.browsing = none ∧ browseId ∈ w.idle
  | .cancelBrowse _ _ _ => w.browsing = none

/-- `none` when freed data are read. -/
def handle (freeze : μ → Bytes) (w : Wrapper) : Event μ → Option (Wrapper × List Sent)
  | .browse s browseId => some (w.browse s browseId, [])
  | .browseFails s => some (w.browseFails s, [.browseError])
  | .browseReturns => some w.browseReturns
  | .emit s browseId r =>
    match w.sessions s browseId with
    | none => some (w, [])
    | some p => w.emit freeze s browseId p r
  | .timeout p =>
    match w.heap p with
    | none => some (w, [])
    | some req => some (w.timeout p req)
  | .idle browseId => some ({ w with idle := w.idle.erase browseId }.hashRemove browseId, [])
  | .cancelBrowse s browseId error =>
    let (w, acknowledged) := w.handleCancelBrowse s browseId error
    some (w, [if acknowledged then .cancelled else .cancelError])

end Wrapper
end MafwShared.BrowseRequests
