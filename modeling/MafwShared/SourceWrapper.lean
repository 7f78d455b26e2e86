import MafwShared.Lib.Stdio
import Mathlib.Logic.Function.Basic

/-!
# Browse results at the source's end

`source-wrapper.c`: the results of a browse session are collected in one D-Bus message,
which is sent when the last result is in, when it has as many results as it may, or when
the batching timer expires. `freeze` is the metadata serializer.

The component stays exported while it is browsed, so that it has an object path.
-/

namespace MafwShared
open CLib

/-- A `GError`, whose domain always has a name. -/
structure SourceError where
  domain : Bytes
  domain_ne : domain ≠ []
  code : Int32
  message : Bytes
  deriving DecidableEq

/-- What a source passes to the browse callback. -/
structure BrowseResult (μ : Type*) where
  remainingCount : Int32
  index : UInt32
  objectId : Option Bytes
  metadata : μ
  error : Option SourceError
  deriving DecidableEq

/-- One `(iusaysus)`. -/
structure ResultStruct where
  remainingCount : Int32
  index : UInt32
  objectId : Bytes
  metadata : Bytes
  domain : Bytes
  code : UInt32
  message : Bytes
  deriving DecidableEq

/-- A `browse_result` message. -/
structure ResultMessage where
  browseId : Nat
  results : List ResultStruct
  deriving DecidableEq

/-- `struct browse_data`. -/
structure BrowseData where
  /-- Whether there is a timer. -/
  timeoutId : Bool
  timeoutTime : Nat
  results : Nat
  maxresults : Nat
  messageToSend : Option ResultMessage
  deriving DecidableEq

def maxBrowseResult : Nat := 500
def maxTimeout : Nat := 1000
def timeoutIncrement : Nat := 500

/-- The data of a new session, with `INITIAL_MAX_RESULTS` and `INITIAL_BROWSE_TIMEOUT`. -/
def BrowseData.init : BrowseData := ⟨true, 100, 0, 25, none⟩

def sendBrowseRes (b : BrowseData) : BrowseData × List ResultMessage :=
  match b.messageToSend with
  | none => (b, [])
  | some m => ({ b with messageToSend := none }, [m])

section
variable {μ : Type*} (freeze : μ → Bytes)

/-- A result in the message. -/
def appendResult (r : BrowseResult μ) : ResultStruct :=
  { remainingCount := r.remainingCount
    index := r.index
    objectId := r.objectId.getD []
    metadata := freeze r.metadata
    domain := (r.error.map SourceError.domain).getD []
    code := (r.error.map fun e => e.code.toUInt32).getD 0
    message := (r.error.map SourceError.message).getD [] }

/-- After a full batch the next ones may be larger and later. -/
def growBatch (b : BrowseData) : BrowseData :=
  if b.maxresults ≠ maxBrowseResult then
    let b := { b with maxresults := b.maxresults * 3 }
    let b :=
      if maxBrowseResult < b.maxresults then { b with maxresults := maxBrowseResult }
      else { b with timeoutTime := b.timeoutTime + timeoutIncrement }
    if maxTimeout < b.timeoutTime then { b with timeoutTime := maxTimeout } else b
  else b

/-- `emit_browse_result` for a valid browse id: the new data and what is sent. -/
def emitBrowseResult (b : BrowseData) (browseId : Nat) (r : BrowseResult μ) :
    BrowseData × List ResultMessage :=
  let (m, b) : ResultMessage × BrowseData :=
    match b.messageToSend with
    | none => (⟨browseId, []⟩, { b with results := 0 })
    | some m => (m, b)
  let m := { m with results := m.results ++ [appendResult freeze r] }
  let b := { b with results := b.results + 1, messageToSend := some m }
  if r.remainingCount = 0 ∨ r.error.isSome then
    ({ b with messageToSend := none, timeoutId := false }, [m])
  else if b.maxresults ≤ b.results then
    (growBatch { b with results := 0, messageToSend := none }, [m])
  else (b, [])

end

/-! ### The sessions of a wrapper -/

structure SourceWrapper where
  browseRequests : Nat → Option BrowseData
  /-- The session of a browse call of the source that has not returned. -/
  browsing : Option (Nat × BrowseData)
  /-- The ids that `remove_from_hash` is to be called with. -/
  idle : List Nat

namespace SourceWrapper

/-- The data that the source was given with a session. -/
def userData (w : SourceWrapper) (browseId : Nat) : Option BrowseData :=
  match w.browsing with
  | none => w.browseRequests browseId
  | some (id, b) => if id = browseId then some b else w.browseRequests browseId

/-- A write through that pointer. -/
def write (w : SourceWrapper) (browseId : Nat) (b : BrowseData) : SourceWrapper :=
  match w.browsing with
  | none => { w with browseRequests := Function.update w.browseRequests browseId (some b) }
  | some (id, _) =>
    if id = browseId then { w with browsing := some (browseId, b) }
    else { w with browseRequests := Function.update w.browseRequests browseId (some b) }

/-- `g_hash_table_remove(browse_requests, browse_id)`. -/
def remove (w : SourceWrapper) (browseId : Nat) : SourceWrapper :=
  { w with browseRequests := Function.update w.browseRequests browseId none }

end SourceWrapper

end MafwShared
