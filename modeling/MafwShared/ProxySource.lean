import MafwShared.SourceWrapper

/-!
# Browsing a source over the bus

`mafw-proxy-source.c`: `browse` and `cancel_browse` wait for their replies, and the
results are passed on by a loop whose callback may make such calls itself. `Browsing` is
a proxy with the wrapper of its source and the messages between them; the wrapper's
messages wait in a queue while the proxy waits for a reply. `thaw` is the metadata parser.
-/

namespace MafwShared
open CLib

/-- `MafwProxySourceBrowseReq`. -/
structure BrowseReq where
  emitting : Bool
  stopEmitting : Bool
  deriving DecidableEq

/-- Where the proxy is in `dispatch_message`. -/
inductive Dispatch
  | mainLoop
  /-- Before an iteration of the loop, with what `new_req` is then. -/
  | looping (browseId : Nat) (rest : List ResultStruct) (newReq : Bool)
  | inCallback (browseId : Nat) (remainingCount : Int32) (rest : List ResultStruct)
  deriving DecidableEq

def Dispatch.inLoop : Dispatch → Bool
  | looping _ _ _ => true
  | _ => false

/-- The call that the proxy waits for. -/
inductive ProxyCall
  | none
  | browse
  | browseReply (browseId : Nat)
  /-- The source has refused to be browsed, and the wrapper has sent the error. -/
  | browseError
  | cancel (browseId : Nat)
  | cancelReply
  deriving DecidableEq

structure ProxySource where
  browseRequests : Nat → Option BrowseReq
  dispatch : Dispatch
  call : ProxyCall

namespace ProxySource

/-- The client can call the proxy, from its main loop or from the callback. -/
def Free (p : ProxySource) : Prop := p.call = .none ∧ p.dispatch.inLoop = false

instance (p : ProxySource) : Decidable p.Free := inferInstanceAs (Decidable (_ ∧ _))

def setReq (p : ProxySource) (browseId : Nat) (req : Option BrowseReq) : ProxySource :=
  { p with browseRequests := Function.update p.browseRequests browseId req }

/-- `mafw_proxy_source_cancel_browse` as a whole, with whether the reply that it waits for is no error. -/
def cancelBrowse (p : ProxySource) (browseId : Nat) (acknowledged : Bool) : Bool × ProxySource :=
  match p.browseRequests browseId with
  | none => (false, p)
  | some req =>
    (acknowledged, p.setReq browseId (if req.emitting then some { req with stopEmitting := true } else none))

end ProxySource

section
variable {μ : Type*} (thaw : Bytes → μ)

/-- A result as the callback gets it. -/
def parseResult (m : ResultStruct) : BrowseResult μ :=
  { remainingCount := m.remainingCount
    index := m.index
    objectId := if m.objectId = [] then none else some m.objectId
    metadata := thaw m.metadata
    error := if h : m.domain ≠ [] then some ⟨m.domain, h, m.code.toInt32, m.message⟩ else none }

end

/-! ### A proxy and its source -/

/-- What has happened in a run. -/
structure BrowseHistory (μ : Type*) where
  started : Nat → Bool
  /-- The results that the source has emitted. -/
  emitted : Nat → List (BrowseResult μ)
  /-- The results that the callback has got. -/
  delivered : Nat → List (BrowseResult μ)
  /-- The sessions that the client has cancelled. -/
  cancelled : Nat → Bool
  /-- The messages sent, each with the `maxresults` of that moment. -/
  sent : List (ResultMessage × Nat)

structure Browsing (μ : Type*) where
  wrapper : SourceWrapper
  inbox : List ResultMessage
  proxy : ProxySource
  history : BrowseHistory μ

inductive BrowseEvent (μ : Type*)
  /-- The client calls `browse`. -/
  | browse
  /-- The wrapper gets the call, and the source starts a session, -/
  | start (browseId : Nat)
  /-- or refuses to. -/
  | refuse
  | emit (browseId : Nat) (r : BrowseResult μ)
  /-- The batching timer expires. -/
  | timeout (browseId : Nat)
  /-- The `browse` of the source returns. -/
  | browseReturn
  | removeFromHash
  | receiveReply
  /-- The client calls `cancel_browse`. -/
  | cancelBrowse (browseId : Nat)
  /-- The wrapper gets that call. -/
  | cancel
  /-- The proxy takes the next message. -/
  | dispatch
  /-- One iteration of its loop, up to the callback. -/
  | iterate
  | callbackReturn

section
variable {μ : Type*} (freeze : μ → Bytes) (thaw : Bytes → μ)

namespace Browsing

def init : Browsing μ :=
  { wrapper := ⟨fun _ => none, none, []⟩
    inbox := []
    proxy := ⟨fun _ => none, .mainLoop, .none⟩
    history := ⟨fun _ => false, fun _ => [], fun _ => [], fun _ => false, []⟩ }

/-- The data of a session has changed and messages were sent. -/
def send (s : Browsing μ) (browseId maxresults : Nat) (out : BrowseData × List ResultMessage) : Browsing μ :=
  { s with
    wrapper := s.wrapper.write browseId out.1
    inbox := s.inbox ++ out.2
    history := { s.history with sent := s.history.sent ++ out.2.map fun m => (m, maxresults) } }

def emitted (s : Browsing μ) (browseId : Nat) (r : BrowseResult μ) : Browsing μ :=
  { s with
    history := { s.history with
      emitted := Function.update s.history.emitted browseId (s.history.emitted browseId ++ [r]) } }

def delivered (s : Browsing μ) (browseId : Nat) (r : BrowseResult μ) : Browsing μ :=
  { s with
    history := { s.history with
      delivered := Function.update s.history.delivered browseId (s.history.delivered browseId ++ [r]) } }

def setCall (s : Browsing μ) (call : ProxyCall) : Browsing μ := { s with proxy := { s.proxy with call := call } }

def setDispatch (s : Browsing μ) (d : Dispatch) : Browsing μ := { s with proxy := { s.proxy with dispatch := d } }

/-- `mafw_proxy_source_cancel_browse`, up to the reply. -/
def cancelBrowse (s : Browsing μ) (browseId : Nat) : Browsing μ :=
  match s.proxy.browseRequests browseId with
  | none => s
  | some req =>
    { s with
      proxy := { s.proxy.setReq browseId (if req.emitting then some { req with stopEmitting := true } else none) with
        call := .cancel browseId }
      history := { s.history with cancelled := Function.update s.history.cancelled browseId true } }

/-- The loop of `dispatch_message` up to the next call of the callback, or its end. -/
def iterate (s : Browsing μ) (browseId : Nat) (newReq : Bool) : List ResultStruct → Browsing μ
  | [] =>
    let proxy := if newReq then
      { s.proxy with
        browseRequests := Function.update s.proxy.browseRequests browseId
          ((s.proxy.browseRequests browseId).map fun req => { req with emitting := false }) }
      else s.proxy
    { s with proxy := { proxy with dispatch := .mainLoop } }
  | m :: rest =>
    if newReq then
      (s.delivered browseId (parseResult thaw m)).setDispatch (.inCallback browseId m.remainingCount rest)
    else
      match s.proxy.browseRequests browseId with
      | none => s.setDispatch .mainLoop
      | some req =>
        ({ s with proxy := s.proxy.setReq browseId (some { req with emitting := true }) }.delivered browseId
          (parseResult thaw m)).setDispatch (.inCallback browseId m.remainingCount rest)

/-- A write to memory that was freed has no next state, and neither has an event that
cannot happen now. -/
def step (s : Browsing μ) : BrowseEvent μ → Option (Browsing μ)
  | .browse => if s.proxy.Free then some (s.setCall .browse) else none
  | .start browseId =>
    if s.proxy.call = .browse ∧ s.wrapper.browsing = none then
      some { s with
        wrapper := { s.wrapper with browsing := some (browseId, BrowseData.init) }
        history := { s.history with started := Function.update s.history.started browseId true } }
    else none
  | .refuse =>
    if s.proxy.call = .browse ∧ s.wrapper.browsing = none then some (s.setCall .browseError) else none
  | .emit browseId r =>
    (s.wrapper.userData browseId).map fun b =>
      let s := (s.emitted browseId r).send browseId b.maxresults (emitBrowseResult freeze b browseId r)
      if r.remainingCount = 0 ∨ r.error.isSome then
        { s with wrapper := { s.wrapper with idle := s.wrapper.idle ++ [browseId] } }
      else s
  | .timeout browseId =>
    (s.wrapper.userData browseId).bind fun b =>
      if b.timeoutId then some (s.send browseId b.maxresults (sendBrowseRes b)) else none
  | .browseReturn =>
    s.wrapper.browsing.map fun e =>
      { s with
        wrapper := { s.wrapper with
          browsing := none
          browseRequests := Function.update s.wrapper.browseRequests e.1 (some e.2) }
        proxy := { s.proxy with call := .browseReply e.1 } }
  | .removeFromHash =>
    match s.wrapper.idle with
    | [] => none
    | browseId :: idle => some { s with wrapper := { s.wrapper.remove browseId with idle := idle } }
  | .receiveReply =>
    match s.proxy.call with
    | .browseReply browseId =>
      some { s with proxy := { s.proxy.setReq browseId (some ⟨false, false⟩) with call := .none } }
    | .browseError => some (s.setCall .none)
    | .cancelReply => some (s.setCall .none)
    | _ => none
  | .cancelBrowse browseId => if s.proxy.Free then some (s.cancelBrowse browseId) else none
  | .cancel =>
    match s.proxy.call with
    | .cancel browseId => some { (s.setCall .cancelReply) with wrapper := s.wrapper.remove browseId }
    | _ => none
  | .dispatch =>
    match s.proxy.dispatch, s.proxy.call, s.inbox with
    | .mainLoop, .none, m :: inbox =>
      some { (s.setDispatch (.looping m.browseId m.results false)) with inbox := inbox }
    | _, _, _ => none
  | .iterate =>
    match s.proxy.dispatch with
    | .looping browseId rest newReq => some (s.iterate thaw browseId newReq rest)
    | _ => none
  | .callbackReturn =>
    match s.proxy.dispatch, s.proxy.call with
    | .inCallback browseId remainingCount rest, .none =>
      (s.proxy.browseRequests browseId).map fun req =>
        if remainingCount = 0 ∨ req.stopEmitting then
          { s with proxy := { s.proxy.setReq browseId none with dispatch := .mainLoop } }
        else s.setDispatch (.looping browseId rest true)
    | _, _ => none

end Browsing

/-- What a source keeps to: session ids are new, and a session ends with its first result
that has no others behind it, the only one that may carry an error. -/
def SourceKeeps (s : Browsing μ) : BrowseEvent μ → Prop
  | .start browseId => s.history.started browseId = false
  | .emit browseId r =>
    (∀ x ∈ s.history.emitted browseId, x.remainingCount ≠ 0) ∧ (r.error.isSome → r.remainingCount = 0)
  | _ => True

instance (s : Browsing μ) (e : BrowseEvent μ) : Decidable (SourceKeeps s e) := by
  cases e <;> unfold SourceKeeps <;> infer_instance

end

end MafwShared
