import MafwShared.BrowseRequests
import MafwShared.ProxySource

/-!
# Clients that browse the sources of a process

Any number of clients, each with a proxy of every source, and the wrapper process that exports the
sources. What the wrapper sends for a session goes to the client whose message is kept with the
session's data. The proxies of a client run each for itself. A call waits for its reply, however
long that takes: libdbus gives up after 25 seconds.
-/

namespace MafwShared.BrowseNetwork
open CLib
open BrowseRequests (Source Wrapper)

/-- A proxy, with the messages that wait for it and what has happened. -/
structure ProxyEnd (μ : Type*) where
  inbox : List ResultMessage
  proxy : ProxySource
  history : BrowseHistory μ

/-- What a client and its proxy do by themselves. -/
inductive ClientEvent
  | browse
  | receiveReply
  | cancelBrowse (browseId : Nat)
  | dispatch
  | iterate
  | callbackReturn

def ClientEvent.event {μ : Type*} : ClientEvent → BrowseEvent μ
  | browse => .browse
  | receiveReply => .receiveReply
  | cancelBrowse browseId => .cancelBrowse browseId
  | dispatch => .dispatch
  | iterate => .iterate
  | callbackReturn => .callbackReturn

namespace ProxyEnd
variable {μ : Type*} (freeze : μ → Bytes) (thaw : Bytes → μ)

def init : ProxyEnd μ :=
  { inbox := []
    proxy := ⟨fun _ => none, .mainLoop, .none⟩
    history := ⟨fun _ => false, fun _ => [], fun _ => [], fun _ => false, []⟩ }

/-- A proxy and a wrapper that has its source only. -/
def beside (c : ProxyEnd μ) (w : SourceWrapper) : Browsing μ := ⟨w, c.inbox, c.proxy, c.history⟩

def step (c : ProxyEnd μ) (e : ClientEvent) : Option (ProxyEnd μ) :=
  ((c.beside ⟨fun _ => none, none, []⟩).step freeze thaw e.event).map fun s => ⟨s.inbox, s.proxy, s.history⟩

def setCall (c : ProxyEnd μ) (call : ProxyCall) : ProxyEnd μ := { c with proxy := { c.proxy with call := call } }

def started (c : ProxyEnd μ) (browseId : Nat) : ProxyEnd μ :=
  { c with history := { c.history with started := Function.update c.history.started browseId true } }

def emitted (c : ProxyEnd μ) (browseId : Nat) (r : BrowseResult μ) : ProxyEnd μ :=
  { c with
    history := { c.history with
      emitted := Function.update c.history.emitted browseId (c.history.emitted browseId ++ [r]) } }

def sent (c : ProxyEnd μ) (maxresults : Nat) (messages : List ResultMessage) : ProxyEnd μ :=
  { c with
    inbox := c.inbox ++ messages
    history := { c.history with sent := c.history.sent ++ messages.map fun m => (m, maxresults) } }

end ProxyEnd

structure Network (ι : Type*) (μ : Type*) where
  wrapper : Wrapper
  /-- Who has sent the message in the `oci` of a session's data. -/
  sender : BrowseRequests.Ptr → Option ι
  ends : ι × Source → ProxyEnd μ
  /-- For whom a session was started, and on which source. -/
  owner : Nat → Option (ι × Source)

inductive Event (ι : Type*) (μ : Type*)
  | client (i : ι) (k : Source) (e : ClientEvent)
  /-- The wrapper takes up a client's `browse`, and the source starts a session, -/
  | start (i : ι) (k : Source) (browseId : Nat)
  /-- or refuses to. -/
  | refuse (i : ι) (k : Source)
  | emit (k : Source) (browseId : Nat) (r : BrowseResult μ)
  /-- The batching timer of some data expires. -/
  | timeout (p : BrowseRequests.Ptr)
  /-- The `browse` of the source returns. -/
  | browseReturns
  | removeFromHash
  /-- The wrapper takes up a client's `cancel_browse`; `error` is whether the source refuses. -/
  | cancel (i : ι) (k : Source) (error : Bool)

namespace Network
variable {ι : Type*} {μ : Type*} (freeze : μ → Bytes) (thaw : Bytes → μ)

def init : Network ι μ :=
  { wrapper := .init, sender := fun _ => none, ends := fun _ => .init, owner := fun _ => none }

variable [DecidableEq ι]

def setEnd (n : Network ι μ) (l : ι × Source) (c : ProxyEnd μ) : Network ι μ :=
  { n with ends := Function.update n.ends l c }

/-- A message goes to a client, under the object path of its source; `maxresults` is that of the moment. -/
def post (i : ι) (maxresults : Nat) (n : Network ι μ) : BrowseRequests.Sent → Network ι μ
  | .result ecomp m => n.setEnd (i, ecomp) ((n.ends (i, ecomp)).sent maxresults [m])
  | _ => n

/-- The main loop of the wrapper does not run while a source is called. Nothing follows on a use of freed
data, or when an event cannot happen. -/
def step (n : Network ι μ) : Event ι μ → Option (Network ι μ)
  | .client i k e => ((n.ends (i, k)).step freeze thaw e).map (n.setEnd (i, k))
  | .start i k browseId =>
    if (n.ends (i, k)).proxy.call = .browse ∧ n.wrapper.browsing = none ∧ (k, browseId) ∉ n.wrapper.issued then
      some { n.setEnd (i, k) ((n.ends (i, k)).started browseId) with
        wrapper := n.wrapper.browse k browseId
        sender := Function.update n.sender n.wrapper.brk (some i)
        owner := Function.update n.owner browseId (some (i, k)) }
    else none
  | .refuse i k =>
    if (n.ends (i, k)).proxy.call = .browse ∧ n.wrapper.browsing = none then
      some { n.setEnd (i, k) ((n.ends (i, k)).setCall .browseError) with wrapper := n.wrapper.browseFails k }
    else none
  | .emit k browseId r =>
    match n.wrapper.sessions k browseId with
    | none => none
    | some p =>
      match n.sender p, n.wrapper.heap p, n.wrapper.emit freeze k browseId p r with
      | some i, some req, some (wrapper, sent) =>
        some (sent.foldl (post i req.data.maxresults)
          { n.setEnd (i, k) ((n.ends (i, k)).emitted browseId r) with wrapper })
      | _, _, _ => none
  | .timeout p =>
    match n.sender p, n.wrapper.heap p with
    | some i, some req =>
      if n.wrapper.browsing = none ∧ req.data.timeoutId = true then
        let (wrapper, sent) := n.wrapper.timeout p req
        some (sent.foldl (post i req.data.maxresults) { n with wrapper })
      else none
    | _, _ => none
  | .browseReturns =>
    match n.wrapper.browsing with
    | none => none
    | some (k, browseId, p) =>
      (n.sender p).map fun i =>
        { n.setEnd (i, k) ((n.ends (i, k)).setCall (.browseReply browseId)) with wrapper := n.wrapper.browseReturns.1 }
  | .removeFromHash =>
    match n.wrapper.browsing, n.wrapper.idle with
    | none, browseId :: idle => some { n with wrapper := { n.wrapper with idle }.hashRemove browseId }
    | _, _ => none
  | .cancel i k error =>
    match (n.ends (i, k)).proxy.call, n.wrapper.browsing with
    | .cancel browseId, none =>
      some { n.setEnd (i, k) ((n.ends (i, k)).setCall .cancelReply) with
        wrapper := (n.wrapper.handleCancelBrowse k browseId error).1 }
    | _, _ => none

end Network

/-- The session that a proxy asks to cancel. -/
def cancelledBy : ProxyCall → Option Nat
  | .cancel browseId => some browseId
  | _ => none

/-- What the sources keep to: a session id is new in the process, and a session ends with its first result
that has no others behind it, the only one that may carry an error. No source refuses to cancel a session
that it runs. -/
def SourcesKeep {ι : Type*} {μ : Type*} (n : Network ι μ) : Event ι μ → Prop
  | .start _ _ browseId => n.owner browseId = none
  | .emit _ browseId r =>
    (∀ l ∈ n.owner browseId, ∀ x ∈ (n.ends l).history.emitted browseId, x.remainingCount ≠ 0) ∧
      (r.error.isSome = true → r.remainingCount = 0)
  | .cancel i k error => error = true →
    ∀ browseId ∈ cancelledBy (n.ends (i, k)).proxy.call, n.wrapper.sessions k browseId = none
  | _ => True

instance {ι : Type*} {μ : Type*} (n : Network ι μ) : (e : Event ι μ) → Decidable (SourcesKeep n e)
  | .start _ _ browseId => inferInstanceAs (Decidable (n.owner browseId = none))
  | .emit _ browseId r => inferInstanceAs (Decidable
      ((∀ l ∈ n.owner browseId, ∀ x ∈ (n.ends l).history.emitted browseId, x.remainingCount ≠ 0) ∧
        (r.error.isSome = true → r.remainingCount = 0)))
  | .cancel i k error => inferInstanceAs (Decidable (error = true →
      ∀ browseId ∈ cancelledBy (n.ends (i, k)).proxy.call, n.wrapper.sessions k browseId = none))
  | .client _ _ _ | .refuse _ _ | .timeout _ | .browseReturns | .removeFromHash =>
    inferInstanceAs (Decidable True)

end MafwShared.BrowseNetwork
