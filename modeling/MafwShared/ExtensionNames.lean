import MafwShared.Lib.Runs
import MafwShared.Lib.Stdio
import Mathlib.Logic.Function.Basic

/-!
# The name of an exported extension

An extension and its proxies in the client processes, as far as their names go:
`extension-wrapper.c` on one side, `mafw-proxy-extension.c` on the other. The messages between
the extension and one proxy arrive in order. `notifies` says whether setting the property `name`
of an object notifies its handlers; all that is known of it is that a change does.
-/

namespace MafwShared.ExtensionNames
open CLib

/-- What a proxy asks the extension for. -/
inductive Request
  | getName
  | setName (name : Bytes)
  deriving DecidableEq

/-- What the extension sends to a proxy. -/
inductive Message
  | gotName (name : Bytes)
  | nameChanged (name : Bytes)
  deriving DecidableEq

def Message.name : Message → Bytes
  | gotName name | nameChanged name => name

structure ProxyExtension where
  name : Option Bytes
  /-- There is a match for the extension's signals. -/
  attached : Bool
  /-- `extension_name_set` is connected to `notify::name`. -/
  connected : Bool
  /-- An error came in place of the name, from the bus or after the time for a reply was over. -/
  failed : Bool
  /-- Its messages that the extension has not looked at yet. -/
  outbox : List Request
  /-- The extension's messages that it has not looked at yet. -/
  inbox : List Message
  deriving DecidableEq

def ProxyExtension.init : ProxyExtension :=
  { name := none, attached := false, connected := false, failed := false, outbox := [], inbox := [] }

/-- The library's decision to notify, for the old and the new name. -/
abbrev Notifies := Option Bytes → Bytes → Bool

namespace ProxyExtension

/-- `extension_name_set`, the handler of `notify::name`. -/
def extensionNameSet (p : ProxyExtension) (name : Bytes) : ProxyExtension :=
  { p with outbox := p.outbox ++ [.setName name] }

/-- `mafw_extension_set_name`, while `blocked` handlers are not called. -/
def mafwExtensionSetName (notifies : Notifies) (blocked : Bool) (p : ProxyExtension) (name : Bytes) :
    ProxyExtension :=
  let told := notifies p.name name && p.connected && !blocked
  let p := { p with name := some name }
  if told then p.extensionNameSet name else p

/-- `handle_extension_name_changed`. -/
def handleExtensionNameChanged (notifies : Notifies) (p : ProxyExtension) (name : Bytes) : ProxyExtension :=
  p.mafwExtensionSetName notifies true name

/-- `proxy_extension_attach`. -/
def proxyExtensionAttach (p : ProxyExtension) : ProxyExtension :=
  { p with attached := true, outbox := p.outbox ++ [.getName] }

/-- `got_name` on a reply, which connects the handler after it has set the name. -/
def gotName (notifies : Notifies) (p : ProxyExtension) (name : Bytes) : ProxyExtension :=
  { p.mafwExtensionSetName notifies false name with connected := true }

/-- `got_name` on an error. The handler is connected all the same. -/
def gotNameError (p : ProxyExtension) : ProxyExtension := { p with connected := true, failed := true }

/-- A name that comes after the error has no pending call left, and libdbus drops it. -/
def dispatch (notifies : Notifies) (p : ProxyExtension) : Message → ProxyExtension
  | .gotName name => if p.failed then p else p.gotName notifies name
  | .nameChanged name => p.handleExtensionNameChanged notifies name

def receive (p : ProxyExtension) (m : Message) : ProxyExtension := { p with inbox := p.inbox ++ [m] }

end ProxyExtension

structure World (ι : Type*) where
  /-- The extension's own name. -/
  name : Bytes
  proxies : ι → ProxyExtension

inductive Event (ι : Type*)
  /-- The extension is given a name in its own process. -/
  | rename (name : Bytes)
  | attach (i : ι)
  /-- A proxy that waits for the name gets an error. -/
  | fail (i : ι)
  /-- An application gives a proxy a name. -/
  | setName (i : ι) (name : Bytes)
  /-- The extension takes the first message of a proxy. -/
  | serve (i : ι)
  /-- A proxy takes the first message of the extension. -/
  | deliver (i : ι)

/-- A message arrives. -/
def Event.Arrival {ι : Type*} : Event ι → Prop
  | serve _ | deliver _ => True
  | _ => False

instance {ι : Type*} : (e : Event ι) → Decidable e.Arrival
  | .rename _ | .attach _ | .fail _ | .setName _ _ => inferInstanceAs (Decidable False)
  | .serve _ | .deliver _ => inferInstanceAs (Decidable True)

namespace World
variable {ι : Type*}

def init (name : Bytes) : World ι := ⟨name, fun _ => .init⟩

/-- `name_changed`, the handler of `notify::name`. The signal goes to all that have a match. -/
def nameChanged (w : World ι) : World ι :=
  { w with
    proxies := fun i => if (w.proxies i).attached then (w.proxies i).receive (.nameChanged w.name) else w.proxies i }

/-- `mafw_extension_set_name` on the extension. -/
def mafwExtensionSetName (notifies : Notifies) (w : World ι) (name : Bytes) : World ι :=
  let told := notifies (some w.name) name
  let w := { w with name := name }
  if told then w.nameChanged else w

variable [DecidableEq ι]

def setProxy (w : World ι) (i : ι) (p : ProxyExtension) : World ι :=
  { w with proxies := Function.update w.proxies i p }

/-- `handle_set_name` and `handle_get_name`. -/
def handleExtensionMsg (notifies : Notifies) (w : World ι) (i : ι) : Request → World ι
  | .setName name => w.mafwExtensionSetName notifies name
  | .getName => w.setProxy i ((w.proxies i).receive (.gotName w.name))

/-- The world after an event, none when the event cannot happen. -/
def step (notifies : Notifies) (w : World ι) : Event ι → Option (World ι)
  | .rename name => some (w.mafwExtensionSetName notifies name)
  | .attach i =>
    if (w.proxies i).attached then none else some (w.setProxy i (w.proxies i).proxyExtensionAttach)
  | .fail i =>
    if (w.proxies i).attached && !(w.proxies i).connected then some (w.setProxy i (w.proxies i).gotNameError)
    else none
  | .setName i name => some (w.setProxy i ((w.proxies i).mafwExtensionSetName notifies false name))
  | .serve i =>
    match (w.proxies i).outbox with
    | [] => none
    | r :: rest => some ((w.setProxy i { w.proxies i with outbox := rest }).handleExtensionMsg notifies i r)
  | .deliver i =>
    match (w.proxies i).inbox with
    | [] => none
    | m :: rest => some (w.setProxy i ({ w.proxies i with inbox := rest }.dispatch notifies m))

end World
end MafwShared.ExtensionNames
