import MafwShared.Lib.Stdio
import Mathlib.Logic.Function.Basic

/-!
# Discovery of exported components

`mafw-shared.c` and the part of `mafw-proxy-extension.c` that sets a proxy up. The bus delivers
its messages in order, and a `NameOwnerChanged` signal only while there is a match for the name.
Replies may come in any order, and are errors when the service is gone. A proxy lives until it
is removed from the registry. What the bus library does with an object path that has a handler
already is left open.
-/

namespace MafwShared.Discovery
open CLib

inductive Kind
  | source
  | renderer
  deriving DecidableEq

/-- `MAFW_SOURCE_SERVICE` and `MAFW_RENDERER_SERVICE`. -/
def Kind.service : Kind → Bytes
  | .source => [99, 111, 109, 46, 110, 111, 107, 105, 97, 46, 109, 97, 102, 119, 46,
      115, 111, 117, 114, 99, 101]
  | .renderer => [99, 111, 109, 46, 110, 111, 107, 105, 97, 46, 109, 97, 102, 119, 46,
      114, 101, 110, 100, 101, 114, 101, 114]

/-- A kind, plugin and uuid, as a valid service name has them. -/
structure Component where
  kind : Kind
  plugin : Bytes
  uuid : Bytes
  deriving DecidableEq

/-- `get_extension_service`, and the name that the wrapper exports the component under. -/
def Component.service (c : Component) : Bytes := c.kind.service ++ [46] ++ c.plugin ++ [46] ++ c.uuid

/-- `g_strsplit(rest, ".", 2)`, when it has two parts and neither is empty. -/
def splitParts (kind : Kind) (rest : Bytes) : Option Component :=
  let plugin := rest.takeWhile (· ≠ 46)
  match rest.dropWhile (· ≠ 46) with
  | [] => none
  | _ :: uuid => if plugin = [] ∨ uuid = [] then none else some ⟨kind, plugin, uuid⟩

/-- `split_servicename`. The byte behind the prefix is skipped, whatever it is; the source reads
behind the string when it is the prefix. -/
def splitServicename (svc : Bytes) : Option Component :=
  if Kind.source.service.isPrefixOf svc then splitParts .source (svc.drop (Kind.source.service.length + 1))
  else if Kind.renderer.service.isPrefixOf svc then
    splitParts .renderer (svc.drop (Kind.renderer.service.length + 1))
  else none

/-- `split_servicename` with what it reads: `none` when it reads behind the string. -/
def splitServicenameReads (svc : Bytes) : Option (Option Component) :=
  if Kind.source.service.isPrefixOf svc then
    (stringAt svc (Kind.source.service.length + 1)).map (splitParts .source)
  else if Kind.renderer.service.isPrefixOf svc then
    (stringAt svc (Kind.renderer.service.length + 1)).map (splitParts .renderer)
  else some none

/-- The name that `wrapper_export` asks the bus for. -/
def Component.exportName (c : Component) : Bytes :=
  match c.kind with
  | .source => (Kind.source.service ++ [46]) ++ c.plugin ++ [46] ++ c.uuid
  | .renderer => (Kind.renderer.service ++ [46]) ++ c.plugin ++ [46] ++ c.uuid

structure Proxy extends Component where
  name : Option Bytes
  properties : List (Bytes × Nat)
  deriving DecidableEq

/-- The call that the setup of a proxy waits for. -/
inductive Pending
  | getName
  | listProperties
  deriving DecidableEq

/-- `struct _extension_attach_data`, with its pending call. -/
structure Setup where
  extension : Proxy
  pending : Pending

inductive Message
  | hello (name : Bytes)
  | nameOwnerChanged (name oldname newname : Bytes)
  deriving DecidableEq

def Message.name : Message → Bytes
  | .hello name | .nameOwnerChanged name _ _ => name

/-- How far `mafw_shared_init` is. -/
inductive Stage
  | off
  /-- There is a match for HELLO signals. -/
  | watching
  /-- The names are still to be passed to `create_proxy`; without any, the main loop runs. -/
  | listing (names : List Bytes)

structure World where
  /-- The names that have an owner. -/
  owned : List Bytes
  /-- The services that are still to say HELLO. -/
  greetings : List Bytes
  inbox : List Message
  /-- How many matches there are for a service's `NameOwnerChanged`. -/
  matchRules : Bytes → Nat
  stage : Stage
  registry : List Proxy
  setups : List Setup

def World.init : World :=
  { owned := [], greetings := [], inbox := [], matchRules := fun _ => 0, stage := .off, registry := [], setups := [] }

inductive Event
  /-- A service takes its name. -/
  | appear (name : Bytes)
  | hello (name : Bytes)
  /-- The owner, a unique name, gives a name up. -/
  | vanish (name owner : Bytes)
  /-- `mafw_shared_init` up to `create_proxy_extensions`. -/
  | watch
  | listNames
  /-- `create_proxy` on the next listed name; `takesOver` is whether a path that has a handler
  can be registered. -/
  | createNext (takesOver : Bool)
  | dispatch (takesOver : Bool)
  /-- A setup has its reply, `none` for an error. -/
  | gotName (i : Nat) (name : Option Bytes)
  | gotPropLists (i : Nat) (properties : Option (List (Bytes × Nat)))

namespace World

/-- `mafw_registry_get_extension_by_uuid`. -/
def getExtensionByUuid (w : World) (uuid : Bytes) : Option Proxy := w.registry.find? fun px => px.uuid = uuid

/-- Whether a proxy that is set up has registered the object path of the component. -/
def pathInUse (w : World) (c : Component) : Bool :=
  w.setups.any fun s => s.extension.kind = c.kind && s.extension.uuid = c.uuid

/-- `mafw_proxy_source_new` and `mafw_proxy_renderer_new`, which attach the proxy unless its
path cannot be registered. -/
def proxyNew (w : World) (c : Component) (takesOver : Bool) : World :=
  if w.pathInUse c && !takesOver then w
  else { w with setups := w.setups ++ [⟨⟨c, none, []⟩, .getName⟩] }

def createProxy (w : World) (svc : Bytes) (takesOver : Bool) : World :=
  match splitServicename svc with
  | none => w
  | some c =>
    match w.getExtensionByUuid c.uuid with
    | some _ => w
    | none => { w.proxyNew c takesOver with matchRules := Function.update w.matchRules svc (w.matchRules svc + 1) }

def handleMessage (w : World) (takesOver : Bool) : Message → World
  | .hello name => w.createProxy name takesOver
  | .nameOwnerChanged name oldname newname =>
    if newname ≠ [] then w
    else if oldname = [] then w
    else
      match splitServicename name with
      | none => w
      | some c =>
        let w := match w.getExtensionByUuid c.uuid with
          | none => w
          | some extension => { w with registry := w.registry.erase extension }
        { w with matchRules := Function.update w.matchRules name (w.matchRules name - 1) }

/-- `got_name`, which goes on whatever the reply is. -/
def gotName (w : World) (i : Nat) (s : Setup) (name : Option Bytes) : World :=
  let extension := match name with
    | none => s.extension
    | some name => { s.extension with name := some name }
  { w with setups := w.setups.set i ⟨extension, .listProperties⟩ }

/-- `got_prop_lists`, which adds the proxy whatever the reply is. -/
def gotPropLists (w : World) (i : Nat) (s : Setup) (properties : Option (List (Bytes × Nat))) : World :=
  let extension := match properties with
    | none => s.extension
    | some properties => { s.extension with properties }
  let w := { w with setups := w.setups.eraseIdx i }
  match w.getExtensionByUuid extension.uuid with
  | none => { w with registry := w.registry ++ [extension] }
  | some _ => w

/-- A message reaches the client when there is a match for it. -/
def send (w : World) (m : Message) (matched : Bool) : World :=
  if matched then { w with inbox := w.inbox ++ [m] } else w

def watches (w : World) : Bool :=
  match w.stage with
  | .off => false
  | _ => true

/-- What can happen next. The main loop runs when the initialization is done. -/
def Possible (w : World) : Event → Prop
  | .appear name => name ∉ w.owned
  | .hello name => name ∈ w.owned
  | .vanish name owner => name ∈ w.owned ∧ owner ≠ []
  | .watch => w.stage = .off
  | .listNames => w.stage = .watching
  | .createNext _ => ∃ name names, w.stage = .listing (name :: names)
  | .dispatch _ => w.stage = .listing [] ∧ w.inbox ≠ []
  | .gotName i _ => w.stage = .listing [] ∧ ∃ s, w.setups[i]? = some s ∧ s.pending = .getName
  | .gotPropLists i _ => w.stage = .listing [] ∧ ∃ s, w.setups[i]? = some s ∧ s.pending = .listProperties

def handle (w : World) : Event → World
  | .appear name => { w with owned := name :: w.owned, greetings := name :: w.greetings }
  | .hello name => { w with greetings := w.greetings.filter (· ≠ name) }.send (.hello name) w.watches
  | .vanish name owner =>
    { w with owned := w.owned.filter (· ≠ name), greetings := w.greetings.filter (· ≠ name) }.send
      (.nameOwnerChanged name owner []) (0 < w.matchRules name)
  | .watch => { w with stage := .watching }
  | .listNames => { w with stage := .listing w.owned }
  | .createNext takesOver =>
    match w.stage with
    | .listing (name :: names) => { w with stage := .listing names }.createProxy name takesOver
    | _ => w
  | .dispatch takesOver =>
    match w.inbox with
    | [] => w
    | m :: inbox => { w with inbox }.handleMessage takesOver m
  | .gotName i name =>
    match w.setups[i]? with
    | none => w
    | some s => w.gotName i s name
  | .gotPropLists i properties =>
    match w.setups[i]? with
    | none => w
    | some s => w.gotPropLists i s properties

end World
end MafwShared.Discovery
