import MafwShared.Discovery
import MafwShared.Lib.Broadcast
import MafwShared.RendererCalls
import MafwShared.RendererWrapper

/-!
# Signals of exported extensions

What the wrapper connects to the signals of a source or renderer that it exports, and what a proxy does
with the messages of such signals: it emits the signals again. The bus passes a message on to the clients
with a match for its interface and object path. A match is never removed.
-/

namespace MafwShared.MafwDbus.ExtensionSignals
open CLib RendererCalls
open Discovery (Kind)

/-- `MAFW_SOURCE_OBJECT` and `MAFW_RENDERER_OBJECT`. -/
def objectOf : Kind → Bytes
  | .source => [47, 99, 111, 109, 47, 110, 111, 107, 105, 97, 47, 109, 97, 102, 119, 47, 115, 111, 117, 114, 99, 101]
  | .renderer =>
    [47, 99, 111, 109, 47, 110, 111, 107, 105, 97, 47, 109, 97, 102, 119, 47, 114, 101, 110, 100, 101, 114, 101, 114]

/-- What has a path of its own: a kind with a uuid. -/
structure Extension where
  kind : Kind
  uuid : Bytes
  deriving DecidableEq

/-- The `object_path` of `wrapper_export`, and the one that the proxies register. -/
def Extension.objectPath (e : Extension) : Bytes := objectOf e.kind ++ [47] ++ e.uuid

/-- `MAFW_EXTENSION_INTERFACE`, `MAFW_SOURCE_INTERFACE` and `MAFW_RENDERER_INTERFACE`. -/
inductive Interface
  | extension
  | source
  | renderer
  deriving DecidableEq

def interfaceOf : Kind → Interface
  | .source => .source
  | .renderer => .renderer

/-- `MAFW_EXTENSION_SIGNAL_*`, `MAFW_SOURCE_SIGNAL_*` and `MAFW_RENDERER_SIGNAL_*`; two interfaces have a
`metadata_changed`. -/
inductive SignalMember
  | propertyChanged
  | nameChanged
  | error
  | metadataChanged
  | containerChanged
  | updating
  | stateChanged
  | playlistChanged
  | mediaChanged
  | bufferingInfo
  deriving DecidableEq

structure Message where
  path : Bytes
  interface : Interface
  member : SignalMember
  values : List Value

/-- A signal of an extension, where `σ` has the values of a `gfloat`. -/
inductive Signal (σ : Type)
  | propertyChanged (prop : Bytes) (val : GValue)
  /-- `notify::name`. -/
  | nameChanged (name : Bytes)
  | error (error : GError)
  /-- Of a source. -/
  | metadataChanged (objectId : Bytes)
  | containerChanged (objectId : Bytes)
  | updating (progress processedItems remainingItems remainingTime : Int32)
  | stateChanged (state : Int32)
  | playlistChanged (playlist : Option MafwPlaylist)
  | mediaChanged (index : Int32) (objectId : Option Bytes)
  | bufferingInfo (status : σ)
  /-- Of a renderer. -/
  | mediaMetadataChanged (name : Bytes) (values : GValueArray)

/-- Whether the extensions of a kind have the signal. -/
def Signal.isOf {σ : Type} (kind : Kind) : Signal σ → Bool
  | .propertyChanged _ _ | .nameChanged _ | .error _ => true
  | .metadataChanged _ | .containerChanged _ | .updating _ _ _ _ => kind = .source
  | _ => kind = .renderer

/-- What a proxy emits. -/
inductive Emitted (σ : Type)
  | propertyChanged (prop : Bytes) (val : GValue)
  /-- The proxy is renamed. -/
  | nameChanged (name : Bytes)
  | error (error : GError)
  | metadataChanged (objectId : Bytes)
  | containerChanged (objectId : Bytes)
  | updating (progress processedItems remainingItems remainingTime : Int32)
  | stateChanged (state : Int32)
  /-- With the id of the playlist. -/
  | playlistChanged (playlist : Option UInt32)
  | mediaChanged (index : Int32) (objectId : Option Bytes)
  | bufferingInfo (status : σ)
  | mediaMetadataChanged (name : Bytes) (values : GValueArray)

/-- What is used of floating point numbers. -/
structure Floats (σ : Type) extends RendererWrapper.Statuses σ where
  toDouble : σ → UInt64
  toFloat : UInt64 → σ

variable {σ : Type} (floats : Floats σ)

/-! ### The wrapper -/

namespace Wrapper

/-- `mafw_dbus_signal_full`. -/
def mafwDbusSignalFull (path : Bytes) (interface : Interface) (member : SignalMember) (args : List Arg) : Message :=
  { path, interface, member, values := cleverAppendValist args }

/-- The message of a signal in `prop_changed` and the other handlers. -/
def forward (e : Extension) : Signal σ → Message
  | .propertyChanged prop val =>
    mafwDbusSignalFull e.objectPath .extension .propertyChanged [.basic .string prop, .gvalue val]
  | .nameChanged name => mafwDbusSignalFull e.objectPath .extension .nameChanged [.basic .string name]
  | .error error => mafwDbusSignalFull e.objectPath .extension .error
      [.basic .string error.domain, .basic .int32 error.code, .basic .string error.message]
  | .metadataChanged objectId => mafwDbusSignalFull e.objectPath .source .metadataChanged [.basic .string objectId]
  | .containerChanged objectId => mafwDbusSignalFull e.objectPath .source .containerChanged [.basic .string objectId]
  | .updating progress processedItems remainingItems remainingTime =>
    mafwDbusSignalFull e.objectPath .source .updating [.basic .int32 progress, .basic .int32 processedItems,
      .basic .int32 remainingItems, .basic .int32 remainingTime]
  | .stateChanged state => mafwDbusSignalFull e.objectPath .renderer .stateChanged [.basic .int32 state]
  | .playlistChanged playlist =>
    mafwDbusSignalFull e.objectPath .renderer .playlistChanged [.basic .uint32 (Wrapper.playlistId playlist)]
  | .mediaChanged index objectId => mafwDbusSignalFull e.objectPath .renderer .mediaChanged
      [.basic .int32 index, .basic .string (objectId.getD [])]
  | .bufferingInfo status =>
    mafwDbusSignalFull e.objectPath .renderer .bufferingInfo [.basic .double (floats.toDouble status)]
  | .mediaMetadataChanged name values =>
    mafwDbusSignalFull e.objectPath .renderer .metadataChanged [.basic .string name, .gvaluearray values]

/-- A signal that the buffering of a renderer lets through. -/
def throttled : RendererWrapper.RendererSignal σ → Signal σ
  | .stateChanged state => .stateChanged state
  | .bufferingInfo status => .bufferingInfo status

/-- The handlers that are connected to a signal, and what they forward. -/
def emitted [DecidableEq σ] (ids : IdSupply) (r : RendererWrapper.Renderer σ) :
    Signal σ → RendererWrapper.Renderer σ × List (Signal σ)
  | .stateChanged state =>
    let (r, sent) := r.handle floats.toStatuses ids (.stateChanged state)
    (r, sent.map throttled)
  | .bufferingInfo status =>
    let (r, sent) := r.handle floats.toStatuses ids (.update status)
    (r, sent.map throttled)
  | s => (r, [s])

end Wrapper

/-! ### The proxies -/

namespace Proxy

/-- `handle_extension_prop_changed`, `handle_extension_name_changed` and `handle_extension_error`. -/
def proxyExtensionDispatch (msg : Message) : Option (List (Emitted σ)) :=
  match msg.member with
  | .propertyChanged =>
    match cleverParseValist [.arg (.basic .string), .arg .gvalue] msg.values with
    | some [.arg (.basic .string prop), .arg (.gvalue val)] => some [.propertyChanged prop val]
    | _ => none
  | .nameChanged =>
    match cleverParseValist [.arg (.basic .string)] msg.values with
    | some [.arg (.basic .string name)] => some [.nameChanged name]
    | _ => none
  | .error =>
    match cleverParseValist [.arg (.basic .string), .arg (.basic .int32), .arg (.basic .string)] msg.values with
    | some [.arg (.basic .string domain), .arg (.basic .int32 code), .arg (.basic .string message)] =>
      some [.error { domain, code, message }]
    | _ => none
  | _ => some []

/-- The signals in `mafw_proxy_source_dispatch_message`. -/
def sourceDispatchMessage (path : Bytes) (msg : Message) : Option (List (Emitted σ)) :=
  if msg.interface = .extension then proxyExtensionDispatch msg
  else if msg.path ≠ path then some []
  else
    match msg.member with
    | .metadataChanged =>
      match cleverParseValist [.arg (.basic .string)] msg.values with
      | some [.arg (.basic .string objId)] => some [.metadataChanged objId]
      | _ => none
    | .containerChanged =>
      match cleverParseValist [.arg (.basic .string)] msg.values with
      | some [.arg (.basic .string objId)] => some [.containerChanged objId]
      | _ => none
    | .updating =>
      match cleverParseValist [.arg (.basic .int32), .arg (.basic .int32), .arg (.basic .int32), .arg (.basic .int32)]
        msg.values with
      | some [.arg (.basic .int32 progress), .arg (.basic .int32 processedItems), .arg (.basic .int32 remainingItems),
          .arg (.basic .int32 remainingTime)] => some [.updating progress processedItems remainingItems remainingTime]
      | _ => none
    | _ => some []

/-- `mafw_proxy_renderer_dispatch_message`; `found` is whether the playlist manager comes up with the
playlist. -/
def rendererDispatchMessage (found : Bool) (msg : Message) : Option (List (Emitted σ)) :=
  if msg.interface = .extension then proxyExtensionDispatch msg
  else
    match msg.member with
    | .stateChanged =>
      match cleverParseValist [.arg (.basic .int32)] msg.values with
      | some [.arg (.basic .int32 state)] => some [.stateChanged state]
      | _ => none
    | .playlistChanged =>
      match cleverParseValist [.arg (.basic .uint32)] msg.values with
      | some [.arg (.basic .uint32 playlistId)] =>
        some [.playlistChanged (if playlistId ≠ 0 ∧ found = true then some playlistId else none)]
      | _ => none
    | .mediaChanged =>
      match cleverParseValist [.arg (.basic .int32), .arg (.basic .string)] msg.values with
      | some [.arg (.basic .int32 index), .arg (.basic .string objectId)] =>
        some [.mediaChanged index (Proxy.objectIdOf objectId)]
      | _ => none
    | .bufferingInfo =>
      match cleverParseValist [.arg (.basic .double)] msg.values with
      | some [.arg (.basic .double status)] => some [.bufferingInfo (floats.toFloat status)]
      | _ => none
    | .metadataChanged =>
      match cleverParseValist [.arg (.basic .string), .arg .gvaluearray] msg.values with
      | some [.arg (.basic .string key), .arg (.gvaluearray values)] => some [.mediaMetadataChanged key values]
      | _ => none
    | _ => some []

end Proxy

/-- A signal that a proxy has emitted, and what a search for a playlist came to when its message was
handled. -/
structure Emission (σ : Type) where
  found : Bool
  signal : Emitted σ

/-- A proxy, with what it has emitted. -/
structure Proxy (σ : Type) where
  kind : Kind
  emitted : List (Emission σ)

def Proxy.dispatchMessage (found : Bool) (path : Bytes) (p : Proxy σ) (msg : Message) : Option (List (Emitted σ)) :=
  match p.kind with
  | .source => Proxy.sourceDispatchMessage path msg
  | .renderer => Proxy.rendererDispatchMessage floats found msg

/-! ### Clients and exported extensions -/

structure World (ι : Type*) (σ : Type) where
  /-- The exported extensions, with their buffering. -/
  exports : Extension → Option (RendererWrapper.Renderer σ)
  /-- What was forwarded for them. -/
  forwarded : Extension → List (Signal σ)
  bus : Bus ι Message
  /-- The proxies of a client, by the object paths that they have registered. -/
  proxies : ι → Bytes → Option (Proxy σ)

inductive Event (ι : Type*) (σ : Type)
  | exported (e : Extension)
  | unexported (e : Extension)
  | emit (e : Extension) (s : Signal σ)
  /-- The buffering timer of a renderer. -/
  | expire (e : Extension) (id : Nat)
  /-- `mafw_proxy_source_new` or `mafw_proxy_renderer_new`; `takesOver` is whether a path that has a handler
  can be registered. -/
  | proxyNew (i : ι) (e : Extension) (takesOver : Bool)
  | proxyExtensionAttach (i : ι) (e : Extension)
  | dispose (i : ι) (e : Extension)
  /-- A client handles its first message; `found` is what a search for a playlist comes to. -/
  | dispatch (i : ι) (found : Bool)

/-- `MAFW_EXTENSION_MATCH`. -/
def extensionMatch (interface : Interface) (path : Bytes) (msg : Message) : Bool :=
  msg.interface = interface && msg.path = path

namespace World
variable {ι : Type*}

def init : World ι σ :=
  { exports := fun _ => none, forwarded := fun _ => [], bus := .init, proxies := fun _ _ => none }

/-- The wrapper's handlers have run. -/
def forward (w : World ι σ) (e : Extension) (out : RendererWrapper.Renderer σ × List (Signal σ)) : World ι σ :=
  { w with
    exports := Function.update w.exports e (some out.1)
    forwarded := Function.update w.forwarded e (w.forwarded e ++ out.2)
    bus := w.bus.sendAll (out.2.map (Wrapper.forward floats e)) }

variable [DecidableEq ι]

def setProxy (w : World ι σ) (i : ι) (path : Bytes) (p : Option (Proxy σ)) : World ι σ :=
  { w with proxies := Function.update w.proxies i (Function.update (w.proxies i) path p) }

/-- The world after an event, none when the event cannot happen or a client aborts. -/
def step [DecidableEq σ] (ids : IdSupply) (w : World ι σ) : Event ι σ → Option (World ι σ)
  | .exported e =>
    match w.exports e with
    | some _ => none
    | none => some { w with exports := Function.update w.exports e (some (.connect floats.toStatuses)) }
  | .unexported e => some { w with exports := Function.update w.exports e none }
  | .emit e s =>
    if s.isOf e.kind = true then
      match w.exports e with
      | none => some w
      | some r => some (w.forward floats e (Wrapper.emitted floats ids r s))
    else none
  | .expire e id =>
    match e.kind, w.exports e with
    | .renderer, some r =>
      let (r, sent) := r.handle floats.toStatuses ids (.expire id)
      some (w.forward floats e (r, sent.map Wrapper.throttled))
    | _, _ => none
  | .proxyNew i e takesOver =>
    let w := { w with bus := w.bus.subscribe i (extensionMatch (interfaceOf e.kind) e.objectPath) }
    match w.proxies i e.objectPath with
    | some _ => some (if takesOver then w.setProxy i e.objectPath (some ⟨e.kind, []⟩) else w)
    | none => some (w.setProxy i e.objectPath (some ⟨e.kind, []⟩))
  | .proxyExtensionAttach i e =>
    some { w with bus := w.bus.subscribe i (extensionMatch .extension e.objectPath) }
  | .dispose i e => some (w.setProxy i e.objectPath none)
  | .dispatch i found =>
    match w.bus.take i with
    | none => none
    | some (msg, bus) =>
      match w.proxies i msg.path with
      | none => some { w with bus }
      | some p =>
        (p.dispatchMessage floats found msg.path msg).map fun emitted =>
          { w with bus }.setProxy i msg.path (some { p with emitted := p.emitted ++ emitted.map (Emission.mk found) })

end World
end MafwShared.MafwDbus.ExtensionSignals
