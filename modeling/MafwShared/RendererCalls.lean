import MafwShared.Lib.PendingCalls
import MafwShared.SourceReplies

/-!
# Calls of a renderer

The requests to a renderer that are answered when it calls back, and `get_extension_property`:
`mafw-proxy-renderer.c` and `mafw-proxy-extension.c` in the clients, `renderer-wrapper.c` and
`extension-wrapper.c` in front of the renderer. A function that parses a message returns `none`
when it aborts. `freeze` and `thaw` are the metadata serializer and parser.
-/

namespace MafwShared.MafwDbus.RendererCalls
open CLib SourceReplies

/-- `MAFW_RENDERER_METHOD_*`, and `MAFW_EXTENSION_METHOD_GET_PROPERTY` of the other interface. -/
inductive RendererMember
  | play
  | playObject
  | playUri
  | stop
  | pause
  | resume
  | next
  | previous
  | gotoIndex
  | getStatus
  | setPosition
  | getPosition
  | getCurrentMetadata
  | getProperty
  deriving DecidableEq

structure MethodCall where
  member : RendererMember
  values : List Value

/-- A call of the interface that the renderer and its proxies share. -/
inductive RendererCall
  | play
  | playObject (objectId : Bytes)
  | playUri (uri : Bytes)
  | stop
  | pause
  | resume
  | next
  | previous
  | gotoIndex (index : UInt32)
  | getStatus
  | setPosition (mode seconds : Int32)
  | getPosition
  | getCurrentMetadata
  | getProperty (name : Bytes)
  deriving DecidableEq

/-- The type of a call's callback. -/
inductive CallbackType
  | playback
  | status
  | position
  | metadata
  | property
  deriving DecidableEq

def RendererCall.callbackType : RendererCall → CallbackType
  | .getStatus => .status
  | .setPosition _ _ | .getPosition => .position
  | .getCurrentMetadata => .metadata
  | .getProperty _ => .property
  | _ => .playback

inductive MafwPlaylist
  /-- A `MafwProxyPlaylist` with its id. -/
  | proxy (id : UInt32)
  | inCore
  deriving DecidableEq

/-- What the renderer passes to a callback, the error apart. -/
inductive Result (μ : Type)
  | playback
  | status (playlist : Option MafwPlaylist) (index : UInt32) (state : Int32) (objectId : Option Bytes)
  | position (seconds : Int32)
  | metadata (objectId : Option Bytes) (metadata : Option μ)
  | property (prop : Bytes) (val : GValue)

def Result.type {μ : Type} : Result μ → CallbackType
  | .playback => .playback
  | .status _ _ _ _ => .status
  | .position _ => .position
  | .metadata _ _ => .metadata
  | .property _ _ => .property

/-- A call of an application's callback. -/
inductive Callback (μ : Type)
  | playback (error : Option GError)
  | status (playlist : Option UInt32) (index : UInt32) (state : Int32) (objectId : Option Bytes) (error : Option GError)
  | position (seconds : Int32) (error : Option GError)
  | metadata (objectId : Option Bytes) (metadata : Option μ) (error : Option GError)
  | property (prop : Option Bytes) (val : Option GValue) (error : Option GError)

/-! ### The proxy sends a call -/

/-- The message of `mafw_proxy_renderer_play` and the others. -/
def RendererCall.message : RendererCall → MethodCall
  | .play => ⟨.play, cleverAppendValist []⟩
  | .playObject objectId => ⟨.playObject, cleverAppendValist [.basic .string objectId]⟩
  | .playUri uri => ⟨.playUri, cleverAppendValist [.basic .string uri]⟩
  | .stop => ⟨.stop, cleverAppendValist []⟩
  | .pause => ⟨.pause, cleverAppendValist []⟩
  | .resume => ⟨.resume, cleverAppendValist []⟩
  | .next => ⟨.next, cleverAppendValist []⟩
  | .previous => ⟨.previous, cleverAppendValist []⟩
  | .gotoIndex index => ⟨.gotoIndex, cleverAppendValist [.basic .uint32 index]⟩
  | .getStatus => ⟨.getStatus, cleverAppendValist []⟩
  | .setPosition mode seconds => ⟨.setPosition, cleverAppendValist [.basic .int32 mode, .basic .int32 seconds]⟩
  | .getPosition => ⟨.getPosition, cleverAppendValist []⟩
  | .getCurrentMetadata => ⟨.getCurrentMetadata, cleverAppendValist []⟩
  | .getProperty name => ⟨.getProperty, cleverAppendValist [.basic .string name]⟩

/-- The calls that return at once without a callback. -/
def RendererCall.needsCallback : RendererCall → Bool
  | .getStatus | .setPosition _ _ | .getPosition | .getCurrentMetadata => true
  | _ => false

/-! ### The wrapper -/

namespace Wrapper

/-- `handle_renderer_msg`, and `handle_get_property` behind `handle_extension_msg`: the call of the
renderer that a message leads to. -/
def handleRendererMsg (msg : MethodCall) : Option RendererCall :=
  match msg.member with
  | .play => some .play
  | .playObject =>
    match cleverParseValist [.arg (.basic .string)] msg.values with
    | some [.arg (.basic .string objectId)] => some (.playObject objectId)
    | _ => none
  | .playUri =>
    match cleverParseValist [.arg (.basic .string)] msg.values with
    | some [.arg (.basic .string uri)] => some (.playUri uri)
    | _ => none
  | .stop => some .stop
  | .pause => some .pause
  | .resume => some .resume
  | .next => some .next
  | .previous => some .previous
  | .gotoIndex =>
    match cleverParseValist [.arg (.basic .uint32)] msg.values with
    | some [.arg (.basic .uint32 index)] => some (.gotoIndex index)
    | _ => none
  | .getStatus => some .getStatus
  | .setPosition =>
    match cleverParseValist [.arg (.basic .int32), .arg (.basic .int32)] msg.values with
    | some [.arg (.basic .int32 mode), .arg (.basic .int32 seconds)] => some (.setPosition mode seconds)
    | _ => none
  | .getPosition => some .getPosition
  | .getCurrentMetadata => some .getCurrentMetadata
  | .getProperty =>
    match cleverParseValist [.arg (.basic .string)] msg.values with
    | some [.arg (.basic .string prop)] => some (.getProperty prop)
    | _ => none

def playbackCb : Option GError → Reply
  | none => mafwDbusReply []
  | some error => .error (mafwDbusGerror error)

/-- `MAFW_PROXY_PLAYLIST_INVALID_ID` stands for no playlist, and for one that is no proxy. -/
def playlistId : Option MafwPlaylist → UInt32
  | some (.proxy id) => id
  | _ => 0

def getStatusCb (playlist : Option MafwPlaylist) (index : UInt32) (state : Int32) (objectId : Option Bytes) :
    Option GError → Reply
  | none => mafwDbusReply [.basic .uint32 (playlistId playlist), .basic .uint32 index, .basic .int32 state,
      .basic .string (objectId.getD [])]
  | some error => .error (mafwDbusGerror error)

def setGetPositionCb (seconds : Int32) : Option GError → Reply
  | some error => .error (mafwDbusGerror error)
  | none => mafwDbusReply [.basic .uint32 seconds.toUInt32]

def getCurrentMetadataCb {μ : Type} (freeze : Option μ → Bytes) (objectId : Option Bytes) (metadata : Option μ) :
    Option GError → Reply
  | none => mafwDbusReply [.basic .string (objectId.getD []), .gbytearray (freeze metadata)]
  | some error => .error (mafwDbusGerror error)

/-- The copy of the error is sent by `mafw_dbus_oci_error`. -/
def getPropertyReply (prop : Bytes) (val : GValue) : Option GError → Reply
  | some error => .error (mafwDbusGerror error)
  | none => mafwDbusReply [.basic .string prop, .gvalue val]

end Wrapper

/-- The reply that a callback of the wrapper sends. -/
def Result.reply {μ : Type} (freeze : Option μ → Bytes) : Result μ → Option GError → Reply
  | .playback => Wrapper.playbackCb
  | .status pls index state objectId => Wrapper.getStatusCb pls index state objectId
  | .position seconds => Wrapper.setGetPositionCb seconds
  | .metadata objectId mdata => Wrapper.getCurrentMetadataCb freeze objectId mdata
  | .property prop val => Wrapper.getPropertyReply prop val

/-! ### The proxy has a reply -/

/-- What a client has besides the replies. -/
structure ProxyEnv (μ : Type) where
  thaw : Bytes → Option μ
  /-- `MAFW_EXTENSION_ERROR_EXTENSION_NOT_AVAILABLE`. -/
  notAvailable : Int32
  /-- `MAFW_RENDERER_ERROR`. -/
  rendererError : Bytes
  /-- `MAFW_EXTENSION_ERROR`. -/
  extensionError : Bytes
  /-- Whether the playlist manager has a playlist for the id. -/
  getPlaylist : UInt32 → Bool
  /-- The error that the bus library makes up for a call that was not answered in time. -/
  noReply : DBusError

namespace Proxy
variable {μ : Type} (env : ProxyEnv μ) (callback : Bool)

/-- An object id that is read, where an empty one is none. -/
def objectIdOf (objectId : Bytes) : Option Bytes := if objectId = [] then none else some objectId

/-- `mafw_proxy_renderer_playback_cb`. -/
def playbackCb (reply : Reply) : Option (List (Callback μ)) := do
  let error ← SourceReplies.Proxy.mafwDbusIsError env.notAvailable env.rendererError reply
  return if callback then [.playback error] else []

/-- `mafw_proxy_renderer_get_status_cb`, which calls back on success without a look at the callback. -/
def getStatusCb (reply : Reply) : Option (List (Callback μ)) := do
  match ← SourceReplies.Proxy.mafwDbusIsError env.notAvailable env.rendererError reply with
  | none =>
    match ← SourceReplies.Proxy.mafwDbusParse [.arg (.basic .uint32), .arg (.basic .uint32), .arg (.basic .int32),
      .arg (.basic .string)] reply with
    | [.arg (.basic .uint32 id), .arg (.basic .uint32 index), .arg (.basic .int32 state),
        .arg (.basic .string objectId)] =>
      some [.status (if id ≠ 0 ∧ env.getPlaylist id = true then some id else none) index state (objectIdOf objectId) none]
    | _ => none
  | some error => some (if callback then [.status none 0 0 none (some error)] else [])

def setGetPositionCb (reply : Reply) : Option (List (Callback μ)) := do
  match ← SourceReplies.Proxy.mafwDbusIsError env.notAvailable env.rendererError reply with
  | none =>
    match ← SourceReplies.Proxy.mafwDbusParse [.arg (.basic .uint32)] reply with
    | [.arg (.basic .uint32 seconds)] => some (if callback then [.position seconds.toInt32 none] else [])
    | _ => none
  | some error => some (if callback then [.position 0 (some error)] else [])

/-- `mafw_proxy_renderer_get_current_metadata_cb`. -/
def getCurrentMetadataCb (reply : Reply) : Option (List (Callback μ)) := do
  match ← SourceReplies.Proxy.mafwDbusIsError env.notAvailable env.rendererError reply with
  | none =>
    match ← SourceReplies.Proxy.mafwDbusParse [.arg (.basic .string), .arg .gbytearray] reply with
    | [.arg (.basic .string objectId), .arg (.gbytearray ba)] =>
      some (if callback then [.metadata (objectIdOf objectId) (env.thaw ba) none] else [])
    | _ => none
  | some error => some (if callback then [.metadata none none (some error)] else [])

/-- `got_extension_property`, which takes it that there is a callback. -/
def gotExtensionProperty (reply : Reply) : Option (List (Callback μ)) := do
  match ← SourceReplies.Proxy.mafwDbusIsError env.notAvailable env.extensionError reply with
  | none =>
    match ← SourceReplies.Proxy.mafwDbusParse [.arg (.basic .string), .arg .gvalue] reply with
    | [.arg (.basic .string prop), .arg (.gvalue val)] => some [.property (some prop) (some val) none]
    | _ => none
  | some error => some [.property none none (some error)]

/-- The handler that was set for a call's reply. -/
def notify (c : RendererCall) : Reply → Option (List (Callback μ)) :=
  match c.callbackType with
  | .playback => playbackCb env callback
  | .status => getStatusCb env callback
  | .position => setGetPositionCb env callback
  | .metadata => getCurrentMetadataCb env callback
  | .property => gotExtensionProperty env

end Proxy

/-! ### Clients and a renderer -/

/-- A call with whether it has a callback. -/
abbrev AsyncCall := RendererCall × Bool

/-- The calls of one client, with what the renderer has called back. -/
structure Link (μ : Type) where
  calls : Calls AsyncCall Reply
  results : List (Nat × Result μ × Option GError)

inductive Event (ι : Type*) (μ : Type)
  | call (i : ι) (c : RendererCall) (callback : Bool)
  /-- The wrapper takes the first request of a client. -/
  | handle (i : ι)
  /-- The renderer calls back for one of the calls that it works on. -/
  | callBack (i : ι) (n : Nat) (result : Result μ) (error : Option GError)
  | receive (i : ι)
  | timeout (i : ι) (k : Nat)

namespace Link
variable {μ : Type}

def init : Link μ := ⟨.init, []⟩

/-- A call of a proxy, which needs a callback for some and has always one for `get_extension_property`. -/
def call (l : Link μ) (c : RendererCall) (callback : Bool) : Option (Link μ) :=
  if callback = false ∧ c.callbackType = .property then none
  else if callback = false ∧ c.needsCallback = true then some l
  else (l.calls.step (.call (c, callback))).map fun calls => { l with calls }

/-- The callback of the wrapper is that of the call, as the types of the library see to. -/
def callBack (freeze : Option μ → Bytes) (l : Link μ) (n : Nat) (result : Result μ) (error : Option GError) :
    Option (Link μ) :=
  match l.calls.accepted[n]? with
  | none => none
  | some (c, k) =>
    match Wrapper.handleRendererMsg c.1.message with
    | none => none
    | some asked =>
      if asked.callbackType = result.type then
        (l.calls.step (.answer n (result.reply freeze error))).map fun calls =>
          ⟨calls, l.results ++ [(k, result, error)]⟩
      else none

/-- What the handler of a call did when it ended, `none` if it aborted. -/
def callbacks (env : ProxyEnv μ) (l : Link μ) (e : Nat × Option Reply) : Option (List (Callback μ)) :=
  (l.calls.made[e.1]?).bind fun c => Proxy.notify env c.2 c.1 (e.2.getD (.error env.noReply))

end Link

abbrev World (ι : Type*) (μ : Type) := ι → Link μ

/-- The world after an event, none when the event cannot happen. -/
def World.step {ι : Type*} {μ : Type} [DecidableEq ι] (freeze : Option μ → Bytes) (w : World ι μ) :
    Event ι μ → Option (World ι μ)
  | .call i c callback => ((w i).call c callback).map (Function.update w i)
  | .handle i => ((w i).calls.step .accept).map fun calls => Function.update w i { w i with calls }
  | .callBack i n result error => ((w i).callBack freeze n result error).map (Function.update w i)
  | .receive i => ((w i).calls.step .receive).map fun calls => Function.update w i { w i with calls }
  | .timeout i k => ((w i).calls.step (.giveUp k)).map fun calls => Function.update w i { w i with calls }

end MafwShared.MafwDbus.RendererCalls
