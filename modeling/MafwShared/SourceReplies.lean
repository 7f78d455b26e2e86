import MafwShared.MafwDbus
import Mathlib.Data.Finmap

/-!
# Replies of a source

The callbacks of `source-wrapper.c` that answer a request, those for `browse` apart, and the
functions of `mafw-proxy-source.c` that take the answers and call the client back. `freeze` and
`thaw` are the metadata serializer and parser, with `none` for `NULL`. A hash table is gone
through in the order of an `AList`. A proxy function returns the calls it makes, or `none` when
it aborts.
-/

namespace MafwShared.MafwDbus.SourceReplies
open CLib

/-- A reply on the bus. That to `get_metadatas` may start with an array of `(say)`. -/
inductive Reply
  | methodReturn (metadatas : Option (List (Bytes × Bytes))) (values : List Value)
  | error (dbe : DBusError)

/-- `mafw_dbus_reply`. -/
def mafwDbusReply (args : List Arg) : Reply := .methodReturn none (cleverAppendValist args)

/-! ### The wrapper -/

namespace Wrapper
variable {μ : Type} (freeze : Option μ → Bytes)

/-- `MAFW_DBUS_METADATA` appends a byte array. -/
def gotMetadata (metadata : Option μ) : Option GError → Reply
  | some error => .error (mafwDbusGerror error)
  | none => mafwDbusReply [.gbytearray (freeze metadata)]

/-- `_append_ob_mdata`. -/
def appendObMdata (e : Sigma fun _ : Bytes => Option μ) : Bytes × Bytes := (e.1, freeze e.2)

def gotMetadatas (metadatas : Option (AList fun _ : Bytes => Option μ)) (error : Option GError) : Reply :=
  .methodReturn (metadatas.map fun t => t.entries.map (appendObMdata freeze))
    [.basic .string (error.elim [] GError.domain),
      .basic .uint32 (error.elim 0 fun e => e.code.toUInt32),
      .basic .string (error.elim [] GError.message)]

def objectCreated (objectid : Bytes) : Option GError → Reply
  | some error => .error (mafwDbusGerror error)
  | none => mafwDbusReply [.basic .string objectid]

def objectDestroyed (objectid : Bytes) : Option GError → Reply
  | some error => .error (mafwDbusGerror error)
  | none => mafwDbusReply [.basic .string objectid]

def metadataSet (objectid : Bytes) (failedKeys : Option (List Bytes)) : Option GError → Reply
  | some error => mafwDbusReply [.basic .string objectid, .strvz failedKeys, .basic .string error.domain,
      .basic .int32 error.code, .basic .string error.message]
  | none => mafwDbusReply [.basic .string objectid, .strvz failedKeys]

end Wrapper

/-! ### The proxy -/

/-- `RequestReplyInfo`, with whether there is a callback. -/
structure RequestReplyInfo where
  objectid : Bytes
  cb : Bool

/-- A call of one of the client's callbacks. -/
inductive Call (μ : Type)
  | gotMetadata (objectid : Bytes) (metadata : Option μ) (error : Option GError)
  | gotMetadatas (metadatas : Option (Finmap fun _ : Bytes => Option μ)) (error : Option GError)
  | objectCreated (objectid : Option Bytes) (error : Option GError)
  | objectDestroyed (objectid : Bytes) (error : Option GError)
  | metadataSet (objectid : Option Bytes) (failedKeys : Option (List Bytes)) (error : Option GError)

namespace Proxy

/-- `mafw_dbus_parse` on a reply. -/
def mafwDbusParse (slots : List Slot) : Reply → Option (List Parsed)
  | .methodReturn none values => cleverParseValist slots values
  | _ => none

def mafwDbusCountArgs : Reply → Nat
  | .methodReturn metadatas values => metadatas.toList.length + values.length
  | .error dbe => dbe.message.toList.length

/-- `mafw_dbus_is_error`. `sourceError` is `MAFW_SOURCE_ERROR`, which errors of the bus get. -/
def mafwDbusIsError (notAvailable : Int32) (sourceError : Bytes) : Reply → Option (Option GError)
  | .methodReturn _ _ => some none
  | .error dbe => (mafwDbusErrorToGerror notAvailable sourceError dbe).map some

variable {μ : Type} (thaw : Bytes → Option μ) (notAvailable : Int32) (sourceError : Bytes)
  (info : RequestReplyInfo)

def gotMetadata (reply : Reply) : Option (List (Call μ)) := do
  match ← mafwDbusIsError notAvailable sourceError reply with
  | none =>
    match ← mafwDbusParse [.arg .gbytearray] reply with
    | [.arg (.gbytearray ba)] => some [.gotMetadata info.objectid (thaw ba) none]
    | _ => none
  | some error => some [.gotMetadata info.objectid none (some error)]

/-- The loop over the array. -/
def parseMetadatas : List (Bytes × Bytes) → (Finmap fun _ : Bytes => Option μ) → Finmap fun _ : Bytes => Option μ
  | [], metadatas => metadatas
  | (objectId, ba) :: elems, metadatas => parseMetadatas elems (metadatas.insert objectId (thaw ba))

def gotMetadatas (reply : Reply) : Option (List (Call μ)) := do
  match ← mafwDbusIsError notAvailable sourceError reply with
  | none =>
    match reply with
    | .methodReturn metadatas (.basic .string domain :: .basic .uint32 code :: .basic .string message :: _) =>
      some [.gotMetadatas (metadatas.map fun elems => parseMetadatas thaw elems ∅)
        (if domain ≠ [] then some { domain := domain, code := code.toInt32, message := message } else none)]
    | _ => none
  | some error => some [.gotMetadatas none (some error)]

def objectCreated (reply : Reply) : Option (List (Call μ)) := do
  match ← mafwDbusIsError notAvailable sourceError reply with
  | none =>
    match ← mafwDbusParse [.arg (.basic .string)] reply with
    | [.arg (.basic .string objectid)] => some (if info.cb then [.objectCreated (some objectid) none] else [])
    | _ => none
  | some error => some (if info.cb then [.objectCreated none (some error)] else [])

/-- It gives the callback the object id on error too. -/
def objectDestroyed (reply : Reply) : Option (List (Call μ)) := do
  let error ← mafwDbusIsError notAvailable sourceError reply
  return if info.cb then [.objectDestroyed info.objectid error] else []

def metadataSet (reply : Reply) : Option (List (Call μ)) := do
  match ← mafwDbusIsError notAvailable sourceError reply with
  | none =>
    if mafwDbusCountArgs reply = 2 then
      match ← mafwDbusParse [.arg (.basic .string), .arg (.array .string)] reply with
      | [.arg (.basic .string objectid), .arg (.array .string failedKeys)] =>
        some (if info.cb then [.metadataSet (some objectid) (some failedKeys) none] else [])
      | _ => none
    else
      match ← mafwDbusParse [.arg (.basic .string), .arg .strvz, .arg (.basic .string), .arg (.basic .int32),
        .arg (.basic .string)] reply with
      | [.arg (.basic .string objectid), .arg (.strvz failedKeys), .arg (.basic .string domain),
          .arg (.basic .int32 code), .arg (.basic .string message)] =>
        some (if info.cb then [.metadataSet (some objectid) failedKeys
          (some { domain := domain, code := code, message := message })] else [])
      | _ => none
  | some error => some (if info.cb then [.metadataSet none none (some error)] else [])

end Proxy

/-! ### A request and its reply -/

/-- What a source passes to the wrapper's callback for a request, the error apart. -/
inductive Result (μ : Type)
  | getMetadata (metadata : Option μ)
  | getMetadatas (metadatas : Option (AList fun _ : Bytes => Option μ))
  | createObject (objectid : Bytes)
  | destroyObject
  | setMetadata (failedKeys : Option (List Bytes))

/-- The reply that the wrapper sends; `objectid` is the object that the request is about. -/
def Result.reply {μ : Type} (freeze : Option μ → Bytes) (objectid : Bytes) : Result μ → Option GError → Reply
  | .getMetadata metadata => Wrapper.gotMetadata freeze metadata
  | .getMetadatas metadatas => Wrapper.gotMetadatas freeze metadatas
  | .createObject created => Wrapper.objectCreated created
  | .destroyObject => Wrapper.objectDestroyed objectid
  | .setMetadata failedKeys => Wrapper.metadataSet objectid failedKeys

/-- The function of the proxy that waits for the reply to such a request. -/
def Result.received {μ : Type} (thaw : Bytes → Option μ) (notAvailable : Int32) (sourceError : Bytes)
    (info : RequestReplyInfo) : Result μ → Reply → Option (List (Call μ))
  | .getMetadata _ => Proxy.gotMetadata thaw notAvailable sourceError info
  | .getMetadatas _ => Proxy.gotMetadatas thaw notAvailable sourceError
  | .createObject _ => Proxy.objectCreated notAvailable sourceError info
  | .destroyObject => Proxy.objectDestroyed notAvailable sourceError info
  | .setMetadata _ => Proxy.metadataSet notAvailable sourceError info

end MafwShared.MafwDbus.SourceReplies
