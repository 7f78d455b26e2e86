import MafwShared.Lib.Stdio

/-!
# Argument marshalling of mafw-dbus

A message is the sequence of typed values that were appended to it, and an iterator over it
is what is left of that sequence, its head being the value the iterator stands on. Appending
is taken to succeed. A parse that returns `none` makes `mafw_dbus_parse` abort.
-/

namespace MafwShared.MafwDbus
open CLib

/-- The basic types that both dispatchers have a case for. -/
inductive DBusType
  | byte
  | boolean
  | int16
  | uint16
  | int32
  | uint32
  | int64
  | uint64
  | double
  | string
  | objectPath
  | signature
  deriving DecidableEq

/-- The member of `DBusBasicValue` that holds a value of the type. A double is carried as
its 64 bits. -/
abbrev DBusType.Val : DBusType → Type
  | .byte => UInt8
  | .boolean => Bool
  | .int16 => Int16
  | .uint16 => UInt16
  | .int32 => Int32
  | .uint32 => UInt32
  | .int64 => Int64
  | .uint64 => UInt64
  | .double => UInt64
  | .string => Bytes
  | .objectPath => Bytes
  | .signature => Bytes

/-- One value of a message. -/
inductive Value
  | basic (t : DBusType) (v : t.Val)
  | array (etype : DBusType) (elems : List etype.Val)
  | variant (t : DBusType) (v : t.Val)

/-- A `GValue` of a type that `clever_append_gvalue` supports. -/
inductive GValue
  | char (v : Int8)
  | boolean (v : Bool)
  | int (v : Int32)
  | uint (v : UInt32)
  | int64 (v : Int64)
  | uint64 (v : UInt64)
  | double (v : UInt64)
  | string (v : Bytes)
  deriving DecidableEq

structure GValueArray where
  nValues : UInt32
  values : List GValue
  length_values : values.length = nValues.toNat
  deriving DecidableEq

/-- One argument of `mafw_dbus_msg`. -/
inductive Arg
  | basic (t : DBusType) (v : t.Val)
  /-- `none` is the `NULL` vector. -/
  | strvz (v : Option (List Bytes))
  | gbytearray (ba : List UInt8)
  | gvalue (gval : GValue)
  | gvaluearray (varr : GValueArray)
  | array (etype : DBusType) (values : List etype.Val)

/-- What stands in front of an argument in the calls. -/
inductive ArgType
  | basic (t : DBusType)
  | strvz
  | gbytearray
  | gvalue
  | gvaluearray
  | array (etype : DBusType)
  deriving DecidableEq

def Arg.type : Arg → ArgType
  | .basic t _ => .basic t
  | .strvz _ => .strvz
  | .gbytearray _ => .gbytearray
  | .gvalue _ => .gvalue
  | .gvaluearray _ => .gvaluearray
  | .array etype _ => .array etype

/-! ### Building a message -/

def cleverAppendGvalue : GValue → Value
  | .char v => .variant .byte v.toUInt8
  | .boolean v => .variant .boolean v
  | .int v => .variant .int32 v
  | .uint v => .variant .uint32 v
  | .int64 v => .variant .int64 v
  | .uint64 v => .variant .uint64 v
  | .double v => .variant .double v
  | .string v => .variant .string v

/-- The values that `clever_append_more_valist` appends for one argument. -/
def cleverAppendArg : Arg → List Value
  | .basic t v => [.basic t v]
  | .strvz v => [.array .string (v.getD [])]
  | .gbytearray ba => [.array .byte ba]
  | .gvalue gval => [cleverAppendGvalue gval]
  | .gvaluearray varr => .basic .uint32 varr.nValues :: varr.values.map cleverAppendGvalue
  | .array etype values => [.array etype values]

def cleverAppendValist (args : List Arg) : List Value :=
  args.flatMap cleverAppendArg

/-! ### Parsing a message -/

/-- A `DBusMessageIter`. -/
abbrev Iter := List Value

/-- `dbus_message_iter_next`. On the last value it moves to the end and returns `FALSE`. -/
def iterNext : Iter → Bool × Iter
  | _ :: v :: rest => (true, v :: rest)
  | _ => (false, [])

/-- The elements of an array of strings, signatures or object paths. -/
def stringElems : (etype : DBusType) → List etype.Val → Option (List Bytes)
  | .string, elems => some elems
  | .signature, elems => some elems
  | .objectPath, elems => some elems
  | _, _ => none

/-- `dbus_message_iter_get_element_type` returns `DBUS_TYPE_INVALID` off an array, which
`clever_parse_strvz` takes for an empty one. -/
def cleverParseStrvz : Iter → Option (Option (List Bytes))
  | .array etype elems :: _ => (stringElems etype elems).map some
  | _ => some none

def cleverParseGbytearray : Iter → Option (List UInt8)
  | .array .byte elems :: _ => some elems
  | _ => none

def cleverParseGvalue : Iter → Option GValue
  | .variant .byte v :: _ => some (.char v.toInt8)
  | .variant .boolean v :: _ => some (.boolean v)
  | .variant .int32 v :: _ => some (.int v)
  | .variant .uint32 v :: _ => some (.uint v)
  | .variant .int64 v :: _ => some (.int64 v)
  | .variant .uint64 v :: _ => some (.uint64 v)
  | .variant .double v :: _ => some (.double v)
  | .variant .string v :: _ => some (.string v)
  | _ => none

def cleverParseBasic (argT : DBusType) : Iter → Option Arg
  | .basic t v :: _ => if t = argT then some (.basic t v) else none
  | _ => none

def cleverParseArray (extype : DBusType) : Iter → Option Arg
  | .array eltype elems :: _ => if eltype = extype then some (.array eltype elems) else none
  | _ => none

/-- The loop of `clever_parse_gvaluearray`. The iterator moves on between two values but not
after the last. -/
def cleverParseGvalues :
    (nelem : Nat) → Iter → Option ({ l : List GValue // l.length = nelem } × Iter)
  | 0, it => some (⟨[], rfl⟩, it)
  | nelem + 1, it =>
    match cleverParseGvalue it with
    | none => none
    | some v =>
      if nelem > 0 ∧ (iterNext it).1 = false then none
      else
        (cleverParseGvalues nelem (if nelem > 0 then (iterNext it).2 else it)).map fun r =>
          (⟨v :: r.1.1, by simp [r.1.2]⟩, r.2)

def cleverParseGvaluearray : Iter → Option (GValueArray × Iter)
  | .basic .uint32 nelem :: rest =>
    let (more, it) := iterNext (.basic .uint32 nelem :: rest)
    -- the count of an empty array may be the last value of the message
    if more then
      (cleverParseGvalues nelem.toNat it).map fun r => (⟨nelem, r.1.1, r.1.2⟩, r.2)
    else none
  | _ => none

/-- One argument, and the iterator where the parser of its type leaves it. -/
def cleverParseArg (t : ArgType) (it : Iter) : Option (Arg × Iter) :=
  match t with
  | .basic argT => (cleverParseBasic argT it).map (·, it)
  | .strvz => (cleverParseStrvz it).map (.strvz ·, it)
  | .gbytearray => (cleverParseGbytearray it).map (.gbytearray ·, it)
  | .gvalue => (cleverParseGvalue it).map (.gvalue ·, it)
  | .gvaluearray => (cleverParseGvaluearray it).map fun r => (.gvaluearray r.1, r.2)
  | .array extype => (cleverParseArray extype it).map (·, it)

/-- What `mafw_dbus_parse` can be asked for. -/
inductive Slot
  | arg (t : ArgType)
  | savepoint
  | ignore

inductive Parsed
  | arg (a : Arg)
  | savepoint (it : Iter)

def cleverParseValist : List Slot → Iter → Option (List Parsed)
  | [], _ => some []
  | .savepoint :: slots, it => (cleverParseValist slots it).map (.savepoint it :: ·)
  -- "Message ends prematurely"
  | _ :: _, [] => none
  | .ignore :: slots, it => cleverParseValist slots (iterNext it).2
  | .arg t :: slots, it => do
    let (a, it') ← cleverParseArg t it
    let out ← cleverParseValist slots (iterNext it').2
    return .arg a :: out

/-! ### Errors -/

/-- A `GError`, with the name of its domain. -/
structure GError where
  domain : Bytes
  code : Int32
  message : Bytes
  deriving DecidableEq

/-- A `DBusError` that is set. -/
structure DBusError where
  name : Bytes
  message : Option Bytes
  deriving DecidableEq

/-- `"com.nokia.mafw"`. -/
def mafwErrorName : Bytes := [99, 111, 109, 46, 110, 111, 107, 105, 97, 46, 109, 97, 102, 119]

/-- `"org.freedesktop.DBus."`. -/
def dbusErrorPrefix : Bytes :=
  [111, 114, 103, 46, 102, 114, 101, 101, 100, 101, 115, 107, 116, 111, 112, 46, 68, 66, 117, 115, 46]

/-- `mafw_dbus_error`: name and text of the error message, `"%s:%u:%s"`. -/
def mafwDbusError (domain : Bytes) (code : Int32) (message : Bytes) : DBusError :=
  { name := mafwErrorName
    message := some (domain ++ 58 :: (decimal code.toUInt32.toNat ++ 58 :: message)) }

def mafwDbusGerror (error : GError) : DBusError := mafwDbusError error.domain error.code error.message

/-- `mafw_dbus_error_to_gerror`, where `none` is a store through the `NULL` of a `strchr` or the
assertion. `notAvailable` is `MAFW_EXTENSION_ERROR_EXTENSION_NOT_AVAILABLE`. -/
def mafwDbusErrorToGerror (notAvailable : Int32) (domain : Bytes) (dbe : DBusError) : Option GError :=
  if dbusErrorPrefix.isPrefixOf dbe.name then
    some { domain := domain, code := notAvailable, message := dbe.message.getD dbe.name }
  else do
    let message ← dbe.message
    let (domain, codestr) ← cutAt 58 message
    let (codestr, msg) ← cutAt 58 codestr
    let (code, _) ← scanUnsigned codestr
    return { domain := domain, code := (UInt32.ofNat code).toInt32, message := msg }

end MafwShared.MafwDbus
