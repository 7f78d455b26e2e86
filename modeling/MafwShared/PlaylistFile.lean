import MafwShared.Aplaylist

/-!
# Playlist files

`pls_save` and `pls_load`. A file system maps path names to what is found there. How the
C library calls of a save turn out is a parameter, so that a save can fail at every one
of them. Loading ends in a playlist or in a `LoadStop`, which keeps the ways of returning
`NULL` apart from running into undefined behaviour.
-/

namespace MafwShared
open CLib

inductive Node
  | regular (content : Bytes)
  | other

abbrev FS := Bytes → Option Node

/-! ### Writing -/

/-- `".tmp"`. -/
def tmpSuffix : Bytes := [46, 116, 109, 112]

/-- The lines of the header: `V2`, id, name, repeat, shuffled, length and pool start. -/
def headerLines (pls : Pls) : List Bytes :=
  [[86, 50], decimal pls.id, pls.name, decimalInt pls.repeatMode.toInt,
    decimalInt pls.shuffled.toInt, decimal pls.len, decimal pls.poolst]

/-- The playing index written for an item. -/
def playingIndex (pls : Pls) (i : Nat) : Nat := if pls.shuffled ≠ 0 then pls.pidx i else i

/-- `%u,%s` of an item. -/
def itemLine (pls : Pls) (i : Nat) : Bytes := decimal (playingIndex pls i) ++ 44 :: pls.vidx i

def fileLines (pls : Pls) : List Bytes :=
  headerLines pls ++ (List.range pls.len).map (itemLine pls)

/-- Lines as they stand in a file, each with its newline. -/
def joinLines (lines : List Bytes) : Bytes := lines.flatMap fun l => l ++ [10]

/-- The whole file that `pls_save` writes. -/
def fileText (pls : Pls) : Bytes := joinLines (fileLines pls)

/-- How the calls of a save turn out. A failed write leaves so many bytes of the text on
the disk. `fprintf` number 0 prints the header, number `i + 1` item `i`. -/
structure SaveCalls where
  fopen : Bool
  fprintf : Nat → Option Nat
  fflush : Option Nat
  fsync : Bool
  fclose : Option Nat
  rename : Bool
  unlink : Bool

/-- Every call succeeds. -/
def SaveCalls.succeed : SaveCalls :=
  { fopen := true, fprintf := fun _ => none, fflush := none, fsync := true, fclose := none,
    rename := true, unlink := true }

/-- The first `fprintf` that fails, if one does. -/
def SaveCalls.failedPrint (c : SaveCalls) (pls : Pls) : Option Nat :=
  (List.range (pls.len + 1)).findSome? c.fprintf

/-- What the flush of the complete text leaves on the disk. -/
def SaveCalls.flushed (c : SaveCalls) (pls : Pls) : Bytes :=
  match c.fflush with
  | none => fileText pls
  | some k => (fileText pls).take k

def FS.store (fs : FS) (path : Bytes) (node : Option Node) : FS := Function.update fs path node

def FS.move (fs : FS) (src dst : Bytes) : FS := (fs.store dst (fs src)).store src none

/-- Label `out2` with `tmpok` unset. -/
def FS.dropTmp (fs : FS) (c : SaveCalls) (tmpf : Bytes) : FS :=
  if c.unlink then fs.store tmpf none else fs

/-- `pls_save`. The results of `fflush` and `fsync` are not looked at; after a failed
flush the buffer is empty, so that `fclose` has nothing left to write. -/
def plsSave (c : SaveCalls) (pls : Pls) (fn : Bytes) (fs : FS) : Bool × FS :=
  let tmpf := fn ++ tmpSuffix
  if c.fopen = false then (false, fs)
  else
    match c.failedPrint pls with
    | some k => (false, (fs.store tmpf (some (.regular ((fileText pls).take k)))).dropTmp c tmpf)
    | none =>
      let fs := fs.store tmpf (some (.regular (c.flushed pls)))
      if c.fclose.isSome then (false, fs.dropTmp c tmpf)
      else if c.rename = false then (false, fs)
      else (true, fs.move tmpf fn)

/-! ### Reading -/

/-- How `pls_load` can end without a playlist. -/
inductive LoadStop
  /-- It returns `NULL`. -/
  | null
  /-- It returns `NULL` after it compared a variable that no conversion had assigned. -/
  | unassigned
  /-- It stores through the `NULL` that `pls_new` returned. -/
  | nullDeref
  /-- It accesses an array outside its bounds. -/
  | outOfBounds
  /-- `maybe_realloc` does not return. -/
  | noReturn
  deriving DecidableEq

/-- `fgetsnl` on the 2049 byte buffer. On a line that starts with a NUL the source looks
at `b[-1]`. -/
def fgetsnl (f : Bytes) : Except LoadStop (Option (Bytes × Bytes)) :=
  match fgets 2049 f with
  | none => .ok none
  | some (b, rest) =>
    let s := cstring b
    if s = [] then .error .outOfBounds
    else .ok (some (if s.getLast? = some 10 then s.dropLast else s, rest))

/-- A line that must be there. -/
def readLine (f : Bytes) : Except LoadStop (Bytes × Bytes) := do
  match ← fgetsnl f with
  | none => .error .null
  | some r => .ok r

/-- `sscanf(buf, "%d", &x)`, followed by the given `goto` when it does not convert. -/
def convert (buf : Bytes) (stop : LoadStop) : Except LoadStop Int :=
  match scanInt buf with
  | none => .error stop
  | some (x, _) => .ok x

/-- `sscanf(buf, "V%d", &version)`. -/
def convertVersion (buf : Bytes) : Except LoadStop Int :=
  match scanChar 86 buf with
  | none => .error .null
  | some rest => convert rest .null

/-- `sscanf(buf, "%u,%ms[^\n]", &pidx, &oid)`: both conversions, or nothing. What follows
`%ms` in the format is matched literally and does not change the count. -/
def scanItem (buf : Bytes) : Option (Nat × Bytes) :=
  (scanUnsigned buf).bind fun (pidx, rest) =>
    (scanChar 44 rest).bind fun rest => (scanWord rest).map fun (oid, _) => (pidx, oid)

def require (ok : Bool) : Except LoadStop Unit := if ok then .ok () else .error .null

/-- A store into an array with `size` cells. -/
def storeCell {α : Type} (size : Nat) (a : Nat → α) (i : Nat) (x : α) : Except LoadStop (Nat → α) :=
  if i < size then .ok (Function.update a i x) else .error .outOfBounds

/-- The entries of a file, `n` of which are still to be read. -/
def loadEntries (len : Nat) : Nat → Nat → Pls → Bytes → Except LoadStop Pls
  | 0, i, p, _ => .ok { p with len := i }
  | n + 1, i, p, f => do
    let (buf, f) ← readLine f
    match scanItem buf with
    | none => .error .null
    | some (pidx, oid) =>
      require (pidx < len)
      let vidx ← storeCell p.alloc p.vidx i oid
      if p.shuffled ≠ 0 then
        let order ← storeCell p.alloc p.pidx i pidx
        let iidx ← storeCell p.alloc p.iidx pidx i
        loadEntries len n (i + 1) { p with vidx := vidx, pidx := order, iidx := iidx } f
      else loadEntries len n (i + 1) { p with vidx := vidx } f

/-- The pool start, which version 1 does not have. -/
def loadPoolst (version len : Int) (f : Bytes) : Except LoadStop (Int × Bytes) :=
  if version = 2 then do
    let (buf, f) ← readLine f
    let poolst ← convert buf .null
    require (0 ≤ poolst)
    .ok (poolst, f)
  else .ok (len, f)

/-- `pls_load` on the content of an opened file. -/
def loadText (f : Bytes) : Except LoadStop Pls := do
  let (buf, f) ← readLine f
  let version ← convertVersion buf
  require (0 ≤ version)
  require (version = 1 ∨ version = 2)
  let (buf, f) ← readLine f
  let id ← convert buf .null
  require (0 ≤ id)
  let (name, f) ← readLine f
  let (buf, f) ← readLine f
  let repeatMode ← convert buf .unassigned
  let (buf, f) ← readLine f
  let shuffled ← convert buf .unassigned
  let (buf, f) ← readLine f
  let len ← convert buf .null
  require (0 ≤ len)
  let (poolst, f) ← loadPoolst version len f
  match plsNew true id.toNat name with
  | none => .error .nullDeref
  | some p =>
    let p := { p with
      repeatMode := Int32.ofInt repeatMode, shuffled := Int32.ofInt shuffled, poolst := poolst.toNat }
    match maybeRealloc p len.toNat with
    | none => .error .noReturn
    | some p => loadEntries len.toNat len.toNat 0 p f

/-- `pls_load`. Reading a directory fails at the first `fgets`. -/
def plsLoad (fs : FS) (fn : Bytes) : Except LoadStop Pls :=
  match fs fn with
  | none => .error .null
  | some .other => .error .null
  | some (.regular content) => loadText content

end MafwShared
