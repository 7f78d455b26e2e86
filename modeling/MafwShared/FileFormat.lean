import MafwShared.PlaylistFile
import MafwShared.Proofs.PlayOrder

/-!
# The documented file format

The format comment above `pls_save` names the fields of a file line by line. Here a file
is the list of lines that reading it delivers. `Documented` is the comment's grammar with
the playlist that such a file describes, `InOrder` what `pls_load` checks of one line, and
`WithinFormat` what has to hold beyond these checks for a load to be what the comment says.
-/

namespace MafwShared
open CLib

/-! ### Lines and fields -/

/-- The lines that are read, at most `n`, and what ends the reading. -/
def textLines : Nat → Bytes → List Bytes × LoadStop
  | 0, _ => ([], .null)
  | n + 1, f =>
    match readLine f with
    | .error stop => ([], stop)
    | .ok (l, rest) => (l :: (textLines n rest).1, (textLines n rest).2)

/-- All lines of a file. Each takes a byte at least. -/
def linesOf (f : Bytes) : List Bytes := (textLines f.length f).1

/-- What comes behind the last line: the end of the file, or a line that starts with a NUL. -/
def endOf (f : Bytes) : LoadStop := (textLines f.length f).2

/-- The integer on a line. -/
def numberOn (lines : List Bytes) (i : Nat) : Option Int := (lines[i]?.bind scanInt).map Prod.fst

/-- The integer behind the `V` of the first line. -/
def versionOf (lines : List Bytes) : Option Int :=
  ((lines[0]?.bind (scanChar 86)).bind scanInt).map Prod.fst

def headerSize (lines : List Bytes) : Nat := if versionOf lines = some 1 then 6 else 7

/-- The number of item lines that the header announces. -/
def lengthOf (lines : List Bytes) : Nat := ((numberOn lines 5).getD 0).toNat

/-- The pool start, the length where version 1 has none. -/
def poolStartOf (lines : List Bytes) : Option Int :=
  if versionOf lines = some 1 then numberOn lines 5 else numberOn lines 6

/-- Playing index and object id of an item. -/
def itemOf (lines : List Bytes) (i : Nat) : Option (Nat × Bytes) :=
  lines[headerSize lines + i]?.bind scanItem

/-- The playlist has the fields and the items that stand in the file. -/
structure Describes (lines : List Bytes) (p : Pls) : Prop where
  id_eq : numberOn lines 1 = some (p.id : Int)
  name_eq : lines[2]? = some p.name
  repeat_eq : numberOn lines 3 = some p.repeatMode.toInt
  shuffled_eq : numberOn lines 4 = some p.shuffled.toInt
  len_eq : numberOn lines 5 = some (p.len : Int)
  poolst_eq : poolStartOf lines = some (p.poolst : Int)
  item_eq : ∀ i < p.len, ∃ pidx < p.len, itemOf lines i = some (pidx, p.vidx i) ∧
    (p.shuffled ≠ 0 → p.pidx i = pidx)

/-- The file obeys the format comment and the playlist is the one that it describes. -/
structure Documented (lines : List Bytes) (p : Pls) : Prop extends Describes lines p where
  version : versionOf lines = some 1 ∨ versionOf lines = some 2
  id_pos : 0 < p.id
  name_ne : p.name ≠ []
  repeat_bit : p.repeatMode = 0 ∨ p.repeatMode = 1
  shuffled_bit : p.shuffled = 0 ∨ p.shuffled = 1
  poolst_le : p.shuffled ≠ 0 → p.poolst ≤ p.len

/-- A playlist that is returned is well formed and comes from a documented file; on every
other file `pls_load` returns `NULL`. -/
def LoadsDocumented (f : Bytes) : Prop :=
  match loadText f with
  | .ok p => Documented (linesOf f) p ∧ p.WF
  | .error stop => stop = .null ∨ stop = .unassigned

/-! ### What is checked -/

/-- A line passes the checks that `pls_load` makes on it. -/
def InOrder (lines : List Bytes) : Nat → Prop
  | 0 => versionOf lines = some 1 ∨ versionOf lines = some 2
  | 1 => ∃ id, numberOn lines 1 = some id ∧ 0 ≤ id
  | 2 => True
  | 3 => (numberOn lines 3).isSome
  | 4 => (numberOn lines 4).isSome
  | 5 => ∃ len, numberOn lines 5 = some len ∧ 0 ≤ len
  | i + 6 =>
    if i + 6 < headerSize lines then ∃ poolst, numberOn lines 6 = some poolst ∧ 0 ≤ poolst
    else ∃ pidx oid, itemOf lines (i + 6 - headerSize lines) = some (pidx, oid) ∧ pidx < lengthOf lines

def HeaderInOrder (lines : List Bytes) : Prop := ∀ i < headerSize lines, InOrder lines i

def FileInOrder (lines : List Bytes) : Prop := ∀ i < headerSize lines + lengthOf lines, InOrder lines i

/-- Every line there is passes its checks, and some are missing. -/
def CutShort (lines : List Bytes) : Prop := (∀ i < lines.length, InOrder lines i) ∧ ¬ FileInOrder lines

/-- The files on which the checks of `pls_load` are enough. -/
structure WithinFormat (f : Bytes) : Prop where
  no_nul : CutShort (linesOf f) → endOf f ≠ .outOfBounds
  name_ne : HeaderInOrder (linesOf f) → (linesOf f)[2]? ≠ some []
  id_ne : FileInOrder (linesOf f) → numberOn (linesOf f) 1 ≠ some 0
  repeat_bit : FileInOrder (linesOf f) → numberOn (linesOf f) 3 = some 0 ∨ numberOn (linesOf f) 3 = some 1
  shuffled_bit : FileInOrder (linesOf f) → numberOn (linesOf f) 4 = some 0 ∨ numberOn (linesOf f) 4 = some 1
  poolst_le : FileInOrder (linesOf f) → numberOn (linesOf f) 4 ≠ some 0 →
    ∀ poolst, poolStartOf (linesOf f) = some poolst → poolst ≤ lengthOf (linesOf f)
  distinct : FileInOrder (linesOf f) → numberOn (linesOf f) 4 ≠ some 0 → ∀ j < lengthOf (linesOf f), ∀ i < j,
    (itemOf (linesOf f) i).map Prod.fst ≠ (itemOf (linesOf f) j).map Prod.fst

end MafwShared
