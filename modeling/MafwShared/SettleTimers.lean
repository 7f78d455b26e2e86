import MafwShared.Lib.Timeouts
import MafwShared.LoadPlaylists
import MafwShared.PlaylistManagerWrapper
import MafwShared.Proofs.WellFormed

/-!
# The settle timers of playlists

`i_am_dirty`, `ops_settled` and what calls them in `aplaylist.c`, with the timeout sources that
they start and remove. The other modules leave `dirty_timer` out; here each playlist has it
next to its other fields. A source's data is the playlist that its callback gets.
-/

namespace MafwShared
open CLib

/-- A playlist with its `dirty_timer`. -/
structure TimedPls where
  pls : Pls
  dirtyTimer : Nat

/-- How an event can end without returning. -/
inductive Halt
  /-- An assertion of `i_am_dirty` or `ops_settled`. -/
  | assertion
  | useAfterFree
  /-- `maybe_realloc` does not return. -/
  | noReturn
  | load (stop : LoadStop)
  deriving DecidableEq

/-- The playlists in memory, the sources of the main loop that are theirs, and the files. -/
structure TimerState where
  heap : Ptr → Option TimedPls
  /-- The next address `malloc` returns. -/
  brk : Ptr
  timeouts : Timeouts Ptr
  fs : FS
  draws : Draws

/-- The call gets to the `i_am_dirty` at the end of its function. -/
def PlsOp.CallsIAmDirty (p : Pls) : PlsOp → Prop
  | .inserts idx oids => oids ≠ [] ∧ idx ≤ p.len
  | .remove idx => idx < p.len
  | .move src dst => src ≠ dst ∧ src < p.len ∧ dst < p.len
  | .unshuffle => p.shuffled ≠ 0
  | .setName name => name ≠ []
  | .append _ | .clear | .shuffle | .setRepeat _ => True
  | .getStarting _ _ | .getLast _ _ | .getNext _ _ | .getPrev _ _ => False

instance (p : Pls) : (op : PlsOp) → Decidable (op.CallsIAmDirty p)
  | .inserts idx oids => inferInstanceAs (Decidable (oids ≠ [] ∧ idx ≤ p.len))
  | .remove idx => inferInstanceAs (Decidable (idx < p.len))
  | .move src dst => inferInstanceAs (Decidable (src ≠ dst ∧ src < p.len ∧ dst < p.len))
  | .unshuffle => inferInstanceAs (Decidable (p.shuffled ≠ 0))
  | .setName name => inferInstanceAs (Decidable (name ≠ []))
  | .append _ | .clear | .shuffle | .setRepeat _ => .isTrue trivial
  | .getStarting _ _ | .getLast _ _ | .getNext _ _ | .getPrev _ _ => .isFalse not_false

/-- `pls_load` up to its `maybe_realloc`: the playlist without entries, their number and the
rest of the file. -/
def loadHeader (f : Bytes) : Except LoadStop (Pls × Nat × Bytes) := do
  let (buf, f) ← readLine f
  let version ← convertVersion buf
  require (0 ≤ version)
  require (version = 1 ∨ version = 2)
  let (buf, f) ← readLine f
  let id ← convert buf .null
  require (0 ≤ id)
  let (name, f) ← readLine f
  let (buf, f) ← readLine f
  let repeatMode ← convert buf .unassigned
  let (buf, f) ← readLine f
  let shuffled ← convert buf .unassigned
  let (buf, f) ← readLine f
  let len ← convert buf .null
  require (0 ≤ len)
  let (poolst, f) ← loadPoolst version len f
  match plsNew true id.toNat name with
  | none => .error .nullDeref
  | some p =>
    let p := { p with
      repeatMode := Int32.ofInt repeatMode, shuffled := Int32.ofInt shuffled, poolst := poolst.toNat }
    match maybeRealloc p len.toNat with
    | none => .error .noReturn
    | some p => .ok (p, len.toNat, f)

namespace TimerState
variable (ids : IdSupply)

/-- The daemon at startup. -/
def init (fs : FS) (draws : Draws) : TimerState :=
  { heap := fun _ => none, brk := 0, timeouts := .empty, fs := fs, draws := draws }

def deref (s : TimerState) (p : Ptr) : Except Halt TimedPls :=
  match s.heap p with
  | none => .error .useAfterFree
  | some t => .ok t

def write (s : TimerState) (p : Ptr) (t : TimedPls) : TimerState :=
  { s with heap := Function.update s.heap p (some t) }

/-- A playlist that was allocated, with no timer. -/
def malloc (s : TimerState) (pls : Pls) : Ptr × TimerState :=
  (s.brk, { s with heap := Function.update s.heap s.brk (some ⟨pls, 0⟩), brk := s.brk + 1 })

/-- `if (dirty_timer) g_assert(g_source_remove(dirty_timer))`. -/
def assertRemove (s : TimerState) (dirtyTimer : Nat) : Except Halt TimerState :=
  if dirtyTimer = 0 then .ok s
  else
    let (found, timeouts) := s.timeouts.remove dirtyTimer
    if found then .ok { s with timeouts := timeouts } else .error .assertion

def iAmDirty (s : TimerState) (p : Ptr) : Except Halt TimerState := do
  let t ← s.deref p
  let s ← s.assertRemove t.dirtyTimer
  let (id, timeouts) := s.timeouts.add ids p
  .ok ({ s with timeouts := timeouts }.write p { pls := MafwShared.iAmDirty t.pls, dirtyTimer := id })

/-- `ops_settled`. The source that runs it is removed in it, so that its return value, which
asks for the same, does nothing. -/
def opsSettled (s : TimerState) (p : Ptr) (ensured : Bool) (calls : SaveCalls) (dir : Bytes) :
    Except Halt TimerState := do
  let t ← s.deref p
  if t.pls.dirty = false then .error .assertion
  else
    let s ← s.assertRemove t.dirtyTimer
    let (pls, fs) := saveMe ensured calls dir t.pls s.fs
    let s := { s with fs := fs }.write p { pls := pls, dirtyTimer := 0 }
    if pls.dirty then s.iAmDirty ids p else .ok s

/-- `pls_new` outside loading. -/
def plsNew (s : TimerState) (id : Nat) (name : Bytes) : Except Halt (Option Ptr × TimerState) :=
  match MafwShared.plsNew false id name with
  | none => .ok (none, s)
  | some pls => do
    let (p, s) := s.malloc pls
    let s ← s.iAmDirty ids p
    .ok (some p, s)

/-- A playlist operation outside loading. -/
def call (s : TimerState) (p : Ptr) (op : PlsOp) : Except Halt TimerState := do
  let t ← s.deref p
  match op.apply (t.pls, s.draws) with
  | none => .error .noReturn
  | some (pls, draws) =>
    let s := { s with draws := draws }.write p { t with pls := pls }
    if op.CallsIAmDirty t.pls then s.iAmDirty ids p else .ok s

def plsSetUseCount (s : TimerState) (p : Ptr) (useCount : Nat) : Except Halt TimerState := do
  let t ← s.deref p
  (s.write p { t with pls := MafwShared.plsSetUseCount t.pls useCount }).iAmDirty ids p

/-- `pls_free`, which starts a timer when it clears the playlist. -/
def plsFree (s : TimerState) (p : Ptr) : Except Halt TimerState := do
  let s ← s.call ids p .clear
  let t ← s.deref p
  let s := if t.dirtyTimer ≠ 0 then { s with timeouts := (s.timeouts.remove t.dirtyTimer).2 } else s
  .ok { s with heap := Function.update s.heap p none }

/-- `pls_load` in `load_playlists`. A playlist with an entry that cannot be read is freed. -/
def plsLoad (s : TimerState) (f : Bytes) : Except Halt TimerState :=
  match loadHeader f with
  | .error .null | .error .unassigned => .ok s
  | .error stop => .error (.load stop)
  | .ok (pls, len, f) =>
    let (p, s) := s.malloc pls
    match loadEntries len len 0 pls f with
    | .ok pls => .ok (s.write p ⟨pls, 0⟩)
    | .error .null | .error .unassigned => s.plsFree ids p
    | .error stop => .error (.load stop)

/-- `duplicate_playlist` on a playlist that it has found. -/
def duplicatePlaylist (s : TimerState) (src : Ptr) (id : Nat) (newName : Bytes) : Except Halt TimerState := do
  let t ← s.deref src
  match ← s.plsNew ids id newName with
  | (none, s) => .ok s
  | (some p, s) =>
    let new ← s.deref p
    -- `pls_set_repeat` is the last of the assignments
    (s.write p { new with pls := duplicateFields new.pls t.pls }).iAmDirty ids p

end TimerState

inductive TimerEvent
  | create (id : Nat) (name : Bytes)
  | load (f : Bytes)
  | duplicate (src : Ptr) (id : Nat) (newName : Bytes)
  | call (p : Ptr) (op : PlsOp)
  | setUseCount (p : Ptr) (useCount : Nat)
  /-- The main loop dispatches the source with the given id, when it is pending. -/
  | expire (id : Nat) (ensured : Bool) (calls : SaveCalls)
  | free (p : Ptr)

def TimerState.handle (ids : IdSupply) (dir : Bytes) (s : TimerState) : TimerEvent → Except Halt TimerState
  | .create id name => (s.plsNew ids id name).map Prod.snd
  | .load f => s.plsLoad ids f
  | .duplicate src id newName => s.duplicatePlaylist ids src id newName
  | .call p op => s.call ids p op
  | .setUseCount p useCount => s.plsSetUseCount ids p useCount
  | .expire id ensured calls =>
    match s.timeouts.pending id with
    | none => .ok s
    | some p => s.opsSettled ids p ensured calls dir
  | .free p => s.plsFree ids p

end MafwShared
