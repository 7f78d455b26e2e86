import MafwShared.Lib.CArray
import MafwShared.Lib.Stdio

/-!
# The in-core playlist

`aplaylist.c` function by function. Counters and indices are naturals. A size can wrap in
`maybe_realloc`, and a difference in `shuffle_elements`, when the pool starts behind the end
of the list: both have their 32-bit arithmetic written out. Elsewhere the source's mixture of
`gint` and `guint` never changes a value below 2^31 entries. `Draws` is the stream
`g_random_int_range` reads from, so that a statement about every stream is one about every
random choice.
-/

namespace MafwShared
open CLib

/-- An array based playlist. `vidx` holds the object ids. `pidx` says which item is
played at a position and `iidx` at which position an item is played. Positions below
`poolst` are committed, those from `poolst` to `len` are the pool. -/
structure Pls where
  id : Nat
  name : Bytes
  repeatMode : Int32
  shuffled : Int32
  useCount : Nat
  len : Nat
  alloc : Nat
  poolst : Nat
  vidx : Nat → Bytes
  pidx : Nat → Nat
  iidx : Nat → Nat
  dirty : Bool

/-- The values the random number generator will deliver. -/
abbrev Draws := Nat → Nat

/-- `g_random_int_range(begin, end)`. -/
def gRandomIntRange (r : Draws) (lo hi : Nat) : Nat × Draws :=
  (if lo < hi then lo + r 0 % (hi - lo) else lo, fun i => r (i + 1))

def iAmDirty (pls : Pls) : Pls := { pls with dirty := true }

def swapElements (pls : Pls) (index1 index2 : Nat) : Pls :=
  let tmp := pls.pidx index1
  let pidx := Function.update (Function.update pls.pidx index1 (pls.pidx index2)) index2 tmp
  { pls with
    pidx := pidx
    iidx := Function.update (Function.update pls.iidx (pidx index1) index1) (pidx index2) index2 }

/-- One turn of the loop in `shuffle_elements`. The source draws twice and uses the
second value. -/
def shuffleElement (s : Pls × Draws) : Pls × Draws :=
  let (_, r) := gRandomIntRange s.2 s.1.poolst s.1.len
  let (index, r) := gRandomIntRange r s.1.poolst s.1.len
  let pls := swapElements s.1 s.1.poolst index
  ({ pls with poolst := pls.poolst + 1 }, r)

/-- `a - b` of two `guint`. -/
def guintSub (a b : Nat) : Nat := if b ≤ a then a - b else a + 2 ^ 32 - b

lemma guintSub_of_le {a b : Nat} (h : b ≤ a) : guintSub a b = a - b := if_pos h

def shuffleElements (pls : Pls) (r : Draws) (amount : Nat) : Pls × Draws :=
  let amount := if amount > guintSub pls.len pls.poolst then guintSub pls.len pls.poolst else amount
  forUpto amount (fun _ s => shuffleElement s) (pls, r)

/-- `pls_set_name`; `initializing` is the flag the daemon sets while it loads its playlists. -/
def plsSetName (initializing : Bool) (pls : Pls) (name : Bytes) : Bool × Pls :=
  if name = [] then (false, pls)
  else
    let pls := { pls with name := name }
    (true, if initializing then pls else iAmDirty pls)

def plsNew (initializing : Bool) (id : Nat) (name : Bytes) : Option Pls :=
  if name = [] then none
  else
    let p : Pls :=
      { id := id, name := [], repeatMode := 0, shuffled := 0, useCount := 0, len := 0, alloc := 0,
        poolst := 0, vidx := nullArray, pidx := nullArray, iidx := nullArray, dirty := true }
    some (plsSetName initializing p name).2

def plsClear (pls : Pls) : Pls :=
  iAmDirty { pls with
    vidx := nullArray, pidx := nullArray, iidx := nullArray, len := 0, poolst := 0, alloc := 0 }

/-- `for (s = 16; s < wantsize; s <<= 1);` on a 32-bit `s`, cut off after `fuel` tests. -/
def doubleUntil (wantsize : Nat) : Nat → Nat → Option Nat
  | 0, _ => none
  | fuel + 1, s =>
    if s < wantsize then doubleUntil wantsize fuel (s * 2 % 2 ^ 32) else some s

/-- `maybe_realloc`, which is `none` when its assertion fails or its loop does not end.
The cells behind the old allocation keep whatever they held. -/
def maybeRealloc (pls : Pls) (wantToAdd : Nat) : Option Pls :=
  let wantsize := (pls.len + wantToAdd) % 2 ^ 32
  if pls.alloc < pls.len then none
  else if wantsize ≤ pls.alloc then some pls
  else (doubleUntil wantsize 33 16).map fun s => { pls with alloc := s }

/-- Playing indices from `idx` on move up by `len`, with their cells in `iidx`. -/
def raiseIndices (idx len : Nat) (pls : Pls) : Pls :=
  forUpto pls.len (fun i p =>
    if p.pidx i ≥ idx then
      let pidx := Function.update p.pidx i (p.pidx i + len)
      { p with pidx := pidx, iidx := Function.update p.iidx (pidx i) i }
    else p) pls

/-- The inserted items become the end of the pool. -/
def appendIndices (idx len : Nat) (pls : Pls) : Pls :=
  forUpto len (fun i p =>
    { p with
      pidx := Function.update p.pidx (p.len + i) (idx + i)
      iidx := Function.update p.iidx (idx + i) (p.len + i) }) pls

def plsInserts (pls : Pls) (idx : Nat) (oids : List Bytes) : Option (Bool × Pls) :=
  if oids = [] then some (false, pls)
  else if idx > pls.len then some (false, pls)
  else
    (maybeRealloc pls oids.length).map fun (pls : Pls) =>
      let len := oids.length
      let vidx := memmove pls.vidx (idx + len) idx (pls.len - idx)
      let vidx := forUpto len (fun i v => Function.update v (idx + i) (oids.getD i [])) vidx
      let pls : Pls := { pls with vidx := vidx }
      let pls := if pls.shuffled ≠ 0 then appendIndices idx len (raiseIndices idx len pls) else pls
      (true, iAmDirty { pls with len := (pls.len + len) % 2 ^ 32 })

def plsInsert (pls : Pls) (idx : Nat) (oid : Bytes) : Option (Bool × Pls) :=
  plsInserts pls idx [oid]

def plsAppends (pls : Pls) (oids : List Bytes) : Option (Bool × Pls) :=
  plsInserts pls pls.len oids

def plsAppend (pls : Pls) (oid : Bytes) : Option (Bool × Pls) :=
  plsInserts pls pls.len [oid]

/-- Playing indices above `idx` move down by one. -/
def lowerIndices (idx : Nat) (pls : Pls) : Pls :=
  forUpto pls.len (fun i p =>
    if p.pidx i > idx then { p with pidx := Function.update p.pidx i (p.pidx i - 1) } else p) pls

def rebuildIidx (n : Nat) (pls : Pls) : Pls :=
  forUpto n (fun i p => { p with iidx := Function.update p.iidx (p.pidx i) i }) pls

/-- The part of `pls_remove` that is for shuffled playlists. -/
def removeShuffled (pls : Pls) (idx : Nat) : Pls :=
  let opx := pls.iidx idx
  let pls := lowerIndices idx pls
  let pls :=
    if opx < pls.poolst then
      { pls with
        pidx := memmove pls.pidx opx (opx + 1) (pls.poolst - opx - 1)
        poolst := pls.poolst - 1 }
    else { pls with pidx := Function.update pls.pidx opx (pls.pidx (pls.len - 1)) }
  rebuildIidx (pls.len - 1) pls

def plsRemove (pls : Pls) (idx : Nat) : Bool × Pls :=
  if idx ≥ pls.len then (false, pls)
  else
    let pls : Pls := { pls with vidx := memmove pls.vidx idx (idx + 1) (pls.len - idx - 1) }
    let pls := if pls.shuffled ≠ 0 then removeShuffled pls idx else pls
    (true, iAmDirty { pls with len := pls.len - 1 })

def plsShuffle (pls : Pls) : Pls :=
  let pls :=
    if pls.shuffled = 0 then
      forUpto pls.len (fun i p =>
        { p with pidx := Function.update p.pidx i i, iidx := Function.update p.iidx i i })
        { pls with pidx := nullArray, iidx := nullArray }
    else pls
  iAmDirty { pls with shuffled := 1, poolst := 0 }

def plsUnshuffle (pls : Pls) : Pls :=
  if pls.shuffled ≠ 0 then
    iAmDirty { pls with shuffled := 0, pidx := nullArray, iidx := nullArray }
  else pls

def plsGetItem (pls : Pls) (idx : Nat) : Option Bytes :=
  if idx ≥ pls.len then none else some (pls.vidx idx)

def plsGetItems (pls : Pls) (fidx lidx : Nat) : Option (List Bytes) :=
  if fidx ≥ pls.len ∨ lidx < fidx then none
  else
    let lidx := if lidx > pls.len - 1 then pls.len - 1 else lidx
    some ((List.range (lidx + 1 - fidx)).map fun i => pls.vidx (fidx + i))

/-- What a navigation call works on: the playlist, the random number generator and the
caller's variables behind `index` and `oid`. -/
structure Nav where
  pls : Pls
  draws : Draws
  index : Nat
  oid : Option Bytes

/-- Point the caller's variables at item `i`. Behind `len` the source would copy a string that was freed;
on a well-formed playlist there is no such `i`. -/
def Nav.report (s : Nav) (i : Nat) : Nav := { s with index := i, oid := some (s.pls.vidx i) }

def Nav.shuffle (s : Nav) (amount : Nat) : Nav :=
  let (pls, draws) := shuffleElements s.pls s.draws amount
  { s with pls := pls, draws := draws }

/-- A played item that is still in the pool is put at its start and committed. -/
def Nav.commit (s : Nav) : Nav :=
  if s.pls.iidx s.index ≥ s.pls.poolst then
    let pls := swapElements s.pls s.pls.poolst (s.pls.iidx s.index)
    { s with pls := { pls with poolst := pls.poolst + 1 } }
  else s

def plsGetStarting (s : Nav) : Nav :=
  if s.pls.len ≠ 0 then
    if s.pls.shuffled = 0 then s.report 0
    else
      let s := if s.pls.poolst = 0 then s.shuffle 1 else s
      s.report (s.pls.pidx 0)
  else s

def plsGetLast (s : Nav) : Nav :=
  if s.pls.len ≠ 0 then
    if s.pls.shuffled = 0 then s.report (s.pls.len - 1)
    else
      let s := s.shuffle s.pls.len
      s.report (s.pls.pidx (s.pls.len - 1))
  else s

def plsGetNext (s : Nav) : Bool × Nav :=
  if s.index ≥ s.pls.len then (false, s)
  else if s.pls.shuffled = 0 then
    if s.index < s.pls.len - 1 then (true, s.report (s.index + 1))
    else if s.pls.repeatMode ≠ 0 then (true, s.report 0)
    else (false, s)
  else if s.pls.iidx s.index + 1 < s.pls.poolst then
    (true, s.report (s.pls.pidx (s.pls.iidx s.index + 1)))
  else
    let s := s.commit
    if s.pls.poolst < s.pls.len then
      let s := s.shuffle 1
      (true, s.report (s.pls.pidx (s.pls.poolst - 1)))
    else if s.pls.repeatMode ≠ 0 then (true, s.report (s.pls.pidx 0))
    else (false, s)

def plsGetPrev (s : Nav) : Bool × Nav :=
  if s.index ≥ s.pls.len then (false, s)
  else if s.pls.shuffled = 0 then
    if s.index > 0 then (true, s.report (s.index - 1))
    else if s.pls.repeatMode ≠ 0 then (true, s.report (s.pls.len - 1))
    else (false, s)
  else
    let s := s.commit
    if s.pls.iidx s.index > 0 then (true, s.report (s.pls.pidx (s.pls.iidx s.index - 1)))
    else if s.pls.repeatMode ≠ 0 then (true, plsGetLast s)
    else (false, s)

def plsIsShuffled (pls : Pls) : Int32 := pls.shuffled

def plsSetRepeat (pls : Pls) (repeatMode : Int32) : Pls :=
  iAmDirty { pls with repeatMode := repeatMode }

def plsSetUseCount (pls : Pls) (useCount : Nat) : Pls := iAmDirty { pls with useCount := useCount }

def plsMove (pls : Pls) (src dst : Nat) : Bool × Pls :=
  if src = dst then (true, pls)
  else if src ≥ pls.len ∨ dst ≥ pls.len then (false, pls)
  else
    let (mdest, msrc, mlen) :=
      if src < dst then (src, src + 1, dst - src) else (dst + 1, dst, src - dst)
    let aoid := pls.vidx src
    let vidx := memmove pls.vidx mdest msrc mlen
    (true, iAmDirty { pls with vidx := Function.update vidx dst aoid })

end MafwShared
