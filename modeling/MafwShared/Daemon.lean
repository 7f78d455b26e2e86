import MafwShared.Aplaylist
import MafwShared.Messages
import Mathlib.Data.List.AList

/-!
# The playlist daemon's global state

Playlists live on a heap and are shared by pointer: the tree `Playlists` owns them, the
tree `Playlists_by_name` and the lists of use count holders point to them as well. A
freed address is not given out again, so that a pointer left behind is one whose cell is
empty. A `GTree` or `GHashTable` is an association list with distinct keys.
-/

namespace MafwShared
open CLib

abbrev Ptr := Nat

/-- How a handler can end without returning. -/
inductive Crash
  | assertion
  | nullDeref
  | useAfterFree
  /-- A loop of `maybe_realloc` or `import_done` does not end. -/
  | noReturn
  deriving DecidableEq

structure Daemon where
  heap : Ptr → Option Pls
  /-- The next address `malloc` returns. -/
  brk : Ptr
  playlists : AList (fun _ : Nat => Ptr)
  playlistsByName : AList (fun _ : Bytes => Ptr)
  lastId : Nat
  usecountHolders : AList (fun _ : Client => List Ptr)
  draws : Draws

/-- The daemon at startup, before it loads its playlists. -/
def Daemon.init : Daemon :=
  { heap := fun _ => none, brk := 0, playlists := ∅, playlistsByName := ∅, lastId := 1,
    usecountHolders := ∅, draws := fun _ => 0 }

namespace Daemon

def deref (d : Daemon) (p : Ptr) : Except Crash Pls :=
  match d.heap p with
  | none => .error .useAfterFree
  | some pls => .ok pls

/-- The playlist with an id. -/
def playlistOf (d : Daemon) (id : Nat) : Option Pls := (d.playlists.lookup id).bind d.heap

/-- A write through a pointer to a live playlist. -/
def write (d : Daemon) (p : Ptr) (pls : Pls) : Daemon :=
  { d with heap := Function.update d.heap p (some pls) }

def free (d : Daemon) (p : Ptr) : Daemon := { d with heap := Function.update d.heap p none }

/-- A playlist that `pls_new` has allocated. -/
def malloc (d : Daemon) (pls : Pls) : Ptr × Daemon :=
  (d.brk, { d with heap := Function.update d.heap d.brk (some pls), brk := d.brk + 1 })

/-- `Last_id++`. -/
def nextId (d : Daemon) : Nat × Daemon := (d.lastId, { d with lastId := (d.lastId + 1) % 2 ^ 32 })

/-- `g_tree_insert(Playlists, id, pls)`, which frees a playlist that it replaces. -/
def insertPlaylist (d : Daemon) (id : Nat) (p : Ptr) : Daemon :=
  let d := match d.playlists.lookup id with
    | none => d
    | some old => d.free old
  { d with playlists := d.playlists.insert id p }

/-- `g_tree_remove(Playlists, id)`. -/
def removePlaylist (d : Daemon) (id : Nat) : Bool × Daemon :=
  match d.playlists.lookup id with
  | none => (false, d)
  | some p => (true, { d.free p with playlists := d.playlists.erase id })

/-- `g_tree_insert(Playlists_by_name, name, pls)`. -/
def insertName (d : Daemon) (name : Bytes) (p : Ptr) : Daemon :=
  { d with playlistsByName := d.playlistsByName.insert name p }

/-- `g_tree_remove(Playlists_by_name, name)`. -/
def removeName (d : Daemon) (name : Bytes) : Bool × Daemon :=
  ((d.playlistsByName.lookup name).isSome, { d with playlistsByName := d.playlistsByName.erase name })

end Daemon

end MafwShared
