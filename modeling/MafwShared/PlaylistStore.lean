import MafwShared.LoadPlaylists
import MafwShared.PlaylistManagerWrapper

/-!
# The daemon and its directory

The daemon of the other modules together with the files it keeps. It handles requests, saves
a playlist when its edits have settled, saves all of them when it exits and loads them when
it starts again. A store remembers the ids that `Playlists` held when the daemon exited.
-/

namespace MafwShared
open CLib

inductive Phase
  | running (d : Daemon)
  | exited (ids : List Nat)

structure Store where
  phase : Phase
  fs : FS

/-- `destroy_playlist` finds the playlist, and nobody uses it. -/
def Daemon.unlinks (d : Daemon) (id : Nat) : Bool :=
  ((d.playlists.lookup id).bind d.heap).elim false fun pls => pls.useCount = 0

/-- What a request does to the directory: `g_unlink` in `destroy_playlist`. -/
def unlinkDestroyed (dir : Bytes) (d : Daemon) (fs : FS) : DaemonEvent → FS
  | .destroy _ id => if d.unlinks id then fs.unlink (playlistPath dir id) else fs
  | _ => fs

/-- `save_all_playlists`; `calls` says how the calls turn out for each id. -/
def Daemon.saveAllPlaylists (d : Daemon) (dir : Bytes) (calls : Nat → SaveCalls) (fs : FS) : FS :=
  d.playlists.entries.foldl
    (fun fs e => (d.heap e.2).elim fs fun pls => (saveMe true (calls e.1) dir pls fs).2) fs

inductive StoreEvent
  | request (e : DaemonEvent)
  /-- The timer of a playlist that was edited. -/
  | save (p : Ptr) (ensured : Bool) (calls : SaveCalls)
  | exit (calls : Nat → SaveCalls)
  /-- The daemon is started in the directory `cwd`. -/
  | restart (cwd : Bytes) (names names' : List Bytes)

/-- One event. An exit is one at which every `pls_save` returns `TRUE`. -/
inductive StoreStep (createObjectid : Bytes → Bytes) (dir : Bytes) : Store → StoreEvent → Store → Prop
  | request {d d' fs e sent} (h : d.handle createObjectid e = .ok (d', sent)) :
    StoreStep createObjectid dir ⟨.running d, fs⟩ (.request e) ⟨.running d', unlinkDestroyed dir d fs e⟩
  | save {d fs p pls ensured calls} (h : d.heap p = some pls) :
    StoreStep createObjectid dir ⟨.running d, fs⟩ (.save p ensured calls)
      ⟨.running (d.write p (saveMe ensured calls dir pls fs).1), (saveMe ensured calls dir pls fs).2⟩
  | exit {d fs calls} (h : ∀ p pls, d.heap p = some pls → ∀ fs, (plsSave (calls pls.id) pls
      (playlistPath dir pls.id) fs).1 = true) :
    StoreStep createObjectid dir ⟨.running d, fs⟩ (.exit calls)
      ⟨.exited d.playlists.keys, d.saveAllPlaylists dir calls fs⟩
  | restart {ids fs d fs' cwd names names'} (hnames : Lists names dir fs)
    (hnames' : Lists names' dir (finishRenames cwd names fs))
    (h : loadPlaylists cwd dir names names' fs Daemon.init = .ok (d, fs')) :
    StoreStep createObjectid dir ⟨.exited ids, fs⟩ (.restart cwd names names') ⟨.running d, fs'⟩

end MafwShared
