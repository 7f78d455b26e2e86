import MafwShared.Daemon
import MafwShared.PlaylistFile

/-!
# The playlist directory

Where `playlist-manager-wrapper.c` stores playlists and how the daemon loads them when it
starts. The directory is read twice; what `g_dir_read_name` delivers each time is a
parameter. Directories are given by their absolute paths. The first pass hands the bare
names to `stat`, `unlink` and `rename`, which look for them in the working directory.
-/

namespace MafwShared
open CLib

/-- `g_build_filename(dir, fn)`. -/
def buildFilename (dir fn : Bytes) : Bytes := dir ++ 47 :: fn

/-- Where a playlist is saved. -/
def playlistPath (dir : Bytes) (id : Nat) : Bytes := buildFilename dir (decimal id)

/-- `save_me`; `ensured` is what `ensure_playlist_dir` returns. -/
def saveMe (ensured : Bool) (c : SaveCalls) (dir : Bytes) (pls : Pls) (fs : FS) : Pls × FS :=
  if ensured = false then (pls, fs)
  else
    let (isok, fs) := plsSave c pls (playlistPath dir pls.id) fs
    (if isok then { pls with dirty := false } else pls, fs)

/-- `unlink`, which leaves a directory alone. -/
def FS.unlink (fs : FS) (path : Bytes) : FS :=
  match fs path with
  | some (.regular _) => fs.store path none
  | _ => fs

/-- `rename` of a regular file, which fails when a directory is in the way. -/
def FS.rename (fs : FS) (src dst : Bytes) : FS :=
  match fs dst with
  | some .other => fs
  | _ => fs.move src dst

/-- The file names in a directory, in some order. -/
structure Lists (names : List Bytes) (dir : Bytes) (fs : FS) : Prop where
  nodup : names.Nodup
  mem_iff : ∀ fn, fn ∈ names ↔ 47 ∉ fn ∧ (fs (buildFilename dir fn)).isSome

/-- `strrchr(fn, '.')`, as an index. -/
def lastDot (fn : Bytes) : Option Nat := (fn.reverse.idxOf? 46).map fun i => fn.length - 1 - i

/-- What stands in front of `.tmp` at the end of a file name. -/
def tmpStem (fn : Bytes) : Option Bytes :=
  match lastDot fn with
  | none => none
  | some dot => if dot = 0 then none else if fn.drop dot = tmpSuffix then some (fn.take dot) else none

/-- One file name in the first pass of `load_playlists`. -/
def finishRename (cwd : Bytes) (fs : FS) (fn : Bytes) : FS :=
  match tmpStem fn with
  | none => fs
  | some nufn =>
    match fs (buildFilename cwd fn) with
    | some (.regular (_ :: _)) => fs.rename (buildFilename cwd fn) (buildFilename cwd nufn)
    | _ => fs.unlink (buildFilename cwd fn)

def finishRenames (cwd : Bytes) (names : List Bytes) (fs : FS) : FS := names.foldl (finishRename cwd) fs

/-- A playlist that was loaded goes into both trees. -/
def Daemon.addLoaded (d : Daemon) (pls : Pls) : Daemon :=
  let d := if d.lastId ≤ pls.id then { d with lastId := (pls.id + 1) % 2 ^ 32 } else d
  let (p, d) := d.malloc pls
  (d.insertPlaylist pls.id p).insertName pls.name p

/-- One file name in the second pass. -/
def loadFile (dir : Bytes) (fs : FS) (d : Daemon) (fn : Bytes) : Except LoadStop Daemon :=
  match plsLoad fs (buildFilename dir fn) with
  | .ok pls => .ok (d.addLoaded pls)
  | .error .null | .error .unassigned => .ok d
  | .error stop => .error stop

/-- `load_playlists` on a directory that exists; `names` and `names'` are what it contains in
the first and in the second pass. -/
def loadPlaylists (cwd dir : Bytes) (names names' : List Bytes) (fs : FS) (d : Daemon) :
    Except LoadStop (Daemon × FS) :=
  let fs := finishRenames cwd names fs
  (names'.foldlM (loadFile dir fs) d).map fun d => (d, fs)

end MafwShared
