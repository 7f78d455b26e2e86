import MafwShared.Lib.Index
import MafwShared.LoadPlaylists
import MafwShared.Proofs.ReadBack
import MafwShared.Proofs.SaveHonesty

/-!
# Recovery after a save was interrupted

What the playlist directory holds when the daemon is killed during a save, what the first
pass of `load_playlists` makes of it, and which playlists the second pass ends with.
-/

namespace MafwShared
open CLib

/-! ### Paths -/

lemma buildFilename_inj {dir dir' fn fn' : Bytes} (h : 47 ∉ fn) (h' : 47 ∉ fn')
    (he : buildFilename dir fn = buildFilename dir' fn') : dir = dir' ∧ fn = fn' := by
  have hrev := congrArg List.reverse he
  simp only [buildFilename, List.reverse_append, List.reverse_cons, List.append_assoc,
    List.singleton_append] at hrev
  rcases List.append_eq_append_iff.mp hrev with ⟨a, ha, hrest⟩ | ⟨a, ha, hrest⟩
  · cases a with
    | nil =>
      rw [List.append_nil] at ha
      exact ⟨List.reverse_injective (List.cons.inj hrest).2, List.reverse_injective ha.symm⟩
    | cons c a =>
      obtain ⟨rfl, -⟩ := List.cons.inj hrest
      exact absurd (List.mem_reverse.mp (ha ▸ by simp)) h'
  · cases a with
    | nil =>
      rw [List.append_nil] at ha
      exact ⟨List.reverse_injective (List.cons.inj hrest).2.symm, List.reverse_injective ha⟩
    | cons c a =>
      obtain ⟨rfl, -⟩ := List.cons.inj hrest
      exact absurd (List.mem_reverse.mp (ha ▸ by simp)) h

lemma not_mem_decimal {n : Nat} {c : UInt8} (hc : isdigit c = false) : c ∉ decimal n := fun hmem => by
  rw [mem_decimal hmem] at hc
  cases hc

lemma tmpStem_decimal (n : Nat) : tmpStem (decimal n) = none := by
  have hdot : lastDot (decimal n) = none := by
    rw [lastDot, List.idxOf?_eq_none_iff.mpr]
    · rfl
    · rw [List.mem_reverse]
      exact not_mem_decimal rfl
  rw [tmpStem, hdot]

lemma tmpStem_tmp {stem : Bytes} (h : stem ≠ []) : tmpStem (stem ++ tmpSuffix) = some stem := by
  have hdot : lastDot (stem ++ tmpSuffix) = some stem.length := by
    simp [lastDot, tmpSuffix, List.idxOf?_cons]
  rw [tmpStem, hdot]
  dsimp only
  rw [if_neg (by simpa using h), if_pos (by simp), List.take_left']
  rfl

/-! ### The first pass -/

lemma slash_not_mem_decimal (n : Nat) : 47 ∉ decimal n := not_mem_decimal rfl

lemma slash_not_mem_tmp (n : Nat) : 47 ∉ decimal n ++ tmpSuffix := by
  simp [slash_not_mem_decimal, tmpSuffix]

lemma tmp_ne_decimal (m n : Nat) : decimal m ++ tmpSuffix ≠ decimal n := by
  intro he
  have hdot : (46 : UInt8) ∈ decimal m ++ tmpSuffix := by simp [tmpSuffix]
  rw [he] at hdot
  exact not_mem_decimal rfl hdot

/-- The directory of a playlist that is being saved: its file, what there is of the
temporary file, and the files of the other playlists. -/
structure Leftover (dir : Bytes) (id : Nat) (others : List Pls) (main : Bytes) (tmp : Option Bytes)
    (fs : FS) : Prop where
  main_eq : fs (buildFilename dir (decimal id)) = some (.regular main)
  tmp_eq : fs (buildFilename dir (decimal id ++ tmpSuffix)) = tmp.map .regular
  other_eq : ∀ o ∈ others, fs (buildFilename dir (decimal o.id)) = some (.regular (fileText o))
  only : ∀ fn, 47 ∉ fn → (fs (buildFilename dir fn)).isSome →
    fn = decimal id ∨ fn = decimal id ++ tmpSuffix ∨ ∃ o ∈ others, fn = decimal o.id

section
variable {cwd dir : Bytes} {id : Nat} {others : List Pls} {main : Bytes} {tmp : Option Bytes} {fs : FS}

lemma tmpStem_slash {fn stem : Bytes} (h : 47 ∉ fn) (hstem : tmpStem fn = some stem) : 47 ∉ stem := by
  unfold tmpStem at hstem
  repeat' split at hstem
  all_goals cases hstem
  exact fun hmem => h (List.mem_of_mem_take hmem)

lemma unlink_cases (fs : FS) (path : Bytes) : fs.unlink path = fs.store path none ∨
    fs.unlink path = fs ∧ ∀ content, fs path ≠ some (.regular content) := by
  unfold FS.unlink
  split
  · exact Or.inl rfl
  · rename_i hnot
    exact Or.inr ⟨rfl, hnot⟩

lemma unlink_of_ne (fs : FS) {path p : Bytes} (h : p ≠ path) : fs.unlink path p = fs p := by
  rcases unlink_cases fs path with he | ⟨he, -⟩
  · rw [he, store_of_ne fs none h]
  · rw [he]

lemma rename_of_ne (fs : FS) {src dst p : Bytes} (h : p ≠ src) (h' : p ≠ dst) : fs.rename src dst p = fs p := by
  have hcases : fs.rename src dst = fs ∨ fs.rename src dst = fs.move src dst := by
    unfold FS.rename
    split
    · exact Or.inl rfl
    · exact Or.inr rfl
  rcases hcases with he | he
  · rw [he]
  · rw [he, move_of_ne fs h h']

lemma finishRename_cases (cwd : Bytes) (fs : FS) {fn stem : Bytes} (h : tmpStem fn = some stem) :
    finishRename cwd fs fn = fs.rename (buildFilename cwd fn) (buildFilename cwd stem) ∨
      finishRename cwd fs fn = fs.unlink (buildFilename cwd fn) := by
  unfold finishRename
  rw [h]
  dsimp only
  split
  · exact Or.inl rfl
  · exact Or.inr rfl

/-- The first pass touches nothing outside the working directory. -/
lemma finishRename_elsewhere (hdir : cwd ≠ dir) {fn name : Bytes} (hfn : 47 ∉ fn) (hname : 47 ∉ name) (fs : FS) :
    finishRename cwd fs fn (buildFilename dir name) = fs (buildFilename dir name) := by
  have hne : ∀ x, 47 ∉ x → buildFilename dir name ≠ buildFilename cwd x := fun x hx he =>
    hdir (buildFilename_inj hname hx he).1.symm
  cases hstem : tmpStem fn with
  | none => rw [finishRename, hstem]
  | some stem =>
    rcases finishRename_cases cwd fs hstem with h | h
    · rw [h, rename_of_ne fs (hne fn hfn) (hne stem (tmpStem_slash hfn hstem))]
    · rw [h, unlink_of_ne fs (hne fn hfn)]

lemma finishRenames_elsewhere (hdir : cwd ≠ dir) {names : List Bytes} (hnames : ∀ fn ∈ names, 47 ∉ fn)
    {name : Bytes} (hname : 47 ∉ name) (fs : FS) :
    finishRenames cwd names fs (buildFilename dir name) = fs (buildFilename dir name) := by
  induction names generalizing fs with
  | nil => rfl
  | cons fn names ih =>
    rw [finishRenames, List.foldl_cons]
    exact (ih (fun x hx => hnames x (List.mem_cons_of_mem _ hx)) _).trans
      (finishRename_elsewhere hdir (hnames fn List.mem_cons_self) hname fs)

lemma Leftover.elsewhere (h : Leftover dir id others main tmp fs) (hdir : cwd ≠ dir) {names : List Bytes}
    (hnames : Lists names dir fs) : Leftover dir id others main tmp (finishRenames cwd names fs) := by
  have hsame : ∀ name, 47 ∉ name → finishRenames cwd names fs (buildFilename dir name) = fs (buildFilename dir name) :=
    fun name hname => finishRenames_elsewhere hdir (fun fn hfn => ((hnames.mem_iff fn).mp hfn).1) hname fs
  refine ⟨?_, ?_, fun o ho => ?_, fun fn hfn hsome => ?_⟩
  · rw [hsame _ (slash_not_mem_decimal id), h.main_eq]
  · rw [hsame _ (slash_not_mem_tmp id), h.tmp_eq]
  · rw [hsame _ (slash_not_mem_decimal _), h.other_eq o ho]
  · rw [hsame fn hfn] at hsome
    exact h.only fn hfn hsome

lemma finishRenames_passed {names : List Bytes} (h : ∀ fn ∈ names, tmpStem fn = none) (fs : FS) :
    finishRenames cwd names fs = fs := by
  induction names with
  | nil => rfl
  | cons fn names ih =>
    have hfn : finishRename cwd fs fn = fs := by rw [finishRename, h fn List.mem_cons_self]
    rw [finishRenames, List.foldl_cons, hfn]
    exact ih fun x hx => h x (List.mem_cons_of_mem _ hx)

lemma path_ne {x y : Bytes} (hx : 47 ∉ x) (hy : 47 ∉ y) (hne : x ≠ y) (dir : Bytes) :
    buildFilename dir x ≠ buildFilename dir y := fun he => hne (buildFilename_inj hx hy he).2

lemma decimal_path_ne_tmp (dir : Bytes) (m n : Nat) :
    buildFilename dir (decimal m) ≠ buildFilename dir (decimal n ++ tmpSuffix) :=
  path_ne (slash_not_mem_decimal m) (slash_not_mem_tmp n) (tmp_ne_decimal n m).symm dir

lemma Leftover.store_tmp (h : Leftover dir id others main tmp fs) (t : Option Bytes) :
    Leftover dir id others main t
      (fs.store (buildFilename dir (decimal id ++ tmpSuffix)) (t.map .regular)) := by
  refine ⟨?_, Function.update_self _ _ _, fun o ho => ?_, fun fn hfn hsome => ?_⟩
  · rw [store_of_ne _ _ (decimal_path_ne_tmp dir id id), h.main_eq]
  · rw [store_of_ne _ _ (decimal_path_ne_tmp dir o.id id), h.other_eq o ho]
  · by_cases hfnt : buildFilename dir fn = buildFilename dir (decimal id ++ tmpSuffix)
    · exact Or.inr (Or.inl (buildFilename_inj hfn (slash_not_mem_tmp id) hfnt).2)
    · rw [store_of_ne _ _ hfnt] at hsome
      exact h.only fn hfn hsome

lemma Leftover.store_main (h : Leftover dir id others main tmp fs) (hids : ∀ o ∈ others, o.id ≠ id) (m : Bytes) :
    Leftover dir id others m tmp (fs.store (buildFilename dir (decimal id)) (some (.regular m))) := by
  refine ⟨Function.update_self _ _ _, ?_, fun o ho => ?_, fun fn hfn hsome => ?_⟩
  · rw [store_of_ne _ _ (decimal_path_ne_tmp dir id id).symm, h.tmp_eq]
  · have hne := path_ne (slash_not_mem_decimal o.id) (slash_not_mem_decimal id)
      (fun he => hids o ho (decimal_inj he)) dir
    rw [store_of_ne _ _ hne, h.other_eq o ho]
  · by_cases hfnm : buildFilename dir fn = buildFilename dir (decimal id)
    · exact Or.inl (buildFilename_inj hfn (slash_not_mem_decimal id) hfnm).2
    · rw [store_of_ne _ _ hfnm] at hsome
      exact h.only fn hfn hsome

lemma Leftover.moved {t : Bytes} (h : Leftover dir id others main (some t) fs) (hids : ∀ o ∈ others, o.id ≠ id) :
    Leftover dir id others t none
      (fs.move (buildFilename dir (decimal id ++ tmpSuffix)) (buildFilename dir (decimal id))) := by
  rw [FS.move, h.tmp_eq]
  exact (h.store_main hids t).store_tmp none

lemma Leftover.finishRename {t : Bytes} (h : Leftover dir id others main (some t) fs) (hids : ∀ o ∈ others, o.id ≠ id) :
    Leftover dir id others (if t = [] then main else t) none
      (finishRename dir fs (decimal id ++ tmpSuffix)) := by
  have hregular : fs (buildFilename dir (decimal id ++ tmpSuffix)) = some (.regular t) := h.tmp_eq
  have hstem : tmpStem (decimal id ++ tmpSuffix) = some (decimal id) := tmpStem_tmp (decimal_ne_nil id)
  cases t with
  | nil =>
    have hgone : MafwShared.finishRename dir fs (decimal id ++ tmpSuffix) =
        fs.store (buildFilename dir (decimal id ++ tmpSuffix)) none := by
      simp only [MafwShared.finishRename, hstem, hregular, FS.unlink]
    rw [hgone, if_pos rfl]
    exact h.store_tmp none
  | cons b t =>
    have hmoved : MafwShared.finishRename dir fs (decimal id ++ tmpSuffix) =
        fs.move (buildFilename dir (decimal id ++ tmpSuffix)) (buildFilename dir (decimal id)) := by
      simp only [MafwShared.finishRename, hstem, hregular, FS.rename, h.main_eq]
    rw [hmoved, if_neg (List.cons_ne_nil b t)]
    exact h.moved hids

/-- What the playlist's file holds after a pass in the directory itself. -/
def finished (main : Bytes) : Option Bytes → Bytes
  | some (b :: t) => b :: t
  | _ => main

lemma Leftover.tmpStem_eq (h : Leftover dir id others main tmp fs) {fn : Bytes} (hfn : 47 ∉ fn)
    (hsome : (fs (buildFilename dir fn)).isSome) (hne : fn ≠ decimal id ++ tmpSuffix) : tmpStem fn = none := by
  rcases h.only fn hfn hsome with rfl | rfl | ⟨o, -, rfl⟩
  · exact tmpStem_decimal id
  · exact absurd rfl hne
  · exact tmpStem_decimal o.id

lemma Leftover.here (h : Leftover dir id others main tmp fs) (hids : ∀ o ∈ others, o.id ≠ id) {names : List Bytes}
    (hnames : Lists names dir fs) :
    Leftover dir id others (finished main tmp) none (finishRenames dir names fs) := by
  have hpass : ∀ fn ∈ names, fn ≠ decimal id ++ tmpSuffix → tmpStem fn = none := fun fn hfn hne =>
    h.tmpStem_eq ((hnames.mem_iff fn).mp hfn).1 ((hnames.mem_iff fn).mp hfn).2 hne
  cases htmp : tmp with
  | none =>
    have hnot : decimal id ++ tmpSuffix ∉ names := by
      rw [hnames.mem_iff, h.tmp_eq, htmp]
      simp
    rw [finishRenames_passed fun fn hfn => hpass fn hfn fun he => hnot (he ▸ hfn)]
    exact ⟨h.main_eq, by rw [h.tmp_eq, htmp], h.other_eq, h.only⟩
  | some t =>
    have hmem : decimal id ++ tmpSuffix ∈ names := by
      rw [hnames.mem_iff, h.tmp_eq, htmp]
      exact ⟨slash_not_mem_tmp id, rfl⟩
    obtain ⟨l1, l2, hsplit⟩ := List.append_of_mem hmem
    have hnodup := hnames.nodup
    rw [hsplit, List.nodup_append, List.nodup_cons] at hnodup
    obtain ⟨-, ⟨hnot2, -⟩, hnot1⟩ := hnodup
    have h1 : finishRenames dir l1 fs = fs := finishRenames_passed (fun fn hfn =>
      hpass fn (hsplit ▸ List.mem_append_left _ hfn) (hnot1 fn hfn _ List.mem_cons_self)) fs
    have h2 : ∀ fs', finishRenames dir l2 fs' = fs' := finishRenames_passed fun fn hfn =>
      hpass fn (hsplit ▸ List.mem_append_right _ (List.mem_cons_of_mem _ hfn)) fun he => hnot2 (he ▸ hfn)
    have hall : finishRenames dir names fs = MafwShared.finishRename dir fs (decimal id ++ tmpSuffix) := by
      rw [hsplit, finishRenames, List.foldl_append, List.foldl_cons]
      refine (h2 _).trans ?_
      rw [show l1.foldl (MafwShared.finishRename dir) fs = fs from h1]
    rw [hall]
    have hfin := (htmp ▸ h).finishRename hids
    cases t with
    | nil => exact hfin
    | cons b t => exact hfin

end

/-! ### The second pass -/

/-- The tree of ids finds exactly the live playlists, each under its id. -/
structure Tracked (d : Daemon) : Prop where
  byId : Indexes Pls.id d.heap d.playlists
  fresh : ∀ p, (d.heap p).isSome → p < d.brk

section
variable {d : Daemon}

lemma Tracked.playlistOf_eq_some (h : Tracked d) {id : Nat} {pls : Pls} :
    d.playlistOf id = some pls ↔ ∃ p, d.heap p = some pls ∧ pls.id = id := by
  unfold Daemon.playlistOf
  rw [Option.bind_eq_some_iff]
  constructor
  · rintro ⟨p, hp, hpls⟩
    obtain ⟨x, hx, hid⟩ := (h.byId id p).mp hp
    rw [hpls] at hx
    cases hx
    exact ⟨p, hpls, hid⟩
  · rintro ⟨p, hp, rfl⟩
    exact ⟨p, h.byId.lookup hp, hp⟩

lemma addLoaded_fields (d : Daemon) (pls : Pls) :
    (d.addLoaded pls).playlists = d.playlists.insert pls.id d.brk ∧ (d.addLoaded pls).brk = d.brk + 1 ∧
      (d.addLoaded pls).heap = (d.playlists.lookup pls.id).elim (Function.update d.heap d.brk (some pls))
        fun old => Function.update (Function.update d.heap d.brk (some pls)) old none := by
  unfold Daemon.addLoaded Daemon.insertPlaylist Daemon.malloc Daemon.insertName Daemon.free
  dsimp only
  split <;> cases d.playlists.lookup pls.id <;> exact ⟨rfl, rfl, rfl⟩

/-- A loaded playlist is in a new cell, and the cell of the one that it replaces is empty. -/
lemma Tracked.addLoaded_heap (h : Tracked d) (pls : Pls) (p : Ptr) : (d.addLoaded pls).heap p =
    if p = d.brk then some pls else if d.playlists.lookup pls.id = some p then none else d.heap p := by
  rw [(addLoaded_fields d pls).2.2]
  cases hl : d.playlists.lookup pls.id with
  | none =>
    by_cases hp : p = d.brk
    · rw [hp, if_pos rfl]
      exact Function.update_self _ _ _
    · rw [if_neg hp, if_neg (by simp)]
      exact Function.update_of_ne hp _ _
  | some old =>
    obtain ⟨x, hx, -⟩ := (h.byId _ _).mp hl
    by_cases hp : p = d.brk
    · have hne : p ≠ old := by
        intro he
        rw [← he, hp, eq_none_of_fresh h.fresh] at hx
        cases hx
      rw [if_pos hp, hp]
      exact (Function.update_of_ne (hp ▸ hne) _ _).trans (Function.update_self _ _ _)
    · rw [if_neg hp]
      by_cases ho : p = old
      · rw [ho, if_pos rfl]
        exact Function.update_self _ _ _
      · rw [if_neg fun he => ho (Option.some.inj he).symm]
        exact (Function.update_of_ne ho _ _).trans (Function.update_of_ne hp _ _)

lemma Tracked.addLoaded (h : Tracked d) (pls : Pls) : Tracked (d.addLoaded pls) := by
  obtain ⟨hids, hnext, hheap⟩ := addLoaded_fields d pls
  refine ⟨?_, fun p hp => ?_⟩
  · rw [hids, hheap]
    cases hl : d.playlists.lookup pls.id with
    | none => exact h.byId.insert (eq_none_of_fresh h.fresh) hl
    | some old =>
      obtain ⟨x, hx, hid⟩ := (h.byId _ _).mp hl
      exact h.byId.replace hx (eq_none_of_fresh h.fresh) hid.symm
  · rw [hnext]
    rw [h.addLoaded_heap] at hp
    by_cases hpb : p = d.brk
    · rw [hpb]
      exact Nat.lt_succ_self _
    · rw [if_neg hpb] at hp
      split at hp
      · cases hp
      · exact (h.fresh p hp).trans (Nat.lt_succ_self _)

lemma Tracked.playlistOf_addLoaded (h : Tracked d) (pls : Pls) (id : Nat) :
    (d.addLoaded pls).playlistOf id = if id = pls.id then some pls else d.playlistOf id := by
  by_cases hid : id = pls.id
  · rw [if_pos hid]
    refine (h.addLoaded pls).playlistOf_eq_some.mpr ⟨d.brk, ?_, hid.symm⟩
    rw [h.addLoaded_heap, if_pos rfl]
  · rw [if_neg hid]
    unfold Daemon.playlistOf
    rw [(addLoaded_fields d pls).1, AList.lookup_insert_ne hid]
    cases hl : d.playlists.lookup id with
    | none => rfl
    | some p =>
      obtain ⟨x, hx, hxid⟩ := (h.byId _ _).mp hl
      have hpb : p ≠ d.brk := fun he => by
        rw [he, eq_none_of_fresh h.fresh] at hx
        cases hx
      have hpo : d.playlists.lookup pls.id ≠ some p := fun he => by
        obtain ⟨y, hy, hyid⟩ := (h.byId _ _).mp he
        rw [hx] at hy
        cases hy
        exact hid (hxid.symm.trans hyid)
      rw [Option.bind_some, Option.bind_some, h.addLoaded_heap, if_neg hpb, if_neg hpo]

def loadedFrom (dir : Bytes) (fs : FS) (fn : Bytes) : Option Pls := (plsLoad fs (buildFilename dir fn)).toOption

/-- A file that is loaded, or rejected in an orderly way. -/
def Decided (r : Except LoadStop Pls) : Prop := (∃ q, r = .ok q) ∨ ReturnsNull r

/-- Of the playlists with one id, the one whose file is listed last stays. -/
lemma Tracked.loadFiles {dir : Bytes} {fs : FS} {names : List Bytes} (h : Tracked d)
    (hall : ∀ fn ∈ names, Decided (plsLoad fs (buildFilename dir fn))) :
    ∃ d', names.foldlM (loadFile dir fs) d = .ok d' ∧ Tracked d' ∧ ∀ id, d'.playlistOf id =
      ((names.filterMap (loadedFrom dir fs)).reverse.find? fun q => q.id = id).or (d.playlistOf id) := by
  induction names generalizing d with
  | nil => exact ⟨d, rfl, h, fun id => rfl⟩
  | cons fn names ih =>
    have hrest := fun x hx => hall x (List.mem_cons_of_mem fn hx)
    rcases hall fn List.mem_cons_self with ⟨q, hq⟩ | hnull
    · obtain ⟨d', hd', ht', hof'⟩ := ih (h.addLoaded q) hrest
      have hstep : loadFile dir fs d fn = .ok (d.addLoaded q) := by rw [loadFile, hq]
      refine ⟨d', by rw [List.foldlM_cons, hstep]; exact hd', ht', fun id => ?_⟩
      have hloaded : loadedFrom dir fs fn = some q := by rw [loadedFrom, hq]; rfl
      rw [hof', h.playlistOf_addLoaded, List.filterMap_cons_some hloaded, List.reverse_cons, List.find?_append,
        Option.or_assoc]
      congr 1
      by_cases hid : id = q.id
      · simp [hid]
      · simp [hid, Ne.symm hid]
    · obtain ⟨d', hd', ht', hof'⟩ := ih h hrest
      have hstep : loadFile dir fs d fn = .ok d := by
        rcases hnull with hnull | hnull <;> rw [loadFile, hnull]
      have hloaded : loadedFrom dir fs fn = none := by
        rcases hnull with hnull | hnull <;> rw [loadedFrom, hnull] <;> rfl
      exact ⟨d', by rw [List.foldlM_cons, hstep]; exact hd', ht', fun id => by
        rw [hof', List.filterMap_cons_none hloaded]⟩

lemma find_last {loaded : Bytes → Option Pls} {l1 l2 : List Bytes} {fn : Bytes} {q : Pls}
    (hq : loaded fn = some q) (hrest : ∀ x ∈ l2, ∀ r, loaded x = some r → r.id ≠ q.id) :
    (((l1 ++ fn :: l2).filterMap loaded).reverse.find? fun r => r.id = q.id) = some q := by
  have hnone : ((l2.filterMap loaded).reverse.find? fun r => r.id = q.id) = none := by
    rw [List.find?_eq_none]
    intro r hr
    obtain ⟨x, hx, hxr⟩ := List.mem_filterMap.mp (List.mem_reverse.mp hr)
    simpa using hrest x hx r hxr
  rw [List.filterMap_append, List.filterMap_cons_some hq, List.reverse_append, List.reverse_cons, List.append_assoc,
    List.find?_append, hnone, Option.none_or]
  simp

lemma find_none {loaded : Bytes → Option Pls} {names : List Bytes} {id : Nat}
    (h : ∀ x ∈ names, ∀ r, loaded x = some r → r.id ≠ id) :
    ((names.filterMap loaded).reverse.find? fun r => r.id = id) = none := by
  rw [List.find?_eq_none]
  intro r hr
  obtain ⟨x, hx, hxr⟩ := List.mem_filterMap.mp (List.mem_reverse.mp hr)
  simpa using h x hx r hxr

lemma find_only {loaded : Bytes → Option Pls} {names : List Bytes} {a : Bytes} {id : Nat} (hnodup : names.Nodup)
    (ha : a ∈ names) (hid : ∀ r, loaded a = some r → r.id = id)
    (hclass : ∀ x ∈ names, ∀ r, loaded x = some r → r.id = id → x = a) :
    ((names.filterMap loaded).reverse.find? fun r => r.id = id) = loaded a := by
  cases hla : loaded a with
  | none =>
    refine find_none fun x hx r hr hrid => ?_
    rw [hclass x hx r hr hrid, hla] at hr
    cases hr
  | some q =>
    obtain ⟨l1, l2, rfl⟩ := List.append_of_mem ha
    have hnot := (List.nodup_cons.mp (List.nodup_append.mp hnodup).2.1).1
    have hqid := hid q hla
    rw [← hqid]
    refine find_last hla fun x hx r hr hrid => hnot ?_
    rw [← hclass x (by simp [hx]) r hr (hrid.trans hqid)]
    exact hx

/-- Two files have the id: the one that is listed later wins, if it can be loaded. -/
lemma find_later {loaded : Bytes → Option Pls} {names : List Bytes} {a b : Bytes} {id : Nat} (hnodup : names.Nodup)
    (hsub : [a, b].Sublist names) (ha : ∀ r, loaded a = some r → r.id = id)
    (hb : ∀ r, loaded b = some r → r.id = id)
    (hclass : ∀ x ∈ names, ∀ r, loaded x = some r → r.id = id → x = a ∨ x = b) :
    ((names.filterMap loaded).reverse.find? fun r => r.id = id) = (loaded b).or (loaded a) := by
  cases hlb : loaded b with
  | none =>
    rw [Option.none_or]
    refine find_only hnodup (hsub.subset List.mem_cons_self) ha fun x hx r hr hrid => ?_
    refine (hclass x hx r hr hrid).resolve_right fun hxb => ?_
    rw [hxb, hlb] at hr
    cases hr
  | some q =>
    rw [Option.some_or]
    obtain ⟨l1, l, rfl, hal, hl⟩ := List.cons_sublist_iff.mp hsub
    obtain ⟨l3, l2, rfl⟩ := List.append_of_mem (List.singleton_sublist.mp hl)
    rw [← List.append_assoc, List.nodup_append, List.nodup_cons] at hnodup
    obtain ⟨-, ⟨hnot, -⟩, hdisj⟩ := hnodup
    have hqid := hb q hlb
    rw [← List.append_assoc, ← hqid]
    refine find_last hlb fun x hx r hr hrid => ?_
    rcases hclass x (by simp [hx]) r hr (hrid.trans hqid) with rfl | rfl
    · exact hdisj x (List.mem_append_left _ hal) x (List.mem_cons_of_mem _ hx) rfl
    · exact hnot hx

lemma sublist_or_sublist {names : List Bytes} {a b : Bytes} (ha : a ∈ names) (hb : b ∈ names) (hne : a ≠ b) :
    [a, b].Sublist names ∨ [b, a].Sublist names := by
  obtain ⟨l1, l2, rfl⟩ := List.append_of_mem ha
  rcases List.mem_append.mp hb with hb | hb
  · right
    exact (List.singleton_sublist.mpr hb).append (List.singleton_sublist.mpr List.mem_cons_self)
  · left
    have hb2 : b ∈ l2 := (List.mem_cons.mp hb).resolve_left hne.symm
    exact ((List.singleton_sublist.mpr hb2).cons_cons a).trans (List.sublist_append_right l1 _)

def loadedText (content : Bytes) : Option Pls := (loadText content).toOption

/-- What the second pass ends with under an id, from the playlist's file and what there is of
the temporary one. -/
def survivor (names : List Bytes) (id : Nat) (main : Bytes) : Option Bytes → Option Pls
  | none => loadedText main
  | some t =>
    if [decimal id, decimal id ++ tmpSuffix].Sublist names then (loadedText t).or (loadedText main)
    else (loadedText main).or (loadedText t)

/-- A file content that is decided and belongs to the id. -/
def ContentOf (id : Nat) (content : Bytes) : Prop :=
  Decided (loadText content) ∧ ∀ q, loadText content = .ok q → q.id = id

lemma ContentOf.id_eq {id : Nat} {content : Bytes} (h : ContentOf id content) {q : Pls}
    (hq : loadedText content = some q) : q.id = id := by
  unfold loadedText at hq
  cases hl : loadText content with
  | ok r =>
    rw [hl] at hq
    cases hq
    exact h.2 _ hl
  | error e =>
    rw [hl] at hq
    cases hq

lemma plsLoad_regular {fs : FS} {path content : Bytes} (h : fs path = some (.regular content)) :
    plsLoad fs path = loadText content := by rw [plsLoad, h]

section
variable {dir : Bytes} {id : Nat} {others : List Pls} {main : Bytes} {tmp : Option Bytes} {fs : FS}

lemma Leftover.load_main (h : Leftover dir id others main tmp fs) :
    plsLoad fs (buildFilename dir (decimal id)) = loadText main := plsLoad_regular h.main_eq

lemma Leftover.load_tmp {t : Bytes} (h : Leftover dir id others main (some t) fs) :
    plsLoad fs (buildFilename dir (decimal id ++ tmpSuffix)) = loadText t := plsLoad_regular h.tmp_eq

lemma Leftover.load_other (h : Leftover dir id others main tmp fs) {o : Pls} (ho : o ∈ others) :
    plsLoad fs (buildFilename dir (decimal o.id)) = loadText (fileText o) := plsLoad_regular (h.other_eq o ho)

variable {names : List Bytes}

lemma Leftover.mem_main (h : Leftover dir id others main tmp fs) (hnames : Lists names dir fs) :
    decimal id ∈ names :=
  (hnames.mem_iff _).mpr ⟨slash_not_mem_decimal _, by rw [h.main_eq]; rfl⟩

lemma Leftover.mem_tmp {t : Bytes} (h : Leftover dir id others main (some t) fs) (hnames : Lists names dir fs) :
    decimal id ++ tmpSuffix ∈ names :=
  (hnames.mem_iff _).mpr ⟨slash_not_mem_tmp _, by rw [h.tmp_eq]; rfl⟩

lemma Leftover.mem_other (h : Leftover dir id others main tmp fs) (hnames : Lists names dir fs) {o : Pls}
    (ho : o ∈ others) : decimal o.id ∈ names :=
  (hnames.mem_iff _).mpr ⟨slash_not_mem_decimal _, by rw [h.other_eq o ho]; rfl⟩

lemma Leftover.mem_cases (h : Leftover dir id others main tmp fs) (hnames : Lists names dir fs) {fn : Bytes}
    (hfn : fn ∈ names) : fn = decimal id ∨ (fn = decimal id ++ tmpSuffix ∧ ∃ t, tmp = some t) ∨
      ∃ o ∈ others, fn = decimal o.id := by
  obtain ⟨hslash, hsome⟩ := (hnames.mem_iff fn).mp hfn
  rcases h.only fn hslash hsome with he | rfl | he
  · exact Or.inl he
  · rw [h.tmp_eq, Option.isSome_map] at hsome
    exact Or.inr (Or.inl ⟨rfl, Option.isSome_iff_exists.mp hsome⟩)
  · exact Or.inr (Or.inr he)

variable (h : Leftover dir id others main tmp fs) (hnames : Lists names dir fs) (hids : ∀ o ∈ others, o.id ≠ id)
  (hmain : ContentOf id main) (htmp : ∀ t ∈ tmp, ContentOf id t)
  (hothers : ∀ o ∈ others, ∃ q, loadText (fileText o) = .ok q ∧ SameSaved o q)
include h hnames hmain htmp hothers

lemma Leftover.decided {fn : Bytes} (hfn : fn ∈ names) : Decided (plsLoad fs (buildFilename dir fn)) := by
  rcases h.mem_cases hnames hfn with rfl | ⟨rfl, t, rfl⟩ | ⟨o, ho, rfl⟩
  · rw [h.load_main]
    exact hmain.1
  · rw [h.load_tmp]
    exact (htmp t rfl).1
  · obtain ⟨q, hq, -⟩ := hothers o ho
    exact Or.inl ⟨q, (h.load_other ho).trans hq⟩

lemma Leftover.loaded_id {fn : Bytes} (hfn : fn ∈ names) {r : Pls} (hr : loadedFrom dir fs fn = some r) :
    ((fn = decimal id ∨ fn = decimal id ++ tmpSuffix) ∧ r.id = id) ∨
      ∃ o ∈ others, fn = decimal o.id ∧ r.id = o.id := by
  rcases h.mem_cases hnames hfn with rfl | ⟨rfl, t, rfl⟩ | ⟨o, ho, rfl⟩
  · rw [loadedFrom, h.load_main] at hr
    exact Or.inl ⟨Or.inl rfl, hmain.id_eq hr⟩
  · rw [loadedFrom, h.load_tmp] at hr
    exact Or.inl ⟨Or.inr rfl, (htmp t rfl).id_eq hr⟩
  · obtain ⟨q, hq, hsame⟩ := hothers o ho
    rw [loadedFrom, h.load_other ho, hq] at hr
    cases hr
    exact Or.inr ⟨o, ho, rfl, hsame.id_eq⟩

include hids

lemma Leftover.find_other {o : Pls} (ho : o ∈ others) :
    ∃ q, ((names.filterMap (loadedFrom dir fs)).reverse.find? fun r => r.id = o.id) = some q ∧ SameSaved o q := by
  obtain ⟨q, hq, hsame⟩ := hothers o ho
  have hloaded : loadedFrom dir fs (decimal o.id) = some q := by rw [loadedFrom, h.load_other ho, hq]; rfl
  refine ⟨q, ?_, hsame⟩
  rw [← hloaded]
  refine find_only hnames.nodup (h.mem_other hnames ho) (fun r hr => ?_) fun fn hfn r hr hrid => ?_
  · rw [hloaded] at hr
    cases hr
    exact hsame.id_eq
  · rcases h.loaded_id hnames hmain htmp hothers hfn hr with ⟨-, hrid'⟩ | ⟨o', -, rfl, hrid'⟩
    · exact absurd (hrid.symm.trans hrid') (hids o ho)
    · rw [← hrid', hrid]

lemma Leftover.find_id : ((names.filterMap (loadedFrom dir fs)).reverse.find? fun r => r.id = id) =
    survivor names id main tmp := by
  have hclass : ∀ fn ∈ names, ∀ r, loadedFrom dir fs fn = some r → r.id = id →
      fn = decimal id ∨ fn = decimal id ++ tmpSuffix := by
    intro fn hfn r hr hrid
    rcases h.loaded_id hnames hmain htmp hothers hfn hr with ⟨hname, -⟩ | ⟨o, ho, -, hrid'⟩
    · exact hname
    · exact absurd (hrid'.symm.trans hrid) (hids o ho)
  have hmainLoaded : loadedFrom dir fs (decimal id) = loadedText main := by rw [loadedFrom, h.load_main, loadedText]
  have hidMain : ∀ r, loadedFrom dir fs (decimal id) = some r → r.id = id := fun r hr =>
    hmain.id_eq (hmainLoaded ▸ hr)
  cases tmp with
  | none =>
    rw [survivor, ← hmainLoaded]
    refine find_only hnames.nodup (h.mem_main hnames) hidMain fun fn hfn r hr hrid => ?_
    refine (hclass fn hfn r hr hrid).resolve_right fun hname => ?_
    have hsome := ((hnames.mem_iff fn).mp hfn).2
    rw [hname, h.tmp_eq] at hsome
    cases hsome
  | some t =>
    have htmpLoaded : loadedFrom dir fs (decimal id ++ tmpSuffix) = loadedText t := by
      rw [loadedFrom, h.load_tmp, loadedText]
    have hidTmp : ∀ r, loadedFrom dir fs (decimal id ++ tmpSuffix) = some r → r.id = id := fun r hr =>
      (htmp t rfl).id_eq (htmpLoaded ▸ hr)
    rw [survivor, ← hmainLoaded, ← htmpLoaded]
    by_cases hsub : [decimal id, decimal id ++ tmpSuffix].Sublist names
    · rw [if_pos hsub]
      exact find_later hnames.nodup hsub hidMain hidTmp hclass
    · rw [if_neg hsub]
      have hsub' := (sublist_or_sublist (h.mem_main hnames) (h.mem_tmp hnames)
        (tmp_ne_decimal id id).symm).resolve_left hsub
      exact find_later hnames.nodup hsub' hidTmp hidMain fun fn hfn r hr hrid => (hclass fn hfn r hr hrid).symm

lemma Leftover.loadFiles (hd : Tracked d) (hempty : ∀ id, d.playlistOf id = none) :
    ∃ d', names.foldlM (loadFile dir fs) d = .ok d' ∧ Tracked d' ∧
      (∀ o ∈ others, ∃ q, d'.playlistOf o.id = some q ∧ SameSaved o q) ∧
      d'.playlistOf id = survivor names id main tmp := by
  obtain ⟨d', hd', htracked, hof⟩ := hd.loadFiles fun fn hfn => h.decided hnames hmain htmp hothers hfn
  refine ⟨d', hd', htracked, fun o ho => ?_, ?_⟩
  · obtain ⟨q, hq, hsame⟩ := h.find_other hnames hids hmain htmp hothers ho
    refine ⟨q, ?_, hsame⟩
    rw [hof, hempty, Option.or_none, hq]
  · rw [hof, hempty, Option.or_none, h.find_id hnames hids hmain htmp hothers]

end

end

/-! ### Interrupted saves -/

/-- How far a save came. -/
inductive CrashPoint
  | unopened
  /-- `k` bytes of the temporary file have reached the disk. -/
  | written (k : Nat)
  | renamed

/-- What the disk holds when the daemon is killed during a save. -/
def crashed (new : Pls) (fn : Bytes) (fs : FS) : CrashPoint → FS
  | .unopened => fs
  | .written k => fs.store (fn ++ tmpSuffix) (some (.regular ((fileText new).take k)))
  | .renamed => (fs.store (fn ++ tmpSuffix) (some (.regular (fileText new)))).move (fn ++ tmpSuffix) fn

/-- The content of the playlist's file and of the temporary file at a crash. -/
def remains (old new : Pls) : CrashPoint → Bytes × Option Bytes
  | .unopened => (fileText old, none)
  | .written k => (fileText old, some ((fileText new).take k))
  | .renamed => (fileText new, none)

def CrashPoint.Complete (new : Pls) : CrashPoint → Prop
  | .unopened => False
  | .written k => (fileText new).length ≤ k
  | .renamed => True

/-- To be killed is to have one call fail and to do nothing about it. -/
lemma crashed_eq_plsSave (new : Pls) (fn : Bytes) (fs : FS) (point : CrashPoint) :
    ∃ c, crashed new fn fs point = (plsSave c new fn fs).2 := by
  cases point with
  | unopened => exact ⟨{ SaveCalls.succeed with fopen := false }, rfl⟩
  | written k =>
    refine ⟨{ SaveCalls.succeed with fprintf := fun _ => some k, unlink := false }, ?_⟩
    have hprint : SaveCalls.failedPrint { SaveCalls.succeed with fprintf := fun _ => some k, unlink := false } new =
        some k := by
      rw [SaveCalls.failedPrint, List.range_succ_eq_map, List.findSome?_cons]
    unfold plsSave
    dsimp only
    rw [hprint]
    rfl
  | renamed =>
    have hprint : SaveCalls.succeed.failedPrint new = none := by
      rw [SaveCalls.failedPrint, List.findSome?_eq_none_iff]
      exact fun _ _ => rfl
    refine ⟨.succeed, ?_⟩
    unfold plsSave
    dsimp only
    rw [hprint]
    rfl

/-- Whether a start in the working directory `here` recovers the playlist, when `tmpLast` says
that the temporary file is listed behind the playlist's file. -/
def RecoversFrom (old new : Pls) (here tmpLast : Prop) : CrashPoint → Prop
  | .unopened | .renamed => True
  | .written k =>
    let total := (fileText new).length
    let cut := shortened new (total - 1 - k)
    (here → k = 0 ∨ total ≤ k + (fileTail new).length ∧ (total ≤ k + 1 ∨ SameSaved old cut)) ∧
      (¬ here → total ≤ k + (fileTail new).length →
        (tmpLast → total ≤ k + 1 ∨ SameSaved old cut) ∧ (¬ tmpLast → k < total ∨ SameSaved old new))

section
variable {old new : Pls} {k : Nat}

lemma Restorable.tail_pos (h : Restorable new) : 0 < (fileTail new).length := by
  apply List.length_pos_iff.mpr
  unfold fileTail
  split
  · exact decimal_ne_nil _
  · exact (h.items _ (by omega)).1

lemma sameSaved_wordsOf {p : Pls} (h : ∀ i < p.len, firstWord (p.vidx i) = p.vidx i) : SameSaved p (wordsOf p) :=
  ⟨rfl, rfl, rfl, rfl, rfl, rfl, cells_congr h, fun _ => ⟨rfl, rfl⟩⟩

lemma Restorable.cut_word (h : Restorable new) (hk : (fileText new).length ≤ k + (fileTail new).length) :
    ∀ i < (shortened new ((fileText new).length - 1 - k)).len,
      firstWord ((shortened new ((fileText new).length - 1 - k)).vidx i) =
        (shortened new ((fileText new).length - 1 - k)).vidx i ∧
      (shortened new ((fileText new).length - 1 - k)).vidx i ≠ [] := by
  have htail : (fileText new).length = (fileFront new).length + (fileTail new).length + 1 := by
    rw [fileText_eq]
    simp [Nat.add_assoc]
  intro i hi
  rw [shortened_len] at hi
  obtain ⟨hne, hspace, -⟩ := h.items i hi
  by_cases hlast : i + 1 < new.len
  · rw [shortened_vidx _ _ hlast]
    exact ⟨firstWord_eq_self_iff.mpr hspace, hne⟩
  · obtain rfl : i = new.len - 1 := by omega
    rw [shortened_vidx_last _ _ (by omega)]
    have hlen : (fileTail new).length = (new.vidx (new.len - 1)).length := by rw [fileTail, if_neg (by omega)]
    refine ⟨firstWord_eq_self_iff.mpr fun c hc => hspace c (List.mem_of_mem_take hc), fun hnil => ?_⟩
    have hpos := List.length_pos_iff.mpr hne
    have hzero := congrArg List.length hnil
    rw [List.length_take, List.length_nil] at hzero
    omega

lemma Restorable.load_cut (h : Restorable new) (hk : (fileText new).length ≤ k + (fileTail new).length) :
    ∃ q, loadText ((fileText new).take k) = .ok q ∧ SameSaved (shortened new ((fileText new).length - 1 - k)) q := by
  have hword := h.cut_word hk
  obtain ⟨q, hq, -, hsame⟩ := loadText_shortened h.savable hk fun i hi => by
    rw [(hword i (by simpa using hi)).1]
    exact (hword i (by simpa using hi)).2
  exact ⟨q, hq, (sameSaved_wordsOf fun i hi => (hword i hi).1).trans hsame⟩

lemma Restorable.contentOf_take (h : Restorable new) (k : Nat) : ContentOf new.id ((fileText new).take k) := by
  by_cases hk : (fileText new).length ≤ k + (fileTail new).length
  · obtain ⟨q, hq, hsame⟩ := h.load_cut hk
    refine ⟨Or.inl ⟨q, hq⟩, fun r hr => ?_⟩
    rw [hq] at hr
    cases hr
    exact hsame.id_eq.trans (shortened_id _ _)
  · have hnull := loadText_cut h.savable (not_le.mp hk)
    refine ⟨Or.inr hnull, fun r hr => ?_⟩
    rcases hnull with he | he <;> rw [he] at hr <;> cases hr

/-- What a readable piece brings back is the new content if nothing but the newline is missing,
and the old one if that happens to be the same. -/
lemma Restorable.cut_recovers (h : Restorable new) (hk : (fileText new).length ≤ k + (fileTail new).length) {q : Pls}
    (hq : SameSaved (shortened new ((fileText new).length - 1 - k)) q) :
    SameSaved new q ∨ ¬ (fileText new).length ≤ k ∧ SameSaved old q ↔
      (fileText new).length ≤ k + 1 ∨ SameSaved old (shortened new ((fileText new).length - 1 - k)) := by
  have hpos := h.tail_pos
  have hzero : (fileText new).length ≤ k + 1 → SameSaved new q := fun hle => by
    rwa [show (fileText new).length - 1 - k = 0 by omega, shortened_zero] at hq
  constructor
  · rintro (hnew | ⟨-, hold⟩)
    · left
      have hwords := (hnew.unique hq).trans (sameSaved_wordsOf fun i hi => (h.cut_word hk i hi).1)
      have hzero := (sameSaved_shortened (by omega) hwords).1
      omega
    · exact Or.inr (hold.unique hq)
  · rintro (hle | hold)
    · exact Or.inl (hzero hle)
    · by_cases hle : (fileText new).length ≤ k + 1
      · exact Or.inl (hzero hle)
      · exact Or.inr ⟨by omega, hold.trans hq⟩

/-! ### The start after a crash -/

lemma tmpPath (dir : Bytes) (id : Nat) :
    buildFilename dir (decimal id) ++ tmpSuffix = buildFilename dir (decimal id ++ tmpSuffix) := by
  simp [buildFilename]

lemma Leftover.crashed {dir : Bytes} {id : Nat} {others : List Pls} {fs : FS}
    (h : Leftover dir id others (fileText old) none fs) (hids : ∀ o ∈ others, o.id ≠ id) (new : Pls)
    (point : CrashPoint) : Leftover dir id others (remains old new point).1 (remains old new point).2
      (crashed new (buildFilename dir (decimal id)) fs point) := by
  cases point with
  | unopened => exact h
  | written k =>
    dsimp only [MafwShared.crashed]
    rw [tmpPath]
    exact h.store_tmp (some ((fileText new).take k))
  | renamed =>
    dsimp only [MafwShared.crashed]
    rw [tmpPath]
    exact (h.store_tmp (some (fileText new))).moved hids

/-- The playlist that a start ends with is the new content, or the old one if the temporary
file was not complete. -/
def Recovered (old new : Pls) (point : CrashPoint) (r : Option Pls) : Prop :=
  ∃ q, r = some q ∧ (SameSaved new q ∨ ¬ point.Complete new ∧ SameSaved old q)

lemma recovered_some {point : CrashPoint} {q : Pls} : Recovered old new point (some q) ↔
    SameSaved new q ∨ ¬ point.Complete new ∧ SameSaved old q := by
  constructor
  · rintro ⟨q', hq, h⟩
    cases hq
    exact h
  · exact fun h => ⟨q, rfl, h⟩

lemma loadedText_of_ok {content : Bytes} {q : Pls} (h : loadText content = .ok q) : loadedText content = some q := by
  rw [loadedText, h]
  rfl

lemma Restorable.loadedText_cut (h : Restorable new) (k : Nat) :
    (∃ q, (fileText new).length ≤ k + (fileTail new).length ∧ loadedText ((fileText new).take k) = some q ∧
      SameSaved (shortened new ((fileText new).length - 1 - k)) q) ∨
    k + (fileTail new).length < (fileText new).length ∧ loadedText ((fileText new).take k) = none := by
  by_cases hk : (fileText new).length ≤ k + (fileTail new).length
  · obtain ⟨q, hq, hsame⟩ := h.load_cut hk
    exact Or.inl ⟨q, hk, loadedText_of_ok hq, hsame⟩
  · refine Or.inr ⟨not_le.mp hk, ?_⟩
    rcases loadText_cut h.savable (not_le.mp hk) with he | he <;> rw [loadedText, he] <;> rfl

variable {names : List Bytes} {id : Nat}

lemma not_recovered_none {point : CrashPoint} : ¬ Recovered old new point none := by
  rintro ⟨q, hq, -⟩
  cases hq

lemma recovered_unopened (hold : Restorable old) : Recovered old new .unopened (loadedText (fileText old)) := by
  obtain ⟨q, hq, hsame⟩ := hold.loads
  rw [loadedText_of_ok hq, recovered_some]
  exact Or.inr ⟨not_false, hsame⟩

lemma recovered_renamed (hnew : Restorable new) : Recovered old new .renamed (loadedText (fileText new)) := by
  obtain ⟨q, hq, hsame⟩ := hnew.loads
  rw [loadedText_of_ok hq, recovered_some]
  exact Or.inl hsame

lemma recovered_here (hold : Restorable old) (hnew : Restorable new) (tmpLast : Prop) (point : CrashPoint) :
    Recovered old new point (survivor names id (finished (remains old new point).1 (remains old new point).2) none) ↔
      RecoversFrom old new True tmpLast point := by
  obtain ⟨qo, hqo, hsameo⟩ := hold.loads
  cases point with
  | unopened => exact iff_of_true (recovered_unopened hold) trivial
  | renamed => exact iff_of_true (recovered_renamed hnew) trivial
  | written k =>
    have hne : fileText new ≠ [] := by
      rw [fileText_eq]
      simp
    have hpos := List.length_pos_iff.mpr hne
    by_cases hk : k = 0
    · subst hk
      change Recovered old new _ (loadedText (fileText old)) ↔ _
      rw [loadedText_of_ok hqo, recovered_some]
      exact iff_of_true (Or.inr ⟨not_le.mpr hpos, hsameo⟩) ⟨fun _ => Or.inl rfl, fun hc => absurd trivial hc⟩
    · have hfinished : finished (fileText old) (some ((fileText new).take k)) = (fileText new).take k := by
        have htake : (fileText new).take k ≠ [] := by simp [hk, hne]
        obtain ⟨b, t, ht⟩ := List.exists_cons_of_ne_nil htake
        rw [ht]
        rfl
      have hsurvivor : survivor names id (finished (remains old new (.written k)).1 (remains old new (.written k)).2)
          none = loadedText ((fileText new).take k) := congrArg loadedText hfinished
      rw [hsurvivor]
      rcases hnew.loadedText_cut k with ⟨q, hread, hload, hsame⟩ | ⟨hunread, hload⟩
      · rw [hload, recovered_some, CrashPoint.Complete, hnew.cut_recovers hread hsame]
        simp [RecoversFrom, hk, hread]
      · rw [hload]
        refine iff_of_false not_recovered_none fun hr => ?_
        rcases hr.1 trivial with h0 | ⟨hread, -⟩
        · exact hk h0
        · omega

lemma recovered_elsewhere (hold : Restorable old) (hnew : Restorable new) (point : CrashPoint) :
    Recovered old new point (survivor names id (remains old new point).1 (remains old new point).2) ↔
      RecoversFrom old new False ([decimal id, decimal id ++ tmpSuffix].Sublist names) point := by
  obtain ⟨qo, hqo, hsameo⟩ := hold.loads
  cases point with
  | unopened => exact iff_of_true (recovered_unopened hold) trivial
  | renamed => exact iff_of_true (recovered_renamed hnew) trivial
  | written k =>
    have hpos := hnew.tail_pos
    have hsamecontent : SameSaved new qo ↔ SameSaved old new :=
      ⟨fun h => hsameo.unique h, fun h => h.symm.trans hsameo⟩
    by_cases hlast : [decimal id, decimal id ++ tmpSuffix].Sublist names
    · have hsurvivor : survivor names id (remains old new (.written k)).1 (remains old new (.written k)).2 =
          (loadedText ((fileText new).take k)).or (loadedText (fileText old)) := if_pos hlast
      rw [hsurvivor]
      rcases hnew.loadedText_cut k with ⟨q, hread, hload, hsame⟩ | ⟨hunread, hload⟩
      · rw [hload, Option.some_or, recovered_some, CrashPoint.Complete, hnew.cut_recovers hread hsame]
        simp [RecoversFrom, hlast, hread]
      · rw [hload, Option.none_or, loadedText_of_ok hqo, recovered_some]
        refine iff_of_true (Or.inr ⟨not_le.mpr (by omega), hsameo⟩) ⟨False.elim, fun _ hread => ?_⟩
        omega
    · have hsurvivor : survivor names id (remains old new (.written k)).1 (remains old new (.written k)).2 =
          (loadedText (fileText old)).or (loadedText ((fileText new).take k)) := if_neg hlast
      rw [hsurvivor, loadedText_of_ok hqo, Option.some_or, recovered_some, hsamecontent]
      simp only [CrashPoint.Complete, RecoversFrom, hsameo, hlast, false_implies, not_false_eq_true, true_implies,
        and_true, true_and, not_le]
      constructor
      · rintro (h | h) _
        · exact Or.inr h
        · exact Or.inl h
      · intro h
        by_cases hread : (fileText new).length ≤ k + (fileTail new).length
        · exact (h hread).symm
        · exact Or.inr (by omega)

/-- The start after a crash, for every crash point, working directory and order of the
directory: the other playlists are there, and the one that was being saved is recovered
exactly under `RecoversFrom`. -/
theorem crash_recovery (hold : Restorable old) (hnew : Restorable new) {others : List Pls}
    (hothers : ∀ o ∈ others, Restorable o) (hid : new.id = old.id) (hids : ∀ o ∈ others, o.id ≠ old.id)
    {cwd dir : Bytes} {fs : FS} (hstore : Leftover dir old.id others (fileText old) none fs) (point : CrashPoint)
    {names names' : List Bytes} (hnames : Lists names dir (crashed new (buildFilename dir (decimal old.id)) fs point))
    (hnames' : Lists names' dir
      (finishRenames cwd names (crashed new (buildFilename dir (decimal old.id)) fs point))) :
    ∃ d fs', loadPlaylists cwd dir names names' (crashed new (buildFilename dir (decimal old.id)) fs point)
        Daemon.init = .ok (d, fs') ∧
      Indexes Pls.id d.heap d.playlists ∧
      (∀ o ∈ others, ∃ q, d.playlistOf o.id = some q ∧ SameSaved o q) ∧
      (Recovered old new point (d.playlistOf old.id) ↔
        RecoversFrom old new (cwd = dir) ([decimal old.id, decimal old.id ++ tmpSuffix].Sublist names') point) := by
  have hleft := hstore.crashed hids new point
  have hinit : Tracked Daemon.init := ⟨Indexes.empty _, fun p hp => by cases hp⟩
  have hcontent : ContentOf old.id (remains old new point).1 ∧
      ∀ t ∈ (remains old new point).2, ContentOf old.id t := by
    have hcold := hold.contentOf_take (fileText old).length
    have hcnew := hnew.contentOf_take (fileText new).length
    rw [List.take_length] at hcold hcnew
    rw [hid] at hcnew
    cases point with
    | unopened => exact ⟨hcold, fun t ht => by cases ht⟩
    | renamed => exact ⟨hcnew, fun t ht => by cases ht⟩
    | written k =>
      refine ⟨hcold, fun t ht => ?_⟩
      cases ht
      exact hid ▸ hnew.contentOf_take k
  have hloads := fun o ho => (hothers o ho).loads
  by_cases hdir : cwd = dir
  · subst hdir
    have hfinished : ContentOf old.id (finished (remains old new point).1 (remains old new point).2) := by
      unfold finished
      split
      · rename_i b t ht
        exact hcontent.2 _ ht
      · exact hcontent.1
    obtain ⟨d, hd, htracked, hothers', hof⟩ := (hleft.here hids hnames).loadFiles hnames' hids hfinished
      (fun t ht => by cases ht) hloads hinit fun id => rfl
    refine ⟨d, _, by rw [loadPlaylists, hd]; rfl, htracked.byId, hothers', ?_⟩
    rw [hof, recovered_here hold hnew ([decimal old.id, decimal old.id ++ tmpSuffix].Sublist names')]
    simp
  · obtain ⟨d, hd, htracked, hothers', hof⟩ := (hleft.elsewhere hdir hnames).loadFiles hnames' hids hcontent.1
      hcontent.2 hloads hinit fun id => rfl
    refine ⟨d, _, by rw [loadPlaylists, hd]; rfl, htracked.byId, hothers', ?_⟩
    rw [hof, recovered_elsewhere hold hnew]
    simp [hdir]

end

/-! ### A directory with one playlist -/

/-- A disk with nothing but the file of one playlist. -/
def onlyFile (dir : Bytes) (pls : Pls) : FS :=
  Function.update (fun _ => none) (buildFilename dir (decimal pls.id)) (some (.regular (fileText pls)))

lemma onlyFile_leftover (dir : Bytes) (pls : Pls) :
    Leftover dir pls.id [] (fileText pls) none (onlyFile dir pls) := by
  refine ⟨Function.update_self _ _ _, Function.update_of_ne (decimal_path_ne_tmp dir _ _).symm _ _, by simp,
    fun fn hfn hsome => ?_⟩
  by_cases he : buildFilename dir fn = buildFilename dir (decimal pls.id)
  · exact Or.inl (buildFilename_inj hfn (slash_not_mem_decimal _) he).2
  · rw [onlyFile, Function.update_of_ne he] at hsome
    cases hsome

lemma Leftover.lists_tmp {dir : Bytes} {id : Nat} {main t : Bytes} {fs : FS}
    (h : Leftover dir id [] main (some t) fs) {names : List Bytes}
    (hperm : names.Perm [decimal id, decimal id ++ tmpSuffix]) : Lists names dir fs := by
  refine ⟨hperm.nodup_iff.mpr (by simpa using (tmp_ne_decimal id id).symm), fun fn => ?_⟩
  rw [hperm.mem_iff]
  constructor
  · intro hfn
    simp only [List.mem_cons, List.not_mem_nil, or_false] at hfn
    rcases hfn with rfl | rfl
    · exact ⟨slash_not_mem_decimal id, by rw [h.main_eq]; rfl⟩
    · exact ⟨slash_not_mem_tmp id, by rw [h.tmp_eq]; rfl⟩
  · rintro ⟨hslash, hsome⟩
    rcases h.only fn hslash hsome with rfl | rfl | ⟨o, ho, -⟩
    · simp
    · simp
    · cases ho

lemma Leftover.lists {dir : Bytes} {id : Nat} {main : Bytes} {fs : FS} (h : Leftover dir id [] main none fs) :
    Lists [decimal id] dir fs := by
  refine ⟨List.nodup_singleton _, fun fn => ?_⟩
  rw [List.mem_singleton]
  constructor
  · rintro rfl
    exact ⟨slash_not_mem_decimal id, by rw [h.main_eq]; rfl⟩
  · rintro ⟨hslash, hsome⟩
    rcases h.only fn hslash hsome with rfl | rfl | ⟨o, ho, -⟩
    · rfl
    · rw [h.tmp_eq] at hsome
      cases hsome
    · cases ho

lemma singleton_restorable {oid : Bytes} (h0 : 0 ∉ oid) {q : Pls}
    (hq : loadText (fileText (singleton oid)) = .ok q) (hsame : SameSaved (singleton oid) q) :
    Restorable (singleton oid) :=
  ⟨singleton_wf oid, by simp [singleton], fun _ _ => h0, q, hq, hsame⟩

lemma singleton_a : Restorable (singleton [97]) := by
  refine singleton_restorable (by decide) rfl ⟨rfl, rfl, rfl, rfl, rfl, rfl, by decide, fun h => absurd rfl h⟩

lemma singleton_b : Restorable (singleton [98]) := by
  refine singleton_restorable (by decide) rfl ⟨rfl, rfl, rfl, rfl, rfl, rfl, by decide, fun h => absurd rfl h⟩

/-- The temporary file was cut short, the daemon starts elsewhere: the old content is back. -/
theorem crash_recovery_elsewhere : ∃ d fs',
    loadPlaylists [99] [100] [[55], [55, 46, 116, 109, 112]] [[55], [55, 46, 116, 109, 112]]
      (crashed (singleton [98]) [100, 47, 55] (onlyFile [100] (singleton [97])) (.written 9)) Daemon.init =
        .ok (d, fs') ∧
      Recovered (singleton [97]) (singleton [98]) (.written 9) (d.playlistOf 7) := by
  have hstore := onlyFile_leftover [100] (singleton [97])
  have hids : ∀ o ∈ ([] : List Pls), o.id ≠ (singleton [97]).id := by simp
  have hdir : ([99] : Bytes) ≠ [100] := by decide
  have hleft := hstore.crashed hids (singleton [98]) (.written 9)
  have hlists := hleft.lists_tmp (List.Perm.refl _)
  obtain ⟨d, fs', hload, -, -, hiff⟩ := crash_recovery singleton_a singleton_b (by simp) rfl hids hstore (.written 9)
    hlists ((hleft.elsewhere hdir hlists).lists_tmp (List.Perm.refl _))
  exact ⟨d, fs', hload, hiff.mpr ⟨fun h => absurd h (by decide), fun _ h => absurd h (by decide)⟩⟩

/-- Nine bytes of the temporary file are on the disk and the daemon starts in the playlist
directory: the cut file replaces the old one and is rejected. Or the temporary file is
complete, the daemon starts elsewhere and finds the old file last. -/
theorem crash_loses_playlist :
    (∃ d fs' names', Restorable (singleton [97]) ∧ Restorable (singleton [98]) ∧
      Lists names' [100] (finishRenames [100] [[55], [55, 46, 116, 109, 112]]
        (crashed (singleton [98]) [100, 47, 55] (onlyFile [100] (singleton [97])) (.written 9))) ∧
      loadPlaylists [100] [100] [[55], [55, 46, 116, 109, 112]] names'
        (crashed (singleton [98]) [100, 47, 55] (onlyFile [100] (singleton [97])) (.written 9)) Daemon.init =
          .ok (d, fs') ∧
      d.playlistOf 7 = none) ∧
    ∃ d fs' q names', Lists names' [100] (finishRenames [99] [[55], [55, 46, 116, 109, 112]]
        (crashed (singleton [98]) [100, 47, 55] (onlyFile [100] (singleton [97]))
          (.written (fileText (singleton [98])).length))) ∧
      loadPlaylists [99] [100] [[55], [55, 46, 116, 109, 112]] names'
        (crashed (singleton [98]) [100, 47, 55] (onlyFile [100] (singleton [97]))
          (.written (fileText (singleton [98])).length)) Daemon.init = .ok (d, fs') ∧
      d.playlistOf 7 = some q ∧ cells q.vidx q.len = [[97]] := by
  have hstore := onlyFile_leftover [100] (singleton [97])
  have hids : ∀ o ∈ ([] : List Pls), o.id ≠ (singleton [97]).id := by simp
  have hdir : ([99] : Bytes) ≠ [100] := by decide
  constructor
  · have hleft := hstore.crashed hids (singleton [98]) (.written 9)
    have hlists := hleft.lists_tmp (List.Perm.refl _)
    exact ⟨_, _, [[55]], singleton_a, singleton_b, (hleft.here hids hlists).lists, rfl, rfl⟩
  · have hleft := hstore.crashed hids (singleton [98]) (.written (fileText (singleton [98])).length)
    have hlists := hleft.lists_tmp (List.Perm.refl _)
    exact ⟨_, _, _, [[55, 46, 116, 109, 112], [55]],
      (hleft.elsewhere hdir hlists).lists_tmp (List.Perm.swap _ _ _), rfl, rfl, by decide⟩

end MafwShared
