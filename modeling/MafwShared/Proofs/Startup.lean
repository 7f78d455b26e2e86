import MafwShared.Proofs.CrashRecovery
import MafwShared.Proofs.LoadChecks

/-!
# The registry after the start

The second pass of `load_playlists` puts every playlist that is loaded into both trees. The
addresses it uses are the positions in the list of loaded playlists, so that each tree finds
the last position with a key. The trees agree when the two keys have the same last positions.
-/

namespace MafwShared
open CLib

/-- Both trees hold the same live playlists under their own keys, and no id is above `Last_id`. -/
structure Consistent (d : Daemon) : Prop where
  by_id : ∀ id p, d.playlists.lookup id = some p → ∃ pls, d.heap p = some pls ∧ pls.id = id
  by_name : ∀ name p, d.playlistsByName.lookup name = some p → ∃ pls, d.heap p = some pls ∧ pls.name = name
  same : ∀ p, (∃ id, d.playlists.lookup id = some p) ↔ ∃ name, d.playlistsByName.lookup name = some p
  last_id : ∀ id ∈ d.playlists, id < d.lastId

/-- A file on which `pls_load` stays inside its buffer and gets a playlist from `pls_new`. -/
def Orderly (f : Bytes) : Prop :=
  (CutShort (linesOf f) → endOf f ≠ .outOfBounds) ∧ (HeaderInOrder (linesOf f) → (linesOf f)[2]? ≠ some [])

/-- A later playlist has the same id exactly when a later one has the same name. -/
def KeysAgree (loaded : List Pls) : Prop :=
  ∀ (i : Nat) (pls : Pls), loaded[i]? = some pls → ((∃ j > i, ∃ q : Pls, loaded[j]? = some q ∧ q.id = pls.id) ↔
    ∃ j > i, ∃ q : Pls, loaded[j]? = some q ∧ q.name = pls.name)

/-- The listed files can be loaded side by side. -/
structure StartsClean (dir : Bytes) (names : List Bytes) (fs : FS) : Prop where
  orderly : ∀ fn ∈ names, ∀ f, fs (buildFilename dir fn) = some (.regular f) → Orderly f
  keys : KeysAgree (names.filterMap (loadedFrom dir fs))

/-! ### The files one after another -/

lemma decided_iff_orderly (f : Bytes) : Decided (loadText f) ↔ Orderly f := by
  rcases loadText_verdict (reads_linesOf f) with
    ⟨hheader, hname, hr⟩ | ⟨p, hfile, hname, hr, hp, -, -⟩ | ⟨hcut, hname, hr⟩ | ⟨hfile, ⟨i, hi, hbad⟩, hname, hr⟩
  · refine iff_of_false ?_ fun h => h.2 hheader hname
    rw [hr]
    rintro (⟨q, hq⟩ | hq | hq) <;> cases hq
  · refine iff_of_true (Or.inl ⟨p, hr⟩) ⟨fun hcut => absurd hfile hcut.2, fun _ hnil => hname ?_⟩
    rw [hp.name_eq] at hnil
    exact Option.some.inj hnil
  · rw [hr]
    constructor
    · refine fun h => ⟨fun _ hend => ?_, hname⟩
      rw [hend] at h
      rcases h with ⟨q, hq⟩ | hq | hq <;> cases hq
    · intro h
      rw [(endOf_cases f).resolve_right (h.1 hcut)]
      exact Or.inr (Or.inl rfl)
  · exact iff_of_true (Or.inr hr) ⟨fun hcut => absurd (hcut.1 i hi) hbad, hname⟩

lemma decided_plsLoad_iff {fs : FS} {path : Bytes} :
    Decided (plsLoad fs path) ↔ ∀ f, fs path = some (.regular f) → Orderly f := by
  unfold plsLoad
  cases hnode : fs path with
  | none => exact iff_of_true (Or.inr (Or.inl rfl)) fun f hf => by cases hf
  | some node =>
    cases node with
    | other => exact iff_of_true (Or.inr (Or.inl rfl)) fun f hf => by cases hf
    | regular content =>
      rw [decided_iff_orderly]
      refine ⟨fun h f hf => ?_, fun h => h content rfl⟩
      cases hf
      exact h

section
variable {dir : Bytes} {fs : FS} {names : List Bytes} {d d' : Daemon}

lemma loadFiles_eq (hall : ∀ fn ∈ names, Decided (plsLoad fs (buildFilename dir fn))) :
    names.foldlM (loadFile dir fs) d = .ok ((names.filterMap (loadedFrom dir fs)).foldl Daemon.addLoaded d) := by
  induction names generalizing d with
  | nil => rfl
  | cons fn names ih =>
    have hrest := fun d => ih (d := d) fun x hx => hall x (List.mem_cons_of_mem fn hx)
    rw [List.foldlM_cons]
    rcases hall fn List.mem_cons_self with ⟨q, hq⟩ | hnull
    · have hstep : loadFile dir fs d fn = .ok (d.addLoaded q) := by rw [loadFile, hq]
      have hloaded : loadedFrom dir fs fn = some q := by rw [loadedFrom, hq]; rfl
      rw [hstep, List.filterMap_cons_some hloaded, List.foldl_cons]
      exact hrest _
    · have hstep : loadFile dir fs d fn = .ok d := by
        rcases hnull with hnull | hnull <;> rw [loadFile, hnull]
      have hloaded : loadedFrom dir fs fn = none := by
        rcases hnull with hnull | hnull <;> rw [loadedFrom, hnull] <;> rfl
      rw [hstep, List.filterMap_cons_none hloaded]
      exact hrest _

/-- A load that does not end in an orderly way ends the start. -/
lemma decided_of_loadFiles (h : names.foldlM (loadFile dir fs) d = .ok d') :
    ∀ fn ∈ names, Decided (plsLoad fs (buildFilename dir fn)) := by
  induction names generalizing d with
  | nil => exact fun fn hfn => by cases hfn
  | cons fn names ih =>
    rw [List.foldlM_cons] at h
    obtain ⟨d1, hstep, hrest⟩ := bind_ok h
    intro x hx
    rcases List.mem_cons.mp hx with rfl | hx
    · unfold loadFile at hstep
      cases hload : plsLoad fs (buildFilename dir x) with
      | ok q => exact Or.inl ⟨q, rfl⟩
      | error stop =>
        rw [hload] at hstep
        cases stop with
        | null => exact Or.inr (Or.inl rfl)
        | unassigned => exact Or.inr (Or.inr rfl)
        | nullDeref | outOfBounds | noReturn => cases hstep
    · exact ih hrest x hx

/-! ### The trees -/

/-- The daemon after the playlists of the list were loaded. -/
structure Filled (loaded : List Pls) (d : Daemon) : Prop where
  brk_eq : d.brk = loaded.length
  byId : ∀ id p, d.playlists.lookup id = some p ↔ IsLast Pls.id loaded id p
  byName : ∀ name p, d.playlistsByName.lookup name = some p ↔ IsLast Pls.name loaded name p
  heap_eq : ∀ p pls, d.heap p = some pls ↔ loaded[p]? = some pls ∧ IsLast Pls.id loaded pls.id p
  last_id : ∀ q ∈ loaded, q.id < d.lastId

lemma addLoaded_keys (d : Daemon) (pls : Pls) :
    (d.addLoaded pls).playlistsByName = d.playlistsByName.insert pls.name d.brk ∧
      (d.addLoaded pls).lastId = if d.lastId ≤ pls.id then (pls.id + 1) % 2 ^ 32 else d.lastId := by
  unfold Daemon.addLoaded Daemon.insertPlaylist Daemon.malloc Daemon.insertName Daemon.free
  dsimp only
  split <;> cases d.playlists.lookup pls.id <;> exact ⟨rfl, rfl⟩

variable {loaded : List Pls}

lemma filled_init : Filled [] Daemon.init := by
  refine ⟨rfl, fun id p => ?_, fun name p => ?_, fun p pls => ?_, fun q hq => by cases hq⟩
  · exact iff_of_false (fun h => by cases h) IsLast.nil
  · exact iff_of_false (fun h => by cases h) IsLast.nil
  · exact iff_of_false (fun h => by cases h) fun h => by cases h.1

lemma Filled.tracked (h : Filled loaded d) : Tracked d := by
  refine ⟨fun id p => ?_, fun p hp => ?_⟩
  · rw [h.byId]
    constructor
    · rintro ⟨x, hx, rfl, hlater⟩
      exact ⟨x, (h.heap_eq p x).mpr ⟨hx, x, hx, rfl, hlater⟩, rfl⟩
    · rintro ⟨x, hx, rfl⟩
      exact ((h.heap_eq p x).mp hx).2
  · obtain ⟨pls, hpls⟩ := Option.isSome_iff_exists.mp hp
    rw [h.brk_eq]
    exact (List.getElem?_eq_some_iff.mp ((h.heap_eq p pls).mp hpls).1).1

lemma Filled.next (h : Filled loaded d) {q : Pls} (hq : q.id < 2 ^ 31) : Filled (loaded ++ [q]) (d.addLoaded q) := by
  obtain ⟨hids, hbrk, -⟩ := addLoaded_fields d q
  obtain ⟨hnames, hlast⟩ := addLoaded_keys d q
  refine ⟨by rw [hbrk, h.brk_eq, List.length_append, List.length_singleton], fun id p => ?_, fun name p => ?_,
    fun p pls => ?_, fun r hr => ?_⟩
  · rw [hids, IsLast.concat, h.brk_eq]
    by_cases hid : id = q.id
    · rw [hid, AList.lookup_insert, if_pos rfl, Option.some.injEq, eq_comm]
    · rw [AList.lookup_insert_ne hid, if_neg hid, h.byId]
  · rw [hnames, IsLast.concat, h.brk_eq]
    by_cases hname : name = q.name
    · rw [hname, AList.lookup_insert, if_pos rfl, Option.some.injEq, eq_comm]
    · rw [AList.lookup_insert_ne hname, if_neg hname, h.byName]
  · rw [h.tracked.addLoaded_heap, h.brk_eq, IsLast.getElem?_concat_iff, IsLast.concat]
    by_cases hp : p = loaded.length
    · have hnone : loaded[p]? = none := List.getElem?_eq_none hp.ge
      rw [if_pos hp, hnone]
      constructor
      · intro he
        cases he
        exact ⟨Or.inr ⟨hp, rfl⟩, by rw [if_pos rfl]; exact hp⟩
      · rintro ⟨he | ⟨-, rfl⟩, -⟩
        · cases he
        · rfl
    · rw [if_neg hp, or_iff_left fun he => hp he.1]
      by_cases hid : pls.id = q.id
      · rw [if_pos hid]
        refine iff_of_false (fun he => ?_) fun he => hp he.2
        split at he
        · cases he
        · rename_i hnot
          exact hnot ((h.byId _ _).mpr (hid ▸ ((h.heap_eq p pls).mp he).2))
      · rw [if_neg hid, ← h.heap_eq]
        split
        · rename_i hfound
          refine iff_of_false (fun he => by cases he) fun he => hid ?_
          obtain ⟨x, hx, hxid, -⟩ := (h.byId _ _).mp hfound
          rw [((h.heap_eq p pls).mp he).1] at hx
          cases hx
          exact hxid
        · rfl
  · rw [hlast]
    rcases List.mem_append.mp hr with hr | hr
    · have hrlast := h.last_id r hr
      split <;> omega
    · rw [List.mem_singleton.mp hr]
      split <;> omega

lemma filled_foldl (hids : ∀ q ∈ loaded, q.id < 2 ^ 31) : Filled loaded (loaded.foldl Daemon.addLoaded Daemon.init) := by
  induction loaded using List.reverseRecOn with
  | nil => exact filled_init
  | append_singleton loaded q ih =>
    rw [List.foldl_append]
    refine (ih fun r hr => hids r (List.mem_append_left _ hr)).next (hids q ?_)
    exact List.mem_append_right _ (List.mem_singleton_self q)

/-! ### Agreement -/

lemma isLast_iff {κ : Type} (key : Pls → κ) {i : Nat} {pls : Pls} (h : loaded[i]? = some pls) :
    IsLast key loaded (key pls) i ↔ ¬ ∃ j > i, ∃ q, loaded[j]? = some q ∧ key q = key pls := by
  constructor
  · rintro ⟨x, -, -, hlater⟩ ⟨j, hj, q, hq, hkey⟩
    exact hlater j hj q hq hkey
  · exact fun hnot => ⟨pls, h, rfl, fun j hj q hq hkey => hnot ⟨j, hj, q, hq, hkey⟩⟩

lemma keysAgree_iff : KeysAgree loaded ↔ ∀ i pls, loaded[i]? = some pls →
    (IsLast Pls.id loaded pls.id i ↔ IsLast Pls.name loaded pls.name i) := by
  refine forall_congr' fun i => forall_congr' fun pls => forall_congr' fun hpls => ?_
  rw [isLast_iff Pls.id hpls, isLast_iff Pls.name hpls, not_iff_not]

lemma Filled.consistent_iff (h : Filled loaded d) : Consistent d ↔ KeysAgree loaded := by
  rw [keysAgree_iff]
  constructor
  · intro hc i pls hpls
    constructor
    · intro hlast
      obtain ⟨name, hname⟩ := (hc.same i).mp ⟨pls.id, (h.byId _ _).mpr hlast⟩
      have hlast' := (h.byName _ _).mp hname
      obtain ⟨x, hx, rfl, -⟩ := hlast'
      rw [hpls] at hx
      cases hx
      exact (h.byName _ _).mp hname
    · intro hlast
      obtain ⟨id, hid⟩ := (hc.same i).mpr ⟨pls.name, (h.byName _ _).mpr hlast⟩
      have hlast' := (h.byId _ _).mp hid
      obtain ⟨x, hx, rfl, -⟩ := hlast'
      rw [hpls] at hx
      cases hx
      exact (h.byId _ _).mp hid
  · intro hkeys
    refine ⟨fun id p hp => ?_, fun name p hp => ?_, fun p => ⟨?_, ?_⟩, fun id hid => ?_⟩
    · have hlast := (h.byId id p).mp hp
      obtain ⟨x, hx, rfl, -⟩ := (h.byId id p).mp hp
      exact ⟨x, (h.heap_eq p x).mpr ⟨hx, hlast⟩, rfl⟩
    · have hlast := (h.byName name p).mp hp
      obtain ⟨x, hx, rfl, -⟩ := (h.byName name p).mp hp
      exact ⟨x, (h.heap_eq p x).mpr ⟨hx, (hkeys p x hx).mpr hlast⟩, rfl⟩
    · rintro ⟨id, hid⟩
      have hlast := (h.byId id p).mp hid
      obtain ⟨x, hx, rfl, -⟩ := (h.byId id p).mp hid
      exact ⟨x.name, (h.byName _ _).mpr ((hkeys p x hx).mp hlast)⟩
    · rintro ⟨name, hname⟩
      have hlast := (h.byName name p).mp hname
      obtain ⟨x, hx, rfl, -⟩ := (h.byName name p).mp hname
      exact ⟨x.id, (h.byId _ _).mpr ((hkeys p x hx).mpr hlast)⟩
    · obtain ⟨p, hp⟩ := Option.isSome_iff_exists.mp (AList.lookup_isSome.mpr hid)
      obtain ⟨x, hx, rfl, -⟩ := (h.byId id p).mp hp
      exact h.last_id x (List.mem_of_getElem? hx)

lemma loadedFrom_id_lt (dir : Bytes) (fs : FS) (names : List Bytes) :
    ∀ q ∈ names.filterMap (loadedFrom dir fs), q.id < 2 ^ 31 := by
  intro q hq
  obtain ⟨fn, -, hload⟩ := List.mem_filterMap.mp hq
  unfold loadedFrom plsLoad at hload
  split at hload
  · cases hload
  · cases hload
  · rename_i content _
    cases hr : loadText content with
    | error stop =>
      rw [hr] at hload
      cases hload
    | ok r =>
      rw [hr] at hload
      cases hload
      exact (loadText_bounds hr).1

/-- The start establishes the registry exactly when the files, as the first pass leaves them,
can be loaded side by side. -/
theorem startup_consistent (cwd dir : Bytes) (names names' : List Bytes) (fs : FS) :
    (∃ d fs', loadPlaylists cwd dir names names' fs Daemon.init = .ok (d, fs') ∧ Consistent d) ↔
      StartsClean dir names' (finishRenames cwd names fs) := by
  have hdecided : ∀ fn, Decided (plsLoad (finishRenames cwd names fs) (buildFilename dir fn)) ↔ ∀ f,
      finishRenames cwd names fs (buildFilename dir fn) = some (.regular f) → Orderly f := fun fn =>
    decided_plsLoad_iff
  have hfilled := filled_foldl (loadedFrom_id_lt dir (finishRenames cwd names fs) names')
  constructor
  · rintro ⟨d, fs', hload, hc⟩
    unfold loadPlaylists at hload
    dsimp only at hload
    cases hfold : names'.foldlM (loadFile dir (finishRenames cwd names fs)) Daemon.init with
    | error stop =>
      rw [hfold] at hload
      cases hload
    | ok d' =>
      rw [hfold] at hload
      cases hload
      have hall := decided_of_loadFiles hfold
      rw [loadFiles_eq hall] at hfold
      cases hfold
      exact ⟨fun fn hfn => (hdecided fn).mp (hall fn hfn), hfilled.consistent_iff.mp hc⟩
  · intro h
    refine ⟨_, finishRenames cwd names fs, ?_, hfilled.consistent_iff.mpr h.keys⟩
    unfold loadPlaylists
    dsimp only
    rw [loadFiles_eq fun fn hfn => (hdecided fn).mpr (h.orderly fn hfn)]
    rfl

end

/-- The directory `d` with the files `1` and `2`. -/
def twoFiles (f f' : Bytes) : FS := fun path =>
  if path = [100, 47, 49] then some (.regular f) else if path = [100, 47, 50] then some (.regular f') else none

/-- Two files with the same id and different names, and two with the same name and different
ids. -/
theorem startup_inconsistent :
    (¬ ∃ d fs', loadPlaylists [100] [100] [[49], [50]] [[49], [50]]
      (twoFiles [86, 50, 10, 49, 10, 97, 10, 48, 10, 48, 10, 48, 10, 48, 10]
        [86, 50, 10, 49, 10, 98, 10, 48, 10, 48, 10, 48, 10, 48, 10]) Daemon.init = .ok (d, fs') ∧ Consistent d) ∧
    ¬ ∃ d fs', loadPlaylists [100] [100] [[49], [50]] [[49], [50]]
      (twoFiles [86, 50, 10, 49, 10, 97, 10, 48, 10, 48, 10, 48, 10, 48, 10]
        [86, 50, 10, 50, 10, 97, 10, 48, 10, 48, 10, 48, 10, 48, 10]) Daemon.init = .ok (d, fs') ∧ Consistent d := by
  constructor
  · rintro ⟨d, fs', hload, hc⟩
    obtain ⟨hname, hheap⟩ : d.playlistsByName.lookup [97] = some 0 ∧ d.heap 0 = none := by
      cases hload
      exact ⟨rfl, rfl⟩
    obtain ⟨pls, hpls, -⟩ := hc.by_name [97] 0 hname
    rw [hheap] at hpls
    cases hpls
  · rintro ⟨d, fs', hload, hc⟩
    obtain ⟨hid, hpls, hnone⟩ : d.playlists.lookup 1 = some 0 ∧ (∃ pls, d.heap 0 = some pls ∧ pls.name = [97]) ∧
        d.playlistsByName.lookup [97] = some 1 := by
      cases hload
      exact ⟨rfl, ⟨_, rfl, rfl⟩, rfl⟩
    obtain ⟨pls, hpls, hname⟩ := hpls
    obtain ⟨name, hfound⟩ := (hc.same 0).mp ⟨1, hid⟩
    obtain ⟨pls', hpls', rfl⟩ := hc.by_name name 0 hfound
    rw [hpls] at hpls'
    cases hpls'
    rw [hname, hnone] at hfound
    cases hfound

end MafwShared
