import MafwShared.Proofs.DestroyedPlaylists
import MafwShared.Proofs.StorablePlaylists

/-!
# A restart keeps all playlists

A daemon that exits and starts again has the playlists that it had before, with everything in them:
names, items, modes and play orders. Nobody who listens to one can tell that there was a restart.
-/

namespace MafwShared
open CLib

/-- Requests keep playlists storable, and a removed playlist leaves no temporary file that could be
loaded. At an exit the flush of every save, which is not checked, gets everything out. -/
def Persists (createObjectid : Bytes → Bytes) (dir : Bytes) : Store → StoreEvent → Prop
  | ⟨.running d, fs⟩, .request e =>
    e.Lasts createObjectid d ∧ ∀ sender id, e = .destroy sender id → d.unlinks id = true →
      ∀ content, fs (temporaryPath dir id) = some (.regular content) → ReturnsNull (loadText content)
  | ⟨.running d, _⟩, .exit calls => ∀ p pls, d.heap p = some pls → (calls pls.id).WritesAll pls
  | _, _ => True

/-- The directory after an exit: the file of each id brings back what the id stood for. -/
structure SavedAs (dir : Bytes) (old : Nat → Option Pls) (ids : List Nat) (fs : FS) : Prop
    extends SavedAll dir ids fs where
  files : ∀ n ∈ ids, ∃ pls content q, old n = some pls ∧ fs (playlistPath dir n) = some (.regular content) ∧
    loadText content = .ok q ∧ Storable q ∧ SameSaved pls q

section
variable {createObjectid : Bytes → Bytes} {dir cwd : Bytes} {d : Daemon} {old : Nat → Option Pls} {ids : List Nat}
  {fs : FS} {names : List Bytes}

/-! ### The exit -/

lemma Storable.flushed {p : Pls} (h : Storable p) {c : SaveCalls} (hc : c.WritesAll p) :
    ∃ q, loadText (c.flushed p) = .ok q ∧ Storable q ∧ SameSaved p q := by
  obtain ⟨q, hq, hwf, hsame⟩ := h.restores
  rw [(flushed_eq_iff c p).mpr hc]
  exact ⟨q, hq, h.of_sameSaved hwf hsame, hsame⟩

lemma storeKeeps_exit {calls : Nat → SaveCalls} (hall : d.AllStorable)
    (hwrites : ∀ p pls, d.heap p = some pls → (calls pls.id).WritesAll pls) :
    StoreKeeps dir ⟨.running d, fs⟩ (.exit calls) := by
  intro p pls hpls
  obtain ⟨q, hq, -, hsame⟩ := (hall p pls hpls).flushed (hwrites p pls hpls)
  exact ⟨q, hq, hsame.id_eq, hsame.name_eq⟩

lemma savedAs_exit {calls : Nat → SaveCalls} (hreg : Registry d) (hown : OwnFiles dir (· ∈ d.playlists) fs)
    (hall : d.AllStorable) (hacc : ∀ p pls, d.heap p = some pls → (calls pls.id).Accepted pls)
    (hwrites : ∀ p pls, d.heap p = some pls → (calls pls.id).WritesAll pls) :
    SavedAs dir d.playlistOf d.playlists.keys (d.saveAllPlaylists dir calls fs) := by
  refine ⟨hown.exited hreg hacc (storeKeeps_exit hall hwrites), fun n hn => ?_⟩
  have hentry : ∀ e ∈ d.playlists.entries, ∃ pls, d.heap e.2 = some pls ∧ pls.id = e.1 := fun e he =>
    (hreg.byId e.1 e.2).mp (AList.mem_lookup_iff.mpr he)
  obtain ⟨-, hsaved⟩ := saveEntries_spec dir fs d.playlists.nodupKeys hentry fun e he pls hpls => by
    obtain ⟨pls', hpls', hid⟩ := hentry e he
    rw [hpls] at hpls'
    cases hpls'
    exact hid ▸ hacc e.2 pls hpls
  obtain ⟨p, hp⟩ := Option.isSome_iff_exists.mp (AList.lookup_isSome.mpr (AList.mem_keys.mpr hn))
  obtain ⟨pls, hpls, rfl⟩ := (hreg.byId n p).mp hp
  obtain ⟨q, hq, hstorable, hsame⟩ := (hall p pls hpls).flushed (hwrites p pls hpls)
  refine ⟨pls, _, q, ?_, (hsaved _ (AList.mem_lookup_iff.mp hp) pls hpls).1, hq, hstorable, hsame⟩
  rw [Daemon.playlistOf, hp]
  exact hpls

/-! ### The start -/

lemma SavedAll.finishRenames_main (h : SavedAll dir ids fs) (hnames : Lists names dir fs) {n : Nat} (hn : n ∈ ids) :
    MafwShared.finishRenames cwd names fs (playlistPath dir n) = fs (playlistPath dir n) := by
  have hslash : ∀ fn ∈ names, 47 ∉ fn := fun fn hfn => ((hnames.mem_iff fn).mp hfn).1
  by_cases hdir : cwd = dir
  · subst hdir
    have hkind : ∀ fn ∈ names, (∃ m, fn = decimal m) ∨ ∃ m, m ≠ n ∧ fn = decimal m ++ tmpSuffix := by
      intro fn hfn
      obtain ⟨node, hnode⟩ := Option.isSome_iff_exists.mp ((hnames.mem_iff fn).mp hfn).2
      obtain ⟨-, m, rfl | rfl⟩ := h.own fn (hslash fn hfn) node hnode
      · exact Or.inl ⟨m, rfl⟩
      · refine Or.inr ⟨m, fun hm => ?_, rfl⟩
        subst hm
        have hnone : fs (buildFilename cwd (decimal m ++ tmpSuffix)) = none := h.no_tmp m hn
        rw [hnode] at hnone
        cases hnone
    clear hnames hslash h
    induction names generalizing fs with
    | nil => rfl
    | cons fn names ih =>
      rw [MafwShared.finishRenames, List.foldl_cons]
      refine (ih fun x hx => hkind x (List.mem_cons_of_mem fn hx)).trans ?_
      rcases hkind fn List.mem_cons_self with ⟨m, rfl⟩ | ⟨m, hm, rfl⟩
      · rw [MafwShared.finishRename, tmpStem_decimal]
      · have hmain : playlistPath cwd n ≠ playlistPath cwd m := playlistPath_ne hm.symm cwd
        have htmp : playlistPath cwd n ≠ temporaryPath cwd m := playlistPath_ne_temporaryPath cwd n m
        rcases finishRename_cases cwd fs (tmpStem_tmp (decimal_ne_nil m)) with he | he
        · rw [he]
          exact rename_of_ne fs htmp hmain
        · rw [he]
          exact unlink_of_ne fs htmp
  · exact finishRenames_elsewhere hdir hslash (slash_not_mem_decimal n) fs

lemma SavedAs.finishRenames (h : SavedAs dir old ids fs) (hnames : Lists names dir fs) :
    SavedAs dir old ids (MafwShared.finishRenames cwd names fs) := by
  refine ⟨SavedAll.finishRenames h.toSavedAll hnames, fun n hn => ?_⟩
  rw [h.toSavedAll.finishRenames_main hnames hn]
  exact h.files n hn

lemma SavedAs.loadedFrom_eq (h : SavedAs dir old ids fs) {n : Nat} (hn : n ∈ ids) :
    ∃ pls q, old n = some pls ∧ loadedFrom dir fs (decimal n) = some q ∧ q.id = n ∧ Storable q ∧ SameSaved pls q := by
  obtain ⟨pls, content, q, hold, hcontent, hq, hstorable, hsame⟩ := h.files n hn
  have hload : plsLoad fs (buildFilename dir (decimal n)) = .ok q := (plsLoad_regular hcontent).trans hq
  obtain ⟨nameOf, -, hloads⟩ := h.loads
  obtain ⟨content', q', hcontent', hq', hid, -⟩ := hloads n hn
  rw [hcontent] at hcontent'
  cases hcontent'
  rw [hq] at hq'
  cases hq'
  exact ⟨pls, q, hold, by rw [loadedFrom, hload]; rfl, hid, hstorable, hsame⟩

lemma SavedAs.loadFiles (h : SavedAs dir old ids fs) (hnames : Lists names dir fs) :
    ∃ d', names.foldlM (loadFile dir fs) Daemon.init = .ok d' ∧ Registry d' ∧ d'.AllStorable ∧
      (∀ id, id ∈ d'.playlists ↔ id ∈ ids) ∧
      ∀ id ∈ ids, ∃ pls q, old id = some pls ∧ d'.playlistOf id = some q ∧ SameSaved pls q := by
  obtain ⟨d', hd', hreg, hids⟩ := h.toSavedAll.loadFiles hnames
  have hdecided : ∀ fn ∈ names, Decided (plsLoad fs (buildFilename dir fn)) := fun fn hfn =>
    (h.toSavedAll.decided hnames fn hfn).elim Or.inr fun ⟨_, _, _, q, hq, _⟩ => Or.inl ⟨q, hq⟩
  have hstart : Tracked Daemon.init := ⟨(registry_init 1).byId, (registry_init 1).fresh⟩
  obtain ⟨d'', hd'', htracked, hof⟩ := hstart.loadFiles hdecided
  rw [hd'] at hd''
  cases hd''
  -- one file has the id, so that it is the one that is loaded last
  have hback : ∀ id ∈ ids, d'.playlistOf id = loadedFrom dir fs (decimal id) := by
    intro id hid
    obtain ⟨pls, q, -, hq, hqid, -⟩ := h.loadedFrom_eq hid
    obtain ⟨-, content, -, -, hcontent, -⟩ := h.files id hid
    have hmem : decimal id ∈ names := (hnames.mem_iff _).mpr ⟨slash_not_mem_decimal id, by
      rw [show buildFilename dir (decimal id) = playlistPath dir id from rfl, hcontent]
      rfl⟩
    rw [hof, find_only hnames.nodup hmem (fun r hr => by rw [hq] at hr; cases hr; exact hqid) fun x hx r hr hrid => by
      rw [(h.toSavedAll.loadedFrom_eq hnames hx hr).2, hrid], hq]
    rfl
  refine ⟨d', hd', hreg, fun p pls hpls => ?_, hids, fun id hid => ?_⟩
  · have hlive : d'.playlistOf pls.id = some pls := htracked.playlistOf_eq_some.mpr ⟨p, hpls, rfl⟩
    have hid : pls.id ∈ ids := (hids pls.id).mp (AList.lookup_isSome.mp (by rw [hreg.byId.lookup hpls]; rfl))
    obtain ⟨-, q, -, hq, -, hstorable, -⟩ := h.loadedFrom_eq hid
    rw [hback pls.id hid, hq] at hlive
    cases hlive
    exact hstorable
  · obtain ⟨pls, q, hold, hq, -, -, hsame⟩ := h.loadedFrom_eq hid
    exact ⟨pls, q, hold, (hback id hid).trans hq, hsame⟩

/-! ### Runs -/

/-- What a run keeps. -/
def StoreKept (dir : Bytes) : Store → Prop
  | ⟨.running d, fs⟩ => Registry d ∧ OwnFiles dir (· ∈ d.playlists) fs ∧ d.AllStorable
  | ⟨.exited ids, fs⟩ => ∃ old, SavedAs dir old ids fs

lemma saveMe_storable {pls : Pls} (h : Storable pls) (ensured : Bool) (c : SaveCalls) (dir : Bytes) (fs : FS) :
    Storable (saveMe ensured c dir pls fs).1 := by
  cases ensured with
  | false => exact h
  | true =>
    unfold saveMe
    dsimp only
    cases (plsSave c pls (playlistPath dir pls.id) fs).1
    · exact h
    · exact h.intrinsic _ _

lemma StoreKept.step {s t : Store} {e : StoreEvent} (h : StoreKept dir s) (hg : Persists createObjectid dir s e)
    (hs : StoreStep createObjectid dir s e t) : StoreKept dir t := by
  cases hs with
  | @request d d' fs e sent he =>
    obtain ⟨hreg, hown, hall⟩ := h
    have hturn := Turned.of_ok hreg hg.1.fresh he
    exact ⟨hturn.registry hreg hg.1.fresh, hown.requested hreg ⟨hg.1.fresh, hg.2⟩ he, hturn.allStorable hall hg.1⟩
  | @save d fs p pls ensured calls hpls =>
    obtain ⟨hreg, hown, hall⟩ := h
    obtain ⟨hid, hname⟩ := saveMe_identity ensured calls dir pls fs
    have hsaved := saveMe_storable (hall p pls hpls) ensured calls dir fs
    refine ⟨hreg.write hpls hid hname, hown.saved ensured calls ?_, hall.update hsaved rfl⟩
    rw [← AList.lookup_isSome, hreg.byId.lookup hpls]
    rfl
  | @exit d fs calls hsaved =>
    obtain ⟨hreg, hown, hall⟩ := h
    exact ⟨d.playlistOf, savedAs_exit hreg hown hall
      (fun p pls hpls => (plsSave_effect _ pls _ fs).accepted.mp (hsaved p pls hpls fs)) hg⟩
  | @restart ids fs d fs' cwd names names' hnames hnames' hload =>
    obtain ⟨old, hold⟩ := h
    have hfirst : SavedAs dir old ids (finishRenames cwd names fs) := hold.finishRenames hnames
    obtain ⟨d', hd', hreg, hall, hids, -⟩ := hfirst.loadFiles hnames'
    unfold loadPlaylists at hload
    dsimp only at hload
    rw [hd'] at hload
    cases hload
    exact ⟨hreg, hfirst.toOwnFiles.mono fun n hn => (hids n).mpr hn, hall⟩

lemma storeKept_empty (hempty : ∀ fn, fs (buildFilename dir fn) = none) : StoreKept dir ⟨.running Daemon.init, fs⟩ := by
  refine ⟨registry_init 1, ⟨fun fn _ node hnode => ?_, fun n _ content hc => ?_⟩, fun p pls hpls => by cases hpls⟩
  · rw [hempty] at hnode
    cases hnode
  · rw [playlistPath, temporaryPath, hempty, hempty] at hc
    rcases hc with hc | hc <;> cases hc

lemma SameSaved.content {p q : Pls} (h : SameSaved p q) : SameContent p q :=
  ⟨h.len_eq, h.repeatMode_eq, h.shuffled_eq, h.poolst_eq, cells_inj.mp h.items, fun hs => cells_inj.mp (h.order hs).1,
    fun hs => cells_inj.mp (h.order hs).2⟩

end

lemma saveAllPlaylists_singleton {d : Daemon} {p : Ptr} {pls : Pls} (hentries : d.playlists.entries = [⟨pls.id, p⟩])
    (hpls : d.heap p = some pls) (dir : Bytes) (calls : Nat → SaveCalls) (fs : FS) :
    d.saveAllPlaylists dir calls fs = (plsSave (calls pls.id) pls (playlistPath dir pls.id) fs).2 := by
  rw [Daemon.saveAllPlaylists, hentries, List.foldl_cons, List.foldl_nil, hpls]
  rfl

lemma letters_plain : ∀ oid ∈ [[97], [98], [99]], PlainOid oid := by
  intro oid h
  simp only [List.mem_cons, List.not_mem_nil, or_false] at h
  rcases h with rfl | rfl | rfl <;> exact ⟨by decide, by decide, List.forall_mem_singleton.mpr rfl, by decide⟩

end MafwShared
