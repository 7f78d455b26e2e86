import MafwShared.Proofs.Allocation
import MafwShared.Proofs.ImportSessions

/-!
# Names of imported playlists

An import is named after the URI, with the least number behind it that makes a name no playlist
has. There is one, as the candidates differ and the playlists are finitely many. The loop does not
look whether the name is one that `pls_new` takes.
-/

namespace MafwShared
open CLib

/-- The object ids that an import has collected. -/
def PlparseData.entries (createObjectid : Bytes → Bytes) (data : PlparseData) : List Bytes :=
  if data.listFromBrowse then data.urilist else data.urilist.map createObjectid

/-- What an import should leave behind: a new playlist with the first free name and the collected entries. -/
structure Imported (createObjectid : Bytes → Bytes) (d : Daemon) (data : PlparseData) (d' : Daemon) (pls : Pls) :
    Prop where
  name_ne : pls.name ≠ []
  name_free : pls.name ∉ d.playlistsByName
  name_eq : ∃ count, pls.name = importName data.plUri count ∧
    ∀ k < count, importName data.plUri k ∈ d.playlistsByName
  byName : ∃ p, d'.playlistsByName = d.playlistsByName.insert pls.name p ∧
    d'.playlists = d.playlists.insert pls.id p ∧ d'.heap p = some pls
  items : cells pls.vidx pls.len = data.entries createObjectid

/-- The import ends, with such a playlist. -/
def ImportsNamed (createObjectid : Bytes → Bytes) (d : Daemon) (data : PlparseData) : Prop :=
  ∃ d' sent pls, d.importDone createObjectid data none = .ok (d', sent) ∧ Imported createObjectid d data d' pls

section
variable {createObjectid : Bytes → Bytes} {d : Daemon} {data : PlparseData}

/-! ### The first free name -/

/-- The first free name is empty only if the URI is empty and no playlist is called so. -/
lemma first_ne_nil {plUri name : Bytes} {count : Nat} (hfree : name ∉ d.playlistsByName)
    (hname : name = importName plUri count) (h : plUri ≠ [] ∨ [] ∈ d.playlistsByName) : name ≠ [] := by
  rcases h with huri | hmem
  · rw [hname]
    exact importName_ne huri count
  · rintro rfl
    exact hfree hmem

/-! ### The entries -/

lemma appendAll_items {oids : List Bytes} {p q : Pls} (hs : p.shuffled = 0) (hl : p.len ≤ p.alloc)
    (ha : p.alloc ≤ 2 ^ 31) (h : appendAll oids p = some q) :
    cells q.vidx q.len = cells p.vidx p.len ++ oids ∧ q.len ≤ 2 ^ 31 := by
  induction oids generalizing p with
  | nil =>
    cases h
    exact ⟨(List.append_nil _).symm, hl.trans ha⟩
  | cons oid oids ih =>
    obtain ⟨r, hr, hrest⟩ := Option.bind_eq_some_iff.mp h
    cases hroom : maybeRealloc p [oid].length with
    | none =>
      rw [plsAppend, plsInserts, if_neg (List.cons_ne_nil oid []), if_neg (Nat.lt_irrefl p.len), hroom] at hr
      cases hr
    | some p' =>
      obtain ⟨p'', hp'', -, hins⟩ := plsInserts_spec (List.cons_ne_nil oid []) le_rfl hroom
        (by rw [List.length_singleton]; omega)
      rw [plsAppend, hp''] at hr
      cases hr
      have hlen := hins.len_eq
      have hroom' : p.len + [oid].length ≤ p'.alloc := by
        have hle := (maybeRealloc_spec hroom).2.2
        rwa [Nat.mod_eq_of_lt (by rw [List.length_singleton]; omega)] at hle
      have halloc := (plsInserts_below (wf_of_unshuffled hl hs) hroom hroom' hp'').1
      have hle := maybeRealloc_le le_rfl ha hroom
      obtain ⟨hitems, hbound⟩ := ih (hins.shuffled_eq.trans hs) hins.len_le (halloc ▸ hle) hrest
      refine ⟨?_, hbound⟩
      rw [hitems, hins.items, List.take_of_length_le (by rw [length_cells]),
        List.drop_of_length_le (by rw [length_cells]), List.append_nil, List.append_assoc, List.singleton_append]

/-! ### The import -/

lemma addPlaylist_trees {name : Bytes} {new : Pls} (hnew : plsNew false d.lastId name = some new) :
    ∃ d', d.addPlaylist name = .ok (new, d.brk, d') ∧
      d'.playlistsByName = d.playlistsByName.insert new.name d.brk ∧
      d'.playlists = d.playlists.insert new.id d.brk := by
  have hnext : plsNew false d.nextId.1 name = some new := hnew
  refine ⟨_, by rw [Daemon.addPlaylist]; simp only [hnext]; rfl, ?_, ?_⟩
  · unfold Daemon.insertName Daemon.insertPlaylist
    dsimp only
    split <;> rfl
  · unfold Daemon.insertName Daemon.insertPlaylist
    dsimp only
    split <;> rfl

lemma plsNew_alloc {initializing : Bool} {id : Nat} {name : Bytes} {p : Pls}
    (h : plsNew initializing id name = some p) : p.alloc = 0 := by
  unfold plsNew plsSetName at h
  split at h
  · cases h
  · cases h
    split <;> rfl

lemma appendAll_new {id : Nat} {name : Bytes} {new pls : Pls} {oids : List Bytes}
    (hnew : plsNew false id name = some new) (hall : appendAll oids new = some pls) :
    cells pls.vidx pls.len = oids ∧ oids.length ≤ 2 ^ 31 := by
  obtain ⟨hs, hlen, -⟩ := plsNew_fields hnew
  have halloc := plsNew_alloc hnew
  obtain ⟨hitems, hbound⟩ := appendAll_items hs (by omega) (by omega) hall
  rw [hlen] at hitems
  have hcells : cells pls.vidx pls.len = oids := hitems
  refine ⟨hcells, ?_⟩
  rw [← hcells, length_cells]
  exact hbound

lemma imported_of_append {name : Bytes} {new pls : Pls}
    (hf : d.freeName data.plUri (d.playlistsByName.entries.length + 1) 0 = some name)
    (hnew : plsNew false d.lastId name = some new)
    (hall : appendAll (data.entries createObjectid) new = some pls) : ImportsNamed createObjectid d data := by
  obtain ⟨hne, hid, hname, -⟩ := plsNew_eq hnew
  obtain ⟨d', hadd, hbyName, hplaylists⟩ := addPlaylist_trees hnew
  obtain ⟨hfree, count, hcount, htaken⟩ := freeName_first hf
  have hsame := appendAll_identity hall
  have hplsname : pls.name = name := hsame.name_eq.trans hname
  have hdone : d.importDone createObjectid data none = .ok (d'.write d.brk pls,
      [.playlistImported data.sender [.uint32 data.importId, .uint32 pls.id], signalPlaylistCreated pls.id]) := by
    rw [PlparseData.entries] at hall
    rw [Daemon.importDone, hf]
    simp only [hadd, bind, Except.bind, hall]
  refine ⟨_, _, pls, hdone, ?_, ?_, ⟨count, ?_, fun k hk => htaken k (Nat.zero_le k) hk⟩, ⟨d.brk, ?_, ?_, ?_⟩,
    (appendAll_new hnew hall).1⟩
  · rw [hplsname]
    exact hne
  · rw [hplsname]
    exact hfree
  · rw [hplsname]
    exact hcount
  · rw [hsame.name_eq]
    exact hbyName
  · rw [hsame.id_eq]
    exact hplaylists
  · exact Function.update_self _ _ _

lemma importDone_found {name : Bytes}
    (hf : d.freeName data.plUri (d.playlistsByName.entries.length + 1) 0 = some name) :
    ImportsNamed createObjectid d data ↔ name ≠ [] ∧ data.urilist.length ≤ 2 ^ 31 := by
  have hentries : (data.entries createObjectid).length = data.urilist.length := by
    unfold PlparseData.entries
    split
    · rfl
    · exact List.length_map _
  by_cases hne : name = []
  · refine iff_of_false ?_ fun h => h.1 hne
    rintro ⟨d', sent, pls, hdone, -⟩
    have hnew : plsNew false d.nextId.1 name = none := by rw [plsNew, if_pos hne]
    rw [Daemon.importDone, hf] at hdone
    simp only [Daemon.addPlaylist, hnew, bind, Except.bind] at hdone
    cases hdone
  · obtain ⟨new, hnew⟩ := plsNew_isSome d.lastId hne
    have hlen := (plsNew_fields hnew).2.1
    cases hall : appendAll (data.entries createObjectid) new with
    | some pls =>
      have hbound := (appendAll_new hnew hall).2
      rw [hentries] at hbound
      exact iff_of_true (imported_of_append hf hnew hall) ⟨hne, hbound⟩
    | none =>
      refine iff_of_false ?_ ?_
      · rintro ⟨d', sent, pls, hdone, -⟩
        obtain ⟨d₁, hadd, -⟩ := addPlaylist_trees hnew
        rw [PlparseData.entries] at hall
        rw [Daemon.importDone, hf] at hdone
        simp only [hadd, bind, Except.bind, hall] at hdone
        cases hdone
      · rintro ⟨-, hbound⟩
        have hempty : new.len ≤ new.alloc := by
          rw [hlen]
          exact Nat.zero_le _
        have hroom : new.len + (data.entries createObjectid).length ≤ 2 ^ 31 := by
          rw [hlen, hentries]
          omega
        obtain ⟨pls, hpls⟩ := appendAll_isSome hempty hroom
        cases hall.symm.trans hpls

/-- An import is named as it should be exactly when the URI is not empty, or some playlist is called so, and its
entries are no more than a playlist can hold. -/
theorem import_names (createObjectid : Bytes → Bytes) (d : Daemon) (data : PlparseData) :
    ImportsNamed createObjectid d data ↔
      (data.plUri ≠ [] ∨ [] ∈ d.playlistsByName) ∧ data.urilist.length ≤ 2 ^ 31 := by
  obtain ⟨name, hf⟩ := freeName_isSome d data.plUri
  obtain ⟨hfree, count, hcount, htaken⟩ := freeName_first hf
  rw [importDone_found hf, and_congr_left_iff]
  intro _
  refine ⟨fun hne => ?_, first_ne_nil hfree hcount⟩
  by_contra hn
  rw [not_or, not_ne_iff] at hn
  obtain ⟨huri, hnone⟩ := hn
  by_cases hzero : count = 0
  · exact hne (by rw [hcount, huri, hzero]; rfl)
  · have hmem := htaken 0 le_rfl (by omega)
    rw [huri] at hmem
    exact hnone hmem

/-- The URI that a source gives for its container is empty. -/
def unnamedImport : PlparseData :=
  { plUri := [], sender := [], importId := 1, urilist := [[97]], listFromBrowse := true }

/-- `pls_new` takes no empty name, and `import_done` stores through what it returns. -/
theorem import_names_empty : Daemon.init.importDone id unnamedImport none = .error .nullDeref ∧
    ¬ ImportsNamed id Daemon.init unnamedImport := by
  have hcrash : Daemon.init.importDone id unnamedImport none = .error .nullDeref := rfl
  refine ⟨hcrash, ?_⟩
  rintro ⟨d', sent, pls, hdone, -⟩
  cases hcrash.symm.trans hdone

end
end MafwShared
