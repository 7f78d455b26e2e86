import MafwShared.PlaylistStore
import MafwShared.Proofs.RegistryRuns
import MafwShared.Proofs.Startup

/-!
# Destroyed playlists stay destroyed

The invariant of a store over its runs: every file in the directory is the file or the
temporary file of some id, and those of an id that is not in `Playlists` cannot be loaded.
The step that can break it is a destroy request: it unlinks the file of the playlist, not the
temporary file that a failed save left behind.
-/

namespace MafwShared
open CLib

/-- The temporary file of a playlist. -/
def temporaryPath (dir : Bytes) (id : Nat) : Bytes := buildFilename dir (decimal id ++ tmpSuffix)

/-- A removed playlist leaves no temporary file that `pls_load` accepts, and what is saved at
an exit is what `pls_load` brings back. -/
def StoreKeeps (dir : Bytes) : Store → StoreEvent → Prop
  | ⟨.running d, fs⟩, .request e =>
    (e.Creates → d.playlists.lookup d.lastId = none) ∧
      ∀ sender id, e = .destroy sender id → d.unlinks id = true →
        ∀ content, fs (temporaryPath dir id) = some (.regular content) → ReturnsNull (loadText content)
  | ⟨.running d, _⟩, .exit calls => ∀ p pls, d.heap p = some pls →
      ∃ q, loadText ((calls pls.id).flushed pls) = .ok q ∧ q.id = pls.id ∧ q.name = pls.name
  | _, _ => True

/-! ### The directory -/

/-- The files in the directory are the daemon's, and those of other ids than the live ones
cannot be loaded. -/
structure OwnFiles (dir : Bytes) (live : Nat → Prop) (fs : FS) : Prop where
  own : ∀ fn, 47 ∉ fn → ∀ node, fs (buildFilename dir fn) = some node →
    (∃ content, node = .regular content) ∧ ∃ n, fn = decimal n ∨ fn = decimal n ++ tmpSuffix
  dead : ∀ n, ¬ live n → ∀ content, fs (playlistPath dir n) = some (.regular content) ∨
    fs (temporaryPath dir n) = some (.regular content) → ReturnsNull (loadText content)

/-- The directory after an exit: one file for each playlist, that brings it back. -/
structure SavedAll (dir : Bytes) (ids : List Nat) (fs : FS) : Prop extends OwnFiles dir (· ∈ ids) fs where
  no_tmp : ∀ n ∈ ids, fs (temporaryPath dir n) = none
  loads : ∃ nameOf : Nat → Bytes, (∀ m ∈ ids, ∀ n ∈ ids, nameOf m = nameOf n → m = n) ∧
    ∀ n ∈ ids, ∃ content q, fs (playlistPath dir n) = some (.regular content) ∧ loadText content = .ok q ∧
      q.id = n ∧ q.name = nameOf n

section
variable {dir : Bytes} {live live' : Nat → Prop} {fs fs' : FS}

lemma playlistPath_ne {m n : Nat} (h : m ≠ n) (dir : Bytes) : playlistPath dir m ≠ playlistPath dir n :=
  path_ne (slash_not_mem_decimal m) (slash_not_mem_decimal n) (fun he => h (decimal_inj he)) dir

lemma temporaryPath_ne {m n : Nat} (h : m ≠ n) (dir : Bytes) : temporaryPath dir m ≠ temporaryPath dir n :=
  path_ne (slash_not_mem_tmp m) (slash_not_mem_tmp n)
    (fun he => h (decimal_inj (List.append_cancel_right he))) dir

lemma playlistPath_ne_temporaryPath (dir : Bytes) (m n : Nat) : playlistPath dir m ≠ temporaryPath dir n :=
  decimal_path_ne_tmp dir m n

lemma OwnFiles.change (h : OwnFiles dir live fs) {id : Nat}
    (hother : ∀ path, path ≠ playlistPath dir id → path ≠ temporaryPath dir id → fs' path = fs path)
    (hregular : ∀ path, path = playlistPath dir id ∨ path = temporaryPath dir id → ∀ node, fs' path = some node →
      ∃ content, node = .regular content)
    (hlive : ∀ n, n ≠ id → ¬ live' n → ¬ live n)
    (hdead : ¬ live' id → ∀ content, fs' (playlistPath dir id) = some (.regular content) ∨
      fs' (temporaryPath dir id) = some (.regular content) → ReturnsNull (loadText content)) :
    OwnFiles dir live' fs' := by
  refine ⟨fun fn hfn node hnode => ?_, fun n hn content hcontent => ?_⟩
  · by_cases hmain : buildFilename dir fn = playlistPath dir id
    · exact ⟨hregular _ (Or.inl hmain) node hnode,
        id, Or.inl (buildFilename_inj hfn (slash_not_mem_decimal id) hmain).2⟩
    · by_cases htmp : buildFilename dir fn = temporaryPath dir id
      · exact ⟨hregular _ (Or.inr htmp) node hnode, id, Or.inr (buildFilename_inj hfn (slash_not_mem_tmp id) htmp).2⟩
      · rw [hother _ hmain htmp] at hnode
        exact h.own fn hfn node hnode
  · by_cases hid : n = id
    · subst hid
      exact hdead hn content hcontent
    · rw [hother _ (playlistPath_ne hid dir) (playlistPath_ne_temporaryPath dir n id),
        hother _ (playlistPath_ne_temporaryPath dir id n).symm (temporaryPath_ne hid dir)] at hcontent
      exact h.dead n (hlive n hid hn) content hcontent

lemma OwnFiles.mono (h : OwnFiles dir live fs) (hlive : ∀ n, live n → live' n) : OwnFiles dir live' fs :=
  ⟨h.own, fun n hn => h.dead n fun hl => hn (hlive n hl)⟩

lemma SaveEffect.regular {c : SaveCalls} {pls : Pls} {id : Nat} {r : Bool × FS}
    (h : SaveEffect c pls (playlistPath dir id) fs r) (hfs : OwnFiles dir live fs) :
    ∀ path, path = playlistPath dir id ∨ path = temporaryPath dir id → ∀ node, r.2 path = some node →
      ∃ content, node = .regular content := by
  rintro path (rfl | rfl) node hnode
  · cases hr : r.1 with
    | true =>
      rw [h.target hr] at hnode
      exact ⟨_, (Option.some.inj hnode).symm⟩
    | false =>
      rw [h.kept hr] at hnode
      exact (hfs.own _ (slash_not_mem_decimal id) node hnode).1
  · rw [temporaryPath, ← tmpPath] at hnode
    rcases h.tmp_regular node hnode with hold | hnew
    · rw [playlistPath, tmpPath] at hold
      exact (hfs.own _ (slash_not_mem_tmp id) node hold).1
    · exact hnew

lemma SaveEffect.other_id {c : SaveCalls} {pls : Pls} {id : Nat} {r : Bool × FS}
    (h : SaveEffect c pls (playlistPath dir id) fs r) :
    ∀ path, path ≠ playlistPath dir id → path ≠ temporaryPath dir id → r.2 path = fs path := by
  intro path hmain htmp
  rw [temporaryPath, ← tmpPath] at htmp
  exact h.other path hmain htmp

lemma OwnFiles.saved (h : OwnFiles dir live fs) (ensured : Bool) (c : SaveCalls) {pls : Pls} (hlive : live pls.id) :
    OwnFiles dir live (saveMe ensured c dir pls fs).2 := by
  cases ensured with
  | false => exact h
  | true =>
    have heffect := plsSave_effect c pls (playlistPath dir pls.id) fs
    rw [saveMe_fs]
    exact h.change heffect.other_id (heffect.regular h) (fun n _ hn => hn) fun hn => absurd hlive hn

lemma OwnFiles.unlinked (h : OwnFiles dir live fs) {id : Nat} (hlive : ∀ n, n ≠ id → live n → live' n)
    (htmp : ∀ content, fs (temporaryPath dir id) = some (.regular content) → ReturnsNull (loadText content)) :
    OwnFiles dir live' (fs.unlink (playlistPath dir id)) := by
  have hmain : ∀ content, fs.unlink (playlistPath dir id) (playlistPath dir id) ≠ some (.regular content) := by
    intro content hc
    rcases unlink_cases fs (playlistPath dir id) with he | ⟨he, hnot⟩
    · rw [he, store_self] at hc
      cases hc
    · rw [he] at hc
      exact hnot content hc
  have htmp_same : fs.unlink (playlistPath dir id) (temporaryPath dir id) = fs (temporaryPath dir id) :=
    unlink_of_ne fs (playlistPath_ne_temporaryPath dir id id).symm
  refine h.change (fun path hp _ => unlink_of_ne fs hp) ?_ (fun n hn hnot hl => hnot (hlive n hn hl)) ?_
  · rintro path (rfl | rfl) node hnode
    · rcases unlink_cases fs (playlistPath dir id) with he | ⟨he, -⟩
      · rw [he, store_self] at hnode
        cases hnode
      · rw [he] at hnode
        exact (h.own _ (slash_not_mem_decimal id) node hnode).1
    · rw [htmp_same] at hnode
      exact (h.own _ (slash_not_mem_tmp id) node hnode).1
  · rintro - content (hc | hc)
    · exact absurd hc (hmain content)
    · rw [htmp_same] at hc
      exact htmp content hc

end

/-! ### Requests -/

section
variable {createObjectid : Bytes → Bytes} {d d' : Daemon} {dir : Bytes} {fs : FS}

lemma unlinks_eq_true {id : Nat} (h : Registry d) (hu : d.unlinks id = true) :
    ∃ p pls, d.playlists.lookup id = some p ∧ d.heap p = some pls ∧ pls.id = id ∧ pls.useCount = 0 := by
  unfold Daemon.unlinks at hu
  cases hl : d.playlists.lookup id with
  | none =>
    rw [hl] at hu
    cases hu
  | some p =>
    obtain ⟨pls, hpls, hid⟩ := (h.byId id p).mp hl
    rw [hl, Option.bind_some, hpls] at hu
    exact ⟨p, pls, rfl, hpls, hid, of_decide_eq_true hu⟩

lemma destroyPlaylist_unlinks {id : Nat} {sent : List Sent} (h : Registry d) (hu : d.unlinks id = true)
    (hd : d.destroyPlaylist id = .ok (d', sent)) : d'.playlists = d.playlists.erase id := by
  obtain ⟨p, pls, hl, hpls, rfl, huse⟩ := unlinks_eq_true h hu
  have hname : (d.playlistsByName.lookup pls.name).isSome := by rw [h.byName.lookup hpls]; rfl
  unfold Daemon.destroyPlaylist at hd
  simp only [hl, deref_eq hpls, bind, Except.bind, ne_eq, not_true_eq_false, if_false, huse, Daemon.removeName,
    hname, Daemon.removePlaylist] at hd
  cases hd
  rfl

lemma destroyPlaylist_keeps {id : Nat} {sent : List Sent} (h : Registry d) (hu : d.unlinks id = false)
    (hd : d.destroyPlaylist id = .ok (d', sent)) : d' = d := by
  unfold Daemon.destroyPlaylist at hd
  cases hl : d.playlists.lookup id with
  | none =>
    rw [hl] at hd
    cases hd
    rfl
  | some p =>
    obtain ⟨pls, hpls, hid⟩ := (h.byId id p).mp hl
    have huse : pls.useCount ≠ 0 := by
      intro h0
      rw [Daemon.unlinks, hl, Option.bind_some, hpls] at hu
      exact of_decide_eq_false hu h0
    simp only [hl, deref_eq hpls, bind, Except.bind, hid, ne_eq, not_true_eq_false, if_false, huse,
      not_false_eq_true, if_true] at hd
    cases hd
    rfl

/-- Only a destroy request takes an id away. -/
lemma Turned.keeps_ids {e : DaemonEvent} {sent : List Sent} (h : Registry d) (ht : Turned createObjectid d e d' sent)
    (he : ∀ sender id, e ≠ .destroy sender id) : ∀ n ∈ d.playlists, n ∈ d'.playlists := by
  intro n hn
  cases ht with
  | kept | edited | played | renamed | incremented => exact hn
  | @decremented sender _ p old =>
    rw [(removeUsecountHolder_frame (d.write p (plsDecrement old)) sender p).2.2.1]
    exact hn
  | released hr =>
    rw [(handleUsecountHolderMsgs_registry h hr).2.1]
    exact hn
  | added => exact (AList.mem_insert _).mpr (Or.inr hn)
  | removed => exact absurd rfl (he _ _)

lemma OwnFiles.requested {e : DaemonEvent} {sent : List Sent} (h : OwnFiles dir (· ∈ d.playlists) fs)
    (hreg : Registry d) (hg : StoreKeeps dir ⟨.running d, fs⟩ (.request e))
    (he : d.handle createObjectid e = .ok (d', sent)) :
    OwnFiles dir (· ∈ d'.playlists) (unlinkDestroyed dir d fs e) := by
  by_cases hdestroy : ∃ sender id, e = .destroy sender id
  · obtain ⟨sender, id, rfl⟩ := hdestroy
    cases hu : d.unlinks id with
    | true =>
      have hids := destroyPlaylist_unlinks hreg hu he
      rw [unlinkDestroyed, if_pos hu]
      apply h.unlinked
      · intro n hn hlive
        rw [hids]
        exact AList.mem_erase.mpr ⟨hn, hlive⟩
      · exact hg.2 sender id rfl hu
    | false =>
      have hsame := destroyPlaylist_keeps hreg hu he
      rw [unlinkDestroyed, hu, hsame]
      exact h
  · have hne : ∀ sender id, e ≠ .destroy sender id := fun sender id heq => hdestroy ⟨sender, id, heq⟩
    have hfs : unlinkDestroyed dir d fs e = fs := by
      cases e with
      | destroy sender id => exact absurd rfl (hne sender id)
      | _ => rfl
    rw [hfs]
    exact h.mono ((Turned.of_ok hreg hg.1 he).keeps_ids hreg hne)

/-! ### The exit -/

lemma saveEntries_spec (dir : Bytes) (fs : FS) {calls : Nat → SaveCalls} {l : List (Sigma fun _ : Nat => Ptr)}
    (hkeys : l.NodupKeys)
    (hheap : ∀ e ∈ l, ∃ pls, d.heap e.2 = some pls ∧ pls.id = e.1)
    (hacc : ∀ e ∈ l, ∀ pls, d.heap e.2 = some pls → (calls e.1).Accepted pls) :
    let fs' := l.foldl (fun fs e => (d.heap e.2).elim fs fun pls => (saveMe true (calls e.1) dir pls fs).2) fs
    (∀ path, (∀ e ∈ l, path ≠ playlistPath dir e.1 ∧ path ≠ temporaryPath dir e.1) → fs' path = fs path) ∧
      ∀ e ∈ l, ∀ pls, d.heap e.2 = some pls → fs' (playlistPath dir e.1) = some (.regular ((calls e.1).flushed pls)) ∧
        fs' (temporaryPath dir e.1) = none := by
  induction l generalizing fs with
  | nil => exact ⟨fun _ _ => rfl, fun e he => by cases he⟩
  | cons e l ih =>
    rw [List.nodupKeys_cons] at hkeys
    obtain ⟨pls, hpls, hid⟩ := hheap e List.mem_cons_self
    have hih := ih (saveMe true (calls e.1) dir pls fs).2 hkeys.2
      (fun x hx => hheap x (List.mem_cons_of_mem e hx)) (fun x hx => hacc x (List.mem_cons_of_mem e hx))
    have heffect := plsSave_effect (calls e.1) pls (playlistPath dir e.1) fs
    have htrue := heffect.accepted.mpr (hacc e List.mem_cons_self pls hpls)
    rw [saveMe_fs, hid] at hih
    dsimp only
    rw [List.foldl_cons, hpls, Option.elim_some, saveMe_fs, hid]
    obtain ⟨hother, hsaved⟩ := hih
    have hapart : ∀ x ∈ l, e.1 ≠ x.1 := fun x hx he => hkeys.1 (he ▸ List.mem_keys_of_mem hx)
    refine ⟨fun path hpath => ?_, fun x hx q hq => ?_⟩
    · rw [hother path fun x hx => hpath x (List.mem_cons_of_mem e hx)]
      obtain ⟨h1, h2⟩ := hpath e List.mem_cons_self
      exact heffect.other_id path h1 h2
    · rcases List.mem_cons.mp hx with rfl | hx
      · rw [hpls] at hq
        cases hq
        rw [hother _ fun y hy => ⟨playlistPath_ne (hapart y hy) dir, playlistPath_ne_temporaryPath dir _ _⟩,
          hother _ fun y hy => ⟨(playlistPath_ne_temporaryPath dir _ _).symm, temporaryPath_ne (hapart y hy) dir⟩]
        refine ⟨heffect.target htrue, ?_⟩
        rw [temporaryPath, ← tmpPath]
        exact heffect.tmp_gone htrue
      · exact hsaved x hx q hq

lemma saveEntries_own (calls : Nat → SaveCalls) (l : List (Sigma fun _ : Nat => Ptr)) {live : Nat → Prop}
    (hlive : ∀ p pls, d.heap p = some pls → live pls.id) (h : OwnFiles dir live fs) : OwnFiles dir live
      (l.foldl (fun fs e => (d.heap e.2).elim fs fun pls => (saveMe true (calls e.1) dir pls fs).2) fs) := by
  induction l generalizing fs with
  | nil => exact h
  | cons e l ih =>
    rw [List.foldl_cons]
    cases hpls : d.heap e.2 with
    | none => exact ih h
    | some pls => exact ih (h.saved true (calls e.1) (hlive e.2 pls hpls))

lemma OwnFiles.exited {calls : Nat → SaveCalls} (h : OwnFiles dir (· ∈ d.playlists) fs) (hreg : Registry d)
    (hacc : ∀ p pls, d.heap p = some pls → (calls pls.id).Accepted pls)
    (hg : StoreKeeps dir ⟨.running d, fs⟩ (.exit calls)) :
    SavedAll dir d.playlists.keys (d.saveAllPlaylists dir calls fs) := by
  have hentry : ∀ e ∈ d.playlists.entries, ∃ pls, d.heap e.2 = some pls ∧ pls.id = e.1 := fun e he =>
    (hreg.byId e.1 e.2).mp (AList.mem_lookup_iff.mpr he)
  obtain ⟨-, hsaved⟩ := saveEntries_spec dir fs d.playlists.nodupKeys hentry fun e he pls hpls => by
    obtain ⟨pls', hpls', hid⟩ := hentry e he
    rw [hpls] at hpls'
    cases hpls'
    exact hid ▸ hacc e.2 pls hpls
  have hplaylist : ∀ n ∈ d.playlists.keys, ∃ p pls, ⟨n, p⟩ ∈ d.playlists.entries ∧ d.playlists.lookup n = some p ∧
      d.heap p = some pls ∧ pls.id = n := by
    intro n hn
    obtain ⟨p, hp⟩ := Option.isSome_iff_exists.mp (AList.lookup_isSome.mpr (AList.mem_keys.mpr hn))
    obtain ⟨pls, hpls, hid⟩ := (hreg.byId n p).mp hp
    exact ⟨p, pls, AList.mem_lookup_iff.mp hp, hp, hpls, hid⟩
  have hown := saveEntries_own calls d.playlists.entries (fun p pls hpls => by
    rw [← AList.lookup_isSome, hreg.byId.lookup hpls]
    rfl) h
  refine ⟨hown, fun n hn => ?_, fun n => ((d.playlists.lookup n).bind d.heap).elim [] Pls.name, ?_, fun n hn => ?_⟩
  · obtain ⟨p, pls, he, -, hpls, -⟩ := hplaylist n hn
    exact (hsaved _ he pls hpls).2
  · intro m hm n hn hname
    obtain ⟨p, pls, -, hp, hpls, rfl⟩ := hplaylist m hm
    obtain ⟨p', pls', -, hp', hpls', rfl⟩ := hplaylist n hn
    simp only [hp, hp', Option.bind_some, hpls, hpls', Option.elim_some] at hname
    have hpp := hreg.byName.inj hpls hpls' hname
    rw [hpp, hpls'] at hpls
    cases hpls
    rfl
  · obtain ⟨p, pls, he, hp, hpls, rfl⟩ := hplaylist n hn
    obtain ⟨q, hq, hqid, hqname⟩ := hg p pls hpls
    refine ⟨_, q, (hsaved _ he pls hpls).1, hq, hqid, ?_⟩
    simp only [hp, Option.bind_some, hpls, Option.elim_some, hqname]

end

/-! ### The start -/

section
variable {dir cwd : Bytes} {ids : List Nat} {fs fs' : FS} {names : List Bytes}

lemma SavedAll.change (h : SavedAll dir ids fs) {id : Nat} (hid : id ∉ ids)
    (hother : ∀ path, path ≠ playlistPath dir id → path ≠ temporaryPath dir id → fs' path = fs path)
    (hnode : ∀ path, path = playlistPath dir id ∨ path = temporaryPath dir id → ∀ node, fs' path = some node →
      fs (playlistPath dir id) = some node ∨ fs (temporaryPath dir id) = some node) : SavedAll dir ids fs' := by
  have hapart : ∀ n ∈ ids, n ≠ id := fun n hn he => hid (he ▸ hn)
  have hmain : ∀ n ∈ ids, fs' (playlistPath dir n) = fs (playlistPath dir n) := fun n hn =>
    hother _ (playlistPath_ne (hapart n hn) dir) (playlistPath_ne_temporaryPath dir n id)
  have htmp : ∀ n ∈ ids, fs' (temporaryPath dir n) = fs (temporaryPath dir n) := fun n hn =>
    hother _ (playlistPath_ne_temporaryPath dir id n).symm (temporaryPath_ne (hapart n hn) dir)
  refine ⟨h.toOwnFiles.change hother (fun path hpath node hn => ?_) (fun n _ hn => hn) fun _ content hc => ?_,
    fun n hn => by rw [htmp n hn, h.no_tmp n hn], ?_⟩
  · rcases hnode path hpath node hn with hold | hold
    · exact (h.own _ (slash_not_mem_decimal id) node hold).1
    · exact (h.own _ (slash_not_mem_tmp id) node hold).1
  · rcases hc with hc | hc
    · exact h.dead id hid content (hnode _ (Or.inl rfl) _ hc)
    · exact h.dead id hid content (hnode _ (Or.inr rfl) _ hc)
  · obtain ⟨nameOf, hinj, hloads⟩ := h.loads
    refine ⟨nameOf, hinj, fun n hn => ?_⟩
    rw [hmain n hn]
    exact hloads n hn

lemma SavedAll.congr (h : SavedAll dir ids fs)
    (hsame : ∀ fn, 47 ∉ fn → fs' (buildFilename dir fn) = fs (buildFilename dir fn)) : SavedAll dir ids fs' := by
  refine ⟨⟨fun fn hfn node hnode => h.own fn hfn node (hsame fn hfn ▸ hnode), fun n hn content hc => ?_⟩,
    fun n hn => (hsame _ (slash_not_mem_tmp n)).trans (h.no_tmp n hn), ?_⟩
  · rw [playlistPath, temporaryPath, hsame _ (slash_not_mem_decimal n), hsame _ (slash_not_mem_tmp n)] at hc
    exact h.dead n hn content hc
  · obtain ⟨nameOf, hinj, hloads⟩ := h.loads
    refine ⟨nameOf, hinj, fun n hn => ?_⟩
    rw [playlistPath, hsame _ (slash_not_mem_decimal n)]
    exact hloads n hn

lemma finishRename_nodes {fn stem path : Bytes} {node : Node} (hstem : tmpStem fn = some stem)
    (h : finishRename cwd fs fn path = some node) : fs path = some node ∨ fs (buildFilename cwd fn) = some node := by
  rcases finishRename_cases cwd fs hstem with he | he
  · have hrename : fs.rename (buildFilename cwd fn) (buildFilename cwd stem) = fs ∨
        fs.rename (buildFilename cwd fn) (buildFilename cwd stem) =
          fs.move (buildFilename cwd fn) (buildFilename cwd stem) := by
      unfold FS.rename
      split
      · exact Or.inl rfl
      · exact Or.inr rfl
    rw [he] at h
    rcases hrename with hr | hr
    · rw [hr] at h
      exact Or.inl h
    · rw [hr] at h
      by_cases hsrc : path = buildFilename cwd fn
      · rw [hsrc, FS.move, store_self] at h
        cases h
      · by_cases hdst : path = buildFilename cwd stem
        · rw [hdst, move_dst fs (hdst ▸ hsrc)] at h
          exact Or.inr h
        · rw [move_of_ne fs hsrc hdst] at h
          exact Or.inl h
  · rw [he] at h
    rcases unlink_cases fs (buildFilename cwd fn) with hu | ⟨hu, -⟩
    · by_cases hsrc : path = buildFilename cwd fn
      · rw [hu, hsrc, store_self] at h
        cases h
      · rw [hu, store_of_ne fs none hsrc] at h
        exact Or.inl h
    · rw [hu] at h
      exact Or.inl h

lemma SavedAll.finishRename (h : SavedAll dir ids fs) {id : Nat} (hid : id ∉ ids) :
    SavedAll dir ids (finishRename dir fs (decimal id ++ tmpSuffix)) := by
  have hstem := tmpStem_tmp (decimal_ne_nil id)
  refine h.change hid (fun path hmain htmp => ?_) fun path hpath node hnode => ?_
  · rcases finishRename_cases dir fs hstem with he | he
    · rw [he]
      exact rename_of_ne fs htmp hmain
    · rw [he]
      exact unlink_of_ne fs htmp
  · rcases finishRename_nodes hstem hnode with hold | hold
    · rcases hpath with rfl | rfl
      · exact Or.inl hold
      · exact Or.inr hold
    · exact Or.inr hold

lemma SavedAll.finishRenames (h : SavedAll dir ids fs) (hnames : Lists names dir fs) :
    SavedAll dir ids (finishRenames cwd names fs) := by
  have hslash : ∀ fn ∈ names, 47 ∉ fn := fun fn hfn => ((hnames.mem_iff fn).mp hfn).1
  by_cases hdir : cwd = dir
  · subst hdir
    have hkind : ∀ fn ∈ names, (∃ n, fn = decimal n) ∨ ∃ n, n ∉ ids ∧ fn = decimal n ++ tmpSuffix := by
      intro fn hfn
      obtain ⟨node, hnode⟩ := Option.isSome_iff_exists.mp ((hnames.mem_iff fn).mp hfn).2
      obtain ⟨-, n, rfl | rfl⟩ := h.own fn (hslash fn hfn) node hnode
      · exact Or.inl ⟨n, rfl⟩
      · refine Or.inr ⟨n, fun hn => ?_, rfl⟩
        rw [show buildFilename cwd (decimal n ++ tmpSuffix) = temporaryPath cwd n from rfl, h.no_tmp n hn] at hnode
        cases hnode
    clear hnames hslash
    induction names generalizing fs with
    | nil => exact h
    | cons fn names ih =>
      rw [MafwShared.finishRenames, List.foldl_cons]
      refine ih ?_ fun x hx => hkind x (List.mem_cons_of_mem fn hx)
      rcases hkind fn List.mem_cons_self with ⟨n, rfl⟩ | ⟨n, hn, rfl⟩
      · rw [MafwShared.finishRename, tmpStem_decimal]
        exact h
      · exact h.finishRename hn
  · exact h.congr fun fn hfn => finishRenames_elsewhere hdir hslash hfn fs

lemma nodup_filterMap {α β : Type} {f : α → Option β} (g : β → α) {l : List α} (hg : ∀ a ∈ l, ∀ b ∈ f a, a = g b)
    (hl : l.Nodup) : (l.filterMap f).Nodup := by
  induction l with
  | nil => exact List.nodup_nil
  | cons a l ih =>
    obtain ⟨ha, hl⟩ := List.nodup_cons.mp hl
    have hrest := ih (fun x hx => hg x (List.mem_cons_of_mem a hx)) hl
    cases hfa : f a with
    | none =>
      rw [List.filterMap_cons_none hfa]
      exact hrest
    | some b =>
      rw [List.filterMap_cons_some hfa, List.nodup_cons]
      refine ⟨fun hb => ?_, hrest⟩
      obtain ⟨x, hx, hxb⟩ := List.mem_filterMap.mp hb
      have he : a = x := (hg a List.mem_cons_self b hfa).trans (hg x (List.mem_cons_of_mem a hx) b hxb).symm
      exact ha (he ▸ hx)

/-- What is loaded from the directory: one playlist for each id, under its own name. -/
structure LoadedOnce (ids : List Nat) (loaded : List Pls) : Prop where
  distinct : ∀ (i j : Nat) (x y : Pls), loaded[i]? = some x → loaded[j]? = some y →
    x.id = y.id ∨ x.name = y.name → i = j
  mem_iff : ∀ n, n ∈ ids ↔ ∃ q ∈ loaded, q.id = n
  name_ne : ∀ q ∈ loaded, q.name ≠ []

lemma SavedAll.decided (h : SavedAll dir ids fs) (hnames : Lists names dir fs) :
    ∀ fn ∈ names, ReturnsNull (plsLoad fs (buildFilename dir fn)) ∨
      ∃ n ∈ ids, fn = decimal n ∧ ∃ q, plsLoad fs (buildFilename dir fn) = .ok q ∧ q.id = n := by
  intro fn hfn
  obtain ⟨hslash, hsome⟩ := (hnames.mem_iff fn).mp hfn
  obtain ⟨node, hnode⟩ := Option.isSome_iff_exists.mp hsome
  obtain ⟨⟨content, rfl⟩, n, hn⟩ := h.own fn hslash node hnode
  rw [plsLoad_regular hnode]
  by_cases hlive : n ∈ ids
  · rcases hn with rfl | rfl
    · obtain ⟨nameOf, -, hloads⟩ := h.loads
      obtain ⟨content', q, hcontent, hq, hqid, -⟩ := hloads n hlive
      rw [show playlistPath dir n = buildFilename dir (decimal n) from rfl, hnode] at hcontent
      cases hcontent
      exact Or.inr ⟨n, hlive, rfl, q, hq, hqid⟩
    · rw [show buildFilename dir (decimal n ++ tmpSuffix) = temporaryPath dir n from rfl, h.no_tmp n hlive] at hnode
      cases hnode
  · left
    rcases hn with rfl | rfl
    · exact h.dead n hlive content (Or.inl hnode)
    · exact h.dead n hlive content (Or.inr hnode)

lemma SavedAll.loadedFrom_eq (h : SavedAll dir ids fs) (hnames : Lists names dir fs) {fn : Bytes} (hfn : fn ∈ names)
    {q : Pls} (hq : loadedFrom dir fs fn = some q) : q.id ∈ ids ∧ fn = decimal q.id := by
  unfold loadedFrom at hq
  rcases h.decided hnames fn hfn with (hnull | hnull) | ⟨n, hn, rfl, r, hr, rfl⟩
  · rw [hnull] at hq
    cases hq
  · rw [hnull] at hq
    cases hq
  · rw [hr] at hq
    cases hq
    exact ⟨hn, rfl⟩

lemma SavedAll.loadedOnce (h : SavedAll dir ids fs) (hnames : Lists names dir fs) :
    LoadedOnce ids (names.filterMap (loadedFrom dir fs)) := by
  obtain ⟨nameOf, hinj, hloads⟩ := h.loads
  have hofId : ∀ n ∈ ids, ∃ q, loadedFrom dir fs (decimal n) = some q ∧ q.id = n ∧ q.name = nameOf n ∧ q.name ≠ [] := by
    intro n hn
    obtain ⟨content, q, hcontent, hq, hqid, hqname⟩ := hloads n hn
    have hload : plsLoad fs (buildFilename dir (decimal n)) = .ok q := (plsLoad_regular hcontent).trans hq
    exact ⟨q, by rw [loadedFrom, hload]; rfl, hqid, hqname, (loadText_bounds hq).2.2.2.1⟩
  have hmem : ∀ q ∈ names.filterMap (loadedFrom dir fs), q.id ∈ ids ∧ q.name = nameOf q.id ∧ q.name ≠ [] := by
    intro q hq
    obtain ⟨fn, hfn, hload⟩ := List.mem_filterMap.mp hq
    obtain ⟨hid, rfl⟩ := h.loadedFrom_eq hnames hfn hload
    obtain ⟨r, hr, hrid, hrname, hrne⟩ := hofId q.id hid
    rw [hload] at hr
    cases hr
    exact ⟨hid, hrname, hrne⟩
  have hnodup : ((names.filterMap (loadedFrom dir fs)).map Pls.id).Nodup := by
    rw [List.map_filterMap]
    refine nodup_filterMap decimal (fun fn hfn n hn => ?_) hnames.nodup
    obtain ⟨q, hq, rfl⟩ := Option.map_eq_some_iff.mp hn
    exact (h.loadedFrom_eq hnames hfn hq).2
  refine ⟨fun i j x y hx hy hkey => ?_, fun n => ⟨fun hn => ?_, ?_⟩, fun q hq => (hmem q hq).2.2⟩
  · have hxm := hmem x (List.mem_of_getElem? hx)
    have hym := hmem y (List.mem_of_getElem? hy)
    have hids : x.id = y.id := by
      refine hkey.elim (fun he => he) fun he => hinj _ hxm.1 _ hym.1 ?_
      rw [← hxm.2.1, he, hym.2.1]
    obtain ⟨hi, -⟩ := List.getElem?_eq_some_iff.mp hx
    refine (List.getElem?_inj (by rwa [List.length_map]) hnodup).mp ?_
    rw [List.getElem?_map, List.getElem?_map, hx, hy, Option.map_some, Option.map_some, hids]
  · obtain ⟨q, hq, hqid, -⟩ := hofId n hn
    obtain ⟨content, -, hcontent, -⟩ := hloads n hn
    refine ⟨q, List.mem_filterMap.mpr ⟨decimal n, (hnames.mem_iff _).mpr ⟨slash_not_mem_decimal n, ?_⟩, hq⟩, hqid⟩
    rw [show buildFilename dir (decimal n) = playlistPath dir n from rfl, hcontent]
    rfl
  · rintro ⟨q, hq, rfl⟩
    exact (hmem q hq).1

lemma LoadedOnce.keysAgree {loaded : List Pls} (h : LoadedOnce ids loaded) : KeysAgree loaded := by
  intro i pls hpls
  refine iff_of_false ?_ ?_
  · rintro ⟨j, hj, q, hq, hid⟩
    exact absurd (h.distinct j i q pls hq hpls (Or.inl hid)) (Nat.ne_of_gt hj)
  · rintro ⟨j, hj, q, hq, hname⟩
    exact absurd (h.distinct j i q pls hq hpls (Or.inr hname)) (Nat.ne_of_gt hj)

lemma Filled.registry {loaded : List Pls} {d : Daemon} (h : Filled loaded d) (hkeys : KeysAgree loaded)
    (hname : ∀ q ∈ loaded, q.name ≠ []) : Registry d := by
  have hagree := keysAgree_iff.mp hkeys
  refine ⟨h.tracked.byId, fun name p => ?_, fun p pls hpls => ?_, h.tracked.fresh⟩
  · rw [h.byName]
    constructor
    · intro hlast
      obtain ⟨x, hx, rfl, -⟩ := id hlast
      exact ⟨x, (h.heap_eq p x).mpr ⟨hx, (hagree p x hx).mpr hlast⟩, rfl⟩
    · rintro ⟨x, hx, rfl⟩
      obtain ⟨hxl, hlast⟩ := (h.heap_eq p x).mp hx
      exact (hagree p x hxl).mp hlast
  · exact hname pls (List.mem_of_getElem? ((h.heap_eq p pls).mp hpls).1)

lemma SavedAll.loadFiles (h : SavedAll dir ids fs) (hnames : Lists names dir fs) :
    ∃ d, names.foldlM (loadFile dir fs) Daemon.init = .ok d ∧ Registry d ∧ ∀ id, id ∈ d.playlists ↔ id ∈ ids := by
  have honce := h.loadedOnce hnames
  have hfilled := filled_foldl (loadedFrom_id_lt dir fs names)
  refine ⟨_, loadFiles_eq fun fn hfn => ?_, hfilled.registry honce.keysAgree honce.name_ne, fun id => ?_⟩
  · rcases h.decided hnames fn hfn with hnull | ⟨-, -, -, q, hq, -⟩
    · exact Or.inr hnull
    · exact Or.inl ⟨q, hq⟩
  · rw [← AList.lookup_isSome, Option.isSome_iff_exists, honce.mem_iff]
    constructor
    · rintro ⟨p, hp⟩
      obtain ⟨x, hx, hxid, -⟩ := (hfilled.byId id p).mp hp
      exact ⟨x, List.mem_of_getElem? hx, hxid⟩
    · rintro ⟨q, hq, rfl⟩
      obtain ⟨p, hp⟩ := List.getElem?_of_mem hq
      refine ⟨p, (hfilled.byId q.id p).mpr ⟨q, hp, rfl, fun j hj y hy hid => ?_⟩⟩
      exact absurd (honce.distinct j p y q hy hp (Or.inl hid)) (Nat.ne_of_gt hj)

end

/-! ### Runs -/

/-- What a run keeps. -/
def StoreInv (dir : Bytes) : Store → Prop
  | ⟨.running d, fs⟩ => Registry d ∧ OwnFiles dir (· ∈ d.playlists) fs
  | ⟨.exited ids, fs⟩ => SavedAll dir ids fs

section
variable {createObjectid : Bytes → Bytes} {dir : Bytes}

lemma saveMe_identity (ensured : Bool) (c : SaveCalls) (dir : Bytes) (pls : Pls) (fs : FS) :
    (saveMe ensured c dir pls fs).1.id = pls.id ∧ (saveMe ensured c dir pls fs).1.name = pls.name := by
  cases ensured with
  | false => exact ⟨rfl, rfl⟩
  | true =>
    unfold saveMe
    dsimp only
    cases (plsSave c pls (playlistPath dir pls.id) fs).1 <;> exact ⟨rfl, rfl⟩

lemma StoreInv.step {s t : Store} {e : StoreEvent} (h : StoreInv dir s) (hg : StoreKeeps dir s e)
    (hs : StoreStep createObjectid dir s e t) : StoreInv dir t := by
  cases hs with
  | request he =>
    obtain ⟨hreg, hown⟩ := h
    exact ⟨(Turned.of_ok hreg hg.1 he).registry hreg hg.1, hown.requested hreg hg he⟩
  | @save d fs p pls ensured calls hpls =>
    obtain ⟨hreg, hown⟩ := h
    obtain ⟨hid, hname⟩ := saveMe_identity ensured calls dir pls fs
    refine ⟨hreg.write hpls hid hname, hown.saved ensured calls ?_⟩
    rw [← AList.lookup_isSome, hreg.byId.lookup hpls]
    rfl
  | @exit d fs calls hall =>
    obtain ⟨hreg, hown⟩ := h
    refine hown.exited hreg (fun p pls hpls => ?_) hg
    exact (plsSave_effect _ pls _ fs).accepted.mp (hall p pls hpls fs)
  | @restart ids fs d fs' cwd names names' hnames hnames' hload =>
    have hfirst : SavedAll dir ids (finishRenames cwd names fs) := SavedAll.finishRenames h hnames
    obtain ⟨d', hd', hreg, hids⟩ := hfirst.loadFiles hnames'
    unfold loadPlaylists at hload
    dsimp only at hload
    rw [hd'] at hload
    cases hload
    exact ⟨hreg, hfirst.toOwnFiles.mono fun n hn => (hids n).mpr hn⟩

/-- However a run got to an exit, the start after it brings back the playlists of the exit
and no others. -/
theorem restart_restores {fs fs' : FS} {ids : List Nat} (hempty : ∀ fn, fs (buildFilename dir fn) = none)
    (hr : Reach (StoreStep createObjectid dir) (StoreKeeps dir) ⟨.running Daemon.init, fs⟩ ⟨.exited ids, fs'⟩)
    {cwd : Bytes} {names names' : List Bytes} (hnames : Lists names dir fs')
    (hnames' : Lists names' dir (finishRenames cwd names fs')) :
    ∃ d fs'', loadPlaylists cwd dir names names' fs' Daemon.init = .ok (d, fs'') ∧
      ∀ id, id ∈ d.playlists ↔ id ∈ ids := by
  have hstart : StoreInv dir ⟨.running Daemon.init, fs⟩ := by
    refine ⟨registry_init 1, fun fn _ node hnode => ?_, fun n _ content hc => ?_⟩
    · rw [hempty] at hnode
      cases hnode
    · rw [playlistPath, temporaryPath, hempty, hempty] at hc
      rcases hc with hc | hc <;> cases hc
  have hinv := hr.invariant (StoreInv dir) hstart fun s e t hs hg hst => hs.step hg hst
  have hfirst : SavedAll dir ids (finishRenames cwd names fs') := SavedAll.finishRenames hinv hnames
  obtain ⟨d, hd, -, hids⟩ := hfirst.loadFiles hnames'
  refine ⟨d, finishRenames cwd names fs', ?_, hids⟩
  unfold loadPlaylists
  dsimp only
  rw [hd]
  rfl

end

lemma lists_singleton {dir fn : Bytes} {fs : FS} (hfn : 47 ∉ fn)
    (h : ∀ path, (fs path).isSome ↔ path = buildFilename dir fn) : Lists [fn] dir fs := by
  refine ⟨List.nodup_singleton fn, fun x => ?_⟩
  rw [List.mem_singleton, h]
  constructor
  · rintro rfl
    exact ⟨hfn, rfl⟩
  · exact fun hx => (buildFilename_inj hx.1 hfn hx.2).2

lemma plsSave_isSome_iff {c : SaveCalls} (pls : Pls) (fn : Bytes) (hacc : c.Accepted pls) (path : Bytes) :
    ((plsSave c pls fn fun _ => none).2 path).isSome ↔ path = fn := by
  have heffect := plsSave_effect c pls fn fun _ => none
  have htrue := heffect.accepted.mpr hacc
  by_cases hfn : path = fn
  · rw [hfn, heffect.target htrue]
    exact iff_of_true rfl rfl
  · refine iff_of_false ?_ hfn
    by_cases htmp : path = fn ++ tmpSuffix
    · rw [htmp, heffect.tmp_gone htrue]
      exact Bool.false_ne_true
    · rw [heffect.other path hfn htmp]
      exact Bool.false_ne_true

lemma succeed_accepted (pls : Pls) : SaveCalls.succeed.Accepted pls :=
  (plsSave_effect .succeed pls [] fun _ => none).accepted.mp (plsSave_succeed pls [] fun _ => none)

lemma store_isSome_iff (src : Bytes) (node : Node) (path : Bytes) :
    (FS.store (fun _ => none) src (some node) path).isSome ↔ path = src := by
  by_cases h : path = src
  · rw [h, store_self]
    exact iff_of_true rfl rfl
  · rw [store_of_ne _ _ h]
    exact iff_of_false Bool.false_ne_true h

lemma move_isSome_iff (src dst : Bytes) (hne : dst ≠ src) (node : Node) (path : Bytes) :
    ((FS.store (fun _ => none) src (some node)).move src dst path).isSome ↔ path = dst := by
  by_cases hdst : path = dst
  · rw [hdst, move_dst _ hne, store_self]
    exact iff_of_true rfl rfl
  · refine iff_of_false ?_ hdst
    by_cases hsrc : path = src
    · rw [hsrc, FS.move, store_self]
      exact Bool.false_ne_true
    · rw [move_of_ne _ hsrc hdst, store_of_ne _ _ hsrc]
      exact Bool.false_ne_true

/-- An empty playlist as it was created. -/
def emptyPls (id : Nat) (name : Bytes) : Pls :=
  { id := id, name := name, repeatMode := 0, shuffled := 0, useCount := 0, len := 0, alloc := 0, poolst := 0,
    vidx := nullArray, pidx := nullArray, iidx := nullArray, dirty := true }

/-- Two playlists are created, the first is destroyed, and the daemon restarts. -/
theorem restart_restores_second : ∃ fs' d fs'',
    Reach (StoreStep id [100]) (StoreKeeps [100]) ⟨.running Daemon.init, fun _ => none⟩ ⟨.exited [2], fs'⟩ ∧
      loadPlaylists [100] [100] [[50]] [[50]] fs' Daemon.init = .ok (d, fs'') ∧ 2 ∈ d.playlists ∧ 1 ∉ d.playlists := by
  obtain ⟨fs', hreach, hfiles⟩ : ∃ fs',
      Reach (StoreStep id [100]) (StoreKeeps [100]) ⟨.running Daemon.init, fun _ => none⟩ ⟨.exited [2], fs'⟩ ∧
        ∀ path, (fs' path).isSome ↔ path = buildFilename [100] [50] := by
    refine ⟨_, .next (e := .exit fun _ => .succeed) (.next (e := .request (.destroy [49] 1))
      (.next (e := .request (.create [49] [113])) (.next (e := .request (.create [49] [112])) .refl ?_
        (.request rfl)) ?_ (.request rfl)) ?_ (.request rfl)) ?_ (.exit ?_),
      plsSave_isSome_iff (emptyPls 2 [113]) [100, 47, 50] (succeed_accepted _)⟩
    · exact ⟨fun _ => rfl, fun _ _ he => by cases he⟩
    · exact ⟨fun _ => rfl, fun _ _ he => by cases he⟩
    · refine ⟨fun h => h.elim, fun sender id he _ content hc => ?_⟩
      cases hc
    · intro p pls hpls
      rcases p with _ | _ | p
      · cases hpls
      · cases hpls
        exact ⟨_, rfl, rfl, rfl⟩
      · cases hpls
    · exact fun p pls _ fs => plsSave_succeed pls _ fs
  have hlists : Lists [[50]] [100] fs' := lists_singleton (by decide) hfiles
  have hpassed : finishRenames [100] [[50]] fs' = fs' := by
    apply finishRenames_passed
    intro fn hfn
    rw [List.mem_singleton.mp hfn]
    rfl
  obtain ⟨d, fs'', hload, hids⟩ := restart_restores (fun _ => rfl) hreach hlists (hpassed.symm ▸ hlists)
  exact ⟨fs', d, fs'', hreach, hload, (hids 2).mpr (by decide), fun h => absurd ((hids 1).mp h) (by decide)⟩

/-- The rename of a save fails and keeps the temporary file; the playlist is destroyed, and
the next start finishes the rename and loads it. -/
theorem destroyed_reappears : ∃ fs' d fs'',
    Reach (StoreStep id [100]) (fun _ _ => True) ⟨.running Daemon.init, fun _ => none⟩ ⟨.exited [], fs'⟩ ∧
      Lists [[49, 46, 116, 109, 112]] [100] fs' ∧
      Lists [[49]] [100] (finishRenames [100] [[49, 46, 116, 109, 112]] fs') ∧
      loadPlaylists [100] [100] [[49, 46, 116, 109, 112]] [[49]] fs' Daemon.init = .ok (d, fs'') ∧
      1 ∈ d.playlists := by
  refine ⟨_, _, _, .next (e := .exit fun _ => .succeed) (.next (e := .request (.destroy [49] 1))
    (.next (e := .save 0 true { SaveCalls.succeed with rename := false })
      (.next (e := .request (.create [49] [112])) .refl trivial (.request rfl)) trivial (.save rfl)) trivial
    (.request rfl)) trivial (.exit ?_), lists_singleton (by decide) fun path => ?_,
    lists_singleton (by decide) fun path => ?_, rfl, ?_⟩
  · exact fun p pls _ fs => plsSave_succeed pls _ fs
  · exact store_isSome_iff [100, 47, 49, 46, 116, 109, 112] (.regular (fileText (emptyPls 1 [112]))) path
  · exact move_isSome_iff [100, 47, 49, 46, 116, 109, 112] [100, 47, 49] (by decide)
      (.regular (fileText (emptyPls 1 [112]))) path
  · exact AList.lookup_isSome.mp rfl

end MafwShared
