import MafwShared.Proofs.CrashRecovery
import MafwShared.Proofs.Loadable
import MafwShared.Proofs.SharedPlaylist

/-!
# Playlists that survive

`Storable` is what a playlist needs for its file to bring back all of it, shuffled or not. Every
request keeps it whose strings are plain: names on one line, and object ids that are one word.
-/

namespace MafwShared
open CLib

/-- An object id that is one word, with room in front of it for any number on its line. -/
structure PlainOid (oid : Bytes) : Prop where
  ne : oid ≠ []
  cstring : 0 ∉ oid
  word : ∀ c ∈ oid, isspace c = false
  length_le : oid.length ≤ 2036

/-- What a file brings back. -/
structure Storable (p : Pls) : Prop where
  wf : p.WF
  id_lt : p.id < 2 ^ 31
  len_lt : p.len < 2 ^ 31
  poolst_lt : p.poolst < 2 ^ 31
  name_ne : p.name ≠ []
  name_fits : NameFits p.name
  oids : ∀ oid ∈ cells p.vidx p.len, PlainOid oid

lemma PlainOid.line {oid : Bytes} (h : PlainOid oid) : IsLine oid :=
  ⟨fun hmem => absurd (h.word 10 hmem) (by decide), h.cstring⟩

lemma PlainOid.firstWord {oid : Bytes} (h : PlainOid oid) : firstWord oid = oid := firstWord_eq_self_iff.mpr h.word

namespace Storable
variable {p q : Pls}

lemma oid (h : Storable p) {i : Nat} (hi : i < p.len) : PlainOid (p.vidx i) := h.oids _ (mem_cells.mpr ⟨i, hi, rfl⟩)

lemma playingIndex_lt (h : Storable p) {i : Nat} (hi : i < p.len) : playingIndex p i < p.len := by
  unfold playingIndex
  split
  · rename_i hs
    have hmem : p.pidx i ∈ cells p.pidx p.len := mem_cells.mpr ⟨i, hi, rfl⟩
    exact List.mem_range.mp ((h.wf.perm hs).mem_iff.mp hmem)
  · exact hi

lemma itemLine_length (h : Storable p) {i : Nat} (hi : i < p.len) : (itemLine p i).length < 2048 := by
  have hlt := h.playingIndex_lt hi
  have hlen := h.len_lt
  have hdigits : (Nat.toDigits 10 (playingIndex p i)).length ≤ 10 :=
    (Nat.length_toDigits_le_iff (by decide) (by decide)).mpr (by omega)
  have hoid := (h.oid hi).length_le
  rw [itemLine, decimal, List.length_append, List.length_map, List.length_cons]
  omega

lemma savable (h : Storable p) : Savable p :=
  ⟨h.wf, h.id_lt, h.len_lt, h.poolst_lt, h.name_ne, h.name_fits.line, h.name_fits.length_lt,
    fun _ hi => (h.oid hi).line, fun _ hi => (h.itemLine_length hi).le, fun _ hi => h.itemLine_length (by omega)⟩

lemma restores (h : Storable p) : ∃ q, loadText (fileText p) = .ok q ∧ q.WF ∧ SameSaved p q := by
  have hword : ∀ i < p.len, firstWord (p.vidx i) = p.vidx i := fun i hi => (h.oid hi).firstWord
  obtain ⟨q, hq, hwf, hsame⟩ := loadText_words h.savable (Or.inl rfl) fun i hi => by
    rw [hword i hi]
    exact (h.oid hi).ne
  rw [← fileText_eq] at hq
  exact ⟨q, hq, hwf, (sameSaved_wordsOf hword).trans hsame⟩

lemma of_sameSaved (h : Storable p) (hwf : q.WF) (hsame : SameSaved p q) : Storable q := by
  refine ⟨hwf, hsame.id_eq ▸ h.id_lt, hsame.len_eq ▸ h.len_lt, hsame.poolst_eq ▸ h.poolst_lt,
    hsame.name_eq ▸ h.name_ne, hsame.name_eq ▸ h.name_fits, ?_⟩
  rw [hsame.len_eq, hsame.items]
  exact h.oids

lemma of_contents (h : Storable p) (hwf : q.WF) (hid : q.id = p.id) (hname : q.name = p.name) (hlen : q.len < 2 ^ 31)
    (hpool : q.shuffled = 0 → q.poolst ≤ p.poolst) (hoids : ∀ oid ∈ cells q.vidx q.len, PlainOid oid) : Storable q := by
  refine ⟨hwf, hid ▸ h.id_lt, hlen, ?_, hname ▸ h.name_ne, hname ▸ h.name_fits, hoids⟩
  by_cases hs : q.shuffled = 0
  · exact (hpool hs).trans_lt h.poolst_lt
  · exact (hwf.poolst_le hs).trans_lt hlen

lemma intrinsic (h : Storable p) (useCount : Nat) (dirty : Bool) :
    Storable { p with useCount := useCount, dirty := dirty } :=
  h.of_contents (wf_congr h.wf rfl rfl rfl rfl rfl rfl) rfl rfl h.len_lt (fun _ => le_rfl) h.oids

end Storable

/-! ### Edits -/

/-- The object ids that an edit brings in. -/
def EditMember.oids : EditMember → List Bytes
  | .insertItem _ objectids | .appendItem objectids => objectids
  | .removeItem _ | .move _ _ | .clear => []

/-- An edit keeps the items but for those it brings in, and a list that is not shuffled keeps its
play position or loses it. -/
structure EditKeeps (p : Pls) (new : List Bytes) (q : Pls) : Prop where
  items : ∀ oid ∈ cells q.vidx q.len, oid ∈ cells p.vidx p.len ∨ oid ∈ new
  len_le : q.len ≤ p.len + new.length
  poolst_le : q.shuffled = 0 → q.poolst ≤ p.poolst

section
variable {p q : Pls}

lemma EditKeeps.refl (p : Pls) (new : List Bytes) : EditKeeps p new p :=
  ⟨fun _ h => Or.inl h, Nat.le_add_right _ _, fun _ => le_rfl⟩

lemma plsInserts_editKeeps (h : p.WF) {idx : Nat} {oids : List Bytes} {b : Bool}
    (hsize : p.len + oids.length ≤ 2 ^ 31) (hq : plsInserts p idx oids = some (b, q)) : EditKeeps p oids q := by
  by_cases hrej : oids = [] ∨ idx > p.len
  · rw [plsInserts_rejected hrej] at hq
    cases hq
    exact .refl p oids
  · rw [not_or, not_lt] at hrej
    obtain ⟨q', hq', -, hins⟩ := plsInserts_accepted hrej.1 hrej.2 h.len_le hsize
    rw [hq'] at hq
    cases hq
    refine ⟨fun oid hmem => ?_, hins.len_eq.le, fun _ => (congrArg Pls.poolst hins.frame :).le⟩
    rw [hins.items, List.mem_append, List.mem_append] at hmem
    rcases hmem with (hmem | hmem) | hmem
    · exact Or.inl (List.mem_of_mem_take hmem)
    · exact Or.inr hmem
    · exact Or.inl (List.mem_of_mem_drop hmem)

lemma plsRemove_editKeeps (p : Pls) (idx : Nat) : EditKeeps p [] (plsRemove p idx).2 := by
  by_cases hi : idx < p.len
  · obtain ⟨q, hq, -, hrem, -⟩ := plsRemove_accepted hi
    rw [hq]
    dsimp only
    have hlen := hrem.len_eq
    refine ⟨fun oid hmem => ?_, by omega, fun hs => ?_⟩
    · rw [hrem.items] at hmem
      exact Or.inl (List.mem_of_mem_eraseIdx hmem)
    · rw [hrem.shuffled_eq] at hs
      have hpool : (plsRemove p idx).2.poolst = p.poolst := by
        rw [plsRemove, if_neg (not_le.mpr hi)]
        dsimp only
        rw [if_neg (not_not.mpr hs)]
        rfl
      rw [hq] at hpool
      exact hpool.le
  · rw [plsRemove_rejected (not_lt.mp hi)]
    exact .refl p []

lemma plsMove_editKeeps (p : Pls) (src dst : Nat) : EditKeeps p [] (plsMove p src dst).2 := by
  by_cases hsame : src = dst
  · rw [plsMove, if_pos hsame]
    exact .refl p []
  · by_cases hin : src < p.len ∧ dst < p.len
    · obtain ⟨q, hq, hmoved⟩ := plsMove_accepted hin.1 hin.2
      rw [hq]
      dsimp only
      have hlen : q.len = p.len := (congrArg Pls.len hmoved.frame :)
      refine ⟨fun oid hmem => Or.inl ?_, by omega, fun _ => (congrArg Pls.poolst hmoved.frame :).le⟩
      rw [hmoved.items] at hmem
      exact (moveItem_perm _ (by rw [length_cells]; exact hin.1) (by rw [length_cells]; exact hin.2)).mem_iff.mp hmem
    · rw [plsMove_rejected hsame hin]
      exact .refl p []

lemma handleEdit_editKeeps (h : p.WF) {sender : Client} {plid : Nat} {m : EditMember} {sent : List Sent} {r : Draws}
    (hfit : (m.op p).Fits (p, r)) (hq : handleEdit sender plid p m = some (q, sent)) : EditKeeps p m.oids q := by
  cases m with
  | insertItem index objectids =>
    have hsize : p.len + objectids.length < 2 ^ 31 := hfit
    obtain ⟨⟨b, q'⟩, hins, heq⟩ := Option.map_eq_some_iff.mp hq
    cases heq
    exact plsInserts_editKeeps h hsize.le hins
  | appendItem objectids =>
    have hsize : p.len + objectids.length < 2 ^ 31 := hfit
    obtain ⟨⟨b, q'⟩, hins, heq⟩ := Option.map_eq_some_iff.mp hq
    cases heq
    exact plsInserts_editKeeps h hsize.le hins
  | removeItem index =>
    have hkeeps := plsRemove_editKeeps p index
    simp only [handleEdit] at hq
    split at hq
    · cases hq
      exact hkeeps
    · cases hq
      exact hkeeps
  | move src dst =>
    have hkeeps := plsMove_editKeeps p src dst
    simp only [handleEdit] at hq
    split at hq
    · cases hq
      exact hkeeps
    · cases hq
      exact hkeeps
  | clear =>
    cases hq
    exact ⟨fun _ hmem => absurd hmem List.not_mem_nil, Nat.zero_le _, fun _ => Nat.zero_le _⟩

end

lemma EditMember.fits_oids {p : Pls} {m : EditMember} {r : Draws} (h : (m.op p).Fits (p, r)) (hlen : p.len < 2 ^ 31) :
    p.len + m.oids.length < 2 ^ 31 := by
  cases m with
  | insertItem | appendItem => exact h
  | removeItem | move | clear => exact hlen

/-! ### Playing -/

section
variable {p : Pls}

lemma NavCall.run_unshuffled (call : NavCall) {s : Nav} (hs : s.pls.shuffled = 0) : (call.run s).2.pls = s.pls := by
  cases call with
  | getStarting =>
    have hstep := plsGetStarting_step s
    simp only [NavCall.run]
    generalize plsGetStarting s = t at hstep
    cases hstep with
    | empty | first => rfl
    | drawn _ h | played _ h => exact absurd hs h
  | getLast =>
    have hstep := plsGetLast_step s
    simp only [NavCall.run]
    generalize plsGetLast s = t at hstep
    cases hstep with
    | empty | last => rfl
    | drawn _ h => exact absurd hs h
  | getNext =>
    have hstep := plsGetNext_step s
    simp only [NavCall.run]
    generalize plsGetNext s = t at hstep
    cases hstep with
    | outside | following | around | ended => rfl
    | played h | drawn h | replayed h | exhausted h => exact absurd hs h
  | getPrev =>
    have hstep := plsGetPrev_step s
    simp only [NavCall.run]
    generalize plsGetPrev s = t at hstep
    cases hstep with
    | outside | preceding | around | ended => rfl
    | played h | drawn h | exhausted h => exact absurd hs h

lemma NavCall.run_redrawn (call : NavCall) (s : Nav) : Redrawn s.pls (call.run s).2.pls := by
  cases call with
  | getStarting => exact (plsGetStarting_step s).redrawn
  | getLast => exact (plsGetLast_step s).redrawn
  | getNext => exact (plsGetNext_step s).redrawn
  | getPrev => exact (plsGetPrev_step s).redrawn

/-- Playing keeps the items, and the play position of a list that is not shuffled then. -/
structure PlayKeeps (p q : Pls) : Prop where
  len_eq : q.len = p.len
  vidx_eq : q.vidx = p.vidx
  poolst_eq : q.shuffled = 0 → q.poolst = p.poolst

lemma handlePlay_playKeeps (sender : Client) (plid : Nat) (p : Pls) (r : Draws) (m : PlayMember) :
    PlayKeeps p (handlePlay sender plid p r m).1 := by
  cases hnav : m.nav with
  | some c =>
    obtain ⟨call, index⟩ := c
    have hdrawn := call.run_redrawn ⟨p, r, index, none⟩
    rw [handlePlay_nav hnav]
    refine ⟨hdrawn.len_eq, hdrawn.vidx_eq, fun hs => ?_⟩
    dsimp only at hs ⊢
    rw [hdrawn.shuffled_eq] at hs
    exact congrArg Pls.poolst (call.run_unshuffled (s := ⟨p, r, index, none⟩) hs)
  | none =>
    cases m with
    | getName | getRepeat | isShuffled | getItem | getSize | setRepeat => exact ⟨rfl, rfl, fun _ => rfl⟩
    | getItems startIndex endIndex =>
      simp only [handlePlay]
      split <;> exact ⟨rfl, rfl, fun _ => rfl⟩
    | shuffle =>
      obtain ⟨hframe, hshuf⟩ := plsShuffle_frame p
      refine ⟨(congrArg Pls.len hframe :), (congrArg Pls.vidx hframe :), fun hs => ?_⟩
      rw [handlePlay, hshuf] at hs
      cases hs
    | unshuffle =>
      simp only [handlePlay, plsUnshuffle]
      split <;> exact ⟨rfl, rfl, fun _ => rfl⟩
    | getStarting | getLast | getNext | getPrev => cases hnav

/-! ### New playlists -/

lemma plsNew_storable {id : Nat} {name : Bytes} (h : plsNew false id name = some p) (hid : id < 2 ^ 31)
    (hname : NameFits name) : Storable p := by
  obtain ⟨hne, heq, hn, -⟩ := plsNew_eq h
  obtain ⟨-, hlen, hpool⟩ := plsNew_fields h
  refine ⟨plsNew_wf h, heq ▸ hid, by rw [hlen]; decide, by rw [hpool]; decide, hn ▸ hne, hn ▸ hname, ?_⟩
  rw [hlen]
  exact fun _ hmem => absurd hmem List.not_mem_nil

lemma appendAll_storable {oids : List Bytes} {q : Pls} (h : Storable p) (hq : appendAll oids p = some q)
    (hsize : p.len + oids.length < 2 ^ 31) (hoids : ∀ oid ∈ oids, PlainOid oid) : Storable q := by
  induction oids generalizing p with
  | nil =>
    cases hq
    exact h
  | cons oid oids ih =>
    rw [List.length_cons] at hsize
    obtain ⟨⟨b, p'⟩, hp', hrest⟩ := Option.bind_eq_some_iff.mp hq
    have hone : p.len + [oid].length ≤ 2 ^ 31 := by
      rw [List.length_singleton]
      omega
    obtain ⟨b', p'', hp'', hwf⟩ := plsInserts_wf h.wf p.len hone
    have hins : plsInserts p p.len [oid] = some (b, p') := hp'
    rw [hins] at hp''
    cases hp''
    have hkeeps := plsInserts_editKeeps h.wf hone hins
    have hlen : p'.len ≤ p.len + 1 := hkeeps.len_le
    refine ih (h.of_contents hwf (plsInserts_identity hins).id_eq (plsInserts_identity hins).name_eq (by omega)
      hkeeps.poolst_le fun x hx => ?_) hrest (by omega) fun x hx => hoids x (List.mem_cons_of_mem oid hx)
    rcases hkeeps.items x hx with hold | hnew
    · exact h.oids x hold
    · exact hoids x (List.mem_singleton.mp hnew ▸ List.mem_cons_self)

lemma duplicateFields_storable {new src : Pls} (hnew : Storable new) (hzero : new.poolst = 0) (hsrc : Storable src) :
    Storable (duplicateFields new src) := by
  have hsame := duplicateFields_content new src
  have hid := duplicateFields_identity new src
  have hlen : (duplicateFields new src).len = src.len := hsame.len_eq
  refine hnew.of_contents (duplicateFields_wf hsrc.wf hzero) hid.id_eq hid.name_eq (hlen ▸ hsrc.len_lt)
    (fun _ => hsame.poolst_eq.le) ?_
  rw [hlen, cells_congr hsame.vidx]
  exact hsrc.oids

end

/-! ### One turn -/

/-- The names of a request fit their line, and its object ids are plain. -/
def DaemonEvent.Plain (createObjectid : Bytes → Bytes) (d : Daemon) : DaemonEvent → Prop
  | .create _ name | .duplicate _ _ name | .playlist _ _ (.setName name) => NameFits name
  | .imported data none =>
    (∀ name, d.freeName data.plUri (d.playlistsByName.entries.length + 1) 0 = some name → NameFits name) ∧
      ∀ oid ∈ if data.listFromBrowse then data.urilist else data.urilist.map createObjectid, PlainOid oid
  | .playlist _ _ (.edit m) => ∀ oid ∈ m.oids, PlainOid oid
  | _ => True

/-- A new id is free and fits a file, lists keep their shape, and strings are plain. -/
structure DaemonEvent.Lasts (createObjectid : Bytes → Bytes) (d : Daemon) (e : DaemonEvent) : Prop where
  fresh : e.Creates → d.playlists.lookup d.lastId = none
  id_lt : e.Creates → d.lastId < 2 ^ 31
  keeps : e.Keeps d
  plain : e.Plain createObjectid d

def Daemon.AllStorable (d : Daemon) : Prop := ∀ p pls, d.heap p = some pls → Storable pls

section
variable {createObjectid : Bytes → Bytes} {d d' : Daemon}

lemma Daemon.AllStorable.update (h : d.AllStorable) {p : Ptr} {pls : Pls} (hpls : Storable pls)
    (hheap : d'.heap = Function.update d.heap p (some pls)) : d'.AllStorable := fun q x hx => by
  rw [hheap] at hx
  rcases of_update_some hx with ⟨-, rfl⟩ | ⟨-, hx⟩
  · exact hpls
  · exact h q x hx

lemma Fresh.storable {e : DaemonEvent} {pls : Pls} (h : d.AllStorable) (he : e.Lasts createObjectid d)
    (hf : Fresh createObjectid d e pls) : Storable pls := by
  have hid := he.id_lt hf.creates
  have hplain := he.plain
  have hkeeps := he.keeps
  cases hf with
  | created hnew =>
    obtain ⟨-, -, hn, -⟩ := plsNew_eq hnew
    exact plsNew_storable hnew hid hplain
  | duplicated _ hsrc hnew =>
    exact duplicateFields_storable (plsNew_storable hnew hid hplain) (plsNew_fields hnew).2.2 (h _ _ hsrc)
  | @imported data name new _ hfree hnew hall =>
    have hsize : data.urilist.length < 2 ^ 31 := hkeeps
    refine appendAll_storable (plsNew_storable hnew hid (hplain.1 name hfree)) hall ?_ hplain.2
    rw [(plsNew_fields hnew).2.1, Nat.zero_add]
    split
    · exact hsize
    · rw [List.length_map]
      exact hsize

lemma Turned.allStorable {e : DaemonEvent} {sent : List Sent} (h : d.AllStorable) (he : e.Lasts createObjectid d)
    (ht : Turned createObjectid d e d' sent) : d'.AllStorable := by
  have hwf : d'.WellFormed := ht.wellFormed (fun p pls hp => (h p pls hp).wf) he.keeps
  have hplain := he.plain
  have hkeeps := he.keeps
  cases ht with
  | kept => exact h
  | @edited sender path m p old pls sent hl hold hedit =>
    have hof : old ∈ d.playlistOf (atoi path) := by
      rw [Daemon.playlistOf, hl]
      exact hold
    obtain ⟨hfit, -⟩ := hkeeps old hof
    have hcontents := handleEdit_editKeeps (h p old hold).wf hfit hedit
    have hid := handleEdit_identity hedit
    have hlen := hcontents.len_le.trans_lt (EditMember.fits_oids hfit (h p old hold).len_lt)
    refine h.update ((h p old hold).of_contents (hwf p pls (Function.update_self _ _ _)) hid.id_eq hid.name_eq hlen
      hcontents.poolst_le fun oid hoid => ?_) rfl
    exact (hcontents.items oid hoid).elim ((h p old hold).oids oid) (hplain oid)
  | @played sender path m p old pls r sent hl hold hplay =>
    have hcontents := handlePlay_playKeeps sender (atoi path) old d.draws m
    have hid := handlePlay_identity sender (atoi path) old d.draws m
    rw [hplay] at hcontents hid
    refine h.update ((h p old hold).of_contents (hwf p pls (Function.update_self _ _ _)) hid.id_eq hid.name_eq
      (hcontents.len_eq ▸ (h p old hold).len_lt) (fun hs => (hcontents.poolst_eq hs).le) ?_) rfl
    dsimp only at hcontents
    rw [hcontents.len_eq, hcontents.vidx_eq]
    exact (h p old hold).oids
  | @renamed sender path name p old hl hold _ hne =>
    have hold := h p old hold
    have hnew : Storable { old with name := name, dirty := true } :=
      ⟨wf_congr hold.wf rfl rfl rfl rfl rfl rfl, hold.id_lt, hold.len_lt, hold.poolst_lt, hne, hplain, hold.oids⟩
    exact h.update hnew rfl
  | @incremented sender path p old hl hold => exact h.update ((h p old hold).intrinsic _ _) rfl
  | @decremented sender path p old hl hold =>
    exact h.update ((h p old hold).intrinsic _ _) (removeUsecountHolder_frame _ _ _).1
  | released hr =>
    apply handleUsecountHolderMsgs_invariant Daemon.AllStorable ?_ ?_ h hr
    · exact fun d1 p pls h1 hp => h1.update ((h1 p pls hp).intrinsic _ _) rfl
    · exact fun d1 c h1 => h1
  | added hf => exact h.update (hf.storable h he) rfl
  | removed hp => exact fun q x hx => h q x (of_update_none hx).2

end

end MafwShared
