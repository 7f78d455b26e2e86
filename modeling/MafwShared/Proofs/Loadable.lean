import MafwShared.Lib.Splice
import MafwShared.Proofs.Duplicates
import MafwShared.Proofs.RoundTrip

/-!
# Requests and the file format

The requests that name a playlist or put items into it accept every string, a file does
not bring every string back. `Loadable` says that the file of a playlist is one that
`pls_load` accepts. The requests whose strings fit the lines of a file keep it.
-/

namespace MafwShared
open CLib

/-- A name that stands on one line of a file and fits the buffer with its newline. -/
structure NameFits (name : Bytes) : Prop where
  line : IsLine name
  length_lt : name.length < 2048

/-- A list of object ids that is written to a file, in this order, as so many item lines. -/
structure ItemsFit (items : List Bytes) : Prop where
  length_lt : items.length < 2 ^ 31
  line : ∀ oid ∈ items, IsLine oid
  word : ∀ oid ∈ items, firstWord oid ≠ []
  line_len : ∀ i oid, items[i]? = some oid → (decimal i ++ 44 :: oid).length ≤ 2048
  line_fits : ∀ i oid, i + 1 < items.length → items[i]? = some oid → (decimal i ++ 44 :: oid).length < 2048

structure Loadable (p : Pls) : Prop where
  wf : p.WF
  shuffled_eq : p.shuffled = 0
  id_lt : p.id < 2 ^ 31
  poolst_lt : p.poolst < 2 ^ 31
  name_ne : p.name ≠ []
  name_fits : NameFits p.name
  items_fit : ItemsFit (cells p.vidx p.len)

/-- The unchecked flush reached the first word of the last line. -/
def SaveCalls.FlushesItems (c : SaveCalls) (p : Pls) : Prop :=
  ∀ k, c.fflush = some k → (fileText p).length ≤ k + (fileTail p).length ∧
    ∀ i < p.len, firstWord ((shortened p ((fileText p).length - 1 - k)).vidx i) ≠ []

/-! ### Loadable playlists -/

lemma itemLine_unshuffled {p : Pls} (hs : p.shuffled = 0) (i : Nat) :
    itemLine p i = decimal i ++ 44 :: p.vidx i := by
  rw [itemLine, playingIndex, if_neg (not_not.mpr hs)]

namespace Loadable
variable {p : Pls}

lemma savable (h : Loadable p) : Savable p := by
  have hoid : ∀ i < p.len, (cells p.vidx p.len)[i]? = some (p.vidx i) := fun i hi => getElem?_cells p.vidx hi
  have hlen := h.items_fit.length_lt
  rw [length_cells] at hlen
  refine ⟨h.wf, h.id_lt, hlen, h.poolst_lt, h.name_ne, h.name_fits.line, h.name_fits.length_lt,
    fun i hi => h.items_fit.line _ (mem_cells.mpr ⟨i, hi, rfl⟩), fun i hi => ?_, fun i hi => ?_⟩
  · rw [itemLine_unshuffled h.shuffled_eq]
    exact h.items_fit.line_len i _ (hoid i hi)
  · rw [itemLine_unshuffled h.shuffled_eq]
    exact h.items_fit.line_fits i _ (by rwa [length_cells]) (hoid i (by omega))

lemma word (h : Loadable p) {i : Nat} (hi : i < p.len) : firstWord (p.vidx i) ≠ [] :=
  h.items_fit.word _ (mem_cells.mpr ⟨i, hi, rfl⟩)

/-- What a save leaves behind is loaded with as many items, if the flush got that far. -/
lemma loads (h : Loadable p) {c : SaveCalls} {fn : Bytes} {fs fs' : FS}
    (hsave : plsSave c p fn fs = (true, fs')) :
    (∃ q, plsLoad fs' fn = .ok q ∧ q.len = p.len) ↔ c.FlushesItems p := by
  have hload : plsLoad fs' fn = loadText (c.flushed p) := by rw [plsLoad, plsSave_written hsave]
  rw [hload]
  cases hc : c.fflush with
  | none =>
    obtain ⟨q, hq, -, hsame⟩ := loadText_words h.savable (Or.inl rfl) fun i hi => h.word hi
    have hflushed : c.flushed p = fileText p := by rw [SaveCalls.flushed, hc]
    rw [← fileText_eq, ← hflushed] at hq
    refine iff_of_true ⟨q, hq, hsame.len_eq⟩ fun k hk => ?_
    rw [hc] at hk
    cases hk
  | some k =>
    have hflushed : c.flushed p = (fileText p).take k := by rw [SaveCalls.flushed, hc]
    rw [hflushed]
    constructor
    · rintro ⟨q, hq, -⟩ k' hk'
      rw [hc] at hk'
      cases hk'
      have htail : (fileText p).length ≤ k + (fileTail p).length := by
        by_contra hcut
        rcases loadText_cut h.savable (not_le.mp hcut) with he | he <;> rw [he] at hq <;> cases hq
      refine ⟨htail, fun i hi hnil => ?_⟩
      rw [loadText_shortened_wordless h.savable htail hi hnil] at hq
      cases hq
    · intro hk
      obtain ⟨htail, hword⟩ := hk k hc
      obtain ⟨q, hq, -, hsame⟩ := loadText_shortened h.savable htail hword
      exact ⟨q, hq, hsame.len_eq.trans (shortened_len p _)⟩

end Loadable

/-! ### Operations -/

lemma itemsFit_nil : ItemsFit [] :=
  ⟨by simp, by simp, by simp, by simp, by simp⟩

lemma itemsFit_of_short {items : List Bytes} (hlen : items.length < 2 ^ 31)
    (h : ∀ oid ∈ items, IsLine oid ∧ firstWord oid ≠ [] ∧ oid.length ≤ 2036) : ItemsFit items := by
  have hline : ∀ (i : Nat) oid, items[i]? = some oid → (decimal i ++ 44 :: oid).length < 2048 := by
    intro i oid hi
    obtain ⟨hlt, rfl⟩ := List.getElem?_eq_some_iff.mp hi
    have hdigits : (Nat.toDigits 10 i).length ≤ 10 :=
      (Nat.length_toDigits_le_iff (by decide) (by decide)).mpr (by omega)
    have hoid := (h _ (List.getElem_mem hlt)).2.2
    rw [decimal, List.length_append, List.length_map, List.length_cons]
    omega
  exact ⟨hlen, fun oid ho => (h oid ho).1, fun oid ho => (h oid ho).2.1, fun i oid hi => (hline i oid hi).le,
    fun i oid _ hi => hline i oid hi⟩

lemma plsNew_loadable {id : Nat} {name : Bytes} {p : Pls} (h : plsNew false id name = some p)
    (hid : id < 2 ^ 31) (hname : NameFits name) : Loadable p ∧ p.len = 0 ∧ p.poolst = 0 := by
  have hwf := plsNew_wf h
  obtain ⟨hne, heq, hn, -⟩ := plsNew_eq h
  have hrest := plsNew_fields h
  refine ⟨⟨hwf, hrest.1, heq ▸ hid, by rw [hrest.2.2]; decide, hn ▸ hne, hn ▸ hname, ?_⟩, hrest.2⟩
  rw [hrest.2.1]
  exact itemsFit_nil

lemma Loadable.of_fields {p q : Pls} (h : Loadable p) (hwf : q.WF) (hs : q.shuffled = p.shuffled)
    (hid : q.id = p.id) (hpool : q.poolst = p.poolst) (hname : q.name = p.name)
    (hitems : ItemsFit (cells q.vidx q.len)) : Loadable q :=
  ⟨hwf, hs.trans h.shuffled_eq, hid ▸ h.id_lt, hpool ▸ h.poolst_lt, hname ▸ h.name_ne, hname ▸ h.name_fits,
    hitems⟩

lemma Inserted.loadable {p q : Pls} {idx : Nat} {oids : List Bytes} (h : Inserted p idx oids q) (hp : Loadable p)
    (hfit : ItemsFit (splice (cells p.vidx p.len) idx 0 oids)) : Loadable q := by
  refine hp.of_fields (wf_of_unshuffled h.len_le (h.shuffled_eq.trans hp.shuffled_eq)) h.shuffled_eq ?_ ?_ ?_ ?_
  · exact (congrArg Pls.id h.frame :)
  · exact (congrArg Pls.poolst h.frame :)
  · exact (congrArg Pls.name h.frame :)
  · rw [h.items]
    exact hfit

lemma plsInserts_loadable {p q : Pls} {idx : Nat} {oids : List Bytes} {b : Bool} (hp : Loadable p)
    (hq : plsInserts p idx oids = some (b, q))
    (hfit : oids ≠ [] → idx ≤ p.len → ItemsFit (splice (cells p.vidx p.len) idx 0 oids)) : Loadable q := by
  by_cases hrej : oids = [] ∨ idx > p.len
  · rw [plsInserts_rejected hrej] at hq
    cases hq
    exact hp
  · rw [not_or, not_lt] at hrej
    have hfits := hfit hrej.1 hrej.2
    have hlen := hfits.length_lt
    rw [length_splice _ _ (by simpa using hrej.2), length_cells] at hlen
    obtain ⟨q', hq', -, hins⟩ := plsInserts_accepted hrej.1 hrej.2 hp.wf.len_le (by omega)
    rw [hq'] at hq
    cases hq
    exact hins.loadable hp hfits

lemma ItemsFit.of_append {items rest : List Bytes} (h : ItemsFit (items ++ rest)) : ItemsFit items := by
  have hget : ∀ (i : Nat) oid, items[i]? = some oid → (items ++ rest)[i]? = some oid := by
    intro i oid hi
    obtain ⟨hlt, -⟩ := List.getElem?_eq_some_iff.mp hi
    rw [List.getElem?_append_left hlt, hi]
  have hlen := h.length_lt
  rw [List.length_append] at hlen
  refine ⟨by omega, fun oid ho => h.line oid (List.mem_append_left _ ho),
    fun oid ho => h.word oid (List.mem_append_left _ ho), fun i oid hi => h.line_len i oid (hget i oid hi),
    fun i oid hlt hi => h.line_fits i oid ?_ (hget i oid hi)⟩
  rw [List.length_append]
  omega

lemma appendAll_loadable {oids : List Bytes} {p q : Pls} (hp : Loadable p) (hq : appendAll oids p = some q)
    (hfit : ItemsFit (cells p.vidx p.len ++ oids)) : Loadable q := by
  induction oids generalizing p with
  | nil =>
    cases hq
    exact hp
  | cons oid oids ih =>
    obtain ⟨⟨b, p'⟩, hp', hrest⟩ := Option.bind_eq_some_iff.mp hq
    have hstep : splice (cells p.vidx p.len) p.len 0 [oid] = cells p.vidx p.len ++ [oid] := by
      rw [splice, List.take_of_length_le (by simp), List.drop_of_length_le (by simp), List.append_nil]
    rw [← List.singleton_append, ← List.append_assoc] at hfit
    have hlen := hfit.of_append.length_lt
    rw [List.length_append, length_cells] at hlen
    obtain ⟨q', hq', -, hins⟩ := plsInserts_accepted (List.cons_ne_nil oid []) le_rfl hp.wf.len_le
      (by simp only [List.length_singleton] at hlen ⊢; omega)
    rw [plsAppend, hq'] at hp'
    cases hp'
    refine ih (hins.loadable hp (hstep ▸ hfit.of_append)) hrest ?_
    have hitems : cells p'.vidx p'.len = splice (cells p.vidx p.len) p.len 0 [oid] := hins.items
    rw [hitems, hstep]
    exact hfit

lemma duplicateFields_loadable {new src : Pls} (hnew : Loadable new) (hsrc : Loadable src) :
    Loadable (duplicateFields new src) := by
  have hsame := duplicateFields_content new src
  have hs : (duplicateFields new src).shuffled = 0 := hsame.shuffled_eq.trans hsrc.shuffled_eq
  have hid := duplicateFields_identity new src
  have hlen : (duplicateFields new src).len = src.len := hsame.len_eq
  refine hnew.of_fields (wf_of_unshuffled ?_ hs) (hs.trans hnew.shuffled_eq.symm) hid.id_eq hsame.poolst_eq
    hid.name_eq ?_
  · rw [hlen, duplicateFields_alloc]
    exact hsrc.wf.len_le
  · rw [hlen, cells_congr hsame.vidx]
    exact hsrc.items_fit

/-! ### Runs -/

/-- The strings and numbers of a request that is accepted fit a file. Only the requests that
name playlists or add items, that destroy playlists or list them belong to the runs. -/
def StoresLines (createObjectid : Bytes → Bytes) (d : Daemon) : DaemonEvent → Prop
  | .create _ name | .duplicate _ _ name =>
    name ≠ [] → d.playlistsByName.lookup name = none → d.lastId < 2 ^ 31 ∧ NameFits name
  | .imported data none =>
    (∀ name, d.freeName data.plUri (d.playlistsByName.entries.length + 1) 0 = some name →
      d.lastId < 2 ^ 31 ∧ NameFits name) ∧
      ItemsFit (if data.listFromBrowse then data.urilist else data.urilist.map createObjectid)
  | .playlist _ _ (.setName name) => name ≠ [] → d.playlistsByName.lookup name = none → NameFits name
  | .playlist _ path (.edit (.insertItem index objectids)) =>
    ∀ p pls, d.playlists.lookup (atoi path) = some p → d.heap p = some pls → objectids ≠ [] → index ≤ pls.len →
      ItemsFit (splice (cells pls.vidx pls.len) index 0 objectids)
  | .playlist _ path (.edit (.appendItem objectids)) =>
    ∀ p pls, d.playlists.lookup (atoi path) = some p → d.heap p = some pls → objectids ≠ [] →
      ItemsFit (splice (cells pls.vidx pls.len) pls.len 0 objectids)
  | .imported _ (some _) | .destroy _ _ | .list _ _ => True
  | _ => False

structure AllLoadable (d : Daemon) : Prop where
  registry : Registry d
  id_lt : ∀ id ∈ d.playlists, id < d.lastId
  loadable : ∀ p pls, d.heap p = some pls → Loadable pls

section
variable {createObjectid : Bytes → Bytes} {d d' : Daemon}

lemma AllLoadable.fresh (h : AllLoadable d) : d.playlists.lookup d.lastId = none := by
  rw [AList.lookup_eq_none]
  exact fun hmem => absurd (h.id_lt _ hmem) (Nat.lt_irrefl _)

lemma loadable_update (h : ∀ p pls, d.heap p = some pls → Loadable pls) {p : Ptr} {new : Pls} (hnew : Loadable new) :
    ∀ q pls, Function.update d.heap p (some new) q = some pls → Loadable pls := by
  intro q pls hq
  rcases of_update_some hq with ⟨-, rfl⟩ | ⟨-, hq⟩
  · exact hnew
  · exact h q pls hq

lemma handleEdit_loadable {sender : Client} {path : Bytes} {m : EditMember} {p : Ptr} {old pls : Pls}
    {sent : List Sent} (hold : Loadable old) (hl : d.playlists.lookup (atoi path) = some p)
    (hp : d.heap p = some old) (hg : StoresLines createObjectid d (.playlist sender path (.edit m)))
    (hm : handleEdit sender (atoi path) old m = some (pls, sent)) : Loadable pls := by
  cases m with
  | insertItem index objectids =>
    obtain ⟨⟨b, q⟩, hq, heq⟩ := Option.map_eq_some_iff.mp hm
    cases heq
    exact plsInserts_loadable hold hq fun hne hidx => hg p old hl hp hne hidx
  | appendItem objectids =>
    obtain ⟨⟨b, q⟩, hq, heq⟩ := Option.map_eq_some_iff.mp hm
    cases heq
    exact plsInserts_loadable hold hq fun hne _ => hg p old hl hp hne
  | removeItem | move | clear => exact hg.elim

lemma Fresh.loadable {e : DaemonEvent} {pls : Pls} (h : AllLoadable d) (hg : StoresLines createObjectid d e)
    (hf : Fresh createObjectid d e pls) (hname : d.playlistsByName.lookup pls.name = none) :
    d.lastId < 2 ^ 31 ∧ Loadable pls := by
  cases hf with
  | created hnew =>
    obtain ⟨hne, -, hn, -⟩ := plsNew_eq hnew
    obtain ⟨hid, hfits⟩ := hg hne (hn ▸ hname)
    exact ⟨hid, (plsNew_loadable hnew hid hfits).1⟩
  | @duplicated _ _ _ _ src new hl hsrc hnew =>
    obtain ⟨hne, -, hn, -⟩ := plsNew_eq hnew
    have hsame := (duplicateFields_identity new src).name_eq.trans hn
    obtain ⟨hid, hfits⟩ := hg hne (hsame ▸ hname)
    exact ⟨hid, duplicateFields_loadable (plsNew_loadable hnew hid hfits).1 (h.loadable _ _ hsrc)⟩
  | imported hfree hnew hall =>
    obtain ⟨hid, hfits⟩ := hg.1 _ hfree
    obtain ⟨hloadable, hlen, -⟩ := plsNew_loadable hnew hid hfits
    refine ⟨hid, appendAll_loadable hloadable hall ?_⟩
    rw [hlen]
    exact hg.2

lemma AllLoadable.step {e : DaemonEvent} {sent : List Sent} (h : AllLoadable d)
    (hg : StoresLines createObjectid d e) (ht : Turned createObjectid d e d' sent) : AllLoadable d' := by
  have hreg := ht.registry h.registry fun _ => h.fresh
  cases ht with
  | kept => exact h
  | edited hl hold hedit =>
    exact ⟨hreg, h.id_lt, loadable_update h.loadable (handleEdit_loadable (h.loadable _ _ hold) hl hold hg hedit)⟩
  | played | incremented | decremented | released => exact hg.elim
  | renamed hl hold hname hne =>
    have hloadable := h.loadable _ _ hold
    refine ⟨hreg, h.id_lt, loadable_update h.loadable ?_⟩
    exact ⟨wf_congr hloadable.wf rfl rfl rfl rfl rfl rfl, hloadable.shuffled_eq, hloadable.id_lt, hloadable.poolst_lt,
      hne, hg hne hname, hloadable.items_fit⟩
  | @added _ pls _ hf hname =>
    obtain ⟨hlt, hloadable⟩ := hf.loadable h hg hname
    refine ⟨hreg, fun id hid => ?_, loadable_update h.loadable hloadable⟩
    have hlast : (d.added pls).lastId = d.lastId + 1 := Nat.mod_eq_of_lt (by omega)
    rw [hlast]
    rcases (AList.mem_insert _).mp hid with rfl | hid
    · rw [hf.identity.1]
      exact Nat.lt_succ_self _
    · exact (h.id_lt id hid).trans (Nat.lt_succ_self _)
  | @removed _ p pls =>
    refine ⟨hreg, fun id hid => h.id_lt id (AList.mem_erase.mp hid).2, fun q x hx => ?_⟩
    have hfreed : Function.update d.heap p none q = some x := hx
    exact h.loadable q x (of_update_none hfreed).2

/-- After every run of requests whose strings fit the lines of a file, every playlist that
is saved is loaded again with as many items, as far as the flush of the save got. -/
theorem requests_stay_loadable (h : Registry d) (hlast : ∀ id ∈ d.playlists, id < d.lastId)
    (hall : ∀ p pls, d.heap p = some pls → Loadable pls) {s : Daemon}
    (hr : Reach (fun s e t => ∃ sent, s.handle createObjectid e = .ok (t, sent)) (StoresLines createObjectid) d s)
    {p : Ptr} {pls : Pls} (hp : s.heap p = some pls) {c : SaveCalls} {fn : Bytes} {fs fs' : FS}
    (hsave : plsSave c pls fn fs = (true, fs')) :
    (∃ q, plsLoad fs' fn = .ok q ∧ q.len = pls.len) ↔ c.FlushesItems pls := by
  have hinv := hr.invariant AllLoadable ⟨h, hlast, hall⟩ fun s e t hs hg ⟨sent, he⟩ =>
    hs.step hg (Turned.of_ok hs.registry (fun _ => hs.fresh) he)
  exact (hinv.loadable p pls hp).loads hsave

end

lemma itemsFit_uuid (n : Nat) (h : n < 2 ^ 31) : ItemsFit (List.replicate n [97, 58, 58, 98]) := by
  refine itemsFit_of_short (by simpa using h) fun oid ho => ?_
  rw [List.eq_of_mem_replicate ho]
  exact ⟨by unfold IsLine; decide, by decide, by decide⟩

/-- A playlist is created, gets an item at its beginning and one at its end. -/
theorem requests_stay_loadable_twoItems : ∃ s p pls,
    Reach (fun s e t => ∃ sent, s.handle id e = .ok (t, sent)) (StoresLines id) Daemon.init s ∧
      s.heap p = some pls ∧ pls.len = 2 ∧
      ∃ q, plsLoad (plsSave .succeed pls [110] fun _ => none).2 [110] = .ok q ∧ q.len = 2 := by
  obtain ⟨s, pls, hreach, hp, hlen⟩ : ∃ s pls,
      Reach (fun s e t => ∃ sent, s.handle id e = .ok (t, sent)) (StoresLines id) Daemon.init s ∧
        s.heap 0 = some pls ∧ pls.len = 2 := by
    refine ⟨_, _, .next (e := .playlist [49] [49] (.edit (.appendItem [[97, 58, 58, 98]])))
      (.next (e := .playlist [49] [49] (.edit (.insertItem 0 [[97, 58, 58, 98]])))
        (.next (e := .create [49] [112]) .refl ?_ ⟨_, rfl⟩) ?_ ⟨_, rfl⟩) ?_ ⟨_, rfl⟩, rfl, rfl⟩
    · exact fun _ _ => ⟨by decide, by unfold IsLine; decide, by decide⟩
    · intro p pls hl hp _ _
      cases hl
      cases hp
      exact itemsFit_uuid 1 (by decide)
    · intro p pls hl hp _
      cases hl
      cases hp
      exact itemsFit_uuid 2 (by decide)
  have hsave : plsSave .succeed pls [110] (fun _ => none) =
      (true, (plsSave .succeed pls [110] fun _ => none).2) :=
    Prod.ext (plsSave_succeed pls [110] fun _ => none) rfl
  have hloads := requests_stay_loadable (registry_init 1) (by decide) (fun p pls hp => by cases hp) hreach hp hsave
  rw [hlen] at hloads
  exact ⟨s, 0, pls, hreach, hp, hlen, hloads.mpr fun k hk => by cases hk⟩

/-- A newline in a name, or an object id without a word, is accepted and makes the file
unreadable. -/
theorem requests_make_unloadable :
    (∃ s pls sent, Daemon.init.handle id (.create [49] [97, 10, 98]) = .ok (s, sent) ∧ s.heap 0 = some pls ∧
      (plsSave .succeed pls [110] fun _ => none).1 = true ∧
      plsLoad (plsSave .succeed pls [110] fun _ => none).2 [110] = .error .unassigned) ∧
    ∃ s t pls sent sent', Daemon.init.handle id (.create [49] [112]) = .ok (s, sent) ∧
      s.handle id (.playlist [49] [49] (.edit (.appendItem [[]]))) = .ok (t, sent') ∧ t.heap 0 = some pls ∧
      (plsSave .succeed pls [110] fun _ => none).1 = true ∧
      plsLoad (plsSave .succeed pls [110] fun _ => none).2 [110] = .error .null :=
  ⟨⟨_, _, _, rfl, rfl, rfl, rfl⟩, _, _, _, _, _, rfl, rfl, rfl, rfl, rfl⟩

end MafwShared
