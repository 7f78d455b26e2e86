import MafwShared.LoadPlaylists
import MafwShared.Proofs.RoundTrip

/-!
# What a save promises

`pls_save` writes a temporary file and moves it over the target. `SaveEffect` says what one
save does to the file system, however its calls turn out. The results of `fflush` and
`fsync` are the only ones that are not looked at, and they decide whether the promise is kept.
-/

namespace MafwShared
open CLib

/-- Every call whose result is looked at succeeds. -/
structure SaveCalls.Accepted (c : SaveCalls) (pls : Pls) : Prop where
  fopen : c.fopen = true
  fprintf : c.failedPrint pls = none
  fclose : c.fclose = none
  rename : c.rename = true

/-- The flush wrote everything, whatever it returned. -/
def SaveCalls.WritesAll (c : SaveCalls) (pls : Pls) : Prop :=
  ∀ k, c.fflush = some k → (fileText pls).length ≤ k

/-- When `pls_save` returns `TRUE` the file holds the playlist, when it returns `FALSE` what it
held before. -/
def SaveHonest (c : SaveCalls) (pls : Pls) (fn : Bytes) (fs : FS) : Prop :=
  ((plsSave c pls fn fs).1 = true → (plsSave c pls fn fs).2 fn = some (.regular (fileText pls))) ∧
    ((plsSave c pls fn fs).1 = false → (plsSave c pls fn fs).2 fn = fs fn)

/-- When `save_me` clears `dirty` the file holds the playlist and the disk has it. -/
def DirtyHonest (ensured : Bool) (c : SaveCalls) (dir : Bytes) (pls : Pls) (fs : FS) : Prop :=
  pls.dirty = true → (saveMe ensured c dir pls fs).1.dirty = false →
    (saveMe ensured c dir pls fs).2 (playlistPath dir pls.id) = some (.regular (fileText pls)) ∧ c.fsync = true

/-! ### One save -/

lemma tmp_ne (fn : Bytes) : fn ++ tmpSuffix ≠ fn := by
  intro he
  have hlen := congrArg List.length he
  simp [tmpSuffix] at hlen

lemma store_of_ne (fs : FS) {path p : Bytes} (node : Option Node) (h : p ≠ path) : fs.store path node p = fs p :=
  Function.update_of_ne h _ _

lemma store_self (fs : FS) (path : Bytes) (node : Option Node) : fs.store path node path = node :=
  Function.update_self _ _ _

lemma move_dst (fs : FS) {src dst : Bytes} (h : dst ≠ src) : fs.move src dst dst = fs src := by
  rw [FS.move, store_of_ne _ none h, store_self]

lemma move_of_ne (fs : FS) {src dst p : Bytes} (h : p ≠ src) (h' : p ≠ dst) : fs.move src dst p = fs p := by
  rw [FS.move, store_of_ne _ none h, store_of_ne _ _ h']

lemma dropTmp_of_ne (fs : FS) {tmpf p : Bytes} (c : SaveCalls) (h : p ≠ tmpf) : fs.dropTmp c tmpf p = fs p := by
  unfold FS.dropTmp
  split
  · exact store_of_ne fs none h
  · rfl

lemma store_regular (fs : FS) {path content : Bytes} {node : Node}
    (h : fs.store path (some (.regular content)) path = some node) : ∃ content, node = .regular content := by
  rw [store_self] at h
  exact ⟨content, (Option.some.inj h).symm⟩

lemma dropTmp_regular (fs : FS) (c : SaveCalls) {tmpf content : Bytes} {node : Node}
    (h : (fs.store tmpf (some (.regular content))).dropTmp c tmpf tmpf = some node) :
    ∃ content, node = .regular content := by
  unfold FS.dropTmp at h
  split at h
  · rw [store_self] at h
    cases h
  · exact store_regular fs h

lemma dropTmp_stored (fs : FS) (c : SaveCalls) {tmpf path : Bytes} (node : Option Node) (h : path ≠ tmpf) :
    (fs.store tmpf node).dropTmp c tmpf path = fs path := by
  rw [dropTmp_of_ne _ c h, store_of_ne fs node h]

/-- What a save returns and what it does to the file system. -/
structure SaveEffect (c : SaveCalls) (pls : Pls) (fn : Bytes) (fs : FS) (r : Bool × FS) : Prop where
  accepted : r.1 = true ↔ c.Accepted pls
  tmp_gone : r.1 = true → r.2 (fn ++ tmpSuffix) = none
  target : r.1 = true → r.2 fn = some (.regular (c.flushed pls))
  kept : r.1 = false → r.2 fn = fs fn
  tmp_regular : ∀ node, r.2 (fn ++ tmpSuffix) = some node →
    fs (fn ++ tmpSuffix) = some node ∨ ∃ content, node = .regular content
  other : ∀ path, path ≠ fn → path ≠ fn ++ tmpSuffix → r.2 path = fs path

lemma SaveEffect.of_false {c : SaveCalls} {pls : Pls} {fn : Bytes} {fs fs' : FS} (hc : ¬ c.Accepted pls)
    (htmp : ∀ node, fs' (fn ++ tmpSuffix) = some node →
      fs (fn ++ tmpSuffix) = some node ∨ ∃ content, node = .regular content)
    (h : ∀ path, path ≠ fn ++ tmpSuffix → fs' path = fs path) : SaveEffect c pls fn fs (false, fs') := by
  refine ⟨⟨fun hf => ?_, fun ha => absurd ha hc⟩, fun hf => ?_, fun hf => ?_, fun _ => h fn (tmp_ne fn).symm, htmp,
    fun path _ hp => h path hp⟩
  all_goals cases hf

theorem plsSave_effect (c : SaveCalls) (pls : Pls) (fn : Bytes) (fs : FS) :
    SaveEffect c pls fn fs (plsSave c pls fn fs) := by
  unfold plsSave
  dsimp only
  by_cases hopen : c.fopen = false
  · rw [if_pos hopen]
    refine .of_false (fun hc => ?_) (fun _ => Or.inl) fun _ _ => rfl
    rw [hc.fopen] at hopen
    cases hopen
  · rw [if_neg hopen]
    cases hprint : c.failedPrint pls with
    | some k =>
      refine .of_false (fun hc => ?_) (fun _ h => Or.inr (dropTmp_regular fs c h)) fun _ hp => dropTmp_stored fs c _ hp
      rw [hc.fprintf] at hprint
      cases hprint
    | none =>
      dsimp only
      by_cases hclose : c.fclose.isSome
      · rw [if_pos hclose]
        refine .of_false (fun hc => ?_) (fun _ h => Or.inr (dropTmp_regular fs c h)) fun _ hp => dropTmp_stored fs c _ hp
        rw [hc.fclose] at hclose
        cases hclose
      · rw [if_neg hclose]
        by_cases hrename : c.rename = false
        · rw [if_pos hrename]
          refine .of_false (fun hc => ?_) (fun _ h => Or.inr (store_regular fs h)) fun _ hp => store_of_ne fs _ hp
          rw [hc.rename] at hrename
          cases hrename
        · rw [if_neg hrename]
          have hacc : c.Accepted pls := ⟨by simpa using hopen, hprint, by simpa using hclose, by simpa using hrename⟩
          refine ⟨⟨fun _ => hacc, fun _ => rfl⟩, fun _ => store_self _ _ _, fun _ => ?_, fun hf => ?_,
            fun node hnode => ?_, fun path hfn hp => ?_⟩
          · exact (move_dst _ (tmp_ne fn).symm).trans (store_self _ _ _)
          · cases hf
          · have hgone : (fs.store (fn ++ tmpSuffix) (some (.regular (c.flushed pls)))).move (fn ++ tmpSuffix) fn
                (fn ++ tmpSuffix) = none := store_self _ _ _
            cases hgone.symm.trans hnode
          · exact (move_of_ne _ hp hfn).trans (store_of_ne fs _ hp)

/-! ### Honesty -/

lemma flushed_eq_iff (c : SaveCalls) (pls : Pls) : c.flushed pls = fileText pls ↔ c.WritesAll pls := by
  unfold SaveCalls.flushed SaveCalls.WritesAll
  cases c.fflush with
  | none => simp
  | some k => simp [List.take_eq_self_iff]

lemma saveMe_dirty (ensured : Bool) (c : SaveCalls) (dir : Bytes) (fs : FS) {pls : Pls} (h : pls.dirty = true) :
    (saveMe ensured c dir pls fs).1.dirty = false ↔ ensured = true ∧ c.Accepted pls := by
  rw [← (plsSave_effect c pls (playlistPath dir pls.id) fs).accepted]
  cases ensured with
  | false => simp [saveMe, h]
  | true =>
    cases hsave : (plsSave c pls (playlistPath dir pls.id) fs).1 <;> simp [saveMe, hsave, h]

lemma saveMe_fs (c : SaveCalls) (dir : Bytes) (fs : FS) (pls : Pls) :
    (saveMe true c dir pls fs).2 = (plsSave c pls (playlistPath dir pls.id) fs).2 := rfl

/-- A save is honest exactly when the unchecked calls did their work, or one that is checked
failed. -/
theorem save_honest (c : SaveCalls) (pls : Pls) (fn dir : Bytes) (fs : FS) (ensured : Bool) :
    (SaveHonest c pls fn fs ↔ (c.Accepted pls → c.WritesAll pls)) ∧
      (DirtyHonest ensured c dir pls fs ↔
        (pls.dirty = true → ensured = true → c.Accepted pls → c.WritesAll pls ∧ c.fsync = true)) := by
  have htarget : ∀ fn, c.Accepted pls →
      ((plsSave c pls fn fs).2 fn = some (.regular (fileText pls)) ↔ c.WritesAll pls) := by
    intro fn hacc
    have heffect := plsSave_effect c pls fn fs
    rw [heffect.target (heffect.accepted.mpr hacc), Option.some.injEq, Node.regular.injEq]
    exact flushed_eq_iff c pls
  have heffect := plsSave_effect c pls fn fs
  constructor
  · constructor
    · exact fun h hacc => (htarget fn hacc).mp (h.1 (heffect.accepted.mpr hacc))
    · exact fun h => ⟨fun hr => (htarget fn (heffect.accepted.mp hr)).mpr (h (heffect.accepted.mp hr)), heffect.kept⟩
  · constructor
    · intro h hdirty hensured hacc
      subst hensured
      obtain ⟨hfile, hsync⟩ := h hdirty ((saveMe_dirty true c dir fs hdirty).mpr ⟨rfl, hacc⟩)
      exact ⟨(htarget _ hacc).mp hfile, hsync⟩
    · intro h hdirty hclear
      obtain ⟨rfl, hacc⟩ := (saveMe_dirty ensured c dir fs hdirty).mp hclear
      obtain ⟨hall, hsync⟩ := h hdirty rfl hacc
      exact ⟨(htarget _ hacc).mpr hall, hsync⟩

/-- `fflush` fails with nothing written: an empty file takes the place of the old one, and
the playlist is no longer dirty. -/
theorem save_dishonest :
    ¬ SaveHonest { SaveCalls.succeed with fflush := some 0 } (singleton [97]) (playlistPath [100] 7)
      (fun _ => some (.regular [86])) ∧
    ¬ DirtyHonest true { SaveCalls.succeed with fflush := some 0 } [100] (singleton [97])
      (fun _ => some (.regular [86])) := by
  constructor
  · intro h
    cases h.1 rfl
  · intro h
    cases (h rfl rfl).1

end MafwShared
