import MafwShared.Proofs.LoadChecks

/-!
# Loads without undefined behaviour

A load that does not bring a playlist should return `NULL` and do nothing worse. Apart from the
items, whose cells are checked, there are three places where it can go wrong: a line that starts
with a NUL, an empty name, for which `pls_new` returns `NULL`, and a mode that is not a number, which
is compared although nothing was assigned to it.
-/

namespace MafwShared
open CLib

/-- `pls_load` returns a playlist or `NULL` and stays within the language. -/
def LoadsSafely (f : Bytes) : Prop := (∃ p, loadText f = .ok p) ∨ loadText f = .error .null

/-- Line `k` is reached and holds no number. -/
structure Unconverted (lines : List Bytes) (k : Nat) : Prop where
  before : ∀ i < k, InOrder lines i
  there : k < lines.length
  number : numberOn lines k = none

/-- The files on which no step of a load goes wrong. -/
structure SafeToLoad (f : Bytes) : Prop where
  no_nul : CutShort (linesOf f) → endOf f ≠ .outOfBounds
  name_ne : HeaderInOrder (linesOf f) → (linesOf f)[2]? ≠ some []
  repeat_number : ¬ Unconverted (linesOf f) 3
  shuffled_number : ¬ Unconverted (linesOf f) 4

/-! ### Steps that leave every variable assigned -/

section
variable {α β : Type}

lemma bind_assigned {r : Except LoadStop α} {K : α → Except LoadStop β} (hr : r ≠ .error .unassigned)
    (hK : ∀ a, K a ≠ .error .unassigned) : r >>= K ≠ .error .unassigned := by
  cases r with
  | ok a => exact hK a
  | error e => exact fun he => hr (congrArg Except.error (Except.error.inj he))

lemma readLine_assigned (f : Bytes) : readLine f ≠ .error .unassigned := by
  intro h
  rcases readLine_error h with he | he <;> cases he

lemma convert_assigned (buf : Bytes) : convert buf .null ≠ .error .unassigned := by
  unfold convert
  split <;> exact fun he => by cases he

lemma require_assigned (b : Bool) : require b ≠ .error .unassigned := by
  cases b <;> exact fun he => by cases he

lemma storeCell_assigned (size : Nat) (a : Nat → α) (i : Nat) (x : α) : storeCell size a i x ≠ .error .unassigned := by
  unfold storeCell
  split <;> exact fun he => by cases he

lemma loadEntries_assigned (len n i : Nat) (p : Pls) (f : Bytes) : loadEntries len n i p f ≠ .error .unassigned := by
  induction n generalizing i p f with
  | zero => exact fun he => by cases he
  | succ n ih =>
    rw [loadEntries]
    refine bind_assigned (readLine_assigned f) fun r => ?_
    dsimp only
    cases scanItem r.1 with
    | none => exact fun he => by cases he
    | some item =>
      refine bind_assigned (require_assigned _) fun _ => ?_
      refine bind_assigned (storeCell_assigned _ _ _ _) fun vidx => ?_
      split
      · refine bind_assigned (storeCell_assigned _ _ _ _) fun order => ?_
        exact bind_assigned (storeCell_assigned _ _ _ _) fun iidx => ih _ _ _
      · exact ih _ _ _

lemma loadPoolst_assigned (version len : Int) (f : Bytes) : loadPoolst version len f ≠ .error .unassigned := by
  unfold loadPoolst
  split
  · refine bind_assigned (readLine_assigned f) fun r => ?_
    refine bind_assigned (convert_assigned _) fun poolst => ?_
    exact bind_assigned (require_assigned _) fun _ he => by cases he
  · exact fun he => by cases he

end

/-! ### Modes that are no numbers -/

section
variable {lines : List Bytes} {stop : LoadStop} {k : Nat}

/-- A line with a mode is reached that holds no number. -/
def ModeUnread (lines : List Bytes) : Prop := Unconverted lines 3 ∨ Unconverted lines 4

lemma Unconverted.not_inOrder (h : Unconverted lines k) (hk : k = 3 ∨ k = 4) : ¬ InOrder lines k := by
  rcases hk with rfl | rfl <;> rw [InOrder, h.number] <;> exact Bool.false_ne_true

/-- A load that gets to line `k` and not beyond has read no other mode than that on line `k`. -/
lemma Unconverted.eq {m : Nat} (h : Unconverted lines m) (hm : m = 3 ∨ m = 4) (hin : ∀ i < k, InOrder lines i)
    (hk : k < lines.length → ¬ InOrder lines k) : m = k := by
  rcases Nat.lt_trichotomy m k with hlt | heq | hlt
  · exact absurd (hin m hlt) (h.not_inOrder hm)
  · exact heq
  · exact absurd (h.before k hlt) (hk (hlt.trans h.there))

/-- The load compares an unassigned variable exactly when such a line is reached. -/
def Tells (lines : List Bytes) (r : Except LoadStop Pls) : Prop := r = .error .unassigned ↔ ModeUnread lines

namespace Tells
variable {f l : Bytes}

lemma other {r : Except LoadStop Pls} (hin : ∀ i < k, InOrder lines i) (hk : k < lines.length → ¬ InOrder lines k)
    (hmode : lines.length ≤ k ∨ k ≠ 3 ∧ k ≠ 4) (hr : r ≠ .error .unassigned) : Tells lines r := by
  have hnot : ∀ m, m = 3 ∨ m = 4 → ¬ Unconverted lines m := by
    intro m hm h
    have heq := h.eq hm hin hk
    have hlt := h.there
    omega
  refine iff_of_false hr fun h => ?_
  rcases h with h | h
  · exact hnot 3 (.inl rfl) h
  · exact hnot 4 (.inr rfl) h

lemma done {r : Except LoadStop Pls} (hin : ∀ i < 5, InOrder lines i) (hr : r ≠ .error .unassigned) :
    Tells lines r := by
  refine iff_of_false hr fun h => ?_
  rcases h with h | h
  · exact h.not_inOrder (.inl rfl) (hin 3 (by omega))
  · exact h.not_inOrder (.inr rfl) (hin 4 (by omega))

lemma read {K : Bytes × Bytes → Except LoadStop Pls} (hstop : stop ≠ .unassigned)
    (hin : ∀ i < k, InOrder lines i) (h : Reads (Stuck stop) (lines.drop k) f)
    (next : ∀ l rest, lines[k]? = some l → Reads (Stuck stop) (lines.drop (k + 1)) rest → Tells lines (K (l, rest))) :
    Tells lines (readLine f >>= K) := by
  rcases reads_drop h with ⟨hle, hstuck⟩ | ⟨l, rest, hl, hread, hrest⟩
  · rw [hstuck]
    exact other hin (fun hlt => absurd hle (not_le.mpr hlt)) (.inl hle) fun he => hstop (Except.error.inj he)
  · rw [hread]
    exact next l rest hl hrest

lemma bad {r : Except LoadStop Pls} (hk : k ≠ 3 ∧ k ≠ 4) (hin : ∀ i < k, InOrder lines i)
    (hbad : ¬ InOrder lines k) (hr : r ≠ .error .unassigned) : Tells lines r :=
  other hin (fun _ => hbad) (.inr hk) hr

lemma require {K : Unit → Except LoadStop Pls} {b : Bool} (hk : k ≠ 3 ∧ k ≠ 4) (hin : ∀ i < k, InOrder lines i)
    (hbad : b = false → ¬ InOrder lines k) (next : b = true → Tells lines (K ())) :
    Tells lines (require b >>= K) := by
  cases b with
  | false => exact bad hk hin (hbad rfl) fun he => by cases he
  | true => exact next rfl

lemma number {K : Int → Except LoadStop Pls} (hk : k ≠ 3 ∧ k ≠ 4) (hin : ∀ i < k, InOrder lines i)
    (hl : lines[k]? = some l) (hbad : numberOn lines k = none → ¬ InOrder lines k)
    (next : ∀ x, numberOn lines k = some x → Tells lines (K x)) : Tells lines (convert l .null >>= K) := by
  rcases convert_number hl .null with ⟨hnumber, hconvert⟩ | ⟨x, hnumber, hconvert⟩
  · rw [hconvert]
    exact bad hk hin (hbad hnumber) fun he => by cases he
  · rw [hconvert]
    exact next x hnumber

/-- A mode is compared when it was not converted. -/
lemma mode {K : Int → Except LoadStop Pls} (hk : k = 3 ∨ k = 4) (hin : ∀ i < k, InOrder lines i)
    (hl : lines[k]? = some l) (next : ∀ x, numberOn lines k = some x → Tells lines (K x)) :
    Tells lines (convert l .unassigned >>= K) := by
  rcases convert_number hl .unassigned with ⟨hnumber, hconvert⟩ | ⟨x, hnumber, hconvert⟩
  · have hu : Unconverted lines k := ⟨hin, (List.getElem?_eq_some_iff.mp hl).1, hnumber⟩
    rw [hconvert]
    refine iff_of_true rfl ?_
    rcases hk with rfl | rfl
    · exact .inl hu
    · exact .inr hu
  · rw [hconvert]
    exact next x hnumber

lemma version {K : Int → Except LoadStop Pls} (hl : lines[0]? = some l)
    (next : ∀ x, versionOf lines = some x → Tells lines (K x)) : Tells lines (convertVersion l >>= K) := by
  have hin : ∀ i < 0, InOrder lines i := fun i hi => absurd hi (Nat.not_lt_zero i)
  rcases convertVersion_version hl with ⟨hversion, hconvert⟩ | ⟨x, hversion, hconvert⟩
  · rw [hconvert]
    exact bad (by omega) hin (not_inOrder_version hversion) fun he => by cases he
  · rw [hconvert]
    exact next x hversion

end Tells

/-! ### The whole file -/

lemma loadText_tells (hstop : stop ≠ .unassigned) {f : Bytes} (h : Reads (Stuck stop) lines f) :
    Tells lines (loadText f) := by
  have h0 : Reads (Stuck stop) (lines.drop 0) f := by rwa [List.drop_zero]
  have hin0 : ∀ i < 0, InOrder lines i := fun i hi => absurd hi (Nat.not_lt_zero i)
  unfold loadText
  -- the version
  refine Tells.read hstop hin0 h0 fun l0 f0 hl0 h1 => ?_
  refine Tells.version hl0 fun version hv => ?_
  have hversion : InOrder lines 0 ↔ version = 1 ∨ version = 2 := by
    rw [InOrder, hv, Option.some.injEq, Option.some.injEq]
  refine Tells.require (k := 0) (by omega) hin0 ?_ fun _ => ?_
  · intro hneg hbad
    have := of_decide_eq_false hneg
    rcases hversion.mp hbad with rfl | rfl <;> exact absurd this (by decide)
  refine Tells.require (k := 0) (by omega) hin0 (fun hneg hbad => of_decide_eq_false hneg (hversion.mp hbad))
    fun hv12 => ?_
  have hin1 : ∀ i < 1, InOrder lines i :=
    Nat.forall_lt_succ_right.mpr ⟨hin0, hversion.mpr (of_decide_eq_true hv12)⟩
  -- the id
  refine Tells.read hstop hin1 h1 fun l1 f1 hl1 h2 => ?_
  refine Tells.number (by omega) hin1 hl1 (fun hnone hin => ?_) fun id hid => ?_
  · obtain ⟨id, hid, -⟩ := hin
    cases hnone.symm.trans hid
  refine Tells.require (k := 1) (by omega) hin1 (fun hneg hin => ?_) fun hid0 => ?_
  · obtain ⟨id', hid', hle⟩ := hin
    cases hid.symm.trans hid'
    exact of_decide_eq_false hneg hle
  have hin2 : ∀ i < 2, InOrder lines i :=
    Nat.forall_lt_succ_right.mpr ⟨hin1, id, hid, of_decide_eq_true hid0⟩
  -- the name
  refine Tells.read hstop hin2 h2 fun name f2 hl2 h3 => ?_
  have hin3 : ∀ i < 3, InOrder lines i := Nat.forall_lt_succ_right.mpr ⟨hin2, trivial⟩
  -- the modes
  refine Tells.read hstop hin3 h3 fun l3 f3 hl3 h4 => ?_
  refine Tells.mode (.inl rfl) hin3 hl3 fun repeatMode hrepeat => ?_
  have hin4 : ∀ i < 4, InOrder lines i :=
    Nat.forall_lt_succ_right.mpr ⟨hin3, Option.isSome_iff_exists.mpr ⟨_, hrepeat⟩⟩
  refine Tells.read hstop hin4 h4 fun l4 f4 hl4 h5 => ?_
  refine Tells.mode (.inr rfl) hin4 hl4 fun shuffled hshuffled => ?_
  have hin5 : ∀ i < 5, InOrder lines i :=
    Nat.forall_lt_succ_right.mpr ⟨hin4, Option.isSome_iff_exists.mpr ⟨_, hshuffled⟩⟩
  -- the rest
  refine Tells.done hin5 (bind_assigned (readLine_assigned _) fun r => ?_)
  refine bind_assigned (convert_assigned _) fun len => ?_
  refine bind_assigned (require_assigned _) fun _ => ?_
  refine bind_assigned (loadPoolst_assigned _ _ _) fun r => ?_
  dsimp only
  split
  · exact fun he => by cases he
  · split
    · exact fun he => by cases he
    · exact loadEntries_assigned _ _ _ _ _

end

/-- `pls_load` goes wrong on no other files: it is total on every file that has no line starting with a
NUL where one is read, a name that is not empty and a number on each of the lines for the modes. -/
theorem load_safe (f : Bytes) : LoadsSafely f ↔ SafeToLoad f := by
  have htells : Tells (linesOf f) (loadText f) := by
    refine loadText_tells (fun he => ?_) (reads_linesOf f)
    rcases endOf_cases f with h | h <;> cases h.symm.trans he
  have hmodes : loadText f ≠ .error .unassigned → ¬ Unconverted (linesOf f) 3 ∧ ¬ Unconverted (linesOf f) 4 :=
    fun hne => not_or.mp fun h => hne (htells.mpr h)
  unfold LoadsSafely
  rcases loadText_verdict (reads_linesOf f) with
    ⟨hheader, hname, hr⟩ | ⟨p, hfile, hname, hr, hp, halloc, hitems⟩ | ⟨hcut, hname, hr⟩ | ⟨hfile, hbad, hname, hr⟩
  · refine iff_of_false ?_ fun h => h.name_ne hheader hname
    rw [hr]
    rintro (⟨p, h⟩ | h) <;> cases h
  · have hm := hmodes (by rw [hr]; exact fun he => by cases he)
    refine iff_of_true (.inl ⟨p, hr⟩) ⟨fun hcut => absurd hfile hcut.2, fun _ => ?_, hm.1, hm.2⟩
    rw [hp.name_eq]
    exact fun h => hname (Option.some.inj h)
  · rw [hr] at hmodes ⊢
    constructor
    · rintro (⟨p, h⟩ | h)
      · cases h
      · rw [Except.error.inj h] at hmodes
        have hm := hmodes fun he => by cases he
        refine ⟨fun _ he => ?_, hname, hm.1, hm.2⟩
        cases (Except.error.inj h).symm.trans he
    · intro h
      exact .inr (congrArg Except.error ((endOf_cases f).resolve_right (h.no_nul hcut)))
  · have hcut : ¬ CutShort (linesOf f) := by
      rintro ⟨hall, -⟩
      obtain ⟨i, hi, hbad⟩ := hbad
      exact hbad (hall i hi)
    rcases hr with hr | hr
    · have hm := hmodes (by rw [hr]; exact fun he => by cases he)
      exact iff_of_true (.inr hr) ⟨fun h => absurd h hcut, hname, hm.1, hm.2⟩
    · refine iff_of_false ?_ fun h => ?_
      · rw [hr]
        rintro (⟨p, h⟩ | h) <;> cases h
      · rcases htells.mp hr with hu | hu
        · exact h.repeat_number hu
        · exact h.shuffled_number hu

/-- A line that starts with a NUL, an empty name and a repeat mode of `x`. -/
theorem load_goes_wrong : ¬ LoadsSafely [0] ∧
    ¬ LoadsSafely [86, 50, 10, 49, 10, 10, 48, 10, 48, 10, 48, 10, 48, 10] ∧
    ¬ LoadsSafely [86, 50, 10, 49, 10, 112, 10, 120, 10, 48, 10, 48, 10, 48, 10] := by
  have hstop : ∀ {f : Bytes} {stop : LoadStop}, loadText f = .error stop → stop ≠ .null → ¬ LoadsSafely f := by
    rintro f stop hf hne (⟨p, h⟩ | h)
    · cases hf.symm.trans h
    · exact hne (Except.error.inj (hf.symm.trans h))
  have hnul : loadText [0] = .error .outOfBounds := rfl
  have hname : loadText [86, 50, 10, 49, 10, 10, 48, 10, 48, 10, 48, 10, 48, 10] = .error .nullDeref := rfl
  have hmode : loadText [86, 50, 10, 49, 10, 112, 10, 120, 10, 48, 10, 48, 10, 48, 10] = .error .unassigned := rfl
  exact ⟨hstop hnul (by decide), hstop hname (by decide), hstop hmode (by decide)⟩

end MafwShared
