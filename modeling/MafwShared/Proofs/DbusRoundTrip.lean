import MafwShared.MafwDbus
import Mathlib.Tactic.Linarith

/-!
# Marshalling round trip

Every parser leaves the iterator on the last value of its argument, with one exception: the
parser of a GValue array steps off the count before it looks whether there is a value to
step to. After an empty array the iterator stands on the first value of the next argument,
which the main loop then skips, or the parse fails. Counting values shows that no later
argument can make up for the one that was skipped.
-/

namespace MafwShared.MafwDbus
open CLib

/-- The argument as the parser reads it back. -/
def Arg.readBack : Arg → Arg
  | .strvz v => .strvz (some (v.getD []))
  | a => a

/-- What is asked for to parse `args`. -/
def slots (args : List Arg) : List Slot :=
  (args.map Arg.type).map .arg

/-- A message built from `args` parses to equal values, and the parse does not abort. -/
def RoundTrips (args : List Arg) : Prop :=
  cleverParseValist (slots args) (cleverAppendValist args) =
    some ((args.map Arg.readBack).map .arg)

/-- An argument whose GValue array, if it is one, holds a value. -/
def Arg.Filled (a : Arg) : Prop :=
  ∀ varr, a = .gvaluearray varr → varr.values ≠ []

/-! ### Arguments that are read back -/

lemma parseGvalue_append (g : GValue) (rest : Iter) :
    cleverParseGvalue (cleverAppendGvalue g :: rest) = some g := by
  cases g <;> simp [cleverAppendGvalue, cleverParseGvalue]

lemma iterNext_cons (v : Value) (rest : Iter) : (iterNext (v :: rest)).2 = rest := by
  cases rest <;> rfl

lemma parseGvalues_cons (g : GValue) (n : Nat) (v : Value) (rest : Iter) :
    cleverParseGvalues (n + 2) (cleverAppendGvalue g :: v :: rest) =
      (cleverParseGvalues (n + 1) (v :: rest)).map fun r => (⟨g :: r.1.1, by simp [r.1.2]⟩, r.2) := by
  rw [cleverParseGvalues, parseGvalue_append]
  simp [iterNext]

lemma parseGvalues_append (g : GValue) (vs : List GValue) (rest : Iter) (n : Nat)
    (hn : (g :: vs).length = n) :
    ∃ last, cleverParseGvalues n (cleverAppendGvalue g :: (vs.map cleverAppendGvalue ++ rest)) =
      some (⟨g :: vs, hn⟩, last :: rest) := by
  subst hn
  induction vs generalizing g with
  | nil => exact ⟨cleverAppendGvalue g, by simp [cleverParseGvalues, parseGvalue_append]⟩
  | cons g' vs ih =>
    obtain ⟨last, hlast⟩ := ih g'
    have hcons := parseGvalues_cons g vs.length (cleverAppendGvalue g')
      (vs.map cleverAppendGvalue ++ rest)
    exact ⟨last, hcons.trans (congrArg _ hlast)⟩

lemma parseGvaluearray_append (varr : GValueArray) (h : varr.values ≠ []) (rest : Iter) :
    ∃ last, cleverParseGvaluearray (cleverAppendArg (.gvaluearray varr) ++ rest) =
      some (varr, last :: rest) := by
  obtain ⟨nValues, values, hlen⟩ := varr
  obtain ⟨g, vs, rfl⟩ := List.exists_cons_of_ne_nil h
  obtain ⟨last, hlast⟩ := parseGvalues_append g vs rest _ hlen
  refine ⟨last, ?_⟩
  simp only [cleverAppendArg, List.map_cons, List.cons_append, cleverParseGvaluearray, iterNext,
    if_true, hlast, Option.map_some]

lemma parseArg_append (a : Arg) (h : a.Filled) (rest : Iter) :
    ∃ last, cleverParseArg a.type (cleverAppendArg a ++ rest) =
      some (a.readBack, last :: rest) := by
  cases a with
  | basic t v =>
    exact ⟨.basic t v, by simp [cleverParseArg, Arg.type, cleverAppendArg, cleverParseBasic,
      Arg.readBack]⟩
  | strvz v =>
    exact ⟨.array .string (v.getD []), by simp [cleverParseArg, Arg.type, cleverAppendArg,
      cleverParseStrvz, stringElems, Arg.readBack]⟩
  | gbytearray ba =>
    exact ⟨.array .byte ba, by simp [cleverParseArg, Arg.type, cleverAppendArg,
      cleverParseGbytearray, Arg.readBack]⟩
  | gvalue gval =>
    exact ⟨cleverAppendGvalue gval, by simp [cleverParseArg, Arg.type, cleverAppendArg,
      parseGvalue_append, Arg.readBack]⟩
  | gvaluearray varr =>
    obtain ⟨last, hlast⟩ := parseGvaluearray_append varr (h varr rfl) rest
    exact ⟨last, by simp [cleverParseArg, Arg.type, hlast, Arg.readBack]⟩
  | array etype values =>
    exact ⟨.array etype values, by simp [cleverParseArg, Arg.type, cleverAppendArg,
      cleverParseArray, Arg.readBack]⟩

lemma append_cons (a : Arg) (args : List Arg) :
    cleverAppendValist (a :: args) = cleverAppendArg a ++ cleverAppendValist args := rfl

lemma appendArg_ne_nil (a : Arg) : cleverAppendArg a ≠ [] := by
  cases a <;> simp [cleverAppendArg]

lemma parseValist_step (a : Arg) (h : a.Filled) (args : List Arg) (rest : Iter) :
    cleverParseValist (slots (a :: args)) (cleverAppendArg a ++ rest) =
      (cleverParseValist (slots args) rest).map (.arg a.readBack :: ·) := by
  obtain ⟨last, hlast⟩ := parseArg_append a h rest
  obtain ⟨v, vs, hv⟩ := List.exists_cons_of_ne_nil (appendArg_ne_nil a)
  rw [hv, List.cons_append] at hlast ⊢
  simp only [slots, List.map_cons, cleverParseValist, hlast, Option.bind_eq_bind, Option.bind_some,
    iterNext_cons]
  cases cleverParseValist ((args.map Arg.type).map .arg) rest <;> rfl

/-! ### Counting values -/

/-- How many values of a message the argument takes. -/
def Arg.width (a : Arg) : Nat := (cleverAppendArg a).length

lemma width_readBack (a : Arg) : a.readBack.width = a.width := by
  cases a <;> rfl

lemma iterNext_length (it : Iter) : (iterNext it).2.length = it.length - 1 := by
  rcases it with _ | ⟨v, _ | ⟨w, rest⟩⟩ <;> rfl

lemma parseGvalue_ne_nil {it : Iter} {g : GValue} (h : cleverParseGvalue it = some g) :
    it ≠ [] := by
  rintro rfl
  cases h

lemma parseGvalues_inv {n : Nat} {it it' : Iter} {l : { l : List GValue // l.length = n + 1 }}
    (h : cleverParseGvalues (n + 1) it = some (l, it')) :
    it ≠ [] ∧ ∃ l', cleverParseGvalues n (if n > 0 then (iterNext it).2 else it) =
      some (l', it') := by
  rw [cleverParseGvalues] at h
  split at h
  · cases h
  · rename_i g hg
    refine ⟨parseGvalue_ne_nil hg, ?_⟩
    split at h
    · cases h
    · obtain ⟨⟨l', it₁⟩, hl', heq⟩ := Option.map_eq_some_iff.mp h
      cases heq
      exact ⟨l', hl'⟩

lemma parseGvalues_length {n : Nat} {it it' : Iter} {l : { l : List GValue // l.length = n }}
    (h : cleverParseGvalues n it = some (l, it')) :
    (iterNext it').2.length + n ≤ it.length := by
  induction n generalizing it with
  | zero =>
    cases h
    rw [iterNext_length]
    omega
  | succ n ih =>
    obtain ⟨hne, l', hl'⟩ := parseGvalues_inv h
    have hpos := List.length_pos_iff.mpr hne
    have hrest := ih hl'
    rcases Nat.eq_zero_or_pos n with rfl | hn
    · cases hl'
      rw [if_neg (Nat.lt_irrefl 0), iterNext_length]
      omega
    · rw [if_pos hn, iterNext_length it] at hrest
      omega

lemma parseGvaluearray_length {it it' : Iter} {varr : GValueArray}
    (h : cleverParseGvaluearray it = some (varr, it')) :
    (iterNext it').2.length + (varr.values.length + 1) ≤ it.length := by
  unfold cleverParseGvaluearray at h
  split at h
  · rename_i nelem rest
    simp only [iterNext_cons] at h
    split at h
    · obtain ⟨⟨l, it₁⟩, hl, heq⟩ := Option.map_eq_some_iff.mp h
      cases heq
      have hlen := parseGvalues_length hl
      rw [List.length_cons, l.2]
      exact Nat.succ_le_succ hlen
    · cases h
  · cases h

lemma parseBasic_width {t : DBusType} {it : Iter} {a : Arg} (h : cleverParseBasic t it = some a) :
    a.width = 1 := by
  unfold cleverParseBasic at h
  split at h
  · split at h
    · cases h
      rfl
    · cases h
  · cases h

lemma parseArray_width {t : DBusType} {it : Iter} {a : Arg} (h : cleverParseArray t it = some a) :
    a.width = 1 := by
  unfold cleverParseArray at h
  split at h
  · split at h
    · cases h
      rfl
    · cases h
  · cases h

lemma parseArg_length {t : ArgType} {it it' : Iter} {a : Arg} (hne : it ≠ [])
    (h : cleverParseArg t it = some (a, it')) :
    (iterNext it').2.length + a.width ≤ it.length := by
  have hpos := List.length_pos_iff.mpr hne
  have hone : a.width = 1 → it' = it → (iterNext it').2.length + a.width ≤ it.length := by
    rintro hw rfl
    rw [iterNext_length, hw]
    omega
  cases t with
  | basic argT =>
    obtain ⟨b, hb, heq⟩ := Option.map_eq_some_iff.mp h
    cases heq
    exact hone (parseBasic_width hb) rfl
  | strvz =>
    obtain ⟨v, hv, heq⟩ := Option.map_eq_some_iff.mp h
    cases heq
    exact hone rfl rfl
  | gbytearray =>
    obtain ⟨ba, hba, heq⟩ := Option.map_eq_some_iff.mp h
    cases heq
    exact hone rfl rfl
  | gvalue =>
    obtain ⟨g, hg, heq⟩ := Option.map_eq_some_iff.mp h
    cases heq
    exact hone rfl rfl
  | gvaluearray =>
    obtain ⟨⟨varr, it₁⟩, hvarr, heq⟩ := Option.map_eq_some_iff.mp h
    cases heq
    have hlen := parseGvaluearray_length hvarr
    simpa [Arg.width, cleverAppendArg] using hlen
  | array extype =>
    obtain ⟨b, hb, heq⟩ := Option.map_eq_some_iff.mp h
    cases heq
    exact hone (parseArray_width hb) rfl

lemma parseValist_length {ts : List ArgType} {args : List Arg} {it : Iter}
    (h : cleverParseValist (ts.map .arg) it = some (args.map .arg)) :
    (args.map Arg.width).sum ≤ it.length := by
  induction ts generalizing args it with
  | nil =>
    cases args with
    | nil => exact Nat.zero_le _
    | cons a args => cases h
  | cons t ts ih =>
    cases it with
    | nil => cases h
    | cons v rest =>
      simp only [List.map_cons, cleverParseValist, Option.bind_eq_bind,
        Option.bind_eq_some_iff] at h
      obtain ⟨⟨a, it'⟩, ha, out, hout, heq⟩ := h
      cases args with
      | nil => cases heq
      | cons b args =>
        cases heq
        have hhead := parseArg_length (List.cons_ne_nil v rest) ha
        have htail := ih hout
        rw [List.map_cons, List.sum_cons]
        dsimp only at hhead htail ⊢
        omega

lemma appendValist_length (args : List Arg) :
    (cleverAppendValist args).length = (args.map Arg.width).sum :=
  List.length_flatMap

/-! ### The round trip -/

lemma roundTrips_cons (a : Arg) (h : a.Filled) (args : List Arg) :
    RoundTrips (a :: args) ↔ RoundTrips args := by
  unfold RoundTrips
  rw [append_cons, parseValist_step a h]
  constructor
  · intro hsome
    obtain ⟨out, hout, heq⟩ := Option.map_eq_some_iff.mp hsome
    rw [hout, (List.cons.inj heq).2]
  · intro hsome
    rw [hsome]
    rfl

/-- The parser of an empty array stands behind its count, where a value has to follow. -/
lemma parseGvaluearray_empty {nelem : UInt32} {rest it' : Iter} {varr : GValueArray}
    (hn : nelem.toNat = 0) (h : cleverParseGvaluearray (.basic .uint32 nelem :: rest) = some (varr, it')) :
    it' = rest ∧ rest ≠ [] := by
  have hnil : ∀ m, m = 0 → ∀ r, cleverParseGvalues m rest = some r → r.2 = rest := by
    rintro m rfl r hr
    cases hr
    rfl
  simp only [cleverParseGvaluearray, iterNext_cons] at h
  split at h
  · rename_i hmore
    obtain ⟨⟨l, it₁⟩, hl, heq⟩ := Option.map_eq_some_iff.mp h
    cases heq
    refine ⟨hnil _ hn _ hl, ?_⟩
    rintro rfl
    cases hmore
  · cases h

/-- After an empty array the rest of the message is too short for the rest of the arguments. -/
lemma not_roundTrips_cons (varr : GValueArray) (h : varr.values = []) (args : List Arg) :
    ¬RoundTrips (.gvaluearray varr :: args) := by
  obtain ⟨nelem, values, hlen⟩ := varr
  dsimp only at h
  subst h
  intro hr
  change (cleverParseArg .gvaluearray (.basic .uint32 nelem :: cleverAppendValist args)).bind
    (fun r => (cleverParseValist (slots args) (iterNext r.2).2).bind
      fun out => some (.arg r.1 :: out)) = some (_ :: (args.map Arg.readBack).map .arg) at hr
  obtain ⟨⟨a, it'⟩, ha, hr'⟩ := Option.bind_eq_some_iff.mp hr
  obtain ⟨out, hout, heq⟩ := Option.bind_eq_some_iff.mp hr'
  obtain ⟨⟨varr, it₁⟩, hvarr, hpair⟩ := Option.map_eq_some_iff.mp ha
  cases hpair
  obtain ⟨hit, hne⟩ := parseGvaluearray_empty hlen.symm hvarr
  rw [(List.cons.inj (Option.some.inj heq)).2] at hout
  have hlong := parseValist_length hout
  have hwidth : (args.map Arg.readBack).map Arg.width = args.map Arg.width := by
    simp [width_readBack]
  have hpos := List.length_pos_iff.mpr hne
  dsimp only at hlong hit
  rw [hit, iterNext_length, hwidth, ← appendValist_length] at hlong
  omega

/-- The parse yields the values back exactly when no GValue array among them is empty. -/
theorem roundTrips_iff (args : List Arg) :
    RoundTrips args ↔ ∀ varr, .gvaluearray varr ∈ args → varr.values ≠ [] := by
  induction args with
  | nil => exact ⟨fun _ varr hmem => absurd hmem (List.not_mem_nil), fun _ => rfl⟩
  | cons a args ih =>
    by_cases hempty : ∃ varr, a = .gvaluearray varr ∧ varr.values = []
    · obtain ⟨varr, rfl, hnil⟩ := hempty
      constructor
      · intro hr
        exact absurd hr (not_roundTrips_cons varr hnil args)
      · intro hall
        exact absurd hnil (hall varr List.mem_cons_self)
    · have hfilled : a.Filled := fun varr ha hnil => hempty ⟨varr, ha, hnil⟩
      rw [roundTrips_cons a hfilled, ih]
      constructor
      · intro hall varr hmem
        rcases List.mem_cons.mp hmem with ha | hmem
        · exact hfilled varr ha.symm
        · exact hall varr hmem
      · intro hall varr hmem
        exact hall varr (List.mem_cons_of_mem a hmem)

example : cleverParseValist [.arg .gvaluearray, .arg .strvz]
    (cleverAppendValist [.gvaluearray ⟨2, [.int 43, .int 88], rfl⟩, .strvz none]) =
      some [.arg (.gvaluearray ⟨2, [.int 43, .int 88], rfl⟩), .arg (.strvz (some []))] := rfl

/-- An empty array alone in a message: the parse fails, and `mafw_dbus_parse` aborts. -/
theorem emptyGvaluearray_aborts :
    ∃ varr : GValueArray, varr.values = [] ∧ ¬RoundTrips [.gvaluearray varr] ∧
      cleverParseValist (slots [.gvaluearray varr])
        (cleverAppendValist [.gvaluearray varr]) = none := by
  refine ⟨⟨0, [], rfl⟩, rfl, ?_, rfl⟩
  intro hr
  cases hr

end MafwShared.MafwDbus
