import Mathlib.Data.List.TakeWhile
import Mathlib.Algebra.Order.Ring.Int
import Mathlib.Tactic.Lemma

/-!
# The C library's text input and output

Files and strings are lists of bytes. `decimal` is what `%u` prints, `fgets` takes one
line, and `scanInt`, `scanUnsigned` and `scanWord` are the conversions `%d`, `%u` and
`%ms` of `sscanf` in the C locale, overflow included. The lemmas say what reading gives
back on text that was printed.
-/

namespace CLib

abbrev Bytes := List UInt8

/-- `isspace()` in the C locale. -/
def isspace (c : UInt8) : Bool := c == 32 || (9 ≤ c && c ≤ 13)

def isdigit (c : UInt8) : Bool := 48 ≤ c && c ≤ 57

/-- What `%u` prints. -/
def decimal (n : Nat) : Bytes := (Nat.toDigits 10 n).map (fun c => c.toNat.toUInt8)

/-- What `%d` prints. -/
def decimalInt (z : Int) : Bytes :=
  if z < 0 then 45 :: decimal z.natAbs else decimal z.natAbs

/-- Up to `n` bytes of `f`, ending with the first newline, and the rest. -/
def takeLine : Nat → Bytes → Bytes × Bytes
  | 0, f => ([], f)
  | _ + 1, [] => ([], [])
  | n + 1, c :: f =>
    if c = 10 then ([c], f) else (c :: (takeLine n f).1, (takeLine n f).2)

/-- `fgets(buf, size, f)`: the bytes stored and the rest of the file, or `NULL`. -/
def fgets (size : Nat) (f : Bytes) : Option (Bytes × Bytes) :=
  if f = [] then none else some (takeLine (size - 1) f)

/-- The C string in a buffer that holds `b`: everything before the first NUL. -/
def cstring (b : Bytes) : Bytes := b.takeWhile (· ≠ 0)

def digitsValue (ds : Bytes) : Nat := ds.foldl (fun v c => 10 * v + (c.toNat - 48)) 0

/-- An optional sign: whether it was a minus, and what follows. -/
def scanSign : Bytes → Bool × Bytes
  | [] => (false, [])
  | c :: s => if c = 45 then (true, s) else if c = 43 then (false, s) else (false, c :: s)

/-- White space, a sign and digits: what `%d` and `%u` have in common. -/
def scanNumber (s : Bytes) : Option (Bool × Nat × Bytes) :=
  let (neg, t) := scanSign (s.dropWhile isspace)
  if t.takeWhile isdigit = [] then none
  else some (neg, digitsValue (t.takeWhile isdigit), t.dropWhile isdigit)

/-- `%d`: `strtol()` clamps to a `long`, the store keeps the low 32 bits. -/
def scanInt (s : Bytes) : Option (Int × Bytes) :=
  (scanNumber s).map fun (neg, m, rest) =>
    ((max (-2 ^ 63) (min (2 ^ 63 - 1) (if neg then -(m : Int) else m))).bmod (2 ^ 32), rest)

/-- `%u`: `strtoul()` negates modulo 2^64 and clamps, the store keeps the low 32 bits. -/
def scanUnsigned (s : Bytes) : Option (Nat × Bytes) :=
  (scanNumber s).map fun (neg, m, rest) =>
    ((if 2 ^ 64 ≤ m then 2 ^ 64 - 1 else if neg then (2 ^ 64 - m) % 2 ^ 64 else m) % 2 ^ 32, rest)

/-- `%ms`: white space is skipped, the word ends before the next white space. -/
def scanWord (s : Bytes) : Option (Bytes × Bytes) :=
  let t := s.dropWhile isspace
  if t.takeWhile (fun c => !isspace c) = [] then none
  else some (t.takeWhile (fun c => !isspace c), t.dropWhile (fun c => !isspace c))

/-- A literal character of a `sscanf` format. -/
def scanChar (c : UInt8) : Bytes → Option Bytes
  | [] => none
  | d :: s => if d = c then some s else none

/-- The string at `&s[i]`. The last byte that can be looked at is the NUL behind `s`. -/
def stringAt (s : Bytes) (i : Nat) : Option Bytes := if i ≤ s.length then some (s.drop i) else none

/-- `strchr(s, c)` with the byte it finds overwritten by a NUL: what is left of the string in front of
it, and the string behind it. -/
def cutAt (c : UInt8) (s : Bytes) : Option (Bytes × Bytes) :=
  match s.dropWhile (· ≠ c) with
  | [] => none
  | _ :: rest => some (s.takeWhile (· ≠ c), rest)

/-- The first white-space delimited word. -/
def firstWord (s : Bytes) : Bytes := (s.dropWhile isspace).takeWhile fun c => !isspace c

/-! ### Lines -/

lemma takeLine_line {l rest : Bytes} {n : Nat} (hl : 10 ∉ l) (hn : l.length < n) :
    takeLine n (l ++ 10 :: rest) = (l ++ [10], rest) := by
  induction l generalizing n with
  | nil =>
    obtain ⟨n, rfl⟩ := Nat.exists_eq_succ_of_ne_zero (Nat.ne_zero_of_lt hn)
    simp [takeLine]
  | cons c l ih =>
    obtain ⟨n, rfl⟩ := Nat.exists_eq_succ_of_ne_zero (Nat.ne_zero_of_lt hn)
    rw [List.mem_cons, not_or] at hl
    have hc : c ≠ 10 := fun h => hl.1 h.symm
    simp [takeLine, hc, ih hl.2 (Nat.lt_of_succ_lt_succ hn)]

lemma takeLine_cut {l rest : Bytes} {n : Nat} (hl : 10 ∉ l) (hn : l.length ≤ n)
    (hend : l.length = n ∨ rest = []) : takeLine n (l ++ rest) = (l, rest) := by
  induction l generalizing n with
  | nil =>
    rcases hend with rfl | rfl
    · rfl
    · cases n <;> rfl
  | cons c l ih =>
    obtain ⟨n, rfl⟩ := Nat.exists_eq_succ_of_ne_zero (Nat.ne_zero_of_lt hn)
    rw [List.mem_cons, not_or] at hl
    have hc : c ≠ 10 := fun h => hl.1 h.symm
    have hih := ih hl.2 (Nat.le_of_succ_le_succ hn) (hend.imp_left Nat.succ.inj)
    simp [takeLine, hc, hih]

lemma cstring_eq_self {b : Bytes} (h : 0 ∉ b) : cstring b = b := by
  rw [cstring, List.takeWhile_eq_self_iff]
  intro c hc
  simpa using fun h0 : c = 0 => h (h0 ▸ hc)

/-! ### Numbers -/

lemma mem_decimal {n : Nat} {c : UInt8} (h : c ∈ decimal n) : isdigit c = true := by
  obtain ⟨d, hd, rfl⟩ := List.mem_map.mp h
  have hdigit := Nat.isDigit_of_mem_toDigits (by decide) (by decide) hd
  rw [Char.isDigit, Bool.and_eq_true, decide_eq_true_eq, decide_eq_true_eq] at hdigit
  have h1 : 48 ≤ d.toNat := hdigit.1
  have h2 : d.toNat ≤ 57 := hdigit.2
  have hmod : d.toNat.toUInt8.toNat = d.toNat := by
    rw [Nat.toUInt8, UInt8.toNat_ofNat']
    omega
  rw [isdigit, Bool.and_eq_true, decide_eq_true_eq, decide_eq_true_eq, UInt8.le_iff_toNat_le,
    UInt8.le_iff_toNat_le, hmod]
  exact ⟨h1, h2⟩

lemma decimal_ne_nil (n : Nat) : decimal n ≠ [] := by
  simp [decimal, Nat.toDigits_ne_nil]

lemma digitsValue_decimal (n : Nat) : digitsValue (decimal n) = n := by
  have h : ∀ (l : List Char) (v : Nat), (∀ d ∈ l, d.isDigit = true) →
      (l.map fun c => c.toNat.toUInt8).foldl (fun v c => 10 * v + (c.toNat - 48)) v =
        Nat.ofDigitChars 10 l v := by
    intro l
    induction l with
    | nil => intro v _; rfl
    | cons d l ih =>
      intro v hd
      rw [List.map_cons, List.foldl_cons, ih _ (fun d h => hd d (List.mem_cons_of_mem _ h)),
        Nat.ofDigitChars_cons]
      have hdigit := hd d List.mem_cons_self
      rw [Char.isDigit, Bool.and_eq_true, decide_eq_true_eq, decide_eq_true_eq] at hdigit
      have h2 : d.toNat ≤ 57 := hdigit.2
      have hmod : d.toNat.toUInt8.toNat = d.toNat := by
        rw [Nat.toUInt8, UInt8.toNat_ofNat']
        omega
      rw [hmod]
      rfl
  rw [digitsValue, decimal, h _ _ (fun d => Nat.isDigit_of_mem_toDigits (by decide) (by decide)),
    Nat.ofDigitChars_ten_toDigits]

lemma decimal_inj {m n : Nat} (h : decimal m = decimal n) : m = n := by
  rw [← digitsValue_decimal m, h, digitsValue_decimal]

lemma not_isspace_of_isdigit {c : UInt8} (h : isdigit c = true) : isspace c = false := by
  rw [isdigit, Bool.and_eq_true, decide_eq_true_eq, decide_eq_true_eq, UInt8.le_iff_toNat_le,
    UInt8.le_iff_toNat_le] at h
  have h1 : (48 : UInt8).toNat = 48 := rfl
  have h32 : c ≠ 32 := by
    rintro rfl
    exact absurd h.1 (by decide)
  have h13 : ¬ c ≤ 13 := by
    rw [UInt8.le_iff_toNat_le]
    have : (13 : UInt8).toNat = 13 := rfl
    omega
  simp [isspace, h32, h13]

lemma take_decimal (n d : Nat) (h : d < (decimal n).length) :
    (decimal n).take ((decimal n).length - d) = decimal (n / 10 ^ d) := by
  induction d generalizing n with
  | zero => simp
  | succ d ih =>
    have hn : 10 ≤ n := by
      by_contra hlt
      have hle := (Nat.length_toDigits_le_iff (b := 10) (n := n) (k := 1) (by decide) (by decide)).mpr
        (by omega)
      rw [decimal, List.length_map] at h
      omega
    have hsnoc : decimal n = decimal (n / 10) ++ [(n % 10).digitChar.toNat.toUInt8] := by
      rw [decimal, Nat.toDigits_eq_if (by decide), if_neg (by omega), List.map_append]
      rfl
    have hlen : (decimal n).length = (decimal (n / 10)).length + 1 := by simp [hsnoc]
    rw [hlen, Nat.add_sub_add_right, hsnoc, List.take_append_of_le_length (by omega),
      ih (n / 10) (by omega), Nat.div_div_eq_div_mul, Nat.pow_succ, Nat.mul_comm]

lemma ne_of_isdigit {c d : UInt8} (h : isdigit c = true) (hd : isdigit d = false) : c ≠ d := by
  rintro rfl
  rw [h] at hd
  cases hd

lemma takeWhile_append_stop {α : Type*} {p : α → Bool} {l t : List α} (hl : ∀ c ∈ l, p c = true)
    (ht : t.takeWhile p = []) : (l ++ t).takeWhile p = l ∧ (l ++ t).dropWhile p = t := by
  rw [List.takeWhile_append_of_pos hl, List.dropWhile_append_of_pos hl, ht, List.append_nil]
  refine ⟨rfl, ?_⟩
  have h := List.takeWhile_append_dropWhile (p := p) (l := t)
  rw [ht] at h
  exact h

lemma scanNumber_unsigned {ds t : Bytes} (hd : ∀ c ∈ ds, isdigit c = true) (hne : ds ≠ [])
    (ht : t.takeWhile isdigit = []) : scanNumber (ds ++ t) = some (false, digitsValue ds, t) := by
  obtain ⟨c, ds', rfl⟩ := List.exists_cons_of_ne_nil hne
  have hc := hd c List.mem_cons_self
  have hsign : scanSign ((c :: ds') ++ t) = (false, (c :: ds') ++ t) := by
    simp [scanSign, ne_of_isdigit hc (d := 45) (by decide), ne_of_isdigit hc (d := 43) (by decide)]
  have hspace : ((c :: ds') ++ t).dropWhile isspace = (c :: ds') ++ t := by
    simp [not_isspace_of_isdigit hc]
  obtain ⟨h1, h2⟩ := takeWhile_append_stop hd ht
  rw [scanNumber, hspace, hsign]
  dsimp only
  rw [h1, h2, if_neg hne]

lemma scanNumber_minus {ds t : Bytes} (hd : ∀ c ∈ ds, isdigit c = true) (hne : ds ≠ [])
    (ht : t.takeWhile isdigit = []) :
    scanNumber (45 :: ds ++ t) = some (true, digitsValue ds, t) := by
  have hspace : (45 :: ds ++ t).dropWhile isspace = 45 :: (ds ++ t) := by
    simp [isspace]
  have hsign : scanSign (45 :: (ds ++ t)) = (true, ds ++ t) := by
    simp [scanSign]
  obtain ⟨h1, h2⟩ := takeWhile_append_stop hd ht
  rw [scanNumber, hspace, hsign]
  dsimp only
  rw [h1, h2, if_neg hne]

lemma scanInt_decimal {n : Nat} (h : n < 2 ^ 31) : scanInt (decimal n) = some ((n : Int), []) := by
  have hscan := scanNumber_unsigned (fun _ => mem_decimal (n := n)) (decimal_ne_nil n) (t := []) rfl
  rw [List.append_nil, digitsValue_decimal] at hscan
  rw [scanInt, hscan]
  simp only [Option.map_some, Bool.false_eq_true, if_false, Option.some.injEq, Prod.mk.injEq,
    and_true]
  rw [min_eq_right (by omega), max_eq_right (by omega), Int.bmod_eq_of_le (by omega) (by omega)]

lemma scanInt_decimalInt {z : Int} (h1 : -2 ^ 31 ≤ z) (h2 : z < 2 ^ 31) :
    scanInt (decimalInt z) = some (z, []) := by
  unfold decimalInt
  by_cases hz : z < 0
  · have hscan := scanNumber_minus (fun _ => mem_decimal (n := z.natAbs)) (decimal_ne_nil z.natAbs)
      (t := []) rfl
    rw [List.append_nil, digitsValue_decimal] at hscan
    rw [if_pos hz, scanInt, hscan]
    simp only [Option.map_some, if_true, Option.some.injEq, Prod.mk.injEq, and_true]
    rw [min_eq_right (by omega), max_eq_right (by omega), Int.bmod_eq_of_le (by omega) (by omega)]
    omega
  · rw [if_neg hz, scanInt_decimal (by omega), show ((z.natAbs : Nat) : Int) = z by omega]

lemma scanUnsigned_decimal {n : Nat} (h : n < 2 ^ 32) {t : Bytes} (ht : t.takeWhile isdigit = []) :
    scanUnsigned (decimal n ++ t) = some (n, t) := by
  rw [scanUnsigned, scanNumber_unsigned (fun _ => mem_decimal) (decimal_ne_nil n) ht,
    digitsValue_decimal]
  simp only [Option.map_some, Bool.false_eq_true, if_false, Option.some.injEq, Prod.mk.injEq,
    and_true]
  rw [if_neg (by omega), Nat.mod_eq_of_lt h]

/-! ### Separators -/

lemma cutAt_append {c : UInt8} {s : Bytes} (h : c ∉ s) (rest : Bytes) : cutAt c (s ++ c :: rest) = some (s, rest) := by
  have hs : ∀ d ∈ s, decide (d ≠ c) = true := by
    intro d hd
    rw [decide_eq_true_eq]
    rintro rfl
    exact h hd
  have hstop : (c :: rest).takeWhile (· ≠ c) = [] := by simp
  obtain ⟨htake, hdrop⟩ := takeWhile_append_stop hs hstop
  rw [cutAt, hdrop, htake]

/-! ### Words -/

lemma scanWord_eq (s : Bytes) : (scanWord s).map Prod.fst =
    if firstWord s = [] then none else some (firstWord s) := by
  unfold scanWord firstWord
  dsimp only
  split <;> rfl

lemma firstWord_eq_self_iff {s : Bytes} : firstWord s = s ↔ ∀ c ∈ s, isspace c = false := by
  constructor
  · intro h c hc
    rw [← h] at hc
    have := List.mem_takeWhile_imp hc
    simpa using this
  · intro h
    have h1 : s.dropWhile isspace = s := by
      cases s with
      | nil => rfl
      | cons c s => rw [List.dropWhile_cons_of_neg (by simp [h c List.mem_cons_self])]
    rw [firstWord, h1, List.takeWhile_eq_self_iff]
    intro c hc
    simp [h c hc]

end CLib
