import Mathlib.Algebra.Order.Ring.Int
import Mathlib.Logic.Function.Basic
import Mathlib.Data.List.Range
import Mathlib.Tactic.Lemma

/-!
# C arrays and counted loops

A C array is the total map from its indices to its cells, so that a store is
`Function.update` and the cells behind the last initialised one hold anything. The
loops `for (i = 0; i < n; i++)` are structural recursions with one invariant rule.
-/

namespace CLib
variable {α σ : Type*}

/-- `for (i = 0; i < n; i++) body`. -/
def forUpto : Nat → (Nat → σ → σ) → σ → σ
  | 0, _, s => s
  | n + 1, body, s => body n (forUpto n body s)

@[simp] lemma forUpto_zero (body : Nat → σ → σ) (s : σ) : forUpto 0 body s = s := rfl

@[simp] lemma forUpto_succ (n : Nat) (body : Nat → σ → σ) (s : σ) :
    forUpto (n + 1) body s = body n (forUpto n body s) := rfl

lemma forUpto_front (n : Nat) (body : Nat → σ → σ) (s : σ) :
    forUpto (n + 1) body s = forUpto n (fun i => body (i + 1)) (body 0 s) := by
  induction n with
  | zero => rfl
  | succ n ih => rw [forUpto_succ, ih, forUpto_succ]

/-- What the loop body preserves from one index to the next holds when the loop ends. -/
theorem forUpto_invariant (inv : Nat → σ → Prop) {n : Nat} {body : Nat → σ → σ} {s : σ}
    (h0 : inv 0 s) (hstep : ∀ i t, i < n → inv i t → inv (i + 1) (body i t)) :
    inv n (forUpto n body s) := by
  induction n with
  | zero => exact h0
  | succ n ih =>
    rw [forUpto_succ]
    exact hstep n _ (Nat.lt_succ_self n) (ih (fun i t hi => hstep i t (by omega)))

/-- What two loop bodies keep between their states from one index to the next holds when both loops
end. -/
theorem forUpto_relation {τ : Type*} (rel : Nat → σ → τ → Prop) {n : Nat} {body : Nat → σ → σ}
    {body' : Nat → τ → τ} {s : σ} {t : τ} (h0 : rel 0 s t)
    (hstep : ∀ i s t, i < n → rel i s t → rel (i + 1) (body i s) (body' i t)) :
    rel n (forUpto n body s) (forUpto n body' t) := by
  induction n with
  | zero => exact h0
  | succ n ih =>
    rw [forUpto_succ, forUpto_succ]
    exact hstep n _ _ (Nat.lt_succ_self n) (ih (fun i s t hi => hstep i s t (by omega)))

/-- `memmove(&a[dst], &a[src], n * sizeof(a[0]))`. -/
def memmove (a : Nat → α) (dst src n : Nat) : Nat → α :=
  fun i => if dst ≤ i ∧ i < dst + n then a (src + (i - dst)) else a i

lemma memmove_inside (a : Nat → α) {dst src n i : Nat} (h1 : dst ≤ i) (h2 : i < dst + n) :
    memmove a dst src n i = a (src + (i - dst)) := by
  rw [memmove, if_pos ⟨h1, h2⟩]

lemma memmove_outside (a : Nat → α) {dst src n i : Nat} (h : i < dst ∨ dst + n ≤ i) :
    memmove a dst src n i = a i := by
  rw [memmove, if_neg (by omega)]

/-- A pointer to no storage. -/
def nullArray [Inhabited α] : Nat → α := fun _ => default

/-- The first `n` cells of an array. -/
def cells (a : Nat → α) (n : Nat) : List α := (List.range n).map a

@[simp] lemma length_cells (a : Nat → α) (n : Nat) : (cells a n).length = n := by
  simp [cells]

@[simp] lemma getElem_cells (a : Nat → α) (n i : Nat) (h : i < (cells a n).length) :
    (cells a n)[i] = a i := by
  simp [cells]

lemma getElem?_cells (a : Nat → α) {n i : Nat} (h : i < n) : (cells a n)[i]? = some (a i) := by
  simp [cells, h]

lemma mem_cells {a : Nat → α} {n : Nat} {x : α} : x ∈ cells a n ↔ ∃ i < n, a i = x := by
  simp [cells]

lemma cells_eq_iff {a : Nat → α} {n : Nat} {l : List α} :
    cells a n = l ↔ l.length = n ∧ ∀ i (h : i < l.length), a i = l[i] := by
  constructor
  · rintro rfl
    exact ⟨length_cells a n, fun i h => (getElem_cells a n i h).symm⟩
  · rintro ⟨hlen, h⟩
    apply List.ext_getElem
    · rw [length_cells, hlen]
    · intro i h1 h2
      rw [getElem_cells, h i h2]

lemma cells_congr {a b : Nat → α} {n : Nat} (h : ∀ i < n, a i = b i) : cells a n = cells b n := by
  apply List.map_congr_left
  intro i hi
  exact h i (List.mem_range.mp hi)

lemma cells_inj {a b : Nat → α} {n : Nat} : cells a n = cells b n ↔ ∀ i < n, a i = b i := by
  constructor
  · intro h i hi
    have he := congrArg (fun l => l[i]?) h
    simpa [getElem?_cells, hi] using he
  · exact cells_congr

/-- Two arrays with the same first `n` cells. -/
def AgreeBelow (n : Nat) (a b : Nat → α) : Prop := ∀ i < n, a i = b i

lemma AgreeBelow.update {n : Nat} {a b : Nat → α} (h : AgreeBelow n a b) (k : Nat) (x : α) :
    AgreeBelow n (Function.update a k x) (Function.update b k x) := fun i hi => by
  by_cases hik : i = k
  · rw [hik, Function.update_self, Function.update_self]
  · rw [Function.update_of_ne hik, Function.update_of_ne hik]
    exact h i hi

lemma forUpto_copy (a b : Nat → α) (n : Nat) :
    AgreeBelow n (forUpto n (fun i c => Function.update c i (b i)) a) b := by
  induction n with
  | zero => exact fun i hi => absurd hi (Nat.not_lt_zero i)
  | succ n ih =>
    intro i hi
    rw [forUpto_succ]
    by_cases hin : i = n
    · rw [hin, Function.update_self]
    · rw [Function.update_of_ne hin]
      exact ih i (by omega)

lemma forUpto_store (a : Nat → α) (start : Nat) (f : Nat → α) (n i : Nat) :
    forUpto n (fun k b => Function.update b (start + k) (f k)) a i =
      if start ≤ i ∧ i < start + n then f (i - start) else a i := by
  induction n with
  | zero => rw [forUpto_zero, if_neg (by omega)]
  | succ n ih =>
    rw [forUpto_succ]
    by_cases hi : i = start + n
    · subst hi
      simp
    · rw [Function.update_of_ne hi, ih]
      by_cases h : start ≤ i ∧ i < start + n
      · rw [if_pos h, if_pos (by omega)]
      · rw [if_neg h, if_neg (by omega)]

lemma forUpto_scatter_miss (P : Nat → Prop) [DecidablePred P] (key g : Nat → Nat) {n c : Nat}
    (h : ∀ i < n, P i → c ≠ key i) :
    forUpto n (fun i a => if P i then Function.update a (key i) i else a) g c = g c := by
  induction n with
  | zero => rfl
  | succ n ih =>
    have hn := ih (fun i hi => h i (by omega))
    rw [forUpto_succ]
    by_cases hp : P n
    · rw [if_pos hp, Function.update_of_ne (h n (Nat.lt_succ_self n) hp), hn]
    · rw [if_neg hp, hn]

lemma forUpto_scatter_hit (P : Nat → Prop) [DecidablePred P] (key g : Nat → Nat) {n i : Nat}
    (hinj : ∀ i < n, ∀ j < n, P i → P j → key i = key j → i = j) (hi : i < n) (hp : P i) :
    forUpto n (fun i a => if P i then Function.update a (key i) i else a) g (key i) = i := by
  induction n with
  | zero => exact absurd hi (Nat.not_lt_zero i)
  | succ n ih =>
    rw [forUpto_succ]
    by_cases hin : i = n
    · subst hin
      rw [if_pos hp, Function.update_self]
    · have hlt : i < n := by omega
      have hih := ih (fun a ha b hb => hinj a (by omega) b (by omega)) hlt
      by_cases hpn : P n
      · have hne : key i ≠ key n := fun he =>
          hin (hinj i hi n (Nat.lt_succ_self n) hp hpn he)
        rw [if_pos hpn, Function.update_of_ne hne, hih]
      · rw [if_neg hpn, hih]

end CLib
