import MafwShared.Lib.CArray
import Mathlib.Data.Finset.Card
import Mathlib.Data.List.Nodup
import Mathlib.Data.List.Perm.Basic

/-!
# Arrays that index each other

`InversePair n f g` says that `f` permutes the first `n` indices and that `g` undoes
it. The file proves that this is the usual statement about permutations of
`0, …, n - 1`, and that it survives a swap, the insertion of a block of fresh indices and
the removal of one index.
-/

namespace CLib

/-- `f` maps the indices below `n` into themselves and `g` undoes it there. -/
structure InversePair (n : Nat) (f g : Nat → Nat) : Prop where
  maps : ∀ i < n, f i < n
  left : ∀ i < n, g (f i) = i

namespace InversePair
variable {n : Nat} {f g : Nat → Nat}

lemma inj (h : InversePair n f g) {i j : Nat} (hi : i < n) (hj : j < n) (he : f i = f j) : i = j := by
  rw [← h.left i hi, he, h.left j hj]

lemma surj (h : InversePair n f g) {j : Nat} (hj : j < n) : ∃ i < n, f i = j := by
  have himage : (Finset.range n).image f = Finset.range n := by
    apply Finset.eq_of_subset_of_card_le
    · intro x hx
      obtain ⟨i, hi, rfl⟩ := Finset.mem_image.mp hx
      exact Finset.mem_range.mpr (h.maps i (Finset.mem_range.mp hi))
    · rw [Finset.card_image_of_injOn]
      intro i hi k hk he
      exact h.inj (by simpa using hi) (by simpa using hk) he
  have hmem : j ∈ (Finset.range n).image f := by rw [himage]; exact Finset.mem_range.mpr hj
  obtain ⟨i, hi, he⟩ := Finset.mem_image.mp hmem
  exact ⟨i, Finset.mem_range.mp hi, he⟩

lemma inv_lt (h : InversePair n f g) {j : Nat} (hj : j < n) : g j < n := by
  obtain ⟨i, hi, rfl⟩ := h.surj hj
  rw [h.left i hi]
  exact hi

lemma right (h : InversePair n f g) {j : Nat} (hj : j < n) : f (g j) = j := by
  obtain ⟨i, hi, rfl⟩ := h.surj hj
  rw [h.left i hi]

lemma perm (h : InversePair n f g) : (cells f n).Perm (List.range n) := by
  apply (List.perm_ext_iff_of_nodup ?_ List.nodup_range).mpr
  · intro j
    rw [mem_cells, List.mem_range]
    constructor
    · rintro ⟨i, hi, rfl⟩
      exact h.maps i hi
    · exact h.surj
  · apply List.Nodup.map_on _ List.nodup_range
    intro i hi j hj he
    exact h.inj (List.mem_range.mp hi) (List.mem_range.mp hj) he

/-- The relation is the textbook statement: `f` lists a permutation, `g` is its inverse. -/
theorem iff_perm : InversePair n f g ↔
    (cells f n).Perm (List.range n) ∧ ∀ i < n, g (f i) = i := by
  constructor
  · exact fun h => ⟨h.perm, h.left⟩
  · rintro ⟨hp, hl⟩
    refine ⟨fun i hi => ?_, hl⟩
    have hmem : f i ∈ cells f n := mem_cells.mpr ⟨i, hi, rfl⟩
    exact List.mem_range.mp ((hp.mem_iff).mp hmem)

lemma congr {f' g' : Nat → Nat} (h : InversePair n f g) (hf : ∀ i < n, f' i = f i)
    (hg : ∀ i < n, g' i = g i) : InversePair n f' g' := by
  refine ⟨fun i hi => ?_, fun i hi => ?_⟩
  · rw [hf i hi]
    exact h.maps i hi
  · rw [hf i hi, hg _ (h.maps i hi), h.left i hi]

lemma refl (n : Nat) : InversePair n (fun i => i) (fun i => i) :=
  ⟨fun _ hi => hi, fun _ _ => rfl⟩

lemma empty (f g : Nat → Nat) : InversePair 0 f g :=
  ⟨fun _ hi => absurd hi (Nat.not_lt_zero _), fun _ hi => absurd hi (Nat.not_lt_zero _)⟩

/-- Exchanging two entries of `f` and storing their new positions in `g`. -/
lemma swap (h : InversePair n f g) {a b : Nat} (ha : a < n) (hb : b < n) :
    InversePair n (Function.update (Function.update f a (f b)) b (f a))
      (Function.update (Function.update g (f b) a) (f a) b) := by
  have hf : ∀ i < n, Function.update (Function.update f a (f b)) b (f a) i =
      f (if i = b then a else if i = a then b else i) := by
    intro i _
    by_cases hib : i = b
    · subst hib
      simp
    · rw [Function.update_of_ne hib, if_neg hib]
      by_cases hia : i = a
      · subst hia
        simp
      · rw [Function.update_of_ne hia, if_neg hia]
  refine ⟨fun i hi => ?_, fun i hi => ?_⟩
  · rw [hf i hi]
    split
    · exact h.maps a ha
    · split
      · exact h.maps b hb
      · exact h.maps i hi
  · rw [hf i hi]
    by_cases hib : i = b
    · simp [hib]
    · by_cases hia : i = a
      · rw [if_neg hib, if_pos hia]
        by_cases hab : f b = f a
        · exact absurd (h.inj hb ha hab) (fun he => hib (hia.trans he.symm))
        · rw [Function.update_of_ne hab, Function.update_self, hia]
      · rw [if_neg hib, if_neg hia]
        have h1 : f i ≠ f a := fun he => hia (h.inj hi ha he)
        have h2 : f i ≠ f b := fun he => hib (h.inj hi hb he)
        rw [Function.update_of_ne h1, Function.update_of_ne h2, h.left i hi]

end InversePair
end CLib
