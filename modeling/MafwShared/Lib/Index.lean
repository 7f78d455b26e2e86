import Mathlib.Data.List.AList
import Mathlib.Logic.Function.Basic
import Mathlib.Tactic.Lemma

/-!
# Indexes of a heap

`Indexes key heap tree` says that a search tree finds exactly the objects on a heap, each
under its own key. Trees are association lists with distinct keys. Every change of the
heap has its change of the tree that keeps the relation. `IsLast` is what such a tree finds
when a list was inserted from the front and later entries took the place of earlier ones.
-/

namespace CLib
variable {κ π β : Type*} [DecidableEq κ]

lemma eq_none_of_fresh {heap : Nat → Option β} {brk : Nat} (h : ∀ p, (heap p).isSome → p < brk) :
    heap brk = none := by
  cases hb : heap brk with
  | none => rfl
  | some x => exact absurd (h brk (by rw [hb]; rfl)) (Nat.lt_irrefl _)

lemma of_update_none [DecidableEq π] {heap : π → Option β} {p q : π} {x : β}
    (h : Function.update heap p none q = some x) : q ≠ p ∧ heap q = some x := by
  by_cases hq : q = p
  · rw [hq, Function.update_self] at h
    cases h
  · rw [Function.update_of_ne hq] at h
    exact ⟨hq, h⟩

lemma of_update_some [DecidableEq π] {heap : π → Option β} {p q : π} {x y : β}
    (h : Function.update heap p (some y) q = some x) : q = p ∧ y = x ∨ q ≠ p ∧ heap q = some x := by
  by_cases hq : q = p
  · rw [hq, Function.update_self] at h
    exact .inl ⟨hq, Option.some.inj h⟩
  · rw [Function.update_of_ne hq] at h
    exact .inr ⟨hq, h⟩

def Indexes (key : β → κ) (heap : π → Option β) (tree : AList (fun _ : κ => π)) : Prop :=
  ∀ k p, tree.lookup k = some p ↔ ∃ x, heap p = some x ∧ key x = k

namespace Indexes
variable {key : β → κ} {heap : π → Option β} {tree : AList (fun _ : κ => π)} {p q : π} {x y : β}

lemma empty (key : β → κ) : Indexes key (fun _ : π => none) ∅ := by
  intro k p
  rw [AList.lookup_empty]
  constructor
  · intro hp
    cases hp
  · rintro ⟨x, hx, -⟩
    cases hx

lemma lookup (h : Indexes key heap tree) (hp : heap p = some x) : tree.lookup (key x) = some p :=
  (h (key x) p).mpr ⟨x, hp, rfl⟩

lemma inj (h : Indexes key heap tree) (hp : heap p = some x) (hq : heap q = some y)
    (he : key x = key y) : p = q := by
  have h1 := h.lookup hp
  have h2 := h.lookup hq
  rw [he, h2] at h1
  exact (Option.some.inj h1).symm

variable [DecidableEq π]

lemma store (h : Indexes key heap tree) (hp : heap p = some x) (hk : key y = key x) :
    Indexes key (Function.update heap p (some y)) tree := by
  intro k q
  rw [h k q]
  by_cases hq : q = p
  · subst hq
    simp [hp, hk]
  · rw [Function.update_of_ne hq]

lemma insert (h : Indexes key heap tree) (hp : heap p = none) (hk : tree.lookup (key x) = none) :
    Indexes key (Function.update heap p (some x)) (tree.insert (key x) p) := by
  intro k q
  by_cases he : k = key x
  · subst he
    rw [AList.lookup_insert]
    constructor
    · intro hq
      cases hq
      exact ⟨x, Function.update_self _ _ _, rfl⟩
    · rintro ⟨y, hy, hyk⟩
      rcases of_update_some hy with ⟨rfl, -⟩ | ⟨-, hy⟩
      · rfl
      · have hl := h.lookup hy
        rw [hyk, hk] at hl
        cases hl
  · rw [AList.lookup_insert_ne he, h k q]
    by_cases hq : q = p
    · subst hq
      simp [hp, Ne.symm he]
    · rw [Function.update_of_ne hq]

lemma erase (h : Indexes key heap tree) (hp : heap p = some x) :
    Indexes key (Function.update heap p none) (tree.erase (key x)) := by
  intro k q
  by_cases he : k = key x
  · subst he
    rw [AList.lookup_erase]
    constructor
    · intro hq
      cases hq
    · rintro ⟨y, hy, hyk⟩
      obtain ⟨hq, hy⟩ := of_update_none hy
      exact absurd (h.inj hy hp hyk) hq
  · rw [AList.lookup_erase_ne he, h k q]
    by_cases hq : q = p
    · subst hq
      simp [hp, Ne.symm he]
    · rw [Function.update_of_ne hq]

lemma rekey (h : Indexes key heap tree) (hp : heap p = some x) (hk : tree.lookup (key y) = none) :
    Indexes key (Function.update heap p (some y)) ((tree.erase (key x)).insert (key y) p) := by
  have hne : key y ≠ key x := by
    intro he
    rw [he, h.lookup hp] at hk
    cases hk
  have hins := (h.erase hp).insert (x := y) (Function.update_self p none heap)
    (by rw [AList.lookup_erase_ne hne, hk])
  rwa [Function.update_idem] at hins

lemma replace (h : Indexes key heap tree) (hp : heap p = some x) (hq : heap q = none) (hk : key y = key x) :
    Indexes key (Function.update (Function.update heap q (some y)) p none) (tree.insert (key y) q) := by
  have hne : q ≠ p := by
    intro he
    rw [he, hp] at hq
    cases hq
  have hnew := (h.erase hp).insert (x := y) (by rw [Function.update_of_ne hne, hq])
    (by rw [hk, AList.lookup_erase])
  rw [Function.update_comm hne]
  intro k r
  rw [← hnew k r]
  by_cases he : k = key y
  · rw [he, AList.lookup_insert, AList.lookup_insert]
  · rw [AList.lookup_insert_ne he, AList.lookup_insert_ne he, AList.lookup_erase_ne (hk ▸ he)]

end Indexes

/-- Position `p` of the list is the last one with key `k`. -/
def IsLast (key : β → κ) (l : List β) (k : κ) (p : Nat) : Prop :=
  ∃ x, l[p]? = some x ∧ key x = k ∧ ∀ q > p, ∀ y, l[q]? = some y → key y ≠ k

namespace IsLast
variable {key : β → κ} {l : List β} {k : κ} {p q : Nat} {x : β}

omit [DecidableEq κ] in
lemma nil : ¬ IsLast key [] k p := by
  rintro ⟨x, hx, -⟩
  cases hx

omit [DecidableEq κ] in
lemma getElem?_concat_iff {y : β} : (l ++ [x])[q]? = some y ↔ l[q]? = some y ∨ q = l.length ∧ y = x := by
  rcases Nat.lt_trichotomy q l.length with hlt | rfl | hlt
  · rw [List.getElem?_append_left hlt, or_iff_left fun h => absurd h.1 (Nat.ne_of_lt hlt)]
  · simp [eq_comm]
  · rw [List.getElem?_eq_none (by rw [List.length_append, List.length_singleton]; omega),
      List.getElem?_eq_none (Nat.le_of_lt hlt), or_iff_right (fun h => by cases h)]
    exact iff_of_false (fun h => by cases h) fun h => absurd h.1 (Nat.ne_of_gt hlt)

lemma concat : IsLast key (l ++ [x]) k p ↔ if k = key x then p = l.length else IsLast key l k p := by
  unfold IsLast
  simp only [getElem?_concat_iff]
  by_cases hk : k = key x
  · rw [if_pos hk]
    constructor
    · rintro ⟨y, hy | hy, hkey, hlater⟩
      · obtain ⟨hlt, -⟩ := List.getElem?_eq_some_iff.mp hy
        exact absurd hk.symm (hlater l.length hlt x (Or.inr ⟨rfl, rfl⟩))
      · exact hy.1
    · rintro rfl
      refine ⟨x, Or.inr ⟨rfl, rfl⟩, hk.symm, fun q hq y hy => ?_⟩
      rcases hy with hy | hy
      · obtain ⟨hlt, -⟩ := List.getElem?_eq_some_iff.mp hy
        omega
      · omega
  · rw [if_neg hk]
    constructor
    · rintro ⟨y, hy | ⟨-, rfl⟩, hkey, hlater⟩
      · exact ⟨y, hy, hkey, fun q hq z hz => hlater q hq z (Or.inl hz)⟩
      · exact absurd hkey.symm hk
    · rintro ⟨y, hy, hkey, hlater⟩
      refine ⟨y, Or.inl hy, hkey, fun q hq z hz => ?_⟩
      rcases hz with hz | ⟨-, rfl⟩
      · exact hlater q hq z hz
      · exact Ne.symm hk

end IsLast
end CLib
