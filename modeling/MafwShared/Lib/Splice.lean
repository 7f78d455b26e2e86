import Mathlib.Data.List.Forall2
import Mathlib.Data.List.InsertIdx
import Mathlib.Data.List.Perm.Basic
import Mathlib.Tactic.Lemma

/-!
# Replacing a stretch of a list

`splice` takes out a stretch of a list and puts in another, `moveItem` takes out one
element and puts it in elsewhere. Lists that are related element by element stay so when
both are edited in the same way.
-/

namespace CLib
variable {α β : Type*}

/-- `n` elements from position `i` on give way to the elements of `new`. -/
def splice (l : List α) (i n : Nat) (new : List α) : List α := l.take i ++ new ++ l.drop (i + n)

def moveItem (l : List α) (src dst : Nat) : List α :=
  splice (splice l src 1 []) dst 0 ((l.drop src).take 1)

lemma length_splice (l new : List α) {i n : Nat} (h : i + n ≤ l.length) :
    (splice l i n new).length = l.length - n + new.length := by
  simp only [splice, List.length_append, List.length_take, List.length_drop]
  omega

lemma length_moveItem (l : List α) {src dst : Nat} (hs : src < l.length) (hd : dst < l.length) :
    (moveItem l src dst).length = l.length := by
  have h := length_splice l [] (i := src) (n := 1) (by omega)
  rw [List.length_nil] at h
  rw [moveItem, length_splice _ _ (by omega), h, List.length_take, List.length_drop]
  omega

lemma getElem?_moveItem (l : List α) {src dst : Nat} (hs : src < l.length) (hd : dst < l.length)
    (i : Nat) : (moveItem l src dst)[i]? =
      if i = dst then l[src]?
      else if src ≤ i ∧ i < dst then l[i + 1]?
      else if dst < i ∧ i ≤ src then l[i - 1]?
      else l[i]? := by
  simp only [moveItem, splice, List.append_nil, List.getElem?_append, List.getElem?_take,
    List.getElem?_drop, List.length_append, List.length_take, List.length_drop]
  split_ifs <;> first | omega | (congr 1; omega) | simp_all

lemma splice_self (l : List α) (i : Nat) : splice l i 0 [] = l := by simp [splice]

lemma moveItem_self (l : List α) {i : Nat} (hi : i < l.length) : moveItem l i i = l := by
  apply List.ext_getElem?
  intro j
  rw [getElem?_moveItem l hi hi]
  by_cases hj : j = i
  · rw [if_pos hj, hj]
  · rw [if_neg hj, if_neg (by omega), if_neg (by omega)]

lemma moveItem_eq (l : List α) {src dst : Nat} (hs : src < l.length) (hd : dst < l.length) :
    moveItem l src dst = (l.eraseIdx src).insertIdx dst l[src] := by
  have hlen := List.length_eraseIdx_of_lt hs
  apply List.ext_getElem?
  intro i
  rw [getElem?_moveItem l hs hd, List.getElem?_insertIdx, List.getElem?_eraseIdx, List.getElem?_eraseIdx]
  by_cases hi : i = dst
  · rw [if_pos hi, if_neg (by omega), if_pos hi, if_pos (by omega), List.getElem?_eq_getElem hs]
  · rw [if_neg hi, if_neg hi]
    split_ifs <;> first | omega | rfl | (congr 1; omega)

lemma moveItem_perm (l : List α) {src dst : Nat} (hs : src < l.length) (hd : dst < l.length) :
    (moveItem l src dst).Perm l := by
  have hlen := List.length_eraseIdx_of_lt hs
  rw [moveItem_eq l hs hd]
  exact (List.perm_insertIdx _ _ (by omega)).trans (List.getElem_cons_eraseIdx_perm hs)

lemma eraseIdx_moveItem (l : List α) {src dst : Nat} (hs : src < l.length) (hd : dst < l.length) :
    (moveItem l src dst).eraseIdx dst = l.eraseIdx src := by
  rw [moveItem_eq l hs hd, List.eraseIdx_insertIdx_self]

lemma moveItem_moveItem (l : List α) {src dst : Nat} (hs : src < l.length) (hd : dst < l.length) :
    moveItem (moveItem l src dst) dst src = l := by
  have hlen := length_moveItem l hs hd
  have hdst : dst < (moveItem l src dst).length := by omega
  have hback : (moveItem l src dst)[dst] = l[src] := by
    apply Option.some.inj
    rw [← List.getElem?_eq_getElem, ← List.getElem?_eq_getElem, getElem?_moveItem l hs hd, if_pos rfl]
  rw [moveItem_eq _ hdst (by omega), eraseIdx_moveItem l hs hd, hback]
  exact List.insertIdx_eraseIdx_getElem hs

variable {R : α → β → Prop}

lemma rel_splice {l new : List α} {l' new' : List β} (h : List.Forall₂ R l l')
    (hnew : List.Forall₂ R new new') (i n : Nat) :
    List.Forall₂ R (splice l i n new) (splice l' i n new') :=
  List.rel_append (List.rel_append (List.forall₂_take i h) hnew) (List.forall₂_drop (i + n) h)

lemma rel_moveItem {l : List α} {l' : List β} (h : List.Forall₂ R l l') (src dst : Nat) :
    List.Forall₂ R (moveItem l src dst) (moveItem l' src dst) :=
  rel_splice (rel_splice h .nil src 1) (List.forall₂_take 1 (List.forall₂_drop src h)) dst 0

end CLib
