import Mathlib.Data.List.Nodup
import Mathlib.Tactic.Lemma
import Mathlib.Tactic.TypeStar

/-!
# Neighbours in a list

What stands behind an element of a list without duplicates, and what in front of it. With `wrap` the
list is a ring.
-/

namespace CLib
variable {α : Type*} [DecidableEq α]

/-- What stands behind `a` in `l`. -/
def following (l : List α) (wrap : Bool) (a : α) : Option α :=
  if a ∈ l then
    if l.idxOf a + 1 < l.length then l[l.idxOf a + 1]? else if wrap then l.head? else none
  else none

/-- What stands in front of `a` in `l`. -/
def preceding (l : List α) (wrap : Bool) (a : α) : Option α :=
  if a ∈ l then
    if 0 < l.idxOf a then l[l.idxOf a - 1]? else if wrap then l.getLast? else none
  else none

variable {l : List α} {wrap : Bool} {a : α} {k : Nat}

lemma idxOf_of_position (h : l.Nodup) (hk : l[k]? = some a) : l.idxOf a = k := by
  obtain ⟨hlt, rfl⟩ := List.getElem?_eq_some_iff.mp hk
  exact h.idxOf_getElem k hlt

lemma following_of_notMem (h : a ∉ l) : following l wrap a = none := if_neg h

lemma preceding_of_notMem (h : a ∉ l) : preceding l wrap a = none := if_neg h

lemma following_getElem? (h : l.Nodup) (hk : l[k]? = some a) (hnext : k + 1 < l.length) :
    following l wrap a = l[k + 1]? := by
  rw [following, if_pos (List.mem_of_getElem? hk), idxOf_of_position h hk, if_pos hnext]

lemma following_last (h : l.Nodup) (hk : l[k]? = some a) (hlast : k + 1 = l.length) :
    following l wrap a = if wrap then l.head? else none := by
  rw [following, if_pos (List.mem_of_getElem? hk), idxOf_of_position h hk, if_neg (by omega)]

lemma preceding_getElem? (h : l.Nodup) (hk : l[k]? = some a) (hpos : 0 < k) :
    preceding l wrap a = l[k - 1]? := by
  rw [preceding, if_pos (List.mem_of_getElem? hk), idxOf_of_position h hk, if_pos hpos]

lemma preceding_first (h : l.Nodup) (hk : l[0]? = some a) :
    preceding l wrap a = if wrap then l.getLast? else none := by
  rw [preceding, if_pos (List.mem_of_getElem? hk), idxOf_of_position h hk, if_neg (Nat.lt_irrefl 0)]

end CLib
