import Mathlib.Algebra.Order.Ring.Int
import Mathlib.Data.List.AList
import Mathlib.Tactic.Lemma

/-!
# Sums over a search tree

`tally f tree` adds up `f` over the values of a tree. Inserting and erasing change one
summand.
-/

namespace CLib
variable {κ α : Type*}

def tally (f : α → Nat) (tree : AList (fun _ : κ => α)) : Nat := (tree.entries.map fun e => f e.2).sum

variable [DecidableEq κ]

lemma sum_kerase (f : α → Nat) (k : κ) (l : List (Sigma fun _ : κ => α)) :
    (l.map fun e => f e.2).sum =
      ((l.dlookup k).map f).getD 0 + ((l.kerase k).map fun e => f e.2).sum := by
  induction l with
  | nil => rfl
  | cons e l ih =>
    obtain ⟨k', x⟩ := e
    by_cases hk : k = k'
    · subst hk
      have herase : List.kerase k (⟨k, x⟩ :: l) = l := List.kerase_cons_eq rfl
      rw [herase, List.dlookup_cons_eq]
      simp
    · have herase : List.kerase k (⟨k', x⟩ :: l) = ⟨k', x⟩ :: l.kerase k := List.kerase_cons_ne hk
      have hlookup : List.dlookup k (⟨k', x⟩ :: l) = l.dlookup k := List.dlookup_cons_ne _ _ hk
      rw [herase, hlookup, List.map_cons, List.sum_cons, ih, List.map_cons, List.sum_cons]
      omega

lemma tally_split (f : α → Nat) (tree : AList (fun _ : κ => α)) (k : κ) :
    tally f tree = ((tree.lookup k).map f).getD 0 + tally f (tree.erase k) :=
  sum_kerase f k tree.entries

lemma tally_insert (f : α → Nat) (tree : AList (fun _ : κ => α)) (k : κ) (x : α) :
    tally f (tree.insert k x) = f x + tally f (tree.erase k) := by
  rw [tally, AList.entries_insert, List.map_cons, List.sum_cons]
  rfl

lemma le_tally (f : α → Nat) {tree : AList (fun _ : κ => α)} {k : κ} {x : α} (h : tree.lookup k = some x) :
    f x ≤ tally f tree := by
  rw [tally_split f tree k, h]
  exact Nat.le_add_right _ _

end CLib
