import MafwShared.Lib.Tally

/-!
# Tables of lists

A table whose values are lists, in which a key without a list stands for the empty one and
an emptied list takes its key along.
-/

namespace CLib
variable {κ α : Type*} [DecidableEq κ]

/-- The list of a key. -/
def listAt (t : AList (fun _ : κ => List α)) (k : κ) : List α := (t.lookup k).getD []

/-- Puts a list back, or drops the key when nothing is left. -/
def putList (t : AList (fun _ : κ => List α)) (k : κ) (l : List α) : AList (fun _ : κ => List α) :=
  match l with
  | [] => t.erase k
  | a :: l => t.insert k (a :: l)

variable {t : AList (fun _ : κ => List α)} {k k' : κ} {l : List α}

lemma listAt_insert : listAt (t.insert k l) k' = if k' = k then l else listAt t k' := by
  unfold listAt
  by_cases hk : k' = k
  · rw [hk, if_pos rfl, AList.lookup_insert]
    rfl
  · rw [if_neg hk, AList.lookup_insert_ne hk]

lemma listAt_putList : listAt (putList t k l) k' = if k' = k then l else listAt t k' := by
  cases l with
  | nil =>
    unfold listAt putList
    by_cases hk : k' = k
    · rw [hk, if_pos rfl, AList.lookup_erase]
      rfl
    · rw [if_neg hk, AList.lookup_erase_ne hk]
  | cons a l => exact listAt_insert

lemma listAt_of_lookup (h : t.lookup k = some l) : listAt t k = l := by
  rw [listAt, h]
  rfl

variable {f : List α → Nat}

lemma tally_listAt (hf : f [] = 0) (t : AList (fun _ : κ => List α)) (k : κ) :
    tally f t = f (listAt t k) + tally f (t.erase k) := by
  rw [tally_split f t k, listAt]
  cases t.lookup k with
  | none => rw [Option.map_none, Option.getD_none, Option.getD_none, hf]
  | some l => rfl

lemma tally_putList (hf : f [] = 0) :
    tally f (putList t k l) = f l + tally f (t.erase k) := by
  cases l with
  | nil => rw [putList, hf, Nat.zero_add]
  | cons a l => exact tally_insert f t k (a :: l)

lemma tally_eq_zero_iff (hf : f [] = 0) : tally f t = 0 ↔ ∀ k, f (listAt t k) = 0 := by
  constructor
  · intro h k
    rw [tally_listAt hf t k] at h
    exact (Nat.add_eq_zero_iff.mp h).1
  · intro h
    rw [tally, List.sum_eq_zero_iff_forall_eq_nat]
    intro n hn
    obtain ⟨⟨k, l⟩, he, rfl⟩ := List.mem_map.mp hn
    have hl : t.lookup k = some l := AList.mem_lookup_iff.mpr he
    have := h k
    rwa [listAt_of_lookup hl] at this

end CLib
