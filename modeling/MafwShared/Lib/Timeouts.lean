import Mathlib.Algebra.Order.BigOperators.Group.List
import Mathlib.Algebra.GroupWithZero.Nat
import Mathlib.Algebra.Order.Group.Nat
import Mathlib.Data.List.AList
import Mathlib.Tactic.Lemma

/-!
# Timeout sources of a main loop

`Timeouts α` holds the sources that are pending, each under its id and with the data that its
callback gets. A program keeps the id of a source in a variable, zero standing for no source;
`Records` says that such a variable is right. A main loop may give out an id again once its
source is gone, so which ids it chooses is a parameter.
-/

namespace CLib

/-- How a main loop chooses the id of a source, from how many sources there have been and
from the ids in use. -/
structure IdSupply where
  next : Nat → List Nat → Nat
  ne_zero : ∀ created inUse, next created inUse ≠ 0
  fresh : ∀ created inUse, next created inUse ∉ inUse

lemma notMem_of_sum_lt {l : List Nat} {n : Nat} (h : l.sum < n) : n ∉ l :=
  fun hn => absurd (List.le_sum_of_mem hn) (Nat.not_le_of_lt h)

/-- Every id is above all that are in use. -/
def IdSupply.ascending : IdSupply where
  next created inUse := inUse.sum + created + 1
  ne_zero _ _ := Nat.succ_ne_zero _
  fresh _ inUse := notMem_of_sum_lt (Nat.lt_succ_of_le (Nat.le_add_right inUse.sum _))

structure Timeouts (α : Type*) where
  sources : AList (fun _ : Nat => α)
  /-- How many there have been. -/
  created : Nat
  ne_zero : 0 ∉ sources

namespace Timeouts
variable {α : Type*}

def empty : Timeouts α := ⟨∅, 0, AList.notMem_empty 0⟩

/-- The data of a pending source. -/
def pending (t : Timeouts α) (id : Nat) : Option α := t.sources.lookup id

/-- `g_timeout_add` with the callback's data. -/
def add (ids : IdSupply) (t : Timeouts α) (x : α) : Nat × Timeouts α :=
  let id := ids.next t.created t.sources.keys
  (id, { sources := t.sources.insert id x
         created := t.created + 1
         ne_zero := fun h => by
          rcases (AList.mem_insert _).mp h with hid | hmem
          · exact ids.ne_zero _ _ hid.symm
          · exact t.ne_zero hmem })

/-- `g_source_remove`, which says whether there was such a source. -/
def remove (t : Timeouts α) (id : Nat) : Bool × Timeouts α :=
  ((t.pending id).isSome,
    { t with
      sources := t.sources.erase id
      ne_zero := fun h => t.ne_zero (AList.mem_erase.mp h).2 })

variable {ids : IdSupply} {t : Timeouts α} {x y : α} {id id' k : Nat}

lemma add_ne_zero : (t.add ids x).1 ≠ 0 := ids.ne_zero _ _

lemma pending_add_id : t.pending (t.add ids x).1 = none :=
  AList.lookup_eq_none.mpr (ids.fresh _ _)

lemma pending_add : (t.add ids x).2.pending k = if k = (t.add ids x).1 then some x else t.pending k := by
  by_cases hk : k = (t.add ids x).1
  · rw [if_pos hk, hk]
    exact AList.lookup_insert _
  · rw [if_neg hk]
    exact AList.lookup_insert_ne hk

lemma pending_remove : (t.remove id).2.pending k = if k = id then none else t.pending k := by
  by_cases hk : k = id
  · rw [if_pos hk, hk]
    exact AList.lookup_erase _ _
  · rw [if_neg hk]
    exact AList.lookup_erase_ne hk

lemma remove_zero : (t.remove 0).2 = t := by
  obtain ⟨sources, created, hzero⟩ := t
  have hsources : sources.erase 0 = sources := AList.ext (List.kerase_of_notMem_keys hzero)
  simp only [remove, hsources]

/-- The variable that holds `id` is right about the sources with the data `x`: there is none
when it holds zero, and otherwise that one and no other. -/
def Records (t : Timeouts α) (x : α) (id : Nat) : Prop := ∀ k, t.pending k = some x ↔ k ≠ 0 ∧ k = id

lemma records_zero_iff : t.Records x 0 ↔ ∀ k, t.pending k ≠ some x :=
  forall_congr' fun _ => ⟨fun h hk => (h.mp hk).1 (h.mp hk).2, fun h => ⟨fun hk => absurd hk h,
    fun hk => absurd hk.2 hk.1⟩⟩

lemma records_empty : (empty : Timeouts α).Records x 0 :=
  records_zero_iff.mpr fun _ h => Option.some_ne_none x (h.symm.trans (AList.lookup_empty _))

namespace Records

lemma pending_eq (h : t.Records x id) (hid : id ≠ 0) : t.pending id = some x := (h id).mpr ⟨hid, rfl⟩

lemma eq_of_pending (h : t.Records x id) (hk : t.pending k = some x) : k = id := ((h k).mp hk).2

lemma ne_zero_of_pending (h : t.Records x id) (hk : t.pending k = some x) : id ≠ 0 :=
  h.eq_of_pending hk ▸ ((h k).mp hk).1

lemma removes (h : t.Records x id) (hid : id ≠ 0) : (t.remove id).1 = true := by
  rw [remove, h.pending_eq hid]
  rfl

lemma remove_self (h : t.Records x id) : (t.remove id).2.Records x 0 := by
  refine records_zero_iff.mpr fun k hk => ?_
  rw [pending_remove] at hk
  by_cases hid : k = id
  · rw [if_pos hid] at hk
    cases hk
  · rw [if_neg hid] at hk
    exact hid (h.eq_of_pending hk)

lemma remove_other (hy : t.Records y id') (hx : t.Records x id) (hne : y ≠ x) :
    (t.remove id).2.Records y id' := by
  intro k
  rw [pending_remove]
  by_cases hk : k = id
  · rw [if_pos hk]
    refine ⟨fun h => (Option.some_ne_none y h.symm).elim, fun h => ?_⟩
    have hyk : t.pending k = some y := (hy k).mpr h
    have hxk : t.pending k = some x := (hx k).mpr ⟨h.1, hk⟩
    exact absurd (Option.some.inj (hyk.symm.trans hxk)) hne
  · rw [if_neg hk]
    exact hy k

lemma add_self (h : t.Records x 0) : (t.add ids x).2.Records x (t.add ids x).1 := by
  intro k
  rw [pending_add]
  by_cases hk : k = (t.add ids x).1
  · rw [if_pos hk]
    exact ⟨fun _ => ⟨hk ▸ add_ne_zero, hk⟩, fun _ => rfl⟩
  · rw [if_neg hk]
    exact ⟨fun hx => absurd hx (records_zero_iff.mp h k), fun hx => absurd hx.2 hk⟩

lemma add_other (hy : t.Records y id') (hne : y ≠ x) : (t.add ids x).2.Records y id' := by
  intro k
  rw [pending_add]
  by_cases hk : k = (t.add ids x).1
  · rw [if_pos hk]
    refine ⟨fun h => absurd (Option.some.inj h).symm hne, fun h => ?_⟩
    have hfree : t.pending k = none := hk ▸ pending_add_id
    exact absurd ((hy k).mpr h) (hfree ▸ Option.some_ne_none y).symm
  · rw [if_neg hk]
    exact hy k

end Records

end Timeouts
end CLib
