import Mathlib.Data.List.Nodup
import Mathlib.Tactic.Lemma
import Mathlib.Tactic.TypeStar

/-!
# News about a set that changes

A server holds a set of keys and announces each key that comes and each key that goes. A
follower reads the announcements from a queue, but may also learn of a key out of turn,
by an answer that overtakes the queue.

`Chronicle` is what the server has announced when no key comes twice. `Owed` is what a
follower may believe: a key it holds is there, or the queue still says that it has gone.
-/

namespace CLib
open scoped List
variable {α : Type*}

inductive News (α : Type*)
  | came (a : α)
  | went (a : α)
  deriving DecidableEq

/-- The history of a server that holds `present` and has had no keys but `used`. -/
structure Chronicle (used present : α → Prop) (history : List (News α)) : Prop where
  present_used : ∀ a, present a → used a
  came_used : ∀ a, .came a ∈ history → used a
  gone : ∀ a, .went a ∈ history → used a ∧ ¬ present a
  once : history.Nodup
  order : ∀ a, ¬ [.went a, .came a] <+ history

lemma pair_sublist_append_singleton {a b c : α} {l : List α} (h : [a, b] <+ l ++ [c]) :
    [a, b] <+ l ∨ b = c ∧ a ∈ l := by
  obtain ⟨l₁, l₂, hl, h₁, h₂⟩ := List.sublist_append_iff.mp h
  match l₁, hl with
  | [], hl =>
    have hlen := h₂.length_le
    rw [← List.nil_append l₂, ← hl] at hlen
    simp at hlen
  | [x], hl =>
    obtain ⟨rfl, rfl⟩ : a = x ∧ l₂ = [b] := by simpa [eq_comm] using hl
    exact Or.inr ⟨by simpa using h₂, by simpa using h₁⟩
  | x :: y :: l₁, hl =>
    left
    have hnil : l₁ = [] ∧ l₂ = [] := by simpa using (congrArg List.length hl).symm
    rw [hnil.1, hnil.2] at hl
    rw [hnil.1] at h₁
    simpa [hl] using h₁

namespace Chronicle
variable {used used' present present' : α → Prop} {history : List (News α)}

lemma nil (h : ∀ a, present a → used a) : Chronicle used present [] :=
  ⟨h, by simp, by simp, List.nodup_nil, by simp⟩

lemma quiet (h : Chronicle used present history) (hused : ∀ a, used a → used' a)
    (hpresent : ∀ a, present' a ↔ present a) : Chronicle used' present' history := by
  refine ⟨fun a ha => hused a (h.present_used a ((hpresent a).mp ha)), fun a ha => hused a (h.came_used a ha),
    fun a ha => ?_, h.once, h.order⟩
  obtain ⟨hu, hn⟩ := h.gone a ha
  exact ⟨hused a hu, fun hp => hn ((hpresent a).mp hp)⟩

lemma came (h : Chronicle used present history) {a : α} (ha : ¬ used a) (hused : ∀ b, used b ∨ b = a → used' b)
    (hpresent : ∀ b, present' b ↔ present b ∨ b = a) : Chronicle used' present' (history ++ [.came a]) := by
  refine ⟨fun b hb => ?_, fun b hb => ?_, fun b hb => ?_, ?_, fun b hb => ?_⟩
  · exact hused b (((hpresent b).mp hb).imp_left (h.present_used b))
  · rcases List.mem_append.mp hb with hb | hb
    · exact hused b (Or.inl (h.came_used b hb))
    · exact hused b (Or.inr (by simpa using hb))
  · have hb' : .went b ∈ history := by simpa using hb
    obtain ⟨hu, hn⟩ := h.gone b hb'
    refine ⟨hused b (Or.inl hu), fun hp => ?_⟩
    rcases (hpresent b).mp hp with hp | rfl
    · exact hn hp
    · exact ha hu
  · rw [← List.concat_eq_append, List.nodup_concat]
    exact ⟨fun hmem => ha (h.came_used a hmem), h.once⟩
  · rcases pair_sublist_append_singleton hb with hb | ⟨hba, hb⟩
    · exact h.order b hb
    · cases hba
      exact ha (h.gone _ hb).1

lemma went (h : Chronicle used present history) {a : α} (ha : present a) (hused : ∀ b, used b → used' b)
    (hpresent : ∀ b, present' b ↔ present b ∧ b ≠ a) : Chronicle used' present' (history ++ [.went a]) := by
  refine ⟨fun b hb => ?_, fun b hb => ?_, fun b hb => ?_, ?_, fun b hb => ?_⟩
  · exact hused b (h.present_used b ((hpresent b).mp hb).1)
  · exact hused b (h.came_used b (by simpa using hb))
  · rcases List.mem_append.mp hb with hb | hb
    · obtain ⟨hu, hn⟩ := h.gone b hb
      exact ⟨hused b hu, fun hp => hn ((hpresent b).mp hp).1⟩
    · obtain rfl : b = a := by simpa using hb
      exact ⟨hused b (h.present_used b ha), fun hp => ((hpresent b).mp hp).2 rfl⟩
  · rw [← List.concat_eq_append, List.nodup_concat]
    exact ⟨fun hmem => (h.gone a hmem).2 ha, h.once⟩
  · rcases pair_sublist_append_singleton hb with hb | ⟨hba, -⟩
    · exact h.order b hb
    · cases hba

end Chronicle

/-! ### A follower's queue -/

/-- The key is there, or the queue says that it has gone. -/
def Owed (present : α → Prop) (queue : List (News α)) (a : α) : Prop := present a ∨ .went a ∈ queue

/-- What the queue says has come is owed by the rest of it. -/
def Queued (present : α → Prop) (queue : List (News α)) : Prop :=
  ∀ a rest, (.came a :: rest) <:+ queue → Owed present rest a

/-- A change of the server, with what it announces of it. -/
def Announced (present present' : α → Prop) (new : List (News α)) : Prop :=
  (∀ a, present a → Owed present' new a) ∧ Queued present' new

namespace Announced
variable {present present' : α → Prop} {new : List (News α)}

lemma quiet (h : ∀ a, present' a ↔ present a) : Announced present present' [] :=
  ⟨fun a ha => Or.inl ((h a).mpr ha), fun _ _ h => by cases List.suffix_nil.mp h⟩

lemma came {a : α} (h : ∀ b, present' b ↔ present b ∨ b = a) : Announced present present' [.came a] := by
  refine ⟨fun b hb => Or.inl ((h b).mpr (Or.inl hb)), fun b rest hb => Or.inl ((h b).mpr (Or.inr ?_))⟩
  have hmem := hb.subset (List.mem_cons_self)
  simpa using hmem

lemma went {a : α} (h : ∀ b, present' b ↔ present b ∧ b ≠ a) : Announced present present' [.went a] := by
  refine ⟨fun b hb => ?_, fun b rest hb => ?_⟩
  · by_cases hba : b = a
    · exact Or.inr (by rw [hba]; exact List.mem_singleton_self _)
    · exact Or.inl ((h b).mpr ⟨hb, hba⟩)
  · have hmem := hb.subset (List.mem_cons_self)
    simp at hmem

lemma owed (h : Announced present present' new) {queue : List (News α)} {a : α}
    (ha : Owed present queue a) : Owed present' (queue ++ new) a := by
  rcases ha with ha | ha
  · exact (h.1 a ha).imp_right fun hmem => List.mem_append_right _ hmem
  · exact Or.inr (List.mem_append_left _ ha)

lemma queued (h : Announced present present' new) {queue : List (News α)} (hq : Queued present queue) :
    Queued present' (queue ++ new) := by
  rintro a rest ⟨t, ht⟩
  rcases List.append_eq_append_iff.mp ht with ⟨l, hl, hrest⟩ | ⟨l, -, hl⟩
  · cases l with
    | nil => exact h.2 a rest (by rw [hrest]; exact List.suffix_rfl)
    | cons x l =>
      obtain ⟨rfl, rfl⟩ := List.cons.inj hrest
      exact h.owed (hq a l ⟨t, hl.symm⟩)
  · exact h.2 a rest ⟨l, hl.symm⟩

end Announced

/-! ### Reading the queue -/

lemma Queued.tail {present : α → Prop} {n : News α} {queue : List (News α)} (h : Queued present (n :: queue)) :
    Queued present queue :=
  fun a rest hsuf => h a rest (hsuf.trans (List.suffix_cons _ _))

lemma Queued.head {present : α → Prop} {a : α} {queue : List (News α)}
    (h : Queued present (.came a :: queue)) : Owed present queue a :=
  h a queue List.suffix_rfl

lemma Owed.of_came {present : α → Prop} {a b : α} {queue : List (News α)}
    (h : Owed present (.came b :: queue) a) : Owed present queue a :=
  h.imp_right fun hmem => by simpa using hmem

lemma Owed.of_went {present : α → Prop} {a b : α} {queue : List (News α)}
    (h : Owed present (.went b :: queue) a) (hab : a ≠ b) : Owed present queue a :=
  h.imp_right fun hmem => by simpa [hab] using hmem

end CLib
