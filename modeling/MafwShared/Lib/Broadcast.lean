import MafwShared.Lib.Runs
import Mathlib.Data.List.Basic
import Mathlib.Logic.Function.Basic

/-!
# A message bus

What is sent on a bus goes to everybody who has asked for such messages, and each of them reads its
messages in order. Nobody gives up what it has asked for.
-/

namespace CLib

structure Bus (ι μ : Type*) where
  sent : List μ
  wants : ι → μ → Bool
  inbox : ι → List μ
  /-- What was taken out of the inboxes. -/
  read : ι → List μ

namespace Bus
variable {ι μ : Type*} {b b' b'' : Bus ι μ}

def init : Bus ι μ := ⟨[], fun _ _ => false, fun _ => [], fun _ => []⟩

def send (b : Bus ι μ) (m : μ) : Bus ι μ :=
  { b with sent := b.sent ++ [m], inbox := fun i => if b.wants i m then b.inbox i ++ [m] else b.inbox i }

def sendAll (b : Bus ι μ) (ms : List μ) : Bus ι μ := ms.foldl send b

section
variable [DecidableEq ι]

def subscribe (b : Bus ι μ) (i : ι) (p : μ → Bool) : Bus ι μ :=
  { b with wants := Function.update b.wants i fun m => b.wants i m || p m }

/-- The first message of somebody. -/
def take (b : Bus ι μ) (i : ι) : Option (μ × Bus ι μ) :=
  match b.inbox i with
  | [] => none
  | m :: rest =>
    some (m, { b with inbox := Function.update b.inbox i rest, read := Function.update b.read i (b.read i ++ [m]) })

end

/-- A later bus. Of what somebody wants, the new messages come behind those that were there, and those
that were read in between come off. -/
structure Later (b b' : Bus ι μ) : Prop where
  wants : ∀ i m, b.wants i m = true → b'.wants i m = true
  relayed : ∃ new, b'.sent = b.sent ++ new ∧ ∀ i, ∃ took, b'.read i = b.read i ++ took ∧
    ∀ p : μ → Bool, (∀ m, p m = true → b.wants i m = true) →
      (b.inbox i).filter p ++ new.filter p = took.filter p ++ (b'.inbox i).filter p

namespace Later

lemma refl (b : Bus ι μ) : Later b b where
  wants _ _ h := h
  relayed := ⟨[], (List.append_nil _).symm, fun _ => ⟨[], (List.append_nil _).symm, fun _ _ => List.append_nil _⟩⟩

lemma trans (h : Later b b') (h' : Later b' b'') : Later b b'' := by
  obtain ⟨new, hsent, hrelayed⟩ := h.relayed
  obtain ⟨new', hsent', hrelayed'⟩ := h'.relayed
  refine ⟨fun i m hm => h'.wants i m (h.wants i m hm), new ++ new', ?_, fun i => ?_⟩
  · rw [hsent', hsent, List.append_assoc]
  · obtain ⟨took, hread, hqueue⟩ := hrelayed i
    obtain ⟨took', hread', hqueue'⟩ := hrelayed' i
    refine ⟨took ++ took', ?_, fun p hp => ?_⟩
    · rw [hread', hread, List.append_assoc]
    · calc (b.inbox i).filter p ++ (new ++ new').filter p
          = (b.inbox i).filter p ++ new.filter p ++ new'.filter p := by rw [List.filter_append, List.append_assoc]
        _ = took.filter p ++ ((b'.inbox i).filter p ++ new'.filter p) := by rw [hqueue p hp, List.append_assoc]
        _ = took.filter p ++ (took'.filter p ++ (b''.inbox i).filter p) := by
          rw [hqueue' p fun m hm => h.wants i m (hp m hm)]
        _ = (took ++ took').filter p ++ (b''.inbox i).filter p := by rw [List.filter_append, List.append_assoc]

end Later

lemma later_send (b : Bus ι μ) (m : μ) : Later b (b.send m) where
  wants _ _ h := h
  relayed := by
    refine ⟨[m], rfl, fun i => ⟨[], (List.append_nil _).symm, fun p hp => ?_⟩⟩
    rw [List.filter_nil, List.nil_append, send]
    dsimp only
    by_cases hm : p m = true
    · rw [if_pos (hp m hm), List.filter_append]
    · rw [List.filter_cons_of_neg hm, List.filter_nil, List.append_nil]
      split
      · rw [List.filter_append, List.filter_cons_of_neg hm, List.filter_nil, List.append_nil]
      · rfl

lemma later_sendAll (b : Bus ι μ) (ms : List μ) : Later b (b.sendAll ms) := by
  induction ms generalizing b with
  | nil => exact .refl b
  | cons m ms ih => exact (later_send b m).trans (ih (b.send m))

@[simp] lemma sent_sendAll (b : Bus ι μ) (ms : List μ) : (b.sendAll ms).sent = b.sent ++ ms := by
  induction ms generalizing b with
  | nil => exact (List.append_nil _).symm
  | cons m ms ih => exact (ih (b.send m)).trans (by rw [send, List.append_assoc, List.singleton_append])

@[simp] lemma read_sendAll (b : Bus ι μ) (ms : List μ) : (b.sendAll ms).read = b.read := by
  induction ms generalizing b with
  | nil => rfl
  | cons m ms ih => exact ih (b.send m)

lemma mem_inbox_sendAll {ms : List μ} {i : ι} {m : μ} (h : m ∈ (b.sendAll ms).inbox i) : m ∈ b.inbox i ∨ m ∈ ms := by
  induction ms generalizing b with
  | nil => exact .inl h
  | cons x ms ih =>
    rcases ih (b := b.send x) h with h | h
    · dsimp only [send] at h
      split at h
      · rcases List.mem_append.mp h with h | h
        · exact .inl h
        · exact .inr (List.mem_singleton.mp h ▸ List.mem_cons_self)
      · exact .inl h
    · exact .inr (List.mem_cons_of_mem x h)

section
variable [DecidableEq ι]

lemma later_subscribe (b : Bus ι μ) (i : ι) (p : μ → Bool) : Later b (b.subscribe i p) where
  wants j m h := by
    dsimp only [subscribe]
    by_cases hj : j = i
    · subst hj
      rw [Function.update_self, h, Bool.true_or]
    · rw [Function.update_of_ne hj]
      exact h
  relayed := (Later.refl b).relayed

lemma take_eq_some {i : ι} {m : μ} (h : b.take i = some (m, b')) :
    b.inbox i = m :: b'.inbox i ∧ b'.read i = b.read i ++ [m] ∧ b'.sent = b.sent ∧ b'.wants = b.wants ∧
      ∀ j, j ≠ i → b'.inbox j = b.inbox j ∧ b'.read j = b.read j := by
  unfold take at h
  split at h
  · cases h
  · rename_i m rest hinbox
    cases h
    refine ⟨?_, Function.update_self _ _ _, rfl, rfl, fun j hj => ?_⟩
    · dsimp only
      rw [Function.update_self, hinbox]
    · exact ⟨Function.update_of_ne hj _ _, Function.update_of_ne hj _ _⟩

lemma later_take {i : ι} {m : μ} (h : b.take i = some (m, b')) : Later b b' := by
  obtain ⟨hinbox, hread, hsent, hwants, hother⟩ := take_eq_some h
  refine ⟨fun j m hm => hwants.symm ▸ hm, [], by rw [hsent, List.append_nil], fun j => ?_⟩
  by_cases hj : j = i
  · subst hj
    refine ⟨[m], hread, fun p _ => ?_⟩
    rw [hinbox, List.filter_nil, List.append_nil, ← List.filter_append, List.singleton_append]
  · obtain ⟨hinbox', hread'⟩ := hother j hj
    refine ⟨[], by rw [hread', List.append_nil], fun p _ => ?_⟩
    rw [hinbox', List.filter_nil, List.append_nil, List.nil_append]

end

end Bus
end CLib
