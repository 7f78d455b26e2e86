import Mathlib.Tactic.Lemma
import Mathlib.Tactic.TypeStar

/-!
# Sequential objects

An object takes one call at a time, and answers it while it changes its state. `Legal` says that a
record of calls and answers is the object's.
-/

namespace CLib
variable {σ ι ω : Type*}

/-- The answers to a list of calls, and the state after them. -/
def answers (object : σ → ι → ω × σ) : σ → List ι → List ω × σ
  | s, [] => ([], s)
  | s, call :: calls =>
    ((object s call).1 :: (answers object (object s call).2 calls).1, (answers object (object s call).2 calls).2)

lemma answers_concat (object : σ → ι → ω × σ) (s : σ) (calls : List ι) (call : ι) :
    answers object s (calls ++ [call]) =
      ((answers object s calls).1 ++ [(object (answers object s calls).2 call).1],
        (object (answers object s calls).2 call).2) := by
  induction calls generalizing s with
  | nil => rfl
  | cons c calls ih =>
    rw [List.cons_append, answers, ih]
    rfl

/-- The object has answered the calls of a record as it says, and is in state `t` then. -/
def Legal (object : σ → ι → ω × σ) (s : σ) (record : List (ι × ω)) (t : σ) : Prop :=
  answers object s (record.map Prod.fst) = (record.map Prod.snd, t)

namespace Legal
variable {object : σ → ι → ω × σ} {s t : σ} {record : List (ι × ω)}

lemma nil (object : σ → ι → ω × σ) (s : σ) : Legal object s [] s := rfl

lemma concat (h : Legal object s record t) {call : ι} {answer : ω} {u : σ} (hcall : object t call = (answer, u)) :
    Legal object s (record ++ [(call, answer)]) u := by
  unfold Legal at h ⊢
  rw [List.map_append, List.map_append, List.map_singleton, List.map_singleton, answers_concat, h, hcall]

end Legal

end CLib
