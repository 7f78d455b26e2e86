import Mathlib.Tactic.Lemma
import Mathlib.Tactic.TypeStar

/-!
# Runs of a labelled transition system

`Reach step guard start s` says that some run from `start` ends in `s` and that each of
its steps met `guard`, a condition on the state before the step and on the event.
-/

namespace CLib
variable {σ ε τ δ : Type*}

/-- The states reached from `start` by steps that meet `guard`. -/
inductive Reach (step : σ → ε → σ → Prop) (guard : σ → ε → Prop) (start : σ) : σ → Prop
  | refl : Reach step guard start start
  | next {s t : σ} {e : ε} : Reach step guard start s → guard s e → step s e t →
      Reach step guard start t

namespace Reach
variable {step : σ → ε → σ → Prop} {guard : σ → ε → Prop} {start : σ}

/-- What holds at the start and survives every guarded step holds wherever a run ends. -/
theorem invariant (inv : σ → Prop) (h0 : inv start)
    (hstep : ∀ s e t, inv s → guard s e → step s e t → inv t) {s : σ}
    (h : Reach step guard start s) : inv s := by
  induction h with
  | refl => exact h0
  | next _ hg hs ih => exact hstep _ _ _ ih hg hs

lemma trans {s t : σ} (h : Reach step guard start s) (h' : Reach step guard s t) :
    Reach step guard start t := by
  induction h' with
  | refl => exact h
  | next _ hg hs ih => exact ih.next hg hs

/-- A run is seen as a run of another system when each of its steps is seen as a step of that system or not
at all. -/
lemma seen {step' : τ → δ → τ → Prop} {guard' : τ → δ → Prop} (view : σ → τ) (inv : σ → Prop) (h0 : inv start)
    (hstep : ∀ s e t, inv s → guard s e → step s e t →
      inv t ∧ (view t = view s ∨ ∃ e', guard' (view s) e' ∧ step' (view s) e' (view t))) {s : σ}
    (h : Reach step guard start s) : inv s ∧ Reach step' guard' (view start) (view s) := by
  induction h with
  | refl => exact ⟨h0, .refl⟩
  | next _ hg hs ih =>
    obtain ⟨hinv, hrun⟩ := ih
    obtain ⟨hinv', hsame | ⟨e', hg', hs'⟩⟩ := hstep _ _ _ hinv hg hs
    · exact ⟨hinv', hsame ▸ hrun⟩
    · exact ⟨hinv', hrun.next hg' hs'⟩

end Reach

/-- The run of a list of events, `none` when a step fails or misses the guard. -/
def runEvents (step : σ → ε → Option σ) (guard : σ → ε → Prop) [∀ s e, Decidable (guard s e)] :
    σ → List ε → Option σ
  | s, [] => some s
  | s, e :: es => if guard s e then (step s e).bind (fun t => runEvents step guard t es) else none

/-- A computed run is a run. -/
theorem reach_of_runEvents {step : σ → ε → Option σ} {guard : σ → ε → Prop}
    [∀ s e, Decidable (guard s e)] {s t : σ} {es : List ε} (h : runEvents step guard s es = some t) :
    Reach (fun s e t => step s e = some t) guard s t := by
  induction es generalizing s with
  | nil =>
    cases h
    exact .refl
  | cons e es ih =>
    rw [runEvents] at h
    by_cases hg : guard s e
    · rw [if_pos hg] at h
      obtain ⟨u, hu, hrest⟩ := Option.bind_eq_some_iff.mp h
      exact (Reach.refl.next hg hu).trans (ih hrest)
    · rw [if_neg hg] at h
      cases h

/-- Steps that lower a rank cannot go on for longer than the rank they started from. -/
theorem runEvents_bounded {step : σ → ε → Option σ} {guard : σ → ε → Prop} [∀ s e, Decidable (guard s e)]
    (inv : σ → Prop) (rank : σ → Nat)
    (hstep : ∀ s e t, inv s → guard s e → step s e = some t → inv t ∧ rank t < rank s) {s t : σ} {es : List ε}
    (h0 : inv s) (h : runEvents step guard s es = some t) : inv t ∧ es.length + rank t ≤ rank s := by
  induction es generalizing s with
  | nil =>
    cases h
    exact ⟨h0, Nat.le_of_eq (Nat.zero_add _)⟩
  | cons e es ih =>
    rw [runEvents] at h
    by_cases hg : guard s e
    · rw [if_pos hg] at h
      obtain ⟨u, hu, hrest⟩ := Option.bind_eq_some_iff.mp h
      obtain ⟨hinv, hlt⟩ := hstep s e u h0 hg hu
      obtain ⟨hend, hle⟩ := ih hinv hrest
      refine ⟨hend, ?_⟩
      rw [List.length_cons]
      omega
    · rw [if_neg hg] at h
      cases h

lemma foldl_take_succ {next : σ → ε → σ} {s : σ} {es : List ε} {n : Nat} {e : ε} (h : es[n]? = some e) :
    (es.take (n + 1)).foldl next s = next ((es.take n).foldl next s) e := by
  rw [List.take_add_one, h, List.foldl_append]
  rfl

/-- What each step keeps exactly when the event meets a condition holds all along a run exactly
when all its events meet it. The invariant may rest on what was kept so far. -/
theorem forall_take_iff {next : σ → ε → σ} {holds : σ → Prop} {s : σ} (inv : σ → Prop)
    (cond : σ → ε → Prop) (hinv : inv s) (hs : holds s) (hkeep : ∀ s e, inv s → holds (next s e) → inv (next s e))
    (hstep : ∀ s e, inv s → holds s → (holds (next s e) ↔ cond s e)) (es : List ε) :
    (∀ n, holds ((es.take n).foldl next s)) ↔
      ∀ n e, es[n]? = some e → cond ((es.take n).foldl next s) e := by
  have hpast : ∀ n, es[n]? = none → (es.take (n + 1)).foldl next s = (es.take n).foldl next s := by
    intro n hn
    rw [List.take_add_one, hn, Option.toList_none, List.append_nil]
  constructor
  · intro h
    have hall : ∀ n, inv ((es.take n).foldl next s) := by
      intro n
      induction n with
      | zero => exact hinv
      | succ n ih =>
        have hnext := h (n + 1)
        cases he : es[n]? with
        | none => exact hpast n he ▸ ih
        | some e =>
          rw [foldl_take_succ he] at hnext ⊢
          exact hkeep _ e ih hnext
    intro n e he
    have hnext := h (n + 1)
    rw [foldl_take_succ he] at hnext
    exact (hstep _ e (hall n) (h n)).mp hnext
  · intro h n
    refine (?_ : inv ((es.take n).foldl next s) ∧ holds ((es.take n).foldl next s)).2
    induction n with
    | zero => exact ⟨hinv, hs⟩
    | succ n ih =>
      cases he : es[n]? with
      | none => exact hpast n he ▸ ih
      | some e =>
        rw [foldl_take_succ he]
        have hnext := (hstep _ e ih.1 ih.2).mpr (h n e he)
        exact ⟨hkeep _ e ih.1 hnext, hnext⟩

/-- A computation returns a value that meets `post`, or it stops with an allowed error. -/
def Ends {γ α : Type} (allowed : γ → Prop) (post : α → Prop) : Except γ α → Prop
  | .ok a => post a
  | .error e => allowed e

namespace Ends
variable {γ α β : Type} {allowed : γ → Prop} {post post' : α → Prop} {r : Except γ α}

lemma of_toOption {a : α} (h : Ends allowed post r) (hr : r.toOption = some a) : post a := by
  cases r with
  | ok b =>
    cases hr
    exact h
  | error e => cases hr

lemma of_error {e : γ} (h : Ends allowed post r) (hr : r = .error e) : allowed e := by
  subst hr
  exact h

lemma exists_ok (h : Ends (fun _ => False) post r) : ∃ a, r = .ok a ∧ post a := by
  cases r with
  | ok a => exact ⟨a, rfl, h⟩
  | error e => exact h.elim

lemma mono (h : Ends allowed post r) (hp : ∀ a, post a → post' a) : Ends allowed post' r := by
  cases r with
  | ok a => exact hp a h
  | error e => exact h

lemma bind {k : α → Except γ β} {final : β → Prop} (h : Ends allowed post r)
    (hk : ∀ a, post a → Ends allowed final (k a)) : Ends allowed final (r >>= k) := by
  cases r with
  | ok a => exact hk a h
  | error e => exact h

lemma map {f : α → β} {final : β → Prop} (h : Ends allowed post r) (hf : ∀ a, post a → final (f a)) :
    Ends allowed final (r.map f) := by
  cases r with
  | ok a => exact hf a h
  | error e => exact h

lemma mapM {f : α → Except γ β} {l : List α} (h : ∀ a ∈ l, Ends allowed (fun _ => True) (f a)) :
    Ends allowed (fun _ => True) (l.mapM f) := by
  induction l with
  | nil => exact trivial
  | cons a l ih =>
    rw [List.mapM_cons]
    refine (h a List.mem_cons_self).bind fun b _ => ?_
    exact (ih fun x hx => h x (List.mem_cons_of_mem a hx)).bind fun _ _ => trivial

end Ends

lemma bind_ok {γ α β : Type} {r : Except γ α} {k : α → Except γ β} {b : β} (h : r >>= k = .ok b) :
    ∃ a, r = .ok a ∧ k a = .ok b := by
  cases r with
  | ok a => exact ⟨a, rfl, h⟩
  | error e => cases h

end CLib
