import MafwShared.Lib.Runs
import Mathlib.Data.List.Range
import Mathlib.Data.List.Perm.Basic

/-!
# Calls that are answered later

A client makes calls and numbers them. Its requests reach the server in order; the server takes
each of them up and answers it at some later time, the requests it has taken up in any order. Answers
reach the client in order. A call that waits for too long is given up, and its answer is dropped
when it comes after all.
-/

namespace CLib

structure Calls (α β : Type*) where
  /-- All the requests there have been. -/
  made : List α
  requests : List (α × Nat)
  /-- How many requests the server has taken up. -/
  taken : Nat
  /-- Those of them that it has not answered yet. -/
  accepted : List (α × Nat)
  /-- All the answers there have been. -/
  answered : List (Nat × β)
  replies : List (Nat × β)
  /-- The calls that the client waits for. -/
  waiting : List Nat
  /-- How its calls have ended, without an answer if they were given up. -/
  ended : List (Nat × Option β)

inductive CallEvent (α β : Type*)
  | call (request : α)
  | accept
  /-- The server answers one of the requests that it has taken up. -/
  | answer (n : Nat) (reply : β)
  | receive
  | giveUp (k : Nat)

namespace Calls
variable {α β : Type*}

def init : Calls α β := ⟨[], [], 0, [], [], [], [], []⟩

/-- The calls after an event, none when the event cannot happen. -/
def step (s : Calls α β) : CallEvent α β → Option (Calls α β)
  | .call request =>
    some { s with
      made := s.made ++ [request]
      requests := s.requests ++ [(request, s.made.length)]
      waiting := s.waiting ++ [s.made.length] }
  | .accept =>
    match s.requests with
    | [] => none
    | r :: rest => some { s with requests := rest, taken := s.taken + 1, accepted := s.accepted ++ [r] }
  | .answer n reply =>
    match s.accepted[n]? with
    | none => none
    | some r =>
      some { s with
        accepted := s.accepted.eraseIdx n
        answered := s.answered ++ [(r.2, reply)]
        replies := s.replies ++ [(r.2, reply)] }
  | .receive =>
    match s.replies with
    | [] => none
    | (k, reply) :: rest =>
      if k ∈ s.waiting then
        some { s with replies := rest, waiting := s.waiting.erase k, ended := s.ended ++ [(k, some reply)] }
      else some { s with replies := rest }
  | .giveUp k =>
    if k ∈ s.waiting then
      some { s with waiting := s.waiting.erase k, ended := s.ended ++ [(k, none)] }
    else none

/-- What holds of the calls at any time. -/
structure Sound (s : Calls α β) : Prop where
  sent : s.requests = s.made.zipIdx.drop s.taken
  taken_le : s.taken ≤ s.made.length
  request : ∀ r ∈ s.accepted, s.made[r.2]? = some r.1
  /-- A request that was taken up is answered once, or it is still to be answered. -/
  worked : (s.accepted.map Prod.snd ++ s.answered.map Prod.fst).Perm (List.range s.taken)
  /-- The answers come in the order in which they were given. -/
  delivered : ∃ received, s.answered = received ++ s.replies ∧
    (∀ k ∈ s.waiting, k ∉ received.map Prod.fst) ∧ ∀ k reply, (k, some reply) ∈ s.ended → (k, reply) ∈ received
  /-- A call that was made has ended once, or it is still waited for. -/
  accounted : (s.ended.map Prod.fst ++ s.waiting).Perm (List.range s.made.length)

variable {s t : Calls α β}

lemma sound_init : (init : Calls α β).Sound where
  sent := rfl
  taken_le := Nat.le_refl 0
  request := fun _ hr => nomatch hr
  worked := .nil
  delivered := ⟨[], rfl, (fun _ hk => nomatch hk), (fun _ _ hk => nomatch hk)⟩
  accounted := .nil

namespace Sound

lemma lt_of_accepted (h : s.Sound) {r : α × Nat} (hr : r ∈ s.accepted) : r.2 < s.taken := by
  have hmem : r.2 ∈ s.accepted.map Prod.snd ++ s.answered.map Prod.fst :=
    List.mem_append_left _ (List.mem_map_of_mem hr)
  exact List.mem_range.mp (h.worked.mem_iff.mp hmem)

lemma lt_of_waiting (h : s.Sound) {k : Nat} (hk : k ∈ s.waiting) : k < s.made.length :=
  List.mem_range.mp (h.accounted.mem_iff.mp (List.mem_append_right _ hk))

lemma lt_of_answered (h : s.Sound) {k : Nat} (hk : k ∈ s.answered.map Prod.fst) : k < s.taken :=
  List.mem_range.mp (h.worked.mem_iff.mp (List.mem_append_right _ hk))

lemma call (h : s.Sound) {request : α} (hs : s.step (.call request) = some t) : t.Sound := by
  cases hs
  obtain ⟨received, hreceived, hwaiting, hended⟩ := h.delivered
  refine ⟨?_, ?_, fun r hr => ?_, h.worked, ⟨received, hreceived, fun k hk hmem => ?_, hended⟩, ?_⟩
  · rw [h.sent, List.zipIdx_append, List.drop_append_of_le_length (by simpa using h.taken_le)]
    simp
  · rw [List.length_append]
    exact Nat.le_add_right_of_le h.taken_le
  · have hlt := Nat.lt_of_lt_of_le (h.lt_of_accepted hr) h.taken_le
    rw [List.getElem?_append_left hlt]
    exact h.request r hr
  · rcases List.mem_append.mp hk with hk | hk
    · exact hwaiting k hk hmem
    · -- the new call has no answer yet
      have hlt := h.lt_of_answered (k := k) (by
        rw [hreceived, List.map_append]
        exact List.mem_append_left _ hmem)
      rw [List.mem_singleton.mp hk] at hlt
      exact absurd (Nat.lt_of_lt_of_le hlt h.taken_le) (Nat.lt_irrefl _)
  · rw [List.length_append, List.length_singleton, List.range_succ, ← List.append_assoc]
    exact h.accounted.append_right _

lemma accept (h : s.Sound) (hs : s.step .accept = some t) :
    t.Sound ∧ ∃ request, s.made[s.taken]? = some request ∧ t.accepted = s.accepted ++ [(request, s.taken)] := by
  dsimp only [step] at hs
  split at hs
  · cases hs
  rename_i r rest hreq
  cases hs
  have hdrop : s.made.zipIdx.drop s.taken = r :: rest := h.sent ▸ hreq
  have hhead : s.made.zipIdx[s.taken]? = some r := by
    have hzero := congrArg (fun l => l[0]?) hdrop
    simpa using hzero
  rw [List.getElem?_zipIdx] at hhead
  obtain ⟨request, hmade, hr⟩ := Option.map_eq_some_iff.mp hhead
  rw [Nat.zero_add] at hr
  have hrest : rest = s.made.zipIdx.drop (s.taken + 1) := by
    rw [← List.tail_drop, hdrop, List.tail_cons]
  have hlt : s.taken < s.made.length := (List.getElem?_eq_some_iff.mp hmade).1
  subst hr
  refine ⟨⟨hrest, hlt, fun r hr => ?_, ?_, h.delivered, h.accounted⟩, request, hmade, rfl⟩
  · rcases List.mem_append.mp hr with hr | hr
    · exact h.request r hr
    · rw [List.mem_singleton.mp hr]
      exact hmade
  · rw [List.map_append, List.map_singleton, List.append_assoc, List.range_succ]
    exact List.perm_append_comm_assoc _ _ _ |>.trans (h.worked.cons s.taken) |>.trans List.perm_append_comm

lemma answer (h : s.Sound) {n : Nat} {reply : β} (hs : s.step (.answer n reply) = some t) : t.Sound := by
  dsimp only [step] at hs
  split at hs
  · cases hs
  rename_i r hr
  cases hs
  obtain ⟨received, hreceived, hwaiting, hended⟩ := h.delivered
  refine ⟨h.sent, h.taken_le, fun r' hr' => h.request r' (List.mem_of_mem_eraseIdx hr'), ?_,
    ⟨received, ?_, hwaiting, hended⟩, h.accounted⟩
  · -- the request moves from one list to the other
    refine .trans ?_ h.worked
    have hperm : s.accepted.Perm (r :: s.accepted.eraseIdx n) := by
      obtain ⟨hn, rfl⟩ := List.getElem?_eq_some_iff.mp hr
      exact (List.getElem_cons_eraseIdx_perm hn).symm
    have hkeys := hperm.map Prod.snd
    rw [List.map_append, ← List.append_assoc]
    refine List.perm_append_comm.trans ?_
    exact (hkeys.append_right (s.answered.map Prod.fst)).symm
  · rw [hreceived, List.append_assoc]

lemma receive (h : s.Sound) (hs : s.step .receive = some t) : t.Sound := by
  dsimp only [step] at hs
  split at hs
  · cases hs
  rename_i k reply rest hreplies
  obtain ⟨received, hreceived, hwaiting, hended⟩ := h.delivered
  have hsplit : s.answered = (received ++ [(k, reply)]) ++ rest := by
    rw [hreceived, hreplies, List.append_assoc]
    rfl
  have hkeys : (received ++ [(k, reply)]).map Prod.fst = received.map Prod.fst ++ [k] := List.map_append
  split at hs
  · rename_i hk
    cases hs
    have hperm : (s.ended.map Prod.fst ++ s.waiting).Perm ((s.ended.map Prod.fst ++ [k]) ++ s.waiting.erase k) := by
      rw [List.append_assoc]
      exact (List.perm_cons_erase hk).append_left _
    have hnodup : s.waiting.Nodup := (List.nodup_append.mp (h.accounted.symm.nodup List.nodup_range)).2.1
    refine ⟨h.sent, h.taken_le, h.request, h.worked, ⟨_, hsplit, fun j hj hmem => ?_, fun j rep hj => ?_⟩, ?_⟩
    · rw [hkeys] at hmem
      rcases List.mem_append.mp hmem with hmem | hmem
      · exact hwaiting j (List.mem_of_mem_erase hj) hmem
      · rw [List.mem_singleton.mp hmem] at hj
        exact hnodup.not_mem_erase hj
    · rcases List.mem_append.mp hj with hj | hj
      · exact List.mem_append_left _ (hended j rep hj)
      · cases List.mem_singleton.mp hj
        exact List.mem_append_right _ (List.mem_singleton_self _)
    · rw [List.map_append]
      exact hperm.symm.trans h.accounted
  · rename_i hk
    cases hs
    refine ⟨h.sent, h.taken_le, h.request, h.worked, ⟨_, hsplit, fun j hj hmem => ?_, fun j rep hj => ?_⟩, h.accounted⟩
    · rw [hkeys] at hmem
      rcases List.mem_append.mp hmem with hmem | hmem
      · exact hwaiting j hj hmem
      · rw [List.mem_singleton.mp hmem] at hj
        exact hk hj
    · exact List.mem_append_left _ (hended j rep hj)

lemma giveUp (h : s.Sound) {k : Nat} (hs : s.step (.giveUp k) = some t) : t.Sound := by
  dsimp only [step] at hs
  split at hs
  · rename_i hk
    cases hs
    obtain ⟨received, hreceived, hwaiting, hended⟩ := h.delivered
    refine ⟨h.sent, h.taken_le, h.request, h.worked,
      ⟨received, hreceived, fun j hj => hwaiting j (List.mem_of_mem_erase hj), fun j rep hj => ?_⟩, ?_⟩
    · rcases List.mem_append.mp hj with hj | hj
      · exact hended j rep hj
      · cases List.mem_singleton.mp hj
    · rw [List.map_append, List.append_assoc]
      exact ((List.perm_cons_erase hk).append_left _).symm.trans h.accounted
  · cases hs

theorem step (h : s.Sound) {e : CallEvent α β} (hs : s.step e = some t) : t.Sound := by
  cases e with
  | call request => exact h.call hs
  | accept => exact (h.accept hs).1
  | answer n reply => exact h.answer hs
  | receive => exact h.receive hs
  | giveUp k => exact h.giveUp hs

/-! ### What follows for the calls -/

lemma ended_once (h : s.Sound) : (s.ended.map Prod.fst).Nodup ∧ ∀ k ∈ s.ended.map Prod.fst, k < s.made.length :=
  ⟨(List.nodup_append.mp (h.accounted.symm.nodup List.nodup_range)).1,
    fun _ hk => List.mem_range.mp (h.accounted.mem_iff.mp (List.mem_append_left _ hk))⟩

lemma answered_once (h : s.Sound) : (s.answered.map Prod.fst).Nodup :=
  (List.nodup_append.mp (h.worked.symm.nodup List.nodup_range)).2.1

lemma answered_of_ended (h : s.Sound) {k : Nat} {reply : β} (hk : (k, some reply) ∈ s.ended) :
    (k, reply) ∈ s.answered := by
  obtain ⟨received, hreceived, -, hended⟩ := h.delivered
  rw [hreceived]
  exact List.mem_append_left _ (hended k reply hk)

lemma quiet_ended (h : s.Sound) (hreq : s.requests = []) (hacc : s.accepted = []) (hrep : s.replies = []) :
    (s.ended.map Prod.fst).Perm (List.range s.made.length) := by
  have htaken : s.taken = s.made.length := by
    have hdrop : s.made.zipIdx.drop s.taken = [] := h.sent ▸ hreq
    have hlen := List.drop_eq_nil_iff.mp hdrop
    rw [List.length_zipIdx] at hlen
    exact Nat.le_antisymm h.taken_le hlen
  have hnone : s.waiting = [] := by
    rw [List.eq_nil_iff_forall_not_mem]
    intro k hk
    obtain ⟨received, hreceived, hwaiting, -⟩ := h.delivered
    have hworked := h.worked
    rw [hacc, List.map_nil, List.nil_append, htaken] at hworked
    rw [hrep, List.append_nil] at hreceived
    exact hwaiting k hk (hreceived ▸ hworked.mem_iff.mpr (List.mem_range.mpr (h.lt_of_waiting hk)))
  have haccounted := h.accounted
  rwa [hnone, List.append_nil] at haccounted

end Sound
end Calls
end CLib
