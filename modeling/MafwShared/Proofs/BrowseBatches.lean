import MafwShared.ProxySource

/-!
# The batches of browse results

What the wrapper sends and what it still keeps are together what it was given, and every
message has at least one result and no more than `maxresults` allows at that moment.
-/

namespace MafwShared
open CLib

/-! ### The data of a session -/

namespace BrowseData

/-- The results that were not sent yet. -/
def pending (b : BrowseData) : List ResultStruct := (b.messageToSend.map ResultMessage.results).getD []

/-- The message that is being filled is one of this session, not empty and not full. -/
structure Ok (b : BrowseData) (browseId : Nat) : Prop where
  maxresults_pos : 0 < b.maxresults
  maxresults_le : b.maxresults ≤ maxBrowseResult
  message : ∀ m, b.messageToSend = some m → m.browseId = browseId ∧ 0 < m.results.length ∧
    m.results.length = b.results ∧ b.results < b.maxresults

lemma init_ok (browseId : Nat) : init.Ok browseId := ⟨by decide, by decide, fun m hm => by cases hm⟩

/-- An update of the data by which `new` results came in and messages went out. -/
structure Batched (b : BrowseData) (browseId : Nat) (new : List ResultStruct)
    (out : BrowseData × List ResultMessage) : Prop where
  ok : out.1.Ok browseId
  fits : ∀ m ∈ out.2, m.browseId = browseId ∧ 0 < m.results.length ∧ m.results.length ≤ b.maxresults
  conserved : out.2.flatMap ResultMessage.results ++ out.1.pending = b.pending ++ new

lemma sendBrowseRes_batched {b : BrowseData} {browseId : Nat} (h : b.Ok browseId) :
    Batched b browseId [] (sendBrowseRes b) := by
  unfold sendBrowseRes
  cases hm : b.messageToSend with
  | none => exact ⟨h, fun m hm => (by cases hm), by simp⟩
  | some m =>
    obtain ⟨hid, hpos, hlen, hlt⟩ := h.message m hm
    refine ⟨⟨h.maxresults_pos, h.maxresults_le, fun m hm => by cases hm⟩, fun m' hm' => ?_, ?_⟩
    · cases List.mem_singleton.mp hm'
      exact ⟨hid, hpos, by omega⟩
    · simp [pending, hm]

lemma sendBrowseRes_pending {b : BrowseData} : (sendBrowseRes b).1.pending = [] := by
  unfold sendBrowseRes pending
  cases hm : b.messageToSend with
  | none => simp [hm]
  | some m => rfl

lemma growBatch_frame (b : BrowseData) (h : 0 < b.maxresults) (h' : b.maxresults ≤ maxBrowseResult) :
    0 < (growBatch b).maxresults ∧ (growBatch b).maxresults ≤ maxBrowseResult ∧
      (growBatch b).messageToSend = b.messageToSend := by
  have hmax : maxBrowseResult = 500 := rfl
  unfold growBatch
  by_cases hne : b.maxresults ≠ maxBrowseResult
  · rw [if_pos hne]
    dsimp only
    split
    · split <;> exact ⟨by dsimp only; omega, le_rfl, rfl⟩
    · split <;> exact ⟨by dsimp only; omega, by dsimp only; omega, rfl⟩
  · rw [if_neg hne]
    exact ⟨h, h', rfl⟩

section
variable {μ : Type*} (freeze : μ → Bytes)

lemma emitBrowseResult_batched {b : BrowseData} {browseId : Nat} (h : b.Ok browseId) (r : BrowseResult μ) :
    Batched b browseId [appendResult freeze r] (emitBrowseResult freeze b browseId r) := by
  -- the message with the result in it, and the count beside it
  obtain ⟨m, n, hid, hn, hle, hpend, heq⟩ : ∃ m n, m.browseId = browseId ∧ m.results.length = n + 1 ∧
      n + 1 ≤ b.maxresults ∧ m.results = b.pending ++ [appendResult freeze r] ∧
      emitBrowseResult freeze b browseId r =
        if r.remainingCount = 0 ∨ r.error.isSome then
          ({ b with results := n + 1, messageToSend := none, timeoutId := false }, [m])
        else if b.maxresults ≤ n + 1 then
          (growBatch { b with results := 0, messageToSend := none }, [m])
        else ({ b with results := n + 1, messageToSend := some m }, []) := by
    cases hm : b.messageToSend with
    | none =>
      refine ⟨⟨browseId, [appendResult freeze r]⟩, 0, rfl, rfl, h.maxresults_pos, by simp [pending, hm], ?_⟩
      simp [emitBrowseResult, hm]
    | some m =>
      obtain ⟨hid, hpos, hlen, hlt⟩ := h.message m hm
      refine ⟨{ m with results := m.results ++ [appendResult freeze r] }, b.results, hid, by simp [hlen], hlt,
        by simp [pending, hm], ?_⟩
      simp [emitBrowseResult, hm]
  rw [heq]
  by_cases hlast : r.remainingCount = 0 ∨ r.error.isSome
  · rw [if_pos hlast]
    refine ⟨⟨h.maxresults_pos, h.maxresults_le, fun m hm => by cases hm⟩, fun m' hm' => ?_, ?_⟩
    · cases List.mem_singleton.mp hm'
      exact ⟨hid, by omega, by omega⟩
    · simp [pending, hpend]
  · rw [if_neg hlast]
    by_cases hfull : b.maxresults ≤ n + 1
    · rw [if_pos hfull]
      obtain ⟨hpos, hmax, hnone⟩ := growBatch_frame { b with results := 0, messageToSend := none }
        h.maxresults_pos h.maxresults_le
      refine ⟨⟨hpos, hmax, fun m hm => ?_⟩, fun m' hm' => ?_, ?_⟩
      · rw [hnone] at hm
        cases hm
      · cases List.mem_singleton.mp hm'
        exact ⟨hid, by omega, by omega⟩
      · simp [pending, hnone, hpend]
    · rw [if_neg hfull]
      refine ⟨⟨h.maxresults_pos, h.maxresults_le, fun m' hm' => ?_⟩, fun m' hm' => (by cases hm'), ?_⟩
      · cases hm'
        exact ⟨hid, by omega, hn, by dsimp only; omega⟩
      · simp [pending, hpend]

lemma emitBrowseResult_last (b : BrowseData) (browseId : Nat) {r : BrowseResult μ}
    (hr : r.remainingCount = 0 ∨ r.error.isSome) : (emitBrowseResult freeze b browseId r).1.pending = [] := by
  unfold emitBrowseResult
  dsimp only
  rw [if_pos hr]
  rfl

end

end BrowseData

/-! ### The sessions of a wrapper -/

namespace SourceWrapper

def pending (w : SourceWrapper) (browseId : Nat) : List ResultStruct :=
  ((w.userData browseId).map BrowseData.pending).getD []

lemma userData_write (w : SourceWrapper) (i j : Nat) (b : BrowseData) :
    (w.write i b).userData j = if j = i then some b else w.userData j := by
  unfold write userData
  cases hb : w.browsing with
  | none =>
    by_cases hji : j = i <;> simp [hji]
  | some e =>
    obtain ⟨k, b'⟩ := e
    by_cases hki : k = i
    · by_cases hji : j = i
      · simp [hki, hji]
      · have hij : ¬ i = j := fun h => hji h.symm
        simp [hki, hji, hij]
    · by_cases hji : j = i <;> simp [hki, hji]

lemma userData_remove (w : SourceWrapper) (i j : Nat) :
    (w.remove i).userData j = w.userData j ∨ j = i ∧ (w.remove i).userData j = none := by
  unfold remove userData
  by_cases hji : j = i
  · subst hji
    cases hb : w.browsing with
    | none => simp
    | some e => by_cases hk : e.1 = j <;> simp [hk]
  · left
    cases w.browsing <;> simp [Function.update_of_ne hji]

end SourceWrapper

end MafwShared
