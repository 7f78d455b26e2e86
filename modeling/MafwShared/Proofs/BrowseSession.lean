import MafwShared.ProxySource

/-!
# One browse session

A session as its two ends see it: the results that are under way between them and what
the proxy remembers of it. `Session.Step` is all that can happen to it. No step but that of
a cancelled session loses, doubles or reorders a result.
-/

namespace MafwShared
open CLib

variable {μ : Type*} {freeze : μ → Bytes} {thaw : Bytes → μ}

/-- An empty object id is none. -/
def BrowseResult.normal (r : BrowseResult μ) : BrowseResult μ :=
  { r with objectId := if r.objectId = some [] then none else r.objectId }

lemma parseResult_appendResult (hmeta : ∀ m, thaw (freeze m) = m) (r : BrowseResult μ) :
    parseResult thaw (appendResult freeze r) = r.normal := by
  obtain ⟨remaining, index, objectId, metadata, error⟩ := r
  cases objectId with
  | none => cases error <;> simp [parseResult, appendResult, BrowseResult.normal, hmeta, SourceError.domain_ne]
  | some o =>
    by_cases ho : o = [] <;> cases error <;>
      simp [parseResult, appendResult, BrowseResult.normal, hmeta, SourceError.domain_ne, ho]

/-- The part of the dispatch loop in a session. -/
inductive SessionDispatch
  | off
  | looping (rest : List ResultStruct) (newReq : Bool)
  | inCallback (remainingCount : Int32) (rest : List ResultStruct)

def SessionDispatch.rest : SessionDispatch → List ResultStruct
  | off => []
  | looping rest _ => rest
  | inCallback _ rest => rest

structure Session (μ : Type*) where
  started : Bool
  /-- The call of `browse` has not returned to the client. -/
  opening : Bool
  /-- What the wrapper has not sent yet. -/
  pending : List ResultStruct
  /-- What the proxy has not looked at yet. -/
  queue : List ResultStruct
  dispatch : SessionDispatch
  req : Option BrowseReq
  emitted : List (BrowseResult μ)
  delivered : List (BrowseResult μ)
  cancelled : Bool

namespace Session

def init : Session μ := ⟨false, false, [], [], .off, none, [], [], false⟩

/-- The results between the source and the callback. -/
def underway (v : Session μ) : List ResultStruct := v.dispatch.rest ++ v.queue ++ v.pending

/-- The last result is in the list. -/
def Ended (l : List (BrowseResult μ)) : Prop := ∃ r ∈ l, r.remainingCount = 0

inductive Step (freeze : μ → Bytes) (thaw : Bytes → μ) (v : Session μ) : Session μ → Prop
  | same : Step freeze thaw v v
  | start : v.started = false → Step freeze thaw v { v with started := true, opening := true }
  | emit {r queue pending} : v.started = true → (∀ x ∈ v.emitted, x.remainingCount ≠ 0) →
      queue ++ pending = v.queue ++ v.pending ++ [appendResult freeze r] →
      (r.remainingCount = 0 → pending = []) →
      Step freeze thaw v { v with emitted := v.emitted ++ [r], queue := queue, pending := pending }
  | flush {queue} : queue = v.queue ++ v.pending → Step freeze thaw v { v with queue := queue, pending := [] }
  | discard : v.cancelled = true → Step freeze thaw v { v with pending := [] }
  | register : v.opening = true → Step freeze thaw v { v with opening := false, req := some ⟨false, false⟩ }
  | cancel {req} : v.req = some req → (∀ rest b, v.dispatch ≠ .looping rest b) →
      Step freeze thaw v { v with
        req := if req.emitting then some { req with stopEmitting := true } else none
        cancelled := true }
  | dispatch {results queue} : v.started = true → v.dispatch = .off → v.opening = false → v.queue = results ++ queue →
      Step freeze thaw v { v with dispatch := .looping results false, queue := queue }
  | finish {newReq} : v.dispatch = .looping [] newReq →
      Step freeze thaw v { v with
        dispatch := .off
        req := if newReq then v.req.map fun req => { req with emitting := false } else v.req }
  | ignore {m rest} : v.dispatch = .looping (m :: rest) false → v.opening = false → v.req = none →
      Step freeze thaw v { v with dispatch := .off }
  | deliver {m rest newReq req} : v.dispatch = .looping (m :: rest) newReq → v.req = some req →
      Step freeze thaw v { v with
        dispatch := .inCallback m.remainingCount rest
        req := some { req with emitting := true }
        delivered := v.delivered ++ [parseResult thaw m] }
  | stop {c rest req} : v.dispatch = .inCallback c rest → v.req = some req → c = 0 ∨ req.stopEmitting →
      Step freeze thaw v { v with dispatch := .off, req := none }
  | goOn {c rest req} : v.dispatch = .inCallback c rest → v.req = some req →
      ¬ (c = 0 ∨ req.stopEmitting) → Step freeze thaw v { v with dispatch := .looping rest true }

/-- What the proxy remembers of the session, by where its loop is. -/
def Remembered (v : Session μ) : Prop :=
  match v.dispatch with
  | .looping _ true => v.req = some ⟨true, false⟩ ∧ v.cancelled = false
  | .inCallback c _ => v.req = some ⟨true, v.cancelled⟩ ∧ (c = 0 → Ended v.delivered)
  | _ => ∀ req, v.req = some req → req = ⟨false, false⟩ ∧ v.cancelled = false

structure Valid (thaw : Bytes → μ) (v : Session μ) : Prop where
  untouched : v.started = false → v = init
  opening : v.opening = true → v.delivered = [] ∧ v.req = none ∧ v.cancelled = false ∧ v.dispatch = .off
  known : v.started = true → v.cancelled = false → v.opening = true ∨ v.req ≠ none ∨ Ended v.delivered
  remembered : v.Remembered
  conserved : v.cancelled = false →
    v.delivered ++ v.underway.map (parseResult thaw) = v.emitted.map BrowseResult.normal
  isPrefix : v.delivered <+: v.emitted.map BrowseResult.normal
  last : ∀ r ∈ v.emitted.dropLast, r.remainingCount ≠ 0
  flushed : Ended v.emitted → v.pending = []

namespace Valid
variable {v v' : Session μ}

lemma init_valid : Valid thaw (init : Session μ) := by
  refine ⟨fun _ => rfl, ?_, ?_, ?_, fun _ => rfl, List.nil_prefix, ?_, ?_⟩
  · intro h
    cases h
  · intro h
    cases h
  · intro req h
    cases h
  · intro r hr
    cases hr
  · rintro ⟨r, hr, -⟩
    cases hr

lemma drained (h : Valid thaw v) (hc : v.cancelled = false) (hend : Ended v.delivered) : v.underway = [] := by
  obtain ⟨r, hr, hzero⟩ := hend
  by_contra hne
  have hcons := h.conserved hc
  -- the delivered results are then among all but the last of the emitted ones
  have hdrop : v.delivered <+: (v.emitted.dropLast).map BrowseResult.normal := by
    have hlen : 0 < v.underway.length := List.length_pos_iff.mpr hne
    rw [List.map_dropLast, List.dropLast_eq_take, ← hcons, List.prefix_take_iff]
    refine ⟨List.prefix_append _ _, ?_⟩
    rw [List.length_append, List.length_map]
    omega
  obtain ⟨x, hx, rfl⟩ := List.mem_map.mp (hdrop.subset hr)
  exact h.last x hx hzero

lemma started_of (h : Valid thaw v) (hne : v ≠ init) : v.started = true := by
  by_contra hst
  exact hne (h.untouched (by simpa using hst))

/-- The loop is only in sessions that have started and whose `browse` has returned. -/
lemma busy (h : Valid thaw v) (hd : v.dispatch ≠ .off) : v.started = true ∧ v.opening = false := by
  refine ⟨h.started_of fun hv => hd (by rw [hv]; rfl), ?_⟩
  by_contra hop
  exact hd (h.opening (by simpa using hop)).2.2.2

lemma busy_looping (h : Valid thaw v) {rest : List ResultStruct} {newReq : Bool}
    (hd : v.dispatch = .looping rest newReq) : v.started = true ∧ v.opening = false :=
  h.busy (by rw [hd]; exact SessionDispatch.noConfusion)

lemma busy_inCallback (h : Valid thaw v) {c : Int32} {rest : List ResultStruct}
    (hd : v.dispatch = .inCallback c rest) : v.started = true ∧ v.opening = false :=
  h.busy (by rw [hd]; exact SessionDispatch.noConfusion)

lemma mk_busy (hbusy : v.started = true ∧ v.opening = false)
    (known : v.cancelled = false → v.req ≠ none ∨ Ended v.delivered) (remembered : v.Remembered)
    (conserved : v.cancelled = false →
      v.delivered ++ v.underway.map (parseResult thaw) = v.emitted.map BrowseResult.normal)
    (isPrefix : v.delivered <+: v.emitted.map BrowseResult.normal)
    (last : ∀ r ∈ v.emitted.dropLast, r.remainingCount ≠ 0) (flushed : Ended v.emitted → v.pending = []) :
    Valid thaw v := by
  obtain ⟨hst, hop⟩ := hbusy
  refine ⟨fun hf => ?_, fun hf => ?_, fun _ hc => Or.inr (known hc), remembered, conserved, isPrefix, last, flushed⟩
  · rw [hst] at hf
    cases hf
  · rw [hop] at hf
    cases hf

lemma known_busy (h : Valid thaw v) (hbusy : v.started = true ∧ v.opening = false) (hc : v.cancelled = false) :
    v.req ≠ none ∨ Ended v.delivered := by
  refine (h.known hbusy.1 hc).resolve_left fun hop => ?_
  rw [hbusy.2] at hop
  cases hop

lemma remembered_off (h : Valid thaw v) (hd : v.dispatch = .off) {req : BrowseReq} (hreq : v.req = some req) :
    req = ⟨false, false⟩ ∧ v.cancelled = false := by
  have hrem := h.remembered
  unfold Remembered at hrem
  rw [hd] at hrem
  exact hrem req hreq

lemma remembered_looping (h : Valid thaw v) {rest : List ResultStruct} {newReq : Bool}
    (hd : v.dispatch = .looping rest newReq) {req : BrowseReq} (hreq : v.req = some req) :
    req = ⟨newReq, false⟩ ∧ v.cancelled = false := by
  have hrem := h.remembered
  unfold Remembered at hrem
  rw [hd] at hrem
  cases newReq with
  | false => exact hrem req hreq
  | true =>
    obtain ⟨heq, hc⟩ := hrem
    rw [hreq] at heq
    cases heq
    exact ⟨rfl, hc⟩

lemma remembered_inCallback (h : Valid thaw v) {c : Int32} {rest : List ResultStruct}
    (hd : v.dispatch = .inCallback c rest) {req : BrowseReq} (hreq : v.req = some req) :
    req = ⟨true, v.cancelled⟩ ∧ (c = 0 → Ended v.delivered) := by
  have hrem := h.remembered
  unfold Remembered at hrem
  rw [hd, hreq] at hrem
  exact hrem.imp_left fun heq => Option.some.inj heq

lemma emit (h : Valid thaw v) (hmeta : ∀ m, thaw (freeze m) = m) {r : BrowseResult μ}
    {queue pending : List ResultStruct} (hst : v.started = true) (hmore : ∀ x ∈ v.emitted, x.remainingCount ≠ 0)
    (hq : queue ++ pending = v.queue ++ v.pending ++ [appendResult freeze r])
    (hlast : r.remainingCount = 0 → pending = []) :
    Valid thaw { v with emitted := v.emitted ++ [r], queue := queue, pending := pending } := by
  refine ⟨fun hf => ?_, h.opening, h.known, h.remembered, fun hc => ?_, ?_, fun x hx => ?_, ?_⟩
  · rw [hst] at hf
    cases hf
  · have hcons := h.conserved hc
    simp only [underway] at hcons ⊢
    have hnew : (v.emitted ++ [r]).map BrowseResult.normal = v.emitted.map BrowseResult.normal ++ [r.normal] := by
      rw [List.map_append, List.map_singleton]
    rw [hnew, ← hcons, List.append_assoc, hq]
    simp only [List.map_append, List.map_singleton, List.append_assoc, parseResult_appendResult hmeta]
  · rw [List.map_append]
    exact h.isPrefix.trans (List.prefix_append _ _)
  · rw [List.dropLast_concat] at hx
    exact hmore x hx
  · rintro ⟨x, hx, hzero⟩
    rcases List.mem_append.mp hx with hx | hx
    · exact absurd hzero (hmore x hx)
    · cases List.mem_singleton.mp hx
      exact hlast hzero

lemma cancel (h : Valid thaw v) {req : BrowseReq} (hreq : v.req = some req)
    (hd : ∀ rest b, v.dispatch ≠ .looping rest b) :
    Valid thaw { v with
      req := if req.emitting then some { req with stopEmitting := true } else none
      cancelled := true } := by
  refine ⟨fun hf => ?_, fun hop => ?_, fun _ hc => ?_, ?_, fun hc => ?_, h.isPrefix, h.last, h.flushed⟩
  · have hv := h.untouched hf
    rw [hv] at hreq
    cases hreq
  · have hnone := (h.opening hop).2.1
    rw [hnone] at hreq
    cases hreq
  · cases hc
  · unfold Remembered
    cases hdis : v.dispatch with
    | off =>
      obtain ⟨rfl, -⟩ := h.remembered_off hdis hreq
      intro req' hreq'
      cases hreq'
    | looping rest b => exact absurd hdis (hd rest b)
    | inCallback c rest =>
      obtain ⟨rfl, hend⟩ := h.remembered_inCallback hdis hreq
      exact ⟨rfl, hend⟩
  · cases hc

lemma finish (h : Valid thaw v) {newReq : Bool} (hd : v.dispatch = .looping [] newReq) :
    Valid thaw { v with
      dispatch := .off
      req := if newReq then v.req.map fun req => { req with emitting := false } else v.req } := by
  have hbusy := h.busy_looping hd
  refine .mk_busy hbusy (fun hc => ?_) (fun req hreq => ?_) (fun hc => ?_) h.isPrefix h.last h.flushed
  · refine (h.known_busy hbusy hc).imp_left fun hreq => ?_
    cases newReq with
    | false => exact hreq
    | true => simpa using hreq
  · cases newReq with
    | false => exact h.remembered_looping hd hreq
    | true =>
      obtain ⟨req', hreq', rfl⟩ := Option.map_eq_some_iff.mp hreq
      obtain ⟨rfl, hc⟩ := h.remembered_looping hd hreq'
      exact ⟨rfl, hc⟩
  · have hcons := h.conserved hc
    simp only [underway, hd] at hcons ⊢
    exact hcons

/-- A result that the proxy does not pass on belongs to a cancelled session. -/
lemma ignored (h : Valid thaw v) {m : ResultStruct} {rest : List ResultStruct} {newReq : Bool}
    (hd : v.dispatch = .looping (m :: rest) newReq) (hreq : v.req = none) : v.cancelled = true := by
  by_contra hc
  have hc' : v.cancelled = false := by simpa using hc
  rcases h.known_busy (h.busy_looping hd) hc' with hsome | hend
  · exact hsome hreq
  · have hnil := h.drained hc' hend
    simp only [underway, hd, SessionDispatch.rest] at hnil
    cases hnil

lemma deliver (h : Valid thaw v) {m : ResultStruct} {rest : List ResultStruct} {newReq : Bool} {req : BrowseReq}
    (hd : v.dispatch = .looping (m :: rest) newReq) (hreq : v.req = some req) :
    Valid thaw { v with
      dispatch := .inCallback m.remainingCount rest
      req := some { req with emitting := true }
      delivered := v.delivered ++ [parseResult thaw m] } := by
  obtain ⟨rfl, hc⟩ := h.remembered_looping hd hreq
  have hcons : v.delivered ++ [parseResult thaw m] ++ (rest ++ v.queue ++ v.pending).map (parseResult thaw) =
      v.emitted.map BrowseResult.normal := by
    rw [← h.conserved hc]
    simp only [underway, hd, SessionDispatch.rest, List.map_append, List.map_cons, List.append_assoc,
      List.cons_append, List.nil_append]
  refine .mk_busy (h.busy_looping hd) (fun _ => Or.inl (Option.some_ne_none _)) ⟨?_, fun hzero => ?_⟩
    (fun _ => hcons) ?_ h.last h.flushed
  · rw [hc]
  · exact ⟨parseResult thaw m, List.mem_append_right _ (List.mem_singleton_self _), hzero⟩
  · rw [← hcons]
    exact List.prefix_append _ _

lemma stop (h : Valid thaw v) {c : Int32} {rest : List ResultStruct} {req : BrowseReq}
    (hd : v.dispatch = .inCallback c rest) (hreq : v.req = some req) (hstop : c = 0 ∨ req.stopEmitting) :
    Valid thaw { v with dispatch := .off, req := none } := by
  obtain ⟨rfl, hend⟩ := h.remembered_inCallback hd hreq
  have hended : v.cancelled = false → Ended v.delivered := by
    intro hc
    refine hend (hstop.resolve_right ?_)
    simp [hc]
  refine .mk_busy (h.busy_inCallback hd) (fun hc => Or.inr (hended hc)) ?_ (fun hc => ?_) h.isPrefix h.last h.flushed
  · intro req' hreq'
    cases hreq'
  · have hnil := h.drained hc (hended hc)
    have hcons := h.conserved hc
    rw [hnil] at hcons
    simp only [underway, hd, SessionDispatch.rest, List.append_eq_nil_iff] at hnil ⊢
    simpa [SessionDispatch.rest, hnil.1.2, hnil.2] using hcons

lemma goOn (h : Valid thaw v) {c : Int32} {rest : List ResultStruct} {req : BrowseReq}
    (hd : v.dispatch = .inCallback c rest) (hreq : v.req = some req) (hgo : ¬ (c = 0 ∨ req.stopEmitting)) :
    Valid thaw { v with dispatch := .looping rest true } := by
  obtain ⟨rfl, -⟩ := h.remembered_inCallback hd hreq
  have hbusy := h.busy_inCallback hd
  have hc : v.cancelled = false := by
    by_contra hc
    exact hgo (Or.inr (by simpa using hc))
  refine .mk_busy hbusy (h.known_busy hbusy) ⟨?_, hc⟩ (fun _ => ?_) h.isPrefix h.last h.flushed
  · rw [hreq, hc]
  · have hcons := h.conserved hc
    simp only [underway, hd] at hcons ⊢
    exact hcons

end Valid

/-- Every step keeps a session valid. -/
theorem Step.valid {v v' : Session μ} (hs : Step freeze thaw v v') (hmeta : ∀ m, thaw (freeze m) = m)
    (h : Valid thaw v) : Valid thaw v' := by
  cases hs with
  | same => exact h
  | start hnot =>
    rw [h.untouched hnot]
    refine ⟨fun hf => ?_, fun _ => ⟨rfl, rfl, rfl, rfl⟩, fun _ _ => Or.inl rfl, ?_, fun _ => rfl,
      List.nil_prefix, ?_, fun _ => rfl⟩
    · cases hf
    · intro req hreq
      cases hreq
    · intro r hr
      cases hr
  | emit hst hmore hq hlast => exact h.emit hmeta hst hmore hq hlast
  | flush hq =>
    refine ⟨fun hf => ?_, h.opening, h.known, h.remembered, fun hc => ?_, h.isPrefix, h.last, fun _ => rfl⟩
    · have hv := h.untouched hf
      rw [hq, hv]
      rfl
    · rw [← h.conserved hc]
      simp only [underway, hq, List.append_assoc, List.append_nil]
  | discard hcan =>
    refine ⟨fun hf => ?_, h.opening, h.known, h.remembered, fun hc => ?_, h.isPrefix, h.last, fun _ => rfl⟩
    · have hv := h.untouched hf
      rw [hv] at hcan
      cases hcan
    · rw [hcan] at hc
      cases hc
  | register hop =>
    obtain ⟨hdel, hreq, hc, hd⟩ := h.opening hop
    refine ⟨fun hf => ?_, fun hf => ?_, fun _ _ => Or.inr (Or.inl (Option.some_ne_none _)), ?_,
      h.conserved, h.isPrefix, h.last, h.flushed⟩
    · have hv := h.untouched hf
      rw [hv] at hop
      cases hop
    · cases hf
    · unfold Remembered
      dsimp only
      rw [hd]
      intro req hreq'
      cases hreq'
      exact ⟨rfl, hc⟩
  | cancel hreq hd => exact h.cancel hreq hd
  | dispatch hst hoff hop hq =>
    refine .mk_busy ⟨hst, hop⟩ (h.known_busy ⟨hst, hop⟩) (fun req hreq => h.remembered_off hoff hreq) (fun hc => ?_)
      h.isPrefix h.last h.flushed
    rw [← h.conserved hc]
    simp only [underway, hoff, hq, SessionDispatch.rest, List.nil_append]
  | finish hd => exact h.finish hd
  | ignore hd _ hreq =>
    have hcan := h.ignored hd hreq
    have hbusy := h.busy_looping hd
    refine .mk_busy hbusy (h.known_busy hbusy) (fun req hreq' => ?_) (fun hc => ?_) h.isPrefix h.last h.flushed
    · rw [hreq] at hreq'
      cases hreq'
    · rw [hcan] at hc
      cases hc
  | deliver hd hreq => exact h.deliver hd hreq
  | stop hd hreq hstop => exact h.stop hd hreq hstop
  | goOn hd hreq hgo => exact h.goOn hd hreq hgo

/-- A cancelled session stays cancelled, and its callback is not called again. -/
theorem Step.frozen {v v' : Session μ} (hs : Step freeze thaw v v') (h : Valid thaw v) (hc : v.cancelled = true) :
    v'.cancelled = true ∧ v'.delivered = v.delivered := by
  cases hs with
  | same | start | emit | flush | discard | register | dispatch | finish | ignore | stop | goOn => exact ⟨hc, rfl⟩
  | cancel => exact ⟨rfl, rfl⟩
  | deliver hd hreq =>
    rw [(h.remembered_looping hd hreq).2] at hc
    cases hc

end Session

end MafwShared
