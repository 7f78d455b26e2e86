import MafwShared.Lib.Runs
import MafwShared.Proofs.BrowseBatches
import MafwShared.Proofs.BrowseSession

/-!
# Browse results are delivered

Every step of the wrapper, the proxy and the client is a step of each session, so that
what holds of a session holds of all sessions that share the wrapper, the queue of
messages and the dispatch loop.
-/

namespace MafwShared
open CLib

variable {μ : Type*} {freeze : μ → Bytes} {thaw : Bytes → μ}

/-! ### The sessions of a state -/

/-- The results of a session in the queue of messages. -/
def queued (inbox : List ResultMessage) (browseId : Nat) : List ResultStruct :=
  (inbox.filter fun m => m.browseId = browseId).flatMap ResultMessage.results

lemma queued_append (l l' : List ResultMessage) (i : Nat) : queued (l ++ l') i = queued l i ++ queued l' i := by
  rw [queued, List.filter_append, List.flatMap_append]
  rfl

lemma queued_self {l : List ResultMessage} {i : Nat} (h : ∀ m ∈ l, m.browseId = i) :
    queued l i = l.flatMap ResultMessage.results := by
  rw [queued, List.filter_eq_self.mpr]
  simpa using h

lemma queued_other {l : List ResultMessage} {i j : Nat} (h : ∀ m ∈ l, m.browseId = i) (hij : j ≠ i) :
    queued l j = [] := by
  rw [queued, List.filter_eq_nil_iff.mpr, List.flatMap_nil]
  intro m hm
  rw [h m hm]
  simpa using hij.symm

def Dispatch.session (d : Dispatch) (browseId : Nat) : SessionDispatch :=
  match d with
  | .mainLoop => .off
  | .looping i rest newReq => if i = browseId then .looping rest newReq else .off
  | .inCallback i c rest => if i = browseId then .inCallback c rest else .off

lemma Dispatch.session_looping (i : Nat) (rest : List ResultStruct) (newReq : Bool) :
    (Dispatch.looping i rest newReq).session i = .looping rest newReq := if_pos rfl

lemma Dispatch.session_inCallback (i : Nat) (c : Int32) (rest : List ResultStruct) :
    (Dispatch.inCallback i c rest).session i = .inCallback c rest := if_pos rfl

/-- A call that no session depends on. -/
def ProxyCall.Plain : ProxyCall → Prop
  | browseReply _ | cancel _ => False
  | _ => True

namespace Browsing
variable {s t : Browsing μ}

/-- The call of `browse` that starts the session has not returned to the client. -/
def opening (s : Browsing μ) (browseId : Nat) : Bool :=
  s.wrapper.browsing.map Prod.fst == some browseId || s.proxy.call == .browseReply browseId

def session (s : Browsing μ) (browseId : Nat) : Session μ :=
  { started := s.history.started browseId
    opening := s.opening browseId
    pending := s.wrapper.pending browseId
    queue := queued s.inbox browseId
    dispatch := s.proxy.dispatch.session browseId
    req := s.proxy.browseRequests browseId
    emitted := s.history.emitted browseId
    delivered := s.history.delivered browseId
    cancelled := s.history.cancelled browseId }

lemma session_looping {i : Nat} {rest : List ResultStruct} {newReq : Bool}
    (hd : s.proxy.dispatch = .looping i rest newReq) : (s.session i).dispatch = .looping rest newReq := by
  rw [session, hd, Dispatch.session_looping]

/-- What ties the sessions together: who waits for whom, and what the shared tables hold. -/
structure Wired (s : Browsing μ) : Prop where
  loop : s.proxy.dispatch.inLoop = true → s.proxy.call = .none
  browsing : s.wrapper.browsing ≠ none → s.proxy.call = .browse
  cancel : ∀ i, s.proxy.call = .cancel i → s.history.cancelled i = true
  data : ∀ i b, s.wrapper.userData i = some b → b.Ok i ∧ s.history.started i = true
  inbox : ∀ m ∈ s.inbox, s.history.started m.browseId = true
  idle : ∀ i ∈ s.wrapper.idle, Session.Ended (s.history.emitted i)
  sent : ∀ e ∈ s.history.sent, 0 < e.1.results.length ∧ e.1.results.length ≤ e.2 ∧ e.2 ≤ maxBrowseResult

namespace Wired

lemma browsing_none (h : Wired s) (hcall : s.proxy.call ≠ .browse) : s.wrapper.browsing = none := by
  by_contra hne
  exact hcall (h.browsing hne)

lemma closed (h : Wired s) (hcall : s.proxy.call = .none) (i : Nat) : s.opening i = false := by
  have hnone := h.browsing_none (by rw [hcall]; exact ProxyCall.noConfusion)
  rw [opening, hnone, hcall]
  rfl

end Wired

/-- A step that keeps the wires and is one of each session. -/
def Simulated (freeze : μ → Bytes) (thaw : Bytes → μ) (s t : Browsing μ) : Prop :=
  Wired t ∧ ∀ i, Session.Step freeze thaw (s.session i) (t.session i)

lemma step_same {i : Nat} (h : t.session i = s.session i) :
    Session.Step freeze thaw (s.session i) (t.session i) := by
  rw [h]
  exact .same

lemma simulated_own {i : Nat} {v : Session μ} (hwired : Wired t) (hown : t.session i = v)
    (hstep : Session.Step freeze thaw (s.session i) v) (hother : ∀ j, j ≠ i → t.session j = s.session j) :
    Simulated freeze thaw s t := by
  refine ⟨hwired, fun j => ?_⟩
  by_cases hj : j = i
  · rw [hj, hown]
    exact hstep
  · exact step_same (hother j hj)

/-! ### Sending -/

lemma write_browsing (w : SourceWrapper) (i : Nat) (b : BrowseData) :
    (w.write i b).browsing.map Prod.fst = w.browsing.map Prod.fst := by
  unfold SourceWrapper.write
  cases hb : w.browsing with
  | none => simp
  | some e => by_cases he : e.1 = i <;> simp [he]

lemma write_idle (w : SourceWrapper) (i : Nat) (b : BrowseData) : (w.write i b).idle = w.idle := by
  unfold SourceWrapper.write
  split
  · rfl
  · split <;> rfl

lemma session_send {i max : Nat} {b : BrowseData} {new : List ResultStruct} {out : BrowseData × List ResultMessage}
    (hout : b.Batched i new out) (j : Nat) :
    (s.send i max out).session j = { s.session j with
      queue := (s.session j).queue ++ if j = i then out.2.flatMap ResultMessage.results else []
      pending := if j = i then out.1.pending else (s.session j).pending } := by
  have hpending : (s.wrapper.write i out.1).pending j =
      if j = i then out.1.pending else s.wrapper.pending j := by
    rw [SourceWrapper.pending, SourceWrapper.userData_write]
    by_cases hj : j = i
    · simp [hj]
    · simp [hj, SourceWrapper.pending]
  have hqueue : queued (s.inbox ++ out.2) j =
      queued s.inbox j ++ if j = i then out.2.flatMap ResultMessage.results else [] := by
    rw [queued_append]
    by_cases hj : j = i
    · rw [if_pos hj, hj, queued_self fun m hm => (hout.fits m hm).1]
    · rw [if_neg hj, queued_other (fun m hm => (hout.fits m hm).1) hj]
  have hopening : (s.send i max out).opening j = s.opening j := by
    simp only [opening, send, write_browsing]
  simp only [session, hopening]
  simp only [send, hpending, hqueue]

lemma wired_send (h : Wired s) {i : Nat} {b : BrowseData} {new : List ResultStruct}
    {out : BrowseData × List ResultMessage} (hb : s.wrapper.userData i = some b) (hout : b.Batched i new out) :
    Wired (s.send i b.maxresults out) := by
  obtain ⟨hok, hst⟩ := h.data i b hb
  refine ⟨h.loop, fun hne => h.browsing fun hnone => hne ?_, h.cancel, fun j b' hb' => ?_, fun m hm => ?_, ?_,
    fun e he => ?_⟩
  · have hmap := write_browsing s.wrapper i out.1
    rw [hnone, Option.map_none] at hmap
    exact Option.map_eq_none_iff.mp hmap
  · simp only [send, SourceWrapper.userData_write] at hb'
    by_cases hj : j = i
    · rw [if_pos hj] at hb'
      cases hb'
      rw [hj]
      exact ⟨hout.ok, hst⟩
    · rw [if_neg hj] at hb'
      exact h.data j b' hb'
  · rcases List.mem_append.mp hm with hm | hm
    · exact h.inbox m hm
    · rw [(hout.fits m hm).1]
      exact hst
  · simp only [send, write_idle]
    exact h.idle
  · rcases List.mem_append.mp he with he | he
    · exact h.sent e he
    · obtain ⟨m, hm, rfl⟩ := List.mem_map.mp he
      obtain ⟨-, hpos, hle⟩ := hout.fits m hm
      exact ⟨hpos, hle, hok.maxresults_le⟩

lemma timeout_simulated (h : Wired s) {i : Nat} {b : BrowseData} (hb : s.wrapper.userData i = some b) :
    Simulated freeze thaw s (s.send i b.maxresults (sendBrowseRes b)) := by
  have hout := BrowseData.sendBrowseRes_batched (h.data i b hb).1
  refine simulated_own (wired_send h hb hout) (session_send hout i) ?_ fun j hj => ?_
  · rw [if_pos rfl, if_pos rfl, BrowseData.sendBrowseRes_pending]
    refine .flush ?_
    have hcons := hout.conserved
    rw [BrowseData.sendBrowseRes_pending, List.append_nil, List.append_nil] at hcons
    rw [hcons]
    simp [session, SourceWrapper.pending, hb]
  · rw [session_send hout, if_neg hj, if_neg hj, List.append_nil]

lemma session_emitted (i j : Nat) (r : BrowseResult μ) : (s.emitted i r).session j =
    { s.session j with emitted := if j = i then (s.session j).emitted ++ [r] else (s.session j).emitted } := by
  by_cases hj : j = i
  · subst hj
    simp [session, emitted, opening]
  · simp [session, emitted, opening, hj]

lemma wired_emitted (h : Wired s) (i : Nat) (r : BrowseResult μ) : Wired (s.emitted i r) := by
  refine ⟨h.loop, h.browsing, h.cancel, h.data, h.inbox, fun j hj => ?_, h.sent⟩
  obtain ⟨x, hx, hzero⟩ := h.idle j hj
  refine ⟨x, ?_, hzero⟩
  by_cases hji : j = i
  · subst hji
    simp only [emitted, Function.update_self]
    exact List.mem_append_left _ hx
  · simp only [emitted, Function.update_of_ne hji]
    exact hx

lemma append_simulated (h : Wired s) {i : Nat} {b : BrowseData} (hb : s.wrapper.userData i = some b)
    (r : BrowseResult μ) (hmore : ∀ x ∈ s.history.emitted i, x.remainingCount ≠ 0) :
    Simulated freeze thaw s ((s.emitted i r).send i b.maxresults (emitBrowseResult freeze b i r)) := by
  obtain ⟨hok, hst⟩ := h.data i b hb
  have hout := BrowseData.emitBrowseResult_batched freeze hok r
  have hb' : (s.emitted i r).wrapper.userData i = some b := hb
  refine simulated_own (wired_send (wired_emitted h i r) hb' hout) (session_send hout i) ?_ fun j hj => ?_
  · rw [session_emitted, if_pos rfl, if_pos rfl, if_pos rfl]
    refine .emit hst hmore ?_ fun hzero => ?_
    · rw [List.append_assoc, hout.conserved]
      simp [session, SourceWrapper.pending, hb]
    · exact BrowseData.emitBrowseResult_last freeze b i (Or.inl hzero)
  · rw [session_send hout, session_emitted, if_neg hj, if_neg hj, if_neg hj, List.append_nil]

lemma emit_simulated (h : Wired s) {i : Nat} {b : BrowseData} (hb : s.wrapper.userData i = some b)
    {r : BrowseResult μ} (hmore : ∀ x ∈ s.history.emitted i, x.remainingCount ≠ 0)
    (herr : r.error.isSome → r.remainingCount = 0) :
    Simulated freeze thaw s
      (let u := (s.emitted i r).send i b.maxresults (emitBrowseResult freeze b i r)
      if r.remainingCount = 0 ∨ r.error.isSome then
        { u with wrapper := { u.wrapper with idle := u.wrapper.idle ++ [i] } }
      else u) := by
  have happend : Simulated freeze thaw s _ := append_simulated h hb r hmore
  obtain ⟨hwired, hsession⟩ := happend
  dsimp only
  by_cases hlast : r.remainingCount = 0 ∨ r.error.isSome
  · rw [if_pos hlast]
    refine ⟨⟨hwired.loop, hwired.browsing, hwired.cancel, hwired.data, hwired.inbox, fun j hj => ?_, hwired.sent⟩,
      hsession⟩
    rcases List.mem_append.mp hj with hj | hj
    · exact hwired.idle j hj
    · cases List.mem_singleton.mp hj
      refine ⟨r, ?_, hlast.elim id herr⟩
      simp [send, emitted]
  · rw [if_neg hlast]
    exact ⟨hwired, hsession⟩

/-! ### Calls -/

lemma setCall_simulated (h : Wired s) {call : ProxyCall} (hbrowsing : s.wrapper.browsing = none)
    (hbefore : s.proxy.call.Plain) (hafter : call.Plain) (hloop : s.proxy.dispatch.inLoop = true → call = .none) :
    Simulated freeze thaw s (s.setCall call) := by
  have hreply : ∀ {c : ProxyCall}, c.Plain → ∀ i, c ≠ .browseReply i := by
    rintro c hc i rfl
    exact hc
  refine ⟨⟨hloop, fun hne => absurd hbrowsing hne, fun i hi => ?_, h.data, h.inbox, h.idle, h.sent⟩,
    fun i => step_same ?_⟩
  · have hcancel : call = .cancel i := hi
    rw [hcancel] at hafter
    cases hafter
  · simp [session, setCall, opening, hbrowsing, hreply hbefore i, hreply hafter i]

lemma userData_opened {w : SourceWrapper} (hnone : w.browsing = none) (i j : Nat) :
    ({ w with browsing := some (i, BrowseData.init) } : SourceWrapper).userData j =
      if j = i then some BrowseData.init else w.userData j := by
  unfold SourceWrapper.userData
  rw [hnone]
  by_cases hji : j = i
  · simp [hji]
  · have hij : ¬i = j := fun hij => hji hij.symm
    simp [hji, hij]

lemma start_simulated (h : Wired s) (hv : ∀ i, Session.Valid thaw (s.session i)) {i : Nat}
    (hcall : s.proxy.call = .browse) (hnone : s.wrapper.browsing = none) (hnew : s.history.started i = false) :
    Simulated freeze thaw s { s with
      wrapper := { s.wrapper with browsing := some (i, BrowseData.init) }
      history := { s.history with started := Function.update s.history.started i true } } := by
  have hstill : ∀ j, s.history.started j = true → Function.update s.history.started i true j = true := by
    intro j hj
    by_cases hji : j = i
    · rw [hji, Function.update_self]
    · rwa [Function.update_of_ne hji]
  have hdata := userData_opened hnone i
  have hown : ({ s with
      wrapper := { s.wrapper with browsing := some (i, BrowseData.init) }
      history := { s.history with started := Function.update s.history.started i true } } : Browsing μ).session i =
      { s.session i with started := true, opening := true } := by
    have hpend : s.wrapper.pending i = [] := congrArg Session.pending ((hv i).untouched hnew)
    simp [session, opening, SourceWrapper.pending, hdata] at hpend ⊢
    exact hpend.symm
  refine simulated_own ⟨h.loop, fun _ => hcall, h.cancel, fun j b hb => ?_, fun m hm => hstill _ (h.inbox m hm),
    h.idle, h.sent⟩ hown (.start hnew) fun j hj => ?_
  · rw [hdata] at hb
    by_cases hji : j = i
    · rw [if_pos hji] at hb
      cases hb
      refine ⟨BrowseData.init_ok j, ?_⟩
      simp [hji]
    · rw [if_neg hji] at hb
      obtain ⟨hok, hst⟩ := h.data j b hb
      exact ⟨hok, hstill j hst⟩
  · simp [session, opening, SourceWrapper.pending, hdata, hj, hj.symm, hnone]

lemma browseReturn_simulated (h : Wired s) {i : Nat} {b : BrowseData} (hb : s.wrapper.browsing = some (i, b)) :
    Simulated freeze thaw s { s with
      wrapper := { s.wrapper with
        browsing := none
        browseRequests := Function.update s.wrapper.browseRequests i (some b) }
      proxy := { s.proxy with call := .browseReply i } } := by
  have hcall : s.proxy.call = .browse := h.browsing (by rw [hb]; exact Option.some_ne_none _)
  have hdata : ∀ j, ({ s.wrapper with
      browsing := none
      browseRequests := Function.update s.wrapper.browseRequests i (some b) } : SourceWrapper).userData j =
      s.wrapper.userData j := by
    intro j
    unfold SourceWrapper.userData
    rw [hb]
    by_cases hji : j = i
    · simp [hji]
    · have hij : ¬ i = j := fun hij => hji hij.symm
      simp [hij, Function.update_of_ne hji]
  refine ⟨⟨fun hl => ?_, fun hne => absurd rfl hne, fun j hj => (by cases hj), fun j b' hb' => ?_, h.inbox, h.idle,
    h.sent⟩, fun j => step_same ?_⟩
  · have hnone := h.loop hl
    rw [hcall] at hnone
    cases hnone
  · rw [hdata] at hb'
    exact h.data j b' hb'
  · have hopening : (ProxyCall.browseReply i == .browseReply j) =
        (some i == some j || ProxyCall.browse == .browseReply j) := by
      rw [Bool.eq_iff_iff]
      simp
    simp only [session, opening, SourceWrapper.pending, hdata, hb, hcall, Option.map_some, Option.map_none, hopening]
    rfl

lemma register_simulated (h : Wired s) {i : Nat} (hcall : s.proxy.call = .browseReply i) :
    Simulated freeze thaw s
      { s with proxy := { s.proxy.setReq i (some ⟨false, false⟩) with call := .none } } := by
  have hnone := h.browsing_none (by rw [hcall]; exact ProxyCall.noConfusion)
  have hown : ({ s with proxy := { s.proxy.setReq i (some ⟨false, false⟩) with call := .none } } :
      Browsing μ).session i = { s.session i with opening := false, req := some ⟨false, false⟩ } := by
    simp [session, opening, ProxySource.setReq, hnone]
  refine simulated_own ⟨fun _ => rfl, fun hne => absurd hnone hne, fun j hj => (by cases hj), h.data, h.inbox, h.idle,
    h.sent⟩ hown (.register ?_) fun j hj => ?_
  · simp [session, opening, hcall]
  · simp [session, opening, ProxySource.setReq, hnone, hcall, hj.symm, Function.update_of_ne hj]

lemma dispatch_session_ne_looping {d : Dispatch} (h : d.inLoop = false) (i : Nat) (rest : List ResultStruct)
    (b : Bool) : d.session i ≠ .looping rest b := by
  intro hd
  cases d with
  | mainLoop => cases hd
  | looping => cases h
  | inCallback j c rest' =>
    simp only [Dispatch.session] at hd
    split at hd <;> cases hd

lemma cancelBrowse_simulated (h : Wired s) (hfree : s.proxy.Free) (i : Nat) :
    Simulated freeze thaw s (s.cancelBrowse i) := by
  obtain ⟨hcall, hloop⟩ := hfree
  have hnone := h.browsing_none (by rw [hcall]; exact ProxyCall.noConfusion)
  cases hreq : s.proxy.browseRequests i with
  | none =>
    have hsame : s.cancelBrowse i = s := by simp [cancelBrowse, hreq]
    rw [hsame]
    exact ⟨h, fun j => .same⟩
  | some req =>
    have hcancelled : s.cancelBrowse i = { s with
        proxy := { s.proxy.setReq i (if req.emitting then some { req with stopEmitting := true } else none) with
          call := .cancel i }
        history := { s.history with cancelled := Function.update s.history.cancelled i true } } := by
      simp [cancelBrowse, hreq]
    have hown : (s.cancelBrowse i).session i = { s.session i with
        req := if req.emitting then some { req with stopEmitting := true } else none
        cancelled := true } := by
      rw [hcancelled]
      simp [session, opening, ProxySource.setReq, hnone, hcall]
    refine simulated_own ?_ hown (.cancel hreq fun rest b => dispatch_session_ne_looping hloop i rest b) fun j hj => ?_
    · rw [hcancelled]
      refine ⟨fun hl => ?_, fun hne => absurd hnone hne, fun j hj => ?_, h.data, h.inbox, h.idle, h.sent⟩
      · simp only [ProxySource.setReq, hloop] at hl
        cases hl
      · cases hj
        simp
    · rw [hcancelled]
      simp [session, opening, ProxySource.setReq, hnone, hcall, Function.update_of_ne hj]

lemma session_remove (i j : Nat) : ({ s with wrapper := s.wrapper.remove i } : Browsing μ).session j = s.session j ∨
    j = i ∧ ({ s with wrapper := s.wrapper.remove i } : Browsing μ).session j = { s.session j with pending := [] } := by
  rcases s.wrapper.userData_remove i j with hsame | ⟨hj, hgone⟩
  · left
    simp only [session, opening, SourceWrapper.pending, hsame]
    rfl
  · right
    refine ⟨hj, ?_⟩
    simp only [session, opening, SourceWrapper.pending, hgone]
    rfl

lemma Wired.remove_data (h : Wired s) (i j : Nat) (b : BrowseData) (hb : (s.wrapper.remove i).userData j = some b) :
    b.Ok j ∧ s.history.started j = true := by
  rcases s.wrapper.userData_remove i j with hsame | ⟨-, hgone⟩
  · rw [hsame] at hb
    exact h.data j b hb
  · rw [hgone] at hb
    cases hb

lemma cancel_simulated (h : Wired s) {i : Nat} (hcall : s.proxy.call = .cancel i) :
    Simulated freeze thaw s { (s.setCall .cancelReply) with wrapper := s.wrapper.remove i } := by
  have hnone := h.browsing_none (by rw [hcall]; exact ProxyCall.noConfusion)
  have hsession : ∀ j, ({ (s.setCall .cancelReply) with wrapper := s.wrapper.remove i } : Browsing μ).session j =
      ({ s with wrapper := s.wrapper.remove i } : Browsing μ).session j := by
    intro j
    simp [session, opening, setCall, SourceWrapper.remove, hnone, hcall]
  refine ⟨⟨fun hl => ?_, fun hne => absurd hnone hne, fun j hj => (by cases hj), h.remove_data i, h.inbox, h.idle,
    h.sent⟩, fun j => ?_⟩
  · have hloop := h.loop hl
    rw [hcall] at hloop
    cases hloop
  · rw [hsession]
    rcases s.session_remove i j with hsame | ⟨hj, hgone⟩
    · exact step_same hsame
    · rw [hgone]
      refine .discard ?_
      rw [hj]
      exact h.cancel i hcall

lemma removeFromHash_simulated (h : Wired s) (hv : ∀ i, Session.Valid thaw (s.session i)) {i : Nat}
    {idle : List Nat} (hidle : s.wrapper.idle = i :: idle) :
    Simulated freeze thaw s { s with wrapper := { s.wrapper.remove i with idle := idle } } := by
  have hsession : ∀ j, ({ s with wrapper := { s.wrapper.remove i with idle := idle } } : Browsing μ).session j =
      ({ s with wrapper := s.wrapper.remove i } : Browsing μ).session j := fun _ => rfl
  refine ⟨⟨h.loop, h.browsing, h.cancel, h.remove_data i, h.inbox, fun j hj => ?_, h.sent⟩, fun j => step_same ?_⟩
  · exact h.idle j (by rw [hidle]; exact List.mem_cons_of_mem _ hj)
  · rw [hsession]
    rcases s.session_remove i j with hsame | ⟨rfl, hgone⟩
    · exact hsame
    · have hended : Session.Ended (s.session j).emitted := h.idle j (by rw [hidle]; exact List.mem_cons_self)
      have hflushed := (hv j).flushed hended
      rw [hgone, ← hflushed]

/-! ### The dispatch loop -/

lemma dispatch_simulated (h : Wired s) {m : ResultMessage} {inbox : List ResultMessage}
    (hmain : s.proxy.dispatch = .mainLoop) (hcall : s.proxy.call = .none) (hin : s.inbox = m :: inbox) :
    Simulated freeze thaw s
      { (s.setDispatch (.looping m.browseId m.results false)) with inbox := inbox } := by
  have hst := h.inbox m (by rw [hin]; exact List.mem_cons_self)
  have hown : ({ (s.setDispatch (.looping m.browseId m.results false)) with inbox := inbox } :
      Browsing μ).session m.browseId = { s.session m.browseId with
        dispatch := .looping m.results false
        queue := queued inbox m.browseId } := by
    simp [session, opening, setDispatch, Dispatch.session]
  refine simulated_own ⟨fun _ => hcall, h.browsing, h.cancel, h.data, fun m' hm' => ?_, h.idle, h.sent⟩ hown
    (.dispatch hst ?_ (h.closed hcall _) ?_) fun j hj => ?_
  · exact h.inbox m' (by rw [hin]; exact List.mem_cons_of_mem _ hm')
  · simp [session, hmain, Dispatch.session]
  · simp [session, hin, queued]
  · simp [session, opening, setDispatch, Dispatch.session, hmain, hin, queued, hj.symm]

section
variable {i : Nat} {rest : List ResultStruct} {newReq : Bool}

lemma deliver_simulated (h : Wired s) {m : ResultStruct} {req : BrowseReq}
    (hd : s.proxy.dispatch = .looping i (m :: rest) newReq) (hreq : s.proxy.browseRequests i = some req) :
    Simulated freeze thaw s
      (({ s with proxy := s.proxy.setReq i (some { req with emitting := true }) }.delivered i
        (parseResult thaw m)).setDispatch (.inCallback i m.remainingCount rest)) := by
  have hown : (({ s with proxy := s.proxy.setReq i (some { req with emitting := true }) }.delivered i
      (parseResult thaw m)).setDispatch (.inCallback i m.remainingCount rest)).session i = { s.session i with
        dispatch := .inCallback m.remainingCount rest
        req := some { req with emitting := true }
        delivered := (s.session i).delivered ++ [parseResult thaw m] } := by
    simp [session, opening, delivered, setDispatch, ProxySource.setReq, Dispatch.session]
  refine simulated_own ⟨fun hl => (by cases hl), h.browsing, h.cancel, h.data, h.inbox, h.idle, h.sent⟩ hown
    (.deliver (session_looping hd) hreq) fun j hj => ?_
  simp [session, opening, delivered, setDispatch, ProxySource.setReq, Dispatch.session, hd, hj.symm,
    Function.update_of_ne hj]

lemma finish_simulated (h : Wired s) (hd : s.proxy.dispatch = .looping i [] newReq) :
    Simulated freeze thaw s (s.iterate thaw i newReq []) := by
  have hcall : s.proxy.call = .none := h.loop (by rw [hd]; rfl)
  have hown : (s.iterate thaw i newReq []).session i = { s.session i with
      dispatch := .off
      req := if newReq then (s.session i).req.map fun req => { req with emitting := false }
        else (s.session i).req } := by
    cases newReq <;> simp [session, opening, iterate, Dispatch.session]
  refine simulated_own ?_ hown (.finish (session_looping hd)) fun j hj => ?_
  · cases newReq <;> exact ⟨fun _ => hcall, h.browsing, h.cancel, h.data, h.inbox, h.idle, h.sent⟩
  · cases newReq <;> simp [session, opening, iterate, Dispatch.session, hd, hj.symm, Function.update_of_ne hj]

lemma ignore_simulated (h : Wired s) {m : ResultStruct} (hd : s.proxy.dispatch = .looping i (m :: rest) false)
    (hreq : s.proxy.browseRequests i = none) : Simulated freeze thaw s (s.setDispatch .mainLoop) := by
  have hcall : s.proxy.call = .none := h.loop (by rw [hd]; rfl)
  have hown : (s.setDispatch .mainLoop).session i = { s.session i with dispatch := .off } := by
    simp [session, opening, setDispatch, Dispatch.session]
  refine simulated_own ⟨fun _ => hcall, h.browsing, h.cancel, h.data, h.inbox, h.idle, h.sent⟩ hown
    (.ignore (session_looping hd) (h.closed hcall i) hreq) fun j hj => ?_
  simp [session, opening, setDispatch, Dispatch.session, hd, hj.symm]

/-- From the second iteration on the proxy has the request, marked. -/
lemma marked (hv : ∀ i, Session.Valid thaw (s.session i)) (hd : s.proxy.dispatch = .looping i rest true) :
    s.proxy.browseRequests i = some ⟨true, false⟩ := by
  have hrem := (hv i).remembered
  unfold Session.Remembered at hrem
  rw [session_looping hd] at hrem
  exact hrem.1

lemma iterate_simulated (h : Wired s) (hv : ∀ i, Session.Valid thaw (s.session i))
    (hd : s.proxy.dispatch = .looping i rest newReq) : Simulated freeze thaw s (s.iterate thaw i newReq rest) := by
  cases rest with
  | nil => exact finish_simulated h hd
  | cons m rest =>
    cases newReq with
    | true =>
      have hreq := marked hv hd
      have hsame : s.proxy.setReq i (some ⟨true, false⟩) = s.proxy := by
        rw [ProxySource.setReq, ← hreq, Function.update_eq_self]
      have hdel : Simulated freeze thaw s _ := deliver_simulated h hd hreq
      rw [hsame] at hdel
      exact hdel
    | false =>
      cases hreq : s.proxy.browseRequests i with
      | none =>
        have hu : s.iterate thaw i false (m :: rest) = s.setDispatch .mainLoop := by simp [iterate, hreq]
        rw [hu]
        exact ignore_simulated h hd hreq
      | some req =>
        have hu : s.iterate thaw i false (m :: rest) =
            ({ s with proxy := s.proxy.setReq i (some { req with emitting := true }) }.delivered i
              (parseResult thaw m)).setDispatch (.inCallback i m.remainingCount rest) := by
          simp [iterate, hreq]
        rw [hu]
        exact deliver_simulated h hd hreq

lemma callbackReturn_simulated (h : Wired s) {c : Int32} {req : BrowseReq}
    (hd : s.proxy.dispatch = .inCallback i c rest) (hcall : s.proxy.call = .none)
    (hreq : s.proxy.browseRequests i = some req) :
    Simulated freeze thaw s
      (if c = 0 ∨ req.stopEmitting then { s with proxy := { s.proxy.setReq i none with dispatch := .mainLoop } }
      else s.setDispatch (.looping i rest true)) := by
  have hself : (s.session i).dispatch = .inCallback c rest := by rw [session, hd, Dispatch.session_inCallback]
  by_cases hstop : c = 0 ∨ req.stopEmitting
  · rw [if_pos hstop]
    have hown : ({ s with proxy := { s.proxy.setReq i none with dispatch := .mainLoop } } :
        Browsing μ).session i = { s.session i with dispatch := .off, req := none } := by
      simp [session, opening, ProxySource.setReq, Dispatch.session]
    refine simulated_own ⟨fun _ => hcall, h.browsing, h.cancel, h.data, h.inbox, h.idle, h.sent⟩ hown
      (.stop hself hreq hstop) fun j hj => ?_
    simp [session, opening, ProxySource.setReq, Dispatch.session, hd, hj.symm, Function.update_of_ne hj]
  · rw [if_neg hstop]
    have hown : (s.setDispatch (.looping i rest true)).session i =
        { s.session i with dispatch := .looping rest true } := by
      simp [session, opening, setDispatch, Dispatch.session]
    refine simulated_own ⟨fun _ => hcall, h.browsing, h.cancel, h.data, h.inbox, h.idle, h.sent⟩ hown
      (.goOn hself hreq hstop) fun j hj => ?_
    simp [session, opening, setDispatch, Dispatch.session, hd, hj.symm]

end

/-! ### Whole runs -/

/-- What an event that happened found and what it left. -/
inductive Stepped (freeze : μ → Bytes) (thaw : Bytes → μ) (s : Browsing μ) : BrowseEvent μ → Browsing μ → Prop
  | browse (hfree : s.proxy.Free) : Stepped freeze thaw s .browse (s.setCall .browse)
  | start {i : Nat} (hcall : s.proxy.call = .browse) (hnone : s.wrapper.browsing = none) :
    Stepped freeze thaw s (.start i) { s with
      wrapper := { s.wrapper with browsing := some (i, BrowseData.init) }
      history := { s.history with started := Function.update s.history.started i true } }
  | refuse (hcall : s.proxy.call = .browse) (hnone : s.wrapper.browsing = none) :
    Stepped freeze thaw s .refuse (s.setCall .browseError)
  | emit {i : Nat} {r : BrowseResult μ} {b : BrowseData} (hb : s.wrapper.userData i = some b) :
    Stepped freeze thaw s (.emit i r)
      (let u := (s.emitted i r).send i b.maxresults (emitBrowseResult freeze b i r)
      if r.remainingCount = 0 ∨ r.error.isSome then
        { u with wrapper := { u.wrapper with idle := u.wrapper.idle ++ [i] } }
      else u)
  | timeout {i : Nat} {b : BrowseData} (hb : s.wrapper.userData i = some b) :
    Stepped freeze thaw s (.timeout i) (s.send i b.maxresults (sendBrowseRes b))
  | browseReturn {i : Nat} {b : BrowseData} (hb : s.wrapper.browsing = some (i, b)) :
    Stepped freeze thaw s .browseReturn { s with
      wrapper := { s.wrapper with
        browsing := none
        browseRequests := Function.update s.wrapper.browseRequests i (some b) }
      proxy := { s.proxy with call := .browseReply i } }
  | removeFromHash {i : Nat} {idle : List Nat} (hidle : s.wrapper.idle = i :: idle) :
    Stepped freeze thaw s .removeFromHash { s with wrapper := { s.wrapper.remove i with idle := idle } }
  | register {i : Nat} (hcall : s.proxy.call = .browseReply i) :
    Stepped freeze thaw s .receiveReply
      { s with proxy := { s.proxy.setReq i (some ⟨false, false⟩) with call := .none } }
  | answered (hcall : s.proxy.call = .browseError ∨ s.proxy.call = .cancelReply) :
    Stepped freeze thaw s .receiveReply (s.setCall .none)
  | cancelBrowse {i : Nat} (hfree : s.proxy.Free) :
    Stepped freeze thaw s (.cancelBrowse i) (s.cancelBrowse i)
  | cancel {i : Nat} (hcall : s.proxy.call = .cancel i) :
    Stepped freeze thaw s .cancel { (s.setCall .cancelReply) with wrapper := s.wrapper.remove i }
  | dispatch {m : ResultMessage} {inbox : List ResultMessage} (hmain : s.proxy.dispatch = .mainLoop)
    (hcall : s.proxy.call = .none) (hin : s.inbox = m :: inbox) :
    Stepped freeze thaw s .dispatch
      { (s.setDispatch (.looping m.browseId m.results false)) with inbox := inbox }
  | iterate {i : Nat} {rest : List ResultStruct} {newReq : Bool}
    (hd : s.proxy.dispatch = .looping i rest newReq) :
    Stepped freeze thaw s .iterate (s.iterate thaw i newReq rest)
  | callbackReturn {i : Nat} {c : Int32} {rest : List ResultStruct} {req : BrowseReq}
    (hd : s.proxy.dispatch = .inCallback i c rest) (hcall : s.proxy.call = .none)
    (hreq : s.proxy.browseRequests i = some req) :
    Stepped freeze thaw s .callbackReturn
      (if c = 0 ∨ req.stopEmitting then
        { s with proxy := { s.proxy.setReq i none with dispatch := .mainLoop } }
      else s.setDispatch (.looping i rest true))

lemma Stepped.of_step {e : BrowseEvent μ} (he : s.step freeze thaw e = some t) : Stepped freeze thaw s e t := by
  cases e with
  | browse =>
    rw [step] at he
    split at he
    · rename_i hfree
      cases he
      exact .browse hfree
    · cases he
  | start i =>
    rw [step] at he
    split at he
    · rename_i hstart
      cases he
      exact .start hstart.1 hstart.2
    · cases he
  | refuse =>
    rw [step] at he
    split at he
    · rename_i hrefuse
      cases he
      exact .refuse hrefuse.1 hrefuse.2
    · cases he
  | emit i r =>
    obtain ⟨b, hb, rfl⟩ := Option.map_eq_some_iff.mp he
    exact .emit hb
  | timeout i =>
    obtain ⟨b, hb, hsend⟩ := Option.bind_eq_some_iff.mp he
    split at hsend
    · cases hsend
      exact .timeout hb
    · cases hsend
  | browseReturn =>
    obtain ⟨⟨i, b⟩, hb, rfl⟩ := Option.map_eq_some_iff.mp he
    exact .browseReturn hb
  | removeFromHash =>
    rw [step] at he
    split at he
    · cases he
    · rename_i i idle hidle
      cases he
      exact .removeFromHash hidle
  | receiveReply =>
    rw [step] at he
    split at he
    · rename_i i hcall
      cases he
      exact .register hcall
    · rename_i hcall
      cases he
      exact .answered (.inl hcall)
    · rename_i hcall
      cases he
      exact .answered (.inr hcall)
    · cases he
  | cancelBrowse i =>
    rw [step] at he
    split at he
    · rename_i hfree
      cases he
      exact .cancelBrowse hfree
    · cases he
  | cancel =>
    rw [step] at he
    split at he
    · rename_i i hcall
      cases he
      exact .cancel hcall
    · cases he
  | dispatch =>
    rw [step] at he
    split at he
    · rename_i m inbox hmain hcall hin
      cases he
      exact .dispatch hmain hcall hin
    · cases he
  | iterate =>
    rw [step] at he
    split at he
    · rename_i i rest newReq hd
      cases he
      exact .iterate hd
    · cases he
  | callbackReturn =>
    rw [step] at he
    split at he
    · rename_i i c rest hd hcall
      obtain ⟨req, hreq, rfl⟩ := Option.map_eq_some_iff.mp he
      exact .callbackReturn hd hcall hreq
    · cases he

/-- Every step of the system is one of each session. -/
theorem step_simulated (h : Wired s) (hv : ∀ i, Session.Valid thaw (s.session i)) {e : BrowseEvent μ}
    (hkeeps : SourceKeeps s e) (he : s.step freeze thaw e = some t) : Simulated freeze thaw s t := by
  cases Stepped.of_step he with
  | browse hfree =>
    obtain ⟨hcall, hloop⟩ := hfree
    have hnone := h.browsing_none (by rw [hcall]; exact ProxyCall.noConfusion)
    refine setCall_simulated h hnone (by rw [hcall]; trivial) trivial fun hl => ?_
    rw [hloop] at hl
    cases hl
  | start hcall hnone => exact start_simulated h hv hcall hnone hkeeps
  | refuse hcall hnone =>
    refine setCall_simulated h hnone (by rw [hcall]; trivial) trivial fun hl => ?_
    have hidle := h.loop hl
    rw [hcall] at hidle
    cases hidle
  | emit hb => exact emit_simulated h hb hkeeps.1 hkeeps.2
  | timeout hb => exact timeout_simulated h hb
  | browseReturn hb => exact browseReturn_simulated h hb
  | removeFromHash hidle => exact removeFromHash_simulated h hv hidle
  | register hcall => exact register_simulated h hcall
  | answered hcall =>
    have hanswered : s.proxy.call ≠ .browse ∧ s.proxy.call.Plain := by
      rcases hcall with hcall | hcall <;> rw [hcall] <;> exact ⟨ProxyCall.noConfusion, trivial⟩
    exact setCall_simulated h (h.browsing_none hanswered.1) hanswered.2 trivial fun _ => rfl
  | cancelBrowse hfree => exact cancelBrowse_simulated h hfree _
  | cancel hcall => exact cancel_simulated h hcall
  | dispatch hmain hcall hin => exact dispatch_simulated h hmain hcall hin
  | iterate hd => exact iterate_simulated h hv hd
  | callbackReturn hd hcall hreq => exact callbackReturn_simulated h hd hcall hreq

abbrev BrowseReach (freeze : μ → Bytes) (thaw : Bytes → μ) : Browsing μ → Browsing μ → Prop :=
  Reach (fun s e t => s.step freeze thaw e = some t) SourceKeeps

/-- The sessions and what ties them together. -/
def Sound (thaw : Bytes → μ) (s : Browsing μ) : Prop := Wired s ∧ ∀ i, Session.Valid thaw (s.session i)

lemma sound_init : Sound thaw (init : Browsing μ) := by
  refine ⟨⟨fun h => (by cases h), fun h => absurd rfl h, fun i h => (by cases h), fun i b h => (by cases h),
    fun m h => (by cases h), fun i h => (by cases h), fun e h => (by cases h)⟩, fun i => ?_⟩
  exact Session.Valid.init_valid

lemma Sound.step (h : Sound thaw s) (hmeta : ∀ m, thaw (freeze m) = m) {e : BrowseEvent μ}
    (hkeeps : SourceKeeps s e) (he : s.step freeze thaw e = some t) : Sound thaw t := by
  obtain ⟨hwired, hsession⟩ := step_simulated h.1 h.2 hkeeps he
  exact ⟨hwired, fun i => (hsession i).valid hmeta (h.2 i)⟩

lemma Sound.run (h : Sound thaw s) (hmeta : ∀ m, thaw (freeze m) = m) (hr : BrowseReach freeze thaw s t) :
    Sound thaw t :=
  hr.invariant (Sound thaw) h fun _ _ _ hs hkeeps he => hs.step hmeta hkeeps he

lemma Sound.frozen (h : Sound thaw s) (hmeta : ∀ m, thaw (freeze m) = m) {i : Nat}
    (hc : s.history.cancelled i = true) (hr : BrowseReach freeze thaw s t) :
    t.history.delivered i = s.history.delivered i := by
  have hinv := hr.invariant
    (fun u => Sound thaw u ∧ u.history.cancelled i = true ∧ u.history.delivered i = s.history.delivered i)
    ⟨h, hc, rfl⟩ fun u e w ⟨hu, hcu, hdu⟩ hkeeps he => ?_
  · exact hinv.2.2
  · obtain ⟨hcw, hdw⟩ := ((step_simulated hu.1 hu.2 hkeeps he).2 i).frozen (hu.2 i) hcu
    exact ⟨hu.step hmeta hkeeps he, hcw, hdw.trans hdu⟩

/-! ### The proxy can always go on -/

/-- The proxy has done some of its work, and nothing else has happened. -/
structure WorkedOff (freeze : μ → Bytes) (thaw : Bytes → μ) (s t : Browsing μ) : Prop where
  run : BrowseReach freeze thaw s t
  call : t.proxy.call = s.proxy.call
  emitted : t.history.emitted = s.history.emitted
  cancelled : t.history.cancelled = s.history.cancelled

namespace WorkedOff

lemma refl : WorkedOff freeze thaw s s := ⟨.refl, rfl, rfl, rfl⟩

lemma trans {u : Browsing μ} (h : WorkedOff freeze thaw s t) (h' : WorkedOff freeze thaw t u) :
    WorkedOff freeze thaw s u :=
  ⟨h.run.trans h'.run, h'.call.trans h.call, h'.emitted.trans h.emitted, h'.cancelled.trans h.cancelled⟩

variable (freeze thaw)

lemma callbackReturn {i : Nat} {c : Int32} {rest : List ResultStruct} {req : BrowseReq}
    (hd : s.proxy.dispatch = .inCallback i c rest) (hcall : s.proxy.call = .none)
    (hreq : s.proxy.browseRequests i = some req) : ∃ t, WorkedOff freeze thaw s t ∧ t.inbox = s.inbox ∧
      (t.proxy.dispatch = .mainLoop ∨
        t.proxy.dispatch = .looping i rest true ∧ t.proxy.browseRequests i = some req) := by
  by_cases hstop : c = 0 ∨ req.stopEmitting
  · have hstep : s.step freeze thaw .callbackReturn =
        some { s with proxy := { s.proxy.setReq i none with dispatch := .mainLoop } } := by
      simp only [step, hd, hcall, hreq, Option.map_some, if_pos hstop]
    exact ⟨_, ⟨.next .refl (by trivial) hstep, rfl, rfl, rfl⟩, rfl, Or.inl rfl⟩
  · have hstep : s.step freeze thaw .callbackReturn = some (s.setDispatch (.looping i rest true)) := by
      simp only [step, hd, hcall, hreq, Option.map_some, if_neg hstop]
    exact ⟨_, ⟨.next .refl (by trivial) hstep, rfl, rfl, rfl⟩, rfl, Or.inr ⟨rfl, hreq⟩⟩

lemma iterate {i : Nat} {m : ResultStruct} {rest : List ResultStruct} {newReq : Bool}
    (hd : s.proxy.dispatch = .looping i (m :: rest) newReq)
    (hreq : newReq = true → ∃ req, s.proxy.browseRequests i = some req) :
    ∃ t, WorkedOff freeze thaw s t ∧ t.inbox = s.inbox ∧ (t.proxy.dispatch = .mainLoop ∨
      t.proxy.dispatch = .inCallback i m.remainingCount rest ∧ ∃ req, t.proxy.browseRequests i = some req) := by
  have hstep : s.step freeze thaw .iterate = some (s.iterate thaw i newReq (m :: rest)) := by
    simp only [step, hd]
  cases hr : s.proxy.browseRequests i with
  | none =>
    cases newReq with
    | true =>
      obtain ⟨req, hsome⟩ := hreq rfl
      rw [hr] at hsome
      cases hsome
    | false =>
      have hu : s.iterate thaw i false (m :: rest) = s.setDispatch .mainLoop := by simp [Browsing.iterate, hr]
      rw [hu] at hstep
      exact ⟨_, ⟨.next .refl (by trivial) hstep, rfl, rfl, rfl⟩, rfl, Or.inl rfl⟩
  | some req =>
    cases newReq with
    | true => exact ⟨_, ⟨.next .refl (by trivial) hstep, rfl, rfl, rfl⟩, rfl, Or.inr ⟨rfl, req, hr⟩⟩
    | false =>
      have hu : s.iterate thaw i false (m :: rest) =
          ({ s with proxy := s.proxy.setReq i (some { req with emitting := true }) }.delivered i
            (parseResult thaw m)).setDispatch (.inCallback i m.remainingCount rest) := by
        simp [Browsing.iterate, hr]
      rw [hu] at hstep
      exact ⟨_, ⟨.next .refl (by trivial) hstep, rfl, rfl, rfl⟩, rfl, Or.inr ⟨rfl, _, Function.update_self ..⟩⟩

lemma looping {i : Nat} {rest : List ResultStruct} {newReq : Bool}
    (hd : s.proxy.dispatch = .looping i rest newReq) (hcall : s.proxy.call = .none)
    (hreq : newReq = true → ∃ req, s.proxy.browseRequests i = some req) :
    ∃ t, WorkedOff freeze thaw s t ∧ t.inbox = s.inbox ∧ t.proxy.dispatch = .mainLoop := by
  induction rest generalizing s newReq with
  | nil =>
    have hstep : s.step freeze thaw .iterate = some (s.iterate thaw i newReq []) := by simp only [step, hd]
    cases newReq <;> exact ⟨_, ⟨.next .refl (by trivial) hstep, rfl, rfl, rfl⟩, rfl, rfl⟩
  | cons m rest ih =>
    obtain ⟨t, hst, hin, hmain | ⟨hcb, req, hreq'⟩⟩ := iterate freeze thaw hd hreq
    · exact ⟨t, hst, hin, hmain⟩
    · have hcall' : t.proxy.call = .none := hst.call.trans hcall
      obtain ⟨u, htu, hin', hmain | ⟨hloop, hsome⟩⟩ :=
        callbackReturn freeze thaw hcb hcall' hreq'
      · exact ⟨u, hst.trans htu, hin'.trans hin, hmain⟩
      · obtain ⟨w, huw, hin'', hmain⟩ := ih hloop (htu.call.trans hcall') fun _ => ⟨req, hsome⟩
        exact ⟨w, (hst.trans htu).trans huw, hin''.trans (hin'.trans hin), hmain⟩

lemma mainLoop (hd : s.proxy.dispatch = .mainLoop) (hcall : s.proxy.call = .none) :
    ∃ t, WorkedOff freeze thaw s t ∧ t.inbox = [] ∧ t.proxy.dispatch = .mainLoop := by
  obtain ⟨l, hl⟩ : ∃ l, s.inbox = l := ⟨_, rfl⟩
  induction l generalizing s with
  | nil => exact ⟨s, .refl, hl, hd⟩
  | cons m l ih =>
    have hstep : s.step freeze thaw .dispatch =
        some { (s.setDispatch (.looping m.browseId m.results false)) with inbox := l } := by
      simp only [step, hd, hcall, hl]
    obtain ⟨t, ht, hin, hmain⟩ := looping freeze thaw
      (s := { (s.setDispatch (.looping m.browseId m.results false)) with inbox := l }) rfl hcall
      fun hf => (by cases hf)
    have hst : WorkedOff freeze thaw s t :=
      .trans ⟨.next .refl (by trivial) hstep, rfl, rfl, rfl⟩ ht
    obtain ⟨u, hu, hnil, hmain'⟩ := ih hmain (hst.call.trans hcall) hin
    exact ⟨u, hst.trans hu, hnil, hmain'⟩

lemma exists_drained (h : Sound thaw s) (hcall : s.proxy.call = .none) :
    ∃ t, WorkedOff freeze thaw s t ∧ t.inbox = [] ∧ t.proxy.dispatch = .mainLoop := by
  obtain ⟨t, hst, hmain⟩ : ∃ t, WorkedOff freeze thaw s t ∧ t.proxy.dispatch = .mainLoop := by
    cases hd : s.proxy.dispatch with
    | mainLoop => exact ⟨s, .refl, hd⟩
    | looping i rest newReq =>
      have hreq : newReq = true → ∃ req, s.proxy.browseRequests i = some req := by
        rintro rfl
        have hrem := (h.2 i).remembered
        simp only [Session.Remembered, session, hd, Dispatch.session, if_true] at hrem
        exact ⟨_, hrem.1⟩
      obtain ⟨t, hst, -, hmain⟩ := looping freeze thaw hd hcall hreq
      exact ⟨t, hst, hmain⟩
    | inCallback i c rest =>
      have hrem := (h.2 i).remembered
      simp only [Session.Remembered, session, hd, Dispatch.session, if_true] at hrem
      obtain ⟨t, hst, -, hmain | ⟨hloop, hsome⟩⟩ := callbackReturn freeze thaw hd hcall hrem.1
      · exact ⟨t, hst, hmain⟩
      · obtain ⟨u, htu, -, hmain⟩ := looping freeze thaw hloop (hst.call.trans hcall) fun _ => ⟨_, hsome⟩
        exact ⟨u, hst.trans htu, hmain⟩
  obtain ⟨u, htu, hnil, hmain'⟩ := mainLoop freeze thaw hmain (hst.call.trans hcall)
  exact ⟨u, hst.trans htu, hnil, hmain'⟩

end WorkedOff

/-! ### End to end -/

lemma Sound.complete (h : Sound thaw s) {i : Nat} (hc : s.history.cancelled i = false)
    (hend : Session.Ended (s.history.emitted i)) (hin : ∀ m ∈ s.inbox, m.browseId ≠ i)
    (hmain : s.proxy.dispatch = .mainLoop) :
    s.history.delivered i = (s.history.emitted i).map BrowseResult.normal := by
  have hv := h.2 i
  have hqueue : queued s.inbox i = [] := by
    rw [queued, List.filter_eq_nil_iff.mpr, List.flatMap_nil]
    simpa using hin
  have hpending : s.wrapper.pending i = [] := hv.flushed hend
  have hcons := hv.conserved hc
  simp only [Session.underway, session, hmain, Dispatch.session, SessionDispatch.rest, hqueue, hpending,
    List.append_nil, List.map_nil] at hcons
  exact hcons

/-- For every session, in every run: the callback has got a prefix of what the source has
emitted; a session that has ended and was not cancelled is delivered as soon as nothing of
it is in the queue or in the loop, and a proxy that is not blocked can get there; after a
cancel the callback is not called again; and every message had at least one result and no
more than `maxresults` allowed, which is never more than 500. -/
theorem browse_delivery (hmeta : ∀ m, thaw (freeze m) = m) (hr : BrowseReach freeze thaw init s) (i : Nat) :
    s.history.delivered i <+: (s.history.emitted i).map BrowseResult.normal ∧
      (s.history.cancelled i = false → Session.Ended (s.history.emitted i) →
        ((∀ m ∈ s.inbox, m.browseId ≠ i) → s.proxy.dispatch = .mainLoop →
          s.history.delivered i = (s.history.emitted i).map BrowseResult.normal) ∧
        (s.proxy.call = .none → ∃ t, BrowseReach freeze thaw s t ∧
          t.history.emitted i = s.history.emitted i ∧
          t.history.delivered i = (s.history.emitted i).map BrowseResult.normal)) ∧
      (s.history.cancelled i = true → ∀ t, BrowseReach freeze thaw s t →
        t.history.delivered i = s.history.delivered i) ∧
      ∀ e ∈ s.history.sent, 1 ≤ e.1.results.length ∧ e.1.results.length ≤ e.2 ∧ e.2 ≤ 500 := by
  have hs : Sound thaw s := sound_init.run hmeta hr
  refine ⟨(hs.2 i).isPrefix, fun hc hend => ⟨hs.complete hc hend, fun hcall => ?_⟩, fun hc t ht => ?_, hs.1.sent⟩
  · obtain ⟨t, ht, hnil, hmain⟩ := WorkedOff.exists_drained freeze thaw hs hcall
    have hts : Sound thaw t := hs.run hmeta ht.run
    have hemit : t.history.emitted i = s.history.emitted i := congrFun ht.emitted i
    refine ⟨t, ht.run, hemit, ?_⟩
    rw [← hemit]
    refine hts.complete (by rwa [ht.cancelled]) (by rwa [hemit]) (fun m hm => ?_) hmain
    rw [hnil] at hm
    cases hm
  · exact hs.frozen hmeta hc ht

/-- A result that the timer sends while `browse` is still running, and a last one with an
error. -/
theorem browse_delivery_twoResults : ∃ s : Browsing Bytes, BrowseReach id id init s ∧
    s.history.delivered 7 = [⟨1, 0, none, [109], none⟩, ⟨0, 1, none, [110], some ⟨[101], by decide, -5, [120]⟩⟩] ∧
    s.history.delivered 7 = (s.history.emitted 7).map BrowseResult.normal := by
  have hrun : (runEvents (step id id) SourceKeeps (init : Browsing Bytes)
      [.browse, .start 7, .emit 7 ⟨1, 0, some [], [109], none⟩, .timeout 7, .browseReturn,
        .emit 7 ⟨0, 1, none, [110], some ⟨[101], by decide, -5, [120]⟩⟩, .receiveReply, .dispatch, .iterate,
        .callbackReturn, .iterate, .dispatch, .iterate, .callbackReturn, .removeFromHash]).map
        (fun s => (s.history.delivered 7, s.inbox, decide (s.proxy.dispatch = .mainLoop), s.history.cancelled 7,
          decide (∃ r ∈ s.history.emitted 7, r.remainingCount = 0))) =
      some ([⟨1, 0, none, [109], none⟩, ⟨0, 1, none, [110], some ⟨[101], by decide, -5, [120]⟩⟩], [], true, false,
        true) := by
    decide +kernel
  obtain ⟨s, hs, heq⟩ := Option.map_eq_some_iff.mp hrun
  simp only [Prod.mk.injEq, decide_eq_true_eq] at heq
  obtain ⟨hdel, hin, hmain, hc, hend⟩ := heq
  have hreach := reach_of_runEvents hs
  refine ⟨s, hreach, hdel, ((browse_delivery (fun _ => rfl) hreach 7).2.1 hc hend).1 (fun m hm => ?_) hmain⟩
  rw [hin] at hm
  cases hm

end Browsing

end MafwShared
