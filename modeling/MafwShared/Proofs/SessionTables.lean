import MafwShared.Proofs.BrowseDelivery

/-!
# The session tables of the two ends

The wrapper drops a session after its last result or an error, the proxy after a result with
nothing behind it, and both after a cancel. An error that has results behind it ends the
session at the wrapper only, so that the runs considered are those without one.
-/

namespace MafwShared
open CLib

variable {μ : Type*} {freeze : μ → Bytes} {thaw : Bytes → μ}

/-! ### One session -/

namespace Session
variable {v v' : Session μ}

/-- The proxy forgets a session with its last result, at the latest when the callback returns. -/
def Closed (v : Session μ) : Prop :=
  v.cancelled = false → Ended v.delivered → v.req = none ∨ ∃ rest, v.dispatch = .inCallback 0 rest

lemma ended_append {l : List (BrowseResult μ)} {r : BrowseResult μ} (h : Ended (l ++ [r])) :
    Ended l ∨ r.remainingCount = 0 := by
  obtain ⟨x, hx, hzero⟩ := h
  rcases List.mem_append.mp hx with hx | hx
  · exact .inl ⟨x, hx, hzero⟩
  · cases List.mem_singleton.mp hx
    exact .inr hzero

theorem Step.closed (hs : Step freeze thaw v v') (hv : Valid thaw v) (h : v.Closed) : v'.Closed := by
  cases hs with
  | same | emit | flush | discard => exact h
  | start hnot =>
    intro _ hend
    rw [hv.untouched hnot] at hend
    obtain ⟨r, hr, -⟩ := hend
    cases hr
  | register hop =>
    intro _ hend
    obtain ⟨hdel, -⟩ := hv.opening hop
    obtain ⟨r, hr, -⟩ := hend
    rw [hdel] at hr
    cases hr
  | cancel =>
    intro hc
    cases hc
  | dispatch _ hoff =>
    intro hc hend
    rcases h hc hend with hreq | ⟨rest, hd⟩
    · exact .inl hreq
    · cases hoff.symm.trans hd
  | @finish newReq hd =>
    intro hc hend
    rcases h hc hend with hreq | ⟨rest, hd'⟩
    · left
      cases newReq with
      | false => exact hreq
      | true => exact congrArg (Option.map _) hreq
    · cases hd.symm.trans hd'
  | ignore _ _ hreq => exact fun _ _ => .inl hreq
  | @deliver m rest newReq req hd hreq =>
    intro hc hend
    rcases ended_append hend with hend | hzero
    · have hnil := hv.drained hc hend
      simp only [underway, hd, SessionDispatch.rest] at hnil
      cases hnil
    · exact .inr ⟨rest, congrArg (SessionDispatch.inCallback · rest) hzero⟩
  | stop => exact fun _ _ => .inl rfl
  | @goOn c rest req hd hreq hgo =>
    intro hc hend
    rcases h hc hend with hnone | ⟨rest', hd'⟩
    · cases hreq.symm.trans hnone
    · cases hd.symm.trans hd'
      exact absurd (.inl rfl) hgo

end Session

namespace Browsing
variable {s t : Browsing μ}

/-! ### The wrapper's table -/

structure Tables (s : Browsing μ) : Prop where
  gone : ∀ i, s.history.cancelled i = true → s.proxy.call = .cancel i ∨ s.wrapper.userData i = none
  leaving : ∀ i, Session.Ended (s.history.emitted i) → s.wrapper.userData i ≠ none → i ∈ s.wrapper.idle
  kept : ∀ i, s.history.started i = true → s.history.cancelled i = false →
    ¬Session.Ended (s.history.emitted i) → s.wrapper.userData i ≠ none
  errors : ∀ i, ∀ r ∈ s.history.emitted i, r.error.isSome → r.remainingCount = 0

lemma Tables.of_same (h : Tables s) (hdata : ∀ i, t.wrapper.userData i = s.wrapper.userData i)
    (hidle : t.wrapper.idle = s.wrapper.idle) (hstarted : t.history.started = s.history.started)
    (hemitted : t.history.emitted = s.history.emitted)
    (hcancelled : t.history.cancelled = s.history.cancelled)
    (hcall : ∀ i, s.proxy.call = .cancel i → t.proxy.call = .cancel i) : Tables t := by
  refine ⟨fun i hc => ?_, fun i hend hne => ?_, fun i hst hc hend => ?_, ?_⟩
  · rw [hcancelled] at hc
    rw [hdata]
    exact (h.gone i hc).imp_left (hcall i)
  · rw [hemitted] at hend
    rw [hdata] at hne
    rw [hidle]
    exact h.leaving i hend hne
  · rw [hstarted] at hst
    rw [hcancelled] at hc
    rw [hemitted] at hend
    rw [hdata]
    exact h.kept i hst hc hend
  · rw [hemitted]
    exact h.errors

lemma userData_remove_self {w : SourceWrapper} (h : w.browsing = none) (i j : Nat) :
    (w.remove i).userData j = if j = i then none else w.userData j := by
  unfold SourceWrapper.userData SourceWrapper.remove
  dsimp only
  rw [h]
  by_cases hj : j = i
  · rw [hj, if_pos rfl]
    exact Function.update_self _ _ _
  · rw [if_neg hj]
    exact Function.update_of_ne hj _ _

lemma userData_write_none {w : SourceWrapper} {i : Nat} {b : BrowseData} (hb : w.userData i = some b)
    (b' : BrowseData) (j : Nat) : (w.write i b').userData j = none ↔ w.userData j = none := by
  rw [SourceWrapper.userData_write]
  by_cases hj : j = i
  · rw [if_pos hj, hj, hb]
    simp
  · rw [if_neg hj]

lemma Tables.write (h : Tables s) {i : Nat} {b : BrowseData} (hb : s.wrapper.userData i = some b)
    (max : Nat) (out : BrowseData × List ResultMessage) : Tables (s.send i max out) := by
  have hnone : ∀ j, (s.send i max out).wrapper.userData j = none ↔ s.wrapper.userData j = none :=
    fun j => userData_write_none hb out.1 j
  refine ⟨fun j hc => ?_, fun j hend hne => ?_, fun j hst hc hend => ?_, h.errors⟩
  · exact (h.gone j hc).imp_right (hnone j).mpr
  · change j ∈ (SourceWrapper.write _ _ _).idle
    rw [write_idle]
    exact h.leaving j hend fun heq => hne ((hnone j).mpr heq)
  · exact fun heq => h.kept j hst hc hend ((hnone j).mp heq)

lemma emitted_at (s : Browsing μ) (i : Nat) (r : BrowseResult μ) (j : Nat) :
    (s.emitted i r).history.emitted j =
      if j = i then s.history.emitted j ++ [r] else s.history.emitted j :=
  congrArg Session.emitted (session_emitted i j r)

lemma ended_emitted {i : Nat} {r : BrowseResult μ}
    (hmore : ∀ x ∈ s.history.emitted i, x.remainingCount ≠ 0) {j : Nat}
    (hj : Session.Ended ((s.emitted i r).history.emitted j)) :
    Session.Ended (s.history.emitted j) ∨ j = i ∧ r.remainingCount = 0 := by
  rw [emitted_at] at hj
  by_cases hji : j = i
  · rw [if_pos hji] at hj
    rcases Session.ended_append hj with ⟨x, hx, hzero⟩ | hzero
    · exact absurd hzero (hmore x (hji ▸ hx))
    · exact .inr ⟨hji, hzero⟩
  · rw [if_neg hji] at hj
    exact .inl hj

lemma Tables.errors_emitted (h : Tables s) {i : Nat} {r : BrowseResult μ}
    (herr : r.error.isSome → r.remainingCount = 0) (j : Nat) :
    ∀ x ∈ (s.emitted i r).history.emitted j, x.error.isSome → x.remainingCount = 0 := by
  intro x hx
  rw [emitted_at] at hx
  by_cases hji : j = i
  · rw [if_pos hji] at hx
    rcases List.mem_append.mp hx with hx | hx
    · exact h.errors j x hx
    · cases List.mem_singleton.mp hx
      exact herr
  · rw [if_neg hji] at hx
    exact h.errors j x hx

lemma Tables.emit (h : Tables s) {i : Nat} {b : BrowseData} (hb : s.wrapper.userData i = some b)
    {r : BrowseResult μ} (hmore : ∀ x ∈ s.history.emitted i, x.remainingCount ≠ 0)
    (herr : r.error.isSome → r.remainingCount = 0) :
    Tables (let u := (s.emitted i r).send i b.maxresults (emitBrowseResult freeze b i r)
      if r.remainingCount = 0 ∨ r.error.isSome then
        { u with wrapper := { u.wrapper with idle := u.wrapper.idle ++ [i] } }
      else u) := by
  have hnone : ∀ j, ((s.emitted i r).send i b.maxresults (emitBrowseResult freeze b i r)).wrapper.userData j =
      none ↔ s.wrapper.userData j = none :=
    fun j => userData_write_none hb (emitBrowseResult freeze b i r).1 j
  have hlist : ((s.emitted i r).send i b.maxresults (emitBrowseResult freeze b i r)).wrapper.idle =
      s.wrapper.idle := write_idle _ _ _
  have hgone : ∀ j, s.history.cancelled j = true → s.proxy.call = .cancel j ∨
      ((s.emitted i r).send i b.maxresults (emitBrowseResult freeze b i r)).wrapper.userData j = none :=
    fun j hc => (h.gone j hc).imp_right (hnone j).mpr
  have hkept : ∀ j, s.history.started j = true → s.history.cancelled j = false →
      ¬Session.Ended ((s.emitted i r).history.emitted j) →
      ((s.emitted i r).send i b.maxresults (emitBrowseResult freeze b i r)).wrapper.userData j ≠ none := by
    intro j hst hc hgoes heq
    have hnone' := (hnone j).mp heq
    by_cases hji : j = i
    · rw [hji, hb] at hnone'
      cases hnone'
    · rw [emitted_at, if_neg hji] at hgoes
      exact h.kept j hst hc hgoes hnone'
  dsimp only
  by_cases hlast : r.remainingCount = 0 ∨ r.error.isSome
  · rw [if_pos hlast]
    refine ⟨hgone, fun j hj hne => ?_, hkept, h.errors_emitted herr⟩
    change j ∈ (SourceWrapper.write _ _ _).idle ++ [i]
    rw [write_idle]
    rcases ended_emitted hmore hj with hj | ⟨hji, -⟩
    · exact List.mem_append_left _ (h.leaving j hj fun heq => hne ((hnone j).mpr heq))
    · exact List.mem_append_right _ (List.mem_singleton.mpr hji)
  · rw [if_neg hlast]
    refine ⟨hgone, fun j hj hne => ?_, hkept, h.errors_emitted herr⟩
    rw [hlist]
    rcases ended_emitted hmore hj with hj | ⟨-, hzero⟩
    · exact h.leaving j hj fun heq => hne ((hnone j).mpr heq)
    · exact absurd (.inl hzero) hlast

lemma Tables.start (h : Tables s) (hv : ∀ i, Session.Valid thaw (s.session i)) {i : Nat}
    (hnone : s.wrapper.browsing = none) (hnew : s.history.started i = false) :
    Tables { s with
      wrapper := { s.wrapper with browsing := some (i, BrowseData.init) }
      history := { s.history with started := Function.update s.history.started i true } } := by
  have hdata := userData_opened hnone i
  have hinit := (hv i).untouched hnew
  have hfresh : s.history.cancelled i = false := congrArg Session.cancelled hinit
  have hnothing : s.history.emitted i = [] := congrArg Session.emitted hinit
  refine ⟨fun j hc => ?_, fun j hend hne => ?_, fun j hst hc hend => ?_, h.errors⟩
  · have hji : j ≠ i := by
      rintro rfl
      cases hfresh.symm.trans hc
    refine (h.gone j hc).imp_right fun hgone => (hdata j).trans ?_
    rw [if_neg hji]
    exact hgone
  · have hji : j ≠ i := by
      rintro rfl
      obtain ⟨r, hr, -⟩ := hend
      change r ∈ s.history.emitted j at hr
      rw [hnothing] at hr
      cases hr
    refine h.leaving j hend fun hgone => hne ((hdata j).trans ?_)
    rw [if_neg hji]
    exact hgone
  · intro hgone
    replace hgone := (hdata j).symm.trans hgone
    by_cases hji : j = i
    · rw [if_pos hji] at hgone
      cases hgone
    · rw [if_neg hji] at hgone
      have hst' : s.history.started j = true := (Function.update_of_ne hji _ _).symm.trans hst
      exact h.kept j hst' hc hend hgone

lemma Tables.returns (h : Tables s) (hwired : Wired s) {i : Nat} {b : BrowseData}
    (hb : s.wrapper.browsing = some (i, b)) :
    Tables { s with
      wrapper := { s.wrapper with
        browsing := none
        browseRequests := Function.update s.wrapper.browseRequests i (some b) }
      proxy := { s.proxy with call := .browseReply i } } := by
  have hcall : s.proxy.call = .browse := hwired.browsing (by rw [hb]; exact Option.some_ne_none _)
  refine h.of_same (fun j => ?_) rfl rfl rfl rfl fun j hj => ?_
  · unfold SourceWrapper.userData
    rw [hb]
    by_cases hji : j = i
    · simp [hji]
    · have hij : ¬i = j := fun hij => hji hij.symm
      simp [hij, Function.update_of_ne hji]
  · cases hcall.symm.trans hj

lemma Tables.removeFromHash (h : Tables s) (hwired : Wired s) (hnone : s.wrapper.browsing = none) {i : Nat}
    {idle : List Nat} (hidle : s.wrapper.idle = i :: idle) :
    Tables { s with wrapper := { s.wrapper.remove i with idle := idle } } := by
  have hdata : ∀ j, ({ s.wrapper.remove i with idle := idle } : SourceWrapper).userData j =
      if j = i then none else s.wrapper.userData j := userData_remove_self hnone i
  have hended : Session.Ended (s.history.emitted i) := hwired.idle i (by rw [hidle]; exact List.mem_cons_self)
  refine ⟨fun j hc => ?_, fun j hend hne => ?_, fun j hst hc hend => ?_, h.errors⟩
  · refine (h.gone j hc).imp_right fun hgone => (hdata j).trans ?_
    rw [hgone]
    exact ite_self _
  · by_cases hji : j = i
    · exact absurd ((hdata j).trans (if_pos hji)) hne
    · have hmem := h.leaving j hend fun hgone => hne ((hdata j).trans ((if_neg hji).trans hgone))
      rw [hidle] at hmem
      exact List.mem_of_ne_of_mem hji hmem
  · have hji : j ≠ i := by
      rintro rfl
      exact hend hended
    intro hgone
    exact h.kept j hst hc hend (((hdata j).trans (if_neg hji)).symm.trans hgone)

lemma Tables.cancel (h : Tables s) (hwired : Wired s) {i : Nat} (hcall : s.proxy.call = .cancel i) :
    Tables { (s.setCall .cancelReply) with wrapper := s.wrapper.remove i } := by
  have hnone := hwired.browsing_none (by rw [hcall]; exact ProxyCall.noConfusion)
  have hdata := userData_remove_self hnone i
  refine ⟨fun j hc => .inr ?_, fun j hend hne => ?_, fun j hst hc hend => ?_, h.errors⟩
  · refine (hdata j).trans ?_
    by_cases hji : j = i
    · exact if_pos hji
    · rw [if_neg hji]
      refine (h.gone j hc).resolve_left fun hcall' => ?_
      cases hcall.symm.trans hcall'
      exact hji rfl
  · exact h.leaving j hend fun hgone => hne ((hdata j).trans (by rw [hgone]; exact ite_self _))
  · have hji : j ≠ i := by
      rintro rfl
      cases (hwired.cancel j hcall).symm.trans hc
    intro hgone
    exact h.kept j hst hc hend (((hdata j).trans (if_neg hji)).symm.trans hgone)

lemma Tables.cancelBrowse (h : Tables s) (hfree : s.proxy.Free) (i : Nat) : Tables (s.cancelBrowse i) := by
  unfold Browsing.cancelBrowse
  split
  · exact h
  · refine ⟨fun j hc => ?_, h.leaving, fun j hst hc hend => h.kept j hst ?_ hend, h.errors⟩
    · by_cases hji : j = i
      · exact .inl (by rw [hji])
      · have hc' : s.history.cancelled j = true := (Function.update_of_ne hji _ _).symm.trans hc
        refine .inr ((h.gone j hc').resolve_left fun hcall => ?_)
        cases hfree.1.symm.trans hcall
    · by_cases hji : j = i
      · subst hji
        have htrue : Function.update s.history.cancelled j true j = true := Function.update_self _ _ _
        cases htrue.symm.trans hc
      · exact (Function.update_of_ne hji _ _).symm.trans hc

/-! ### Runs -/

/-- What a run keeps to: session ids are new, a source calls back until it has ended a session
with a result that has nothing behind it or with an error, and the main loop does not run
while a source is called. -/
def Proceeds (s : Browsing μ) : BrowseEvent μ → Prop
  | .start i => s.history.started i = false
  | .emit i _ => ∀ x ∈ s.history.emitted i, x.remainingCount ≠ 0 ∧ x.error = none
  | .removeFromHash => s.wrapper.browsing = none
  | _ => True

/-- An error comes with nothing behind it. -/
def ErrorsLast : BrowseEvent μ → Prop
  | .emit _ r => r.error.isSome → r.remainingCount = 0
  | _ => True

instance (s : Browsing μ) (e : BrowseEvent μ) : Decidable (Proceeds s e) :=
  match e with
  | .start i => inferInstanceAs (Decidable (s.history.started i = false))
  | .emit i _ =>
    inferInstanceAs (Decidable (∀ x ∈ s.history.emitted i, x.remainingCount ≠ 0 ∧ x.error = none))
  | .removeFromHash => inferInstanceAs (Decidable (s.wrapper.browsing = none))
  | .browse | .refuse | .timeout _ | .browseReturn | .receiveReply | .cancelBrowse _ | .cancel | .dispatch
  | .iterate | .callbackReturn => inferInstanceAs (Decidable True)

instance (e : BrowseEvent μ) : Decidable (ErrorsLast e) :=
  match e with
  | .emit _ r => inferInstanceAs (Decidable (r.error.isSome → r.remainingCount = 0))
  | .start _ | .removeFromHash | .browse | .refuse | .timeout _ | .browseReturn | .receiveReply
  | .cancelBrowse _ | .cancel | .dispatch | .iterate | .callbackReturn => inferInstanceAs (Decidable True)

lemma sourceKeeps {e : BrowseEvent μ} (hp : Proceeds s e) (he : ErrorsLast e) : SourceKeeps s e := by
  cases e with
  | start i => exact hp
  | emit i r => exact ⟨fun x hx => (hp x hx).1, he⟩
  | _ => trivial

lemma Tables.iterate (h : Tables s) (i : Nat) (newReq : Bool) (rest : List ResultStruct) :
    Tables (s.iterate thaw i newReq rest) := by
  cases rest with
  | nil => cases newReq <;> exact h.of_same (fun _ => rfl) rfl rfl rfl rfl fun _ hi => hi
  | cons m rest =>
    cases newReq with
    | true => exact h.of_same (fun _ => rfl) rfl rfl rfl rfl fun _ hi => hi
    | false =>
      simp only [Browsing.iterate, Bool.false_eq_true, if_false]
      split <;> exact h.of_same (fun _ => rfl) rfl rfl rfl rfl fun _ hi => hi

lemma Tables.setCall (h : Tables s) (hcall : ∀ i, s.proxy.call ≠ .cancel i) (call : ProxyCall) :
    Tables (s.setCall call) :=
  h.of_same (fun _ => rfl) rfl rfl rfl rfl fun i hi => absurd hi (hcall i)

lemma Tables.step (h : Tables s) (hs : Sound thaw s) {e : BrowseEvent μ} (hp : Proceeds s e)
    (hlast : ErrorsLast e) (he : s.step freeze thaw e = some t) : Tables t := by
  cases Stepped.of_step he with
  | browse hfree =>
    refine h.setCall (fun i hi => ?_) _
    cases hfree.1.symm.trans hi
  | start hcall hnone => exact h.start hs.2 hnone hp
  | refuse hcall hnone =>
    refine h.setCall (fun i hi => ?_) _
    cases hcall.symm.trans hi
  | emit hb => exact h.emit hb (fun x hx => (hp x hx).1) hlast
  | timeout hb => exact h.write hb _ _
  | browseReturn hb => exact h.returns hs.1 hb
  | removeFromHash hidle => exact h.removeFromHash hs.1 hp hidle
  | register hcall =>
    refine h.of_same (fun _ => rfl) rfl rfl rfl rfl fun i hi => ?_
    cases hcall.symm.trans hi
  | answered hcall =>
    refine h.setCall (fun i hi => ?_) _
    rcases hcall with hcall | hcall <;> cases hcall.symm.trans hi
  | cancelBrowse hfree => exact h.cancelBrowse hfree _
  | cancel hcall => exact h.cancel hs.1 hcall
  | dispatch => exact h.of_same (fun _ => rfl) rfl rfl rfl rfl fun _ hi => hi
  | iterate hd => exact h.iterate _ _ _
  | callbackReturn hd hcall hreq =>
    split <;> exact h.of_same (fun _ => rfl) rfl rfl rfl rfl fun _ hi => hi

lemma tables_init : Tables (init : Browsing μ) := by
  refine ⟨fun i hc => (by cases hc), fun i hend hne => absurd rfl hne, fun i hst => (by cases hst), ?_⟩
  intro i r hr
  cases hr

/-- The states of the runs in which every error comes with nothing behind it. -/
def EndedReach (freeze : μ → Bytes) (thaw : Bytes → μ) (s : Browsing μ) : Prop :=
  Reach (fun s e t => s.step freeze thaw e = some t) (fun s e => Proceeds s e ∧ ErrorsLast e) init s

/-- Both ends and the tables in between. -/
structure Tracked (thaw : Bytes → μ) (s : Browsing μ) : Prop where
  sound : Sound thaw s
  tables : Tables s
  closed : ∀ i, (s.session i).Closed

lemma tracked_run (hmeta : ∀ m, thaw (freeze m) = m) (hr : EndedReach freeze thaw s) : Tracked thaw s := by
  apply hr.invariant (Tracked thaw)
  · refine ⟨sound_init, tables_init, fun i _ hend => ?_⟩
    obtain ⟨r, hr, -⟩ := hend
    cases hr
  · rintro u e w hu ⟨hp, hlast⟩ he
    have hkeeps := sourceKeeps hp hlast
    obtain ⟨-, hsession⟩ := step_simulated hu.sound.1 hu.sound.2 hkeeps he
    exact ⟨hu.sound.step hmeta hkeeps he, hu.tables.step hu.sound hp hlast he,
      fun i => (hsession i).closed (hu.sound.2 i) (hu.closed i)⟩

/-- No message of the session is in flight, and the proxy neither waits for a reply nor is in
a message. -/
structure Settled (s : Browsing μ) (i : Nat) : Prop where
  inbox : ∀ m ∈ s.inbox, m.browseId ≠ i
  dispatch : s.proxy.dispatch = .mainLoop
  call : s.proxy.call = .none

/-- The session is over at its source. -/
def Over (s : Browsing μ) (i : Nat) : Prop :=
  (∃ r ∈ s.history.emitted i, r.remainingCount = 0 ∨ r.error.isSome) ∨ s.history.cancelled i = true

lemma Tracked.over_iff (h : Tracked thaw s) (i : Nat) :
    s.Over i ↔ Session.Ended (s.history.emitted i) ∨ s.history.cancelled i = true := by
  refine or_congr_left ⟨?_, ?_⟩
  · rintro ⟨r, hr, hzero | herr⟩
    · exact ⟨r, hr, hzero⟩
    · exact ⟨r, hr, h.tables.errors i r hr herr⟩
  · rintro ⟨r, hr, hzero⟩
    exact ⟨r, hr, .inl hzero⟩

lemma Settled.userData {i : Nat} (hs : s.Settled i) (hwired : Wired s) :
    s.wrapper.userData i = s.wrapper.browseRequests i := by
  rw [SourceWrapper.userData, hwired.browsing_none (by rw [hs.call]; exact ProxyCall.noConfusion)]

lemma Settled.off {i : Nat} (hs : s.Settled i) : (s.session i).dispatch = .off := by
  rw [session, hs.dispatch]
  rfl

/-- The proxy has forgotten a session that is over and settled, and the wrapper forgets it as
soon as the main loop runs. -/
lemma Tracked.settled_over (h : Tracked thaw s) {i : Nat} (hs : s.Settled i) (hover : s.Over i) :
    s.proxy.browseRequests i = none ∧ (i ∈ s.wrapper.idle ∨ s.wrapper.browseRequests i = none) := by
  have hv := h.sound.2 i
  have hdata := hs.userData h.sound.1
  have hoff := hs.off
  rw [h.over_iff] at hover
  by_cases hc : s.history.cancelled i = true
  · refine ⟨?_, .inr ?_⟩
    · cases hreq : s.proxy.browseRequests i with
      | none => rfl
      | some req => cases hc.symm.trans (hv.remembered_off hoff hreq).2
    · rw [← hdata]
      refine (h.tables.gone i hc).resolve_left fun hcall => ?_
      cases hs.call.symm.trans hcall
  · rw [Bool.not_eq_true] at hc
    have hend : Session.Ended (s.history.emitted i) :=
      hover.resolve_right fun htrue => (by cases hc.symm.trans htrue)
    constructor
    · have hdel := h.sound.complete hc hend hs.inbox hs.dispatch
      have hend' : Session.Ended (s.session i).delivered := by
        obtain ⟨r, hr, hzero⟩ := hend
        refine ⟨r.normal, ?_, hzero⟩
        change r.normal ∈ s.history.delivered i
        rw [hdel]
        exact List.mem_map_of_mem hr
      rcases h.closed i hc hend' with hreq | ⟨rest, hd⟩
      · exact hreq
      · cases hoff.symm.trans hd
    · by_cases hmem : s.wrapper.browseRequests i = none
      · exact .inr hmem
      · exact .inl (h.tables.leaving i hend (by rwa [hdata]))

lemma Tracked.settled_goes (h : Tracked thaw s) {i : Nat} (hs : s.Settled i) (hgoes : ¬s.Over i)
    (hst : s.history.started i = true) :
    s.proxy.browseRequests i ≠ none ∧ s.wrapper.browseRequests i ≠ none ∧ i ∉ s.wrapper.idle := by
  have hwired := h.sound.1
  have hv := h.sound.2 i
  rw [h.over_iff] at hgoes
  obtain ⟨hend, hc⟩ := not_or.mp hgoes
  rw [Bool.not_eq_true] at hc
  refine ⟨?_, ?_, fun hmem => hend (hwired.idle i hmem)⟩
  · rcases hv.known hst hc with hop | hreq | ⟨r, hr, hzero⟩
    · cases (hwired.closed hs.call i).symm.trans hop
    · exact hreq
    · obtain ⟨x, hx, rfl⟩ := List.mem_map.mp (hv.isPrefix.subset hr)
      exact absurd ⟨x, hx, hzero⟩ hend
  · rw [← hs.userData hwired]
    exact h.tables.kept i hst hc hend

/-- When nothing of a session is under way, the proxy has it exactly when the wrapper has it
and no removal of it is queued; and a session that is over is gone from both tables once the
main loop has removed it. -/
theorem tables_agree (hmeta : ∀ m, thaw (freeze m) = m) (hr : EndedReach freeze thaw s) {i : Nat}
    (hs : s.Settled i) :
    (s.proxy.browseRequests i ≠ none ↔ s.wrapper.browseRequests i ≠ none ∧ i ∉ s.wrapper.idle) ∧
      (s.Over i → s.proxy.browseRequests i = none ∧
        (i ∉ s.wrapper.idle → s.wrapper.browseRequests i = none)) := by
  have h := tracked_run hmeta hr
  refine ⟨?_, fun ho => (h.settled_over hs ho).imp_right fun hentry hidle => hentry.resolve_left hidle⟩
  by_cases ho : s.Over i
  · obtain ⟨hreq, hentry⟩ := h.settled_over hs ho
    constructor
    · intro hne
      exact absurd hreq hne
    · rintro ⟨hne, hidle⟩
      exact absurd (hentry.resolve_left hidle) hne
  · cases hst : s.history.started i with
    | true =>
      obtain ⟨hreq, hentry⟩ := h.settled_goes hs ho hst
      exact ⟨fun _ => hentry, fun _ => hreq⟩
    | false =>
      have hinit := (h.sound.2 i).untouched hst
      have hreq : s.proxy.browseRequests i = none := congrArg Session.req hinit
      constructor
      · intro hne
        exact absurd hreq hne
      · rintro ⟨hne, -⟩
        obtain ⟨b, hb⟩ := Option.ne_none_iff_exists'.mp hne
        have hdata : s.wrapper.userData i = some b := (hs.userData h.sound.1).trans hb
        cases hst.symm.trans (h.sound.1.data i b hdata).2

/-- A session that ends with an error that has nothing behind it, and one that the callback
cancels. -/
theorem tables_agree_twoSessions : ∃ s : Browsing Bytes, EndedReach id id s ∧ s.Settled 7 ∧ s.Settled 8 ∧
    s.proxy.browseRequests 7 = none ∧ s.proxy.browseRequests 8 = none := by
  have hrun : (runEvents (step id id) (fun s e => Proceeds s e ∧ ErrorsLast e) (init : Browsing Bytes)
      [.browse, .start 7, .emit 7 ⟨1, 0, none, [109], none⟩, .browseReturn, .receiveReply,
        .emit 7 ⟨0, 1, none, [110], some ⟨[101], by decide, -5, [120]⟩⟩, .removeFromHash, .browse, .start 8,
        .browseReturn, .receiveReply, .emit 8 ⟨3, 0, none, [111], none⟩, .timeout 8, .dispatch, .iterate,
        .callbackReturn, .iterate, .callbackReturn, .dispatch, .iterate, .cancelBrowse 8, .cancel,
        .receiveReply, .callbackReturn]).map
        (fun s => (s.inbox, decide (s.proxy.dispatch = .mainLoop), decide (s.proxy.call = .none),
          decide (∃ r ∈ s.history.emitted 7, r.remainingCount = 0), s.history.cancelled 8)) =
      some ([], true, true, true, true) := by
    decide +kernel
  obtain ⟨s, hs, heq⟩ := Option.map_eq_some_iff.mp hrun
  simp only [Prod.mk.injEq, decide_eq_true_eq] at heq
  obtain ⟨hin, hmain, hcall, ⟨r, hr, hzero⟩, hcancelled⟩ := heq
  have hsettled : ∀ i, s.Settled i := by
    refine fun i => ⟨fun m hm => ?_, hmain, hcall⟩
    rw [hin] at hm
    cases hm
  have hreach : EndedReach id id s := reach_of_runEvents hs
  exact ⟨s, hreach, hsettled 7, hsettled 8,
    ((tables_agree (fun _ => rfl) hreach (hsettled 7)).2 (.inl ⟨r, hr, .inl hzero⟩)).1,
    ((tables_agree (fun _ => rfl) hreach (hsettled 8)).2 (.inr hcancelled)).1⟩

/-- An error with results behind it: the wrapper has dropped the session, the proxy keeps it. -/
theorem tables_disagree : ∃ s : Browsing Bytes,
    Reach (fun s e t => s.step id id e = some t) Proceeds init s ∧ s.Settled 7 ∧ s.Over 7 ∧
      s.wrapper.idle = [] ∧ s.wrapper.browseRequests 7 = none ∧ s.proxy.browseRequests 7 ≠ none := by
  have hrun : (runEvents (step id id) Proceeds (init : Browsing Bytes)
      [.browse, .start 7, .browseReturn, .receiveReply,
        .emit 7 ⟨5, 0, none, [110], some ⟨[101], by decide, -5, [120]⟩⟩, .removeFromHash, .dispatch, .iterate,
        .callbackReturn, .iterate]).map
        (fun s => (s.inbox, decide (s.proxy.dispatch = .mainLoop), decide (s.proxy.call = .none),
          decide (∃ r ∈ s.history.emitted 7, r.remainingCount = 0 ∨ r.error.isSome),
          decide (s.wrapper.idle = [] ∧ s.wrapper.browseRequests 7 = none ∧
            s.proxy.browseRequests 7 = some ⟨false, false⟩))) =
      some ([], true, true, true, true) := by
    decide +kernel
  obtain ⟨s, hs, heq⟩ := Option.map_eq_some_iff.mp hrun
  simp only [Prod.mk.injEq, decide_eq_true_eq] at heq
  obtain ⟨hin, hmain, hcall, hover, hidle, hentry, hreq⟩ := heq
  refine ⟨s, reach_of_runEvents hs, ⟨fun m hm => ?_, hmain, hcall⟩, .inl hover, hidle, hentry, ?_⟩
  · rw [hin] at hm
    cases hm
  · rw [hreq]
    exact Option.some_ne_none _

end Browsing

end MafwShared
