import MafwShared.Lib.Runs
import MafwShared.RendererWrapper

/-!
# What clients hear about buffering

A timer that runs always carries the latest update, so that nothing older is ever sent. Two
comparisons disagree about which status means that buffering is complete: the one that starts
a timer looks for `100.0`, and the one that sends at once and stops the timer looks for `1.0`.
-/

namespace MafwShared.RendererWrapper
open CLib

/-- The statuses among what is sent. -/
def statuses {σ : Type} (sent : List (RendererSignal σ)) : List σ :=
  sent.filterMap fun
    | .bufferingInfo status => some status
    | .stateChanged _ => none

/-- A renderer with what was forwarded, and what happened since the latest update. -/
structure Watched (σ : Type) where
  renderer : Renderer σ
  forwarded : List σ
  latest : Option σ
  /-- What was forwarded at the latest update and after it. -/
  since : List σ
  /-- There was a state change after the latest update. -/
  changed : Bool

namespace Watched
variable {σ : Type} [DecidableEq σ] (c : Statuses σ) (ids : IdSupply)

def start : Watched σ :=
  { renderer := .connect c, forwarded := [], latest := none, since := [], changed := false }

def next (w : Watched σ) (e : RendererEvent σ) : Watched σ :=
  let (renderer, sent) := w.renderer.handle c ids e
  let forwarded := w.forwarded ++ statuses sent
  match e with
  | .update status =>
    { renderer := renderer, forwarded := forwarded, latest := some status, since := statuses sent, changed := false }
  | .expire _ =>
    { w with renderer := renderer, forwarded := forwarded, since := w.since ++ statuses sent }
  | .stateChanged _ =>
    { w with
      renderer := renderer, forwarded := forwarded, since := w.since ++ statuses sent, changed := true }

def run (events : List (RendererEvent σ)) : Watched σ := events.foldl (next c ids) (start c)

/-- No throttle timer is pending. -/
def Idle (w : Watched σ) : Prop := ∀ id, w.renderer.timeouts.pending id = none

/-- A complete update has been forwarded once, at once, and nothing after it; nothing older than
the latest update has been forwarded after it; and without a timer, unless the state changed,
the latest update is what was forwarded last. -/
structure Faithful (w : Watched σ) : Prop where
  complete : w.latest = some c.complete → w.since = [c.complete]
  current : ∀ status ∈ w.since, w.latest = some status
  settled : w.Idle → w.changed = false → ∀ status, w.latest = some status → w.forwarded.getLast? = some status

end Watched

/-- No timer expires while a complete status is remembered, and an update of `100.0` that comes
without a timer finds this status remembered. -/
def RendererEvent.Harmless {σ : Type} (c : Statuses σ) (r : Renderer σ) : RendererEvent σ → Prop
  | .update status =>
    status = c.hundred → (∀ id, r.timeouts.pending id = none) → r.bufdata.lastState = c.hundred
  | .expire id => r.timeouts.pending id ≠ none → r.bufdata.lastState ≠ c.complete
  | .stateChanged _ => True

/-! ### What a call does -/

namespace Renderer
variable {σ : Type} [DecidableEq σ] {c : Statuses σ} {ids : IdSupply} {r : Renderer σ} {status : σ}

lemma bufferingInfo_started (hid : r.bufdata.bufferingInfoId = 0) (hs : status ≠ c.hundred) :
    r.bufferingInfo c ids status =
      (⟨⟨(r.timeouts.add ids ()).1, status⟩, (r.timeouts.add ids ()).2⟩, [.bufferingInfo status]) := by
  rw [bufferingInfo, if_pos ⟨hs, hid⟩]

lemma bufferingInfo_complete (hid : r.bufdata.bufferingInfoId ≠ 0) :
    r.bufferingInfo c ids c.complete =
      (⟨⟨0, c.complete⟩, (r.timeouts.remove r.bufdata.bufferingInfoId).2⟩, [.bufferingInfo c.complete]) := by
  rw [bufferingInfo, if_neg fun h => hid h.2, if_pos rfl, removeBufferingTout, if_pos hid]

lemma bufferingInfo_remembered (hid : ¬(status ≠ c.hundred ∧ r.bufdata.bufferingInfoId = 0))
    (hs : status ≠ c.complete) :
    r.bufferingInfo c ids status = (⟨⟨r.bufdata.bufferingInfoId, status⟩, r.timeouts⟩, []) := by
  rw [bufferingInfo, if_neg hid, if_neg hs]

end Renderer

/-- One event, case by case. -/
inductive BufferingStep {σ : Type} [DecidableEq σ] (c : Statuses σ) (ids : IdSupply) (w : Watched σ) :
    RendererEvent σ → Watched σ → Prop
  | started {status : σ} (hid : w.renderer.bufdata.bufferingInfoId = 0) (hs : status ≠ c.hundred) :
    BufferingStep c ids w (.update status)
      { renderer := ⟨⟨(w.renderer.timeouts.add ids ()).1, status⟩, (w.renderer.timeouts.add ids ()).2⟩
        forwarded := w.forwarded ++ [status], latest := some status, since := [status], changed := false }
  | completed (hid : w.renderer.bufdata.bufferingInfoId ≠ 0) :
    BufferingStep c ids w (.update c.complete)
      { renderer := ⟨⟨0, c.complete⟩, (w.renderer.timeouts.remove w.renderer.bufdata.bufferingInfoId).2⟩
        forwarded := w.forwarded ++ [c.complete], latest := some c.complete, since := [c.complete]
        changed := false }
  | remembered {status : σ} (hid : w.renderer.bufdata.bufferingInfoId ≠ 0) (hs : status ≠ c.complete) :
    BufferingStep c ids w (.update status)
      { renderer := ⟨⟨w.renderer.bufdata.bufferingInfoId, status⟩, w.renderer.timeouts⟩
        forwarded := w.forwarded, latest := some status, since := [], changed := false }
  /-- Nothing is sent and no timer is started. -/
  | swallowed (hid : w.renderer.bufdata.bufferingInfoId = 0) :
    BufferingStep c ids w (.update c.hundred)
      { renderer := ⟨⟨w.renderer.bufdata.bufferingInfoId, c.hundred⟩, w.renderer.timeouts⟩
        forwarded := w.forwarded, latest := some c.hundred, since := [], changed := false }
  | expired {id : Nat} (hid : w.renderer.timeouts.pending id = some ()) :
    BufferingStep c ids w (.expire id)
      { w with
        renderer := ⟨⟨0, w.renderer.bufdata.lastState⟩, (w.renderer.timeouts.remove id).2⟩
        forwarded := w.forwarded ++ [w.renderer.bufdata.lastState]
        since := w.since ++ [w.renderer.bufdata.lastState] }
  | nothing {id : Nat} (hid : w.renderer.timeouts.pending id = none) : BufferingStep c ids w (.expire id) w
  | stopped {state : Int32} (hid : w.renderer.bufdata.bufferingInfoId ≠ 0) :
    BufferingStep c ids w (.stateChanged state)
      { w with
        renderer := ⟨⟨0, c.zero⟩, (w.renderer.timeouts.remove w.renderer.bufdata.bufferingInfoId).2⟩
        changed := true }
  | stateChanged {state : Int32} (hid : w.renderer.bufdata.bufferingInfoId = 0) :
    BufferingStep c ids w (.stateChanged state) { w with changed := true }

namespace Watched
variable {σ : Type} [DecidableEq σ] {c : Statuses σ} {ids : IdSupply} {w w' : Watched σ}

lemma next_update (status : σ) {r : Renderer σ} {sent : List (RendererSignal σ)}
    (h : w.renderer.bufferingInfo c ids status = (r, sent)) :
    w.next c ids (.update status) =
      { renderer := r, forwarded := w.forwarded ++ statuses sent, latest := some status, since := statuses sent
        changed := false } := by
  simp only [next, Renderer.handle, h]

lemma next_step (w : Watched σ) (e : RendererEvent σ) : BufferingStep c ids w e (w.next c ids e) := by
  cases e with
  | update status =>
    by_cases hstart : status ≠ c.hundred ∧ w.renderer.bufdata.bufferingInfoId = 0
    · rw [next_update status (Renderer.bufferingInfo_started hstart.2 hstart.1)]
      exact .started hstart.2 hstart.1
    · by_cases hs : status = c.complete
      · subst hs
        have hid : w.renderer.bufdata.bufferingInfoId ≠ 0 := fun hid => hstart ⟨c.hundred_ne_complete.symm, hid⟩
        rw [next_update c.complete (Renderer.bufferingInfo_complete hid)]
        exact .completed hid
      · rw [next_update status (Renderer.bufferingInfo_remembered hstart hs), statuses, List.filterMap_nil,
          List.append_nil]
        by_cases hid : w.renderer.bufdata.bufferingInfoId = 0
        · have hhundred : status = c.hundred := by
            by_contra hne
            exact hstart ⟨hne, hid⟩
          subst hhundred
          exact .swallowed hid
        · exact .remembered hid hs
  | expire id =>
    cases hid : w.renderer.timeouts.pending id with
    | none =>
      have hnext : w.next c ids (.expire id) = w := by
        simp only [next, Renderer.handle, hid, statuses, List.filterMap_nil, List.append_nil]
      rw [hnext]
      exact .nothing hid
    | some u =>
      have hstep : BufferingStep c ids w (.expire id) _ := .expired hid
      simp only [next, Renderer.handle, hid]
      exact hstep
  | stateChanged state =>
    have hnone : statuses [RendererSignal.stateChanged (σ := σ) state] = [] := rfl
    simp only [next, Renderer.handle, Renderer.stateChanged, Renderer.removeBufferingTout, hnone,
      List.append_nil]
    by_cases hid : w.renderer.bufdata.bufferingInfoId = 0
    · rw [if_neg (not_not.mpr hid)]
      exact .stateChanged hid
    · rw [if_pos hid]
      exact .stopped hid

/-! ### The timer carries the latest update -/

structure Consistent (w : Watched σ) : Prop where
  records : w.renderer.timeouts.Records () w.renderer.bufdata.bufferingInfoId
  latest : w.renderer.bufdata.bufferingInfoId ≠ 0 → w.latest = some w.renderer.bufdata.lastState
  current : ∀ status ∈ w.since, w.latest = some status

omit [DecidableEq σ] in
lemma start_consistent : (start c).Consistent :=
  ⟨Timeouts.records_empty, fun h => absurd rfl h, fun _ h => absurd h List.not_mem_nil⟩

omit [DecidableEq σ] in
lemma Consistent.idle_iff (h : w.Consistent) : w.Idle ↔ w.renderer.bufdata.bufferingInfoId = 0 := by
  refine ⟨fun hidle => ?_, fun hid id => ?_⟩
  · by_contra hid
    exact Option.some_ne_none _ ((h.records.pending_eq hid).symm.trans (hidle _))
  · have hrecords := h.records
    rw [hid] at hrecords
    exact Option.eq_none_iff_forall_ne_some.mpr fun _ => Timeouts.records_zero_iff.mp hrecords id

lemma step_consistent (h : w.Consistent) {e : RendererEvent σ} (hw : BufferingStep c ids w e w') :
    w'.Consistent := by
  have hremoved := h.records.remove_self
  cases hw with
  | started hid hs =>
    have hnone := h.records
    rw [hid] at hnone
    refine ⟨hnone.add_self, fun _ => rfl, fun v hv => ?_⟩
    rw [List.mem_singleton.mp hv]
  | completed hid =>
    refine ⟨hremoved, fun h0 => absurd rfl h0, fun v hv => ?_⟩
    rw [List.mem_singleton.mp hv]
  | remembered | swallowed => exact ⟨h.records, fun _ => rfl, fun _ hv => absurd hv List.not_mem_nil⟩
  | expired hid =>
    have hself := h.records.eq_of_pending hid
    rw [← hself] at hremoved
    refine ⟨hremoved, fun h0 => absurd rfl h0, fun v hv => ?_⟩
    rcases List.mem_append.mp hv with hv | hv
    · exact h.current v hv
    · rw [List.mem_singleton.mp hv]
      exact h.latest (h.records.ne_zero_of_pending hid)
  | nothing => exact h
  | stopped => exact ⟨hremoved, fun h0 => absurd rfl h0, h.current⟩
  | stateChanged => exact ⟨h.records, h.latest, h.current⟩

/-! ### Which events keep the promise -/

/-- Where `100.0` was forwarded last: never while a timer runs, and without one exactly when it is
the status that is remembered. -/
structure Recalls (c : Statuses σ) (w : Watched σ) : Prop where
  timed : w.renderer.bufdata.bufferingInfoId ≠ 0 → w.forwarded.getLast? ≠ some c.hundred
  idle : w.renderer.bufdata.bufferingInfoId = 0 →
    (w.renderer.bufdata.lastState = c.hundred ↔ w.forwarded.getLast? = some c.hundred)

omit [DecidableEq σ] in
lemma start_recalls : (start c).Recalls c :=
  ⟨fun h => absurd rfl h, fun _ => iff_of_false c.hundred_ne_zero.symm fun h => nomatch h⟩

/-- A swallowed `100.0` counts on the promise that was kept. -/
lemma step_recalls (h : w.Consistent) (hr : w.Recalls c) {e : RendererEvent σ}
    (hw : BufferingStep c ids w e w') (hf : w'.Faithful c) : w'.Recalls c := by
  have h' := step_consistent h hw
  cases hw with
  | started hid hs =>
    refine ⟨fun _ hlast => ?_, fun h0 => absurd h0 (Timeouts.add_ne_zero (x := ()))⟩
    exact hs (Option.some.inj (List.getLast?_concat.symm.trans hlast))
  | completed =>
    refine ⟨fun h0 => absurd rfl h0, fun _ => iff_of_false c.hundred_ne_complete.symm fun hlast => ?_⟩
    exact c.hundred_ne_complete (Option.some.inj (List.getLast?_concat.symm.trans hlast)).symm
  | remembered hid => exact ⟨hr.timed, fun h0 => absurd h0 hid⟩
  | swallowed hid =>
    refine ⟨hr.timed, fun h0 => iff_of_true rfl ?_⟩
    exact hf.settled (h'.idle_iff.mpr h0) rfl c.hundred rfl
  | expired =>
    refine ⟨fun h0 => absurd rfl h0, fun _ => ?_⟩
    rw [List.getLast?_concat, Option.some.injEq]
  | nothing => exact hr
  | stopped hid => exact ⟨fun h0 => absurd rfl h0, fun _ => iff_of_false c.hundred_ne_zero.symm (hr.timed hid)⟩
  | stateChanged => exact ⟨hr.timed, hr.idle⟩

lemma step_faithful_iff (h : w.Consistent) (hr : w.Recalls c) (hf : w.Faithful c) {e : RendererEvent σ}
    (hw : BufferingStep c ids w e w') : w'.Faithful c ↔ e.Harmless c w.renderer := by
  have h' := step_consistent h hw
  cases hw with
  | @started status hid hs =>
    refine iff_of_true ⟨fun he => ?_, h'.current, fun hidle => ?_⟩ fun he => absurd he hs
    · rw [Option.some.inj he]
    · exact absurd (h'.idle_iff.mp hidle) (Timeouts.add_ne_zero (x := ()))
  | completed hid =>
    refine iff_of_true ⟨fun _ => rfl, h'.current, fun _ _ v hv => ?_⟩ fun he =>
      absurd he c.hundred_ne_complete.symm
    rw [← hv]
    exact List.getLast?_concat
  | @remembered status hid hs =>
    refine iff_of_true ⟨fun he => absurd (Option.some.inj he) hs, h'.current, fun hidle => ?_⟩ fun _ hidle => ?_
    · exact absurd (h'.idle_iff.mp hidle) hid
    · exact absurd (h.idle_iff.mp hidle) hid
  | swallowed hid =>
    -- the update is the latest one now, and what was forwarded last is what it was before
    refine ⟨fun hw' _ hidle => ?_, fun hlast => ⟨fun he => ?_, h'.current, fun hidle _ v hv => ?_⟩⟩
    · exact (hr.idle hid).mpr (hw'.settled hidle rfl c.hundred rfl)
    · exact absurd (Option.some.inj he) c.hundred_ne_complete
    · rw [← hv]
      exact (hr.idle hid).mp (hlast rfl hidle)
  | @expired id hid =>
    have htimer := h.records.ne_zero_of_pending hid
    have hlatest := h.latest htimer
    have hpending : w.renderer.timeouts.pending id ≠ none := fun hnone => nomatch hid.symm.trans hnone
    refine ⟨fun hw' _ he => ?_, fun hlast => ⟨fun he => ?_, h'.current, fun _ _ v hv => ?_⟩⟩
    · have hcomplete : w.latest = some c.complete := he ▸ hlatest
      have hsince := hf.complete hcomplete
      have htwice := hw'.complete hcomplete
      dsimp only at htwice
      rw [hsince] at htwice
      cases htwice
    · exact absurd (Option.some.inj (hlatest.symm.trans he)) (hlast hpending)
    · dsimp only at hv ⊢
      rw [← hv, hlatest]
      exact List.getLast?_concat
  | nothing hid => exact iff_of_true hf fun hpending => absurd hid hpending
  | stopped | stateChanged => exact iff_of_true ⟨hf.complete, hf.current, fun _ hc => nomatch hc⟩ trivial

omit [DecidableEq σ] in
lemma start_faithful : (start c).Faithful c :=
  ⟨fun he => absurd he.symm (Option.some_ne_none _), fun _ h => absurd h List.not_mem_nil,
    fun _ _ v h => absurd h.symm (Option.some_ne_none v)⟩

end Watched

/-- Along every run, what clients hear about buffering is faithful exactly when no timer expires
while a complete status is remembered and no update of `100.0` is swallowed. -/
theorem buffering_throttle {σ : Type} [DecidableEq σ] (c : Statuses σ) (ids : IdSupply)
    (events : List (RendererEvent σ)) :
    (∀ n, (Watched.run c ids (events.take n)).Faithful c) ↔
      ∀ n (e : RendererEvent σ), events[n]? = some e →
        e.Harmless c (Watched.run c ids (events.take n)).renderer :=
  forall_take_iff (fun w => w.Consistent ∧ w.Recalls c) (fun w e => e.Harmless c w.renderer)
    ⟨Watched.start_consistent, Watched.start_recalls⟩ Watched.start_faithful
    (fun w e h hf => ⟨Watched.step_consistent h.1 (w.next_step e), Watched.step_recalls h.1 h.2 (w.next_step e) hf⟩)
    (fun w e h hf => Watched.step_faithful_iff h.1 h.2 hf (w.next_step e)) events

/-- A complete update that starts a timer is sent again when it expires, and an update of
`100.0` is not sent at all. -/
theorem buffering_throttle_misses :
    let c : Statuses Nat := ⟨0, 1, 100, by decide, by decide⟩
    (Watched.run c .ascending [.update 1, .expire 1]).forwarded = [1, 1] ∧
    ¬(Watched.run c .ascending [.update 1, .expire 1]).Faithful c ∧
    (Watched.run c .ascending [.update 100]).forwarded = [] ∧
    ¬(Watched.run c .ascending [.update 100]).Faithful c := by
  refine ⟨by decide, fun h => ?_, by decide, fun h => ?_⟩
  · exact absurd (h.complete rfl) (by decide)
  · have hlast := h.settled (fun id => AList.lookup_empty id) rfl 100 rfl
    cases hlast

end MafwShared.RendererWrapper
