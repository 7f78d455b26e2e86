import MafwShared.Proofs.ActivationCounts

/-!
# What is exported

A run remembers the events it has handled. What `Exports` should contain can be read off
them: the extensions with a successful export that no removal follows. Removing an extension
without an entry is the one step that breaks this, because the loop of `wrapper_unexport` then
leaves its variable on the entry of another one.
-/

namespace MafwShared.ExtensionWrapper
open CLib

/-- The last export of the extension succeeded, and it was not removed since. -/
def ExportedBy (events : List Event) (ext : Extension) : Prop :=
  ∃ before after, events = before ++ .added ext false .exported :: after ∧ .removed ext false ∉ after

/-- `Exports` as it should be after these events. -/
structure Recorded (w : Wrapper) (events : List Event) : Prop where
  live : ∀ ecomp ∈ w.exports, ecomp.freed = false
  once : (w.exports.map ExportedComponent.comp).Nodup
  exact : ∀ ext, w.Exported ext ↔ ExportedBy events ext

/-- A removal takes the entry of the extension out, its object path and its service name off the bus, and
stops watching clients. Without an entry it does nothing. -/
def RemovesEntry (w : Wrapper) (ext : Extension) : Prop :=
  if w.Exported ext then
    ∃ w' calls, w.handle (.removed ext false) =
        some (w', .unregisterObjectPath ext :: .releaseName ext :: calls) ∧
      w'.exports = w.exports.erase ⟨ext, false⟩ ∧ ∀ call ∈ calls, ∃ name, call = .removeMatch name
  else w.handle (.removed ext false) = some (w, [])

/-- What is removed is exported, unless nothing is. -/
def RemovesExported (w : Wrapper) : Event → Prop
  | .removed ext false => w.Exported ext ∨ w.exports = []
  | _ => True

instance (w : Wrapper) : (e : Event) → Decidable (RemovesExported w e)
  | .removed ext false => inferInstanceAs (Decidable (w.Exported ext ∨ w.exports = []))
  | .removed _ true | .added _ _ _ | .setProperty _ _ _ _ | .nameOwnerChanged _ _ _ => .isTrue trivial

variable {w w' : Wrapper} {es : List Event}

/-! ### The history -/

lemma exportedBy_snoc {e : Event} {ext : Extension} : ExportedBy (es ++ [e]) ext ↔
    e = .added ext false .exported ∨ ExportedBy es ext ∧ e ≠ .removed ext false := by
  constructor
  · rintro ⟨before, after, heq, hnot⟩
    rcases List.eq_nil_or_concat after with rfl | ⟨after, e', rfl⟩
    · obtain ⟨-, he⟩ := List.append_inj' heq rfl
      exact .inl (List.singleton_inj.mp he)
    · rw [List.concat_eq_append, ← List.cons_append, ← List.append_assoc] at heq
      rw [List.concat_eq_append, List.mem_append, List.mem_singleton, not_or] at hnot
      obtain ⟨hes, he⟩ := List.append_inj' heq rfl
      refine .inr ⟨⟨before, after, hes, hnot.1⟩, ?_⟩
      rw [List.singleton_inj.mp he]
      exact fun hr => hnot.2 hr.symm
  · rintro (rfl | ⟨⟨before, after, rfl, hnot⟩, hne⟩)
    · exact ⟨es, [], rfl, List.not_mem_nil⟩
    · refine ⟨before, after ++ [e], by simp, ?_⟩
      rw [List.mem_append, List.mem_singleton, not_or]
      exact ⟨hnot, hne.symm⟩

lemma Recorded.unchanged (h : Recorded w es) {e : Event} (hexports : w'.exports = w.exports)
    (hadded : ∀ ext, e = .added ext false .exported → w.Exported ext)
    (hremoved : ∀ ext, e = .removed ext false → ¬w.Exported ext) : Recorded w' (es ++ [e]) := by
  refine ⟨by rw [hexports]; exact h.live, by rw [hexports]; exact h.once, fun ext => ?_⟩
  rw [exported_congr hexports, exportedBy_snoc, ← h.exact]
  constructor
  · exact fun hexp => .inr ⟨hexp, fun he => hremoved ext he hexp⟩
  · rintro (he | ⟨hexp, -⟩)
    · exact hadded ext he
    · exact hexp

lemma Recorded.exported_new (h : Recorded w es) {ext : Extension} (hexp : ¬w.Exported ext) :
    Recorded { w with exports := ⟨ext, false⟩ :: w.exports } (es ++ [.added ext false .exported]) := by
  refine ⟨fun ecomp hmem => ?_, ?_, fun o => ?_⟩
  · rcases List.mem_cons.mp hmem with rfl | hmem
    · rfl
    · exact h.live ecomp hmem
  · rw [List.map_cons, List.nodup_cons]
    exact ⟨fun hmem => hexp ((exported_iff h.live ext).mpr hmem), h.once⟩
  · rw [exportedBy_snoc, ← h.exact]
    simp [Wrapper.Exported, eq_comm]

/-! ### Removals -/

lemma eraseP_comp (hlive : ∀ ecomp ∈ w.exports, ecomp.freed = false) (comp : Extension) :
    (w.exports.eraseP fun ecomp => ecomp.comp = comp) = w.exports.erase ⟨comp, false⟩ := by
  generalize w.exports = exports at hlive
  induction exports with
  | nil => rfl
  | cons ecomp rest ih =>
    obtain ⟨c, freed⟩ := ecomp
    have hfreed : freed = false := hlive _ List.mem_cons_self
    subst hfreed
    by_cases hc : c = comp
    · subst hc
      simp
    · rw [List.eraseP_cons_of_neg (by simpa using hc), List.erase_cons_tail (by simpa using hc),
        ih fun e he => hlive e (List.mem_cons_of_mem _ he)]

lemma removeExtension_calls (comp : Extension) (uiIds : List Client) (w : Wrapper) :
    ∀ call ∈ (Wrapper.removeExtension comp uiIds w).2, ∃ name, call = .removeMatch name := by
  induction uiIds generalizing w with
  | nil => exact fun call hmem => absurd hmem List.not_mem_nil
  | cons uiId uiIds ih =>
    intro call hmem
    rw [Wrapper.removeExtension] at hmem
    rcases List.mem_append.mp hmem with hmem | hmem
    · unfold Wrapper.removeObjectFromList at hmem
      dsimp only at hmem
      split at hmem
      · exact ⟨uiId, List.mem_singleton.mp hmem⟩
      · exact absurd hmem List.not_mem_nil
    · exact ih _ call hmem

lemma Recorded.removesEntry (h : Recorded w es) {ext : Extension} (hexp : w.Exported ext) :
    RemovesEntry w ext := by
  have hspec := extensionDeregister_spec
    { w with exports := w.exports.eraseP fun ecomp => ecomp.comp = ext } ext
  have hcalls : ∀ call ∈ ({ w with exports := w.exports.eraseP fun ecomp => ecomp.comp = ext
      }.extensionDeregister ext).2, ∃ name, call = .removeMatch name := removeExtension_calls ext _ _
  generalize hr : { w with exports := w.exports.eraseP fun ecomp => ecomp.comp = ext
    }.extensionDeregister ext = r at hspec hcalls
  rw [RemovesEntry, if_pos hexp]
  refine ⟨r.1, r.2, ?_, hspec.exports.trans (eraseP_comp h.live ext), hcalls⟩
  change w.wrapperUnexport ext = _
  rw [Wrapper.wrapperUnexport, findExport_live h.live, decide_eq_true hexp, ← hr]

/-- Without an entry for the extension, nothing happens only when there is no entry at all. -/
lemma removesEntry_unexported (hlive : ∀ ecomp ∈ w.exports, ecomp.freed = false) {ext : Extension}
    (hexp : ¬w.Exported ext) : RemovesEntry w ext ↔ w.exports = [] := by
  rw [RemovesEntry, if_neg hexp]
  change w.wrapperUnexport ext = _ ↔ _
  rw [Wrapper.wrapperUnexport, findExport_live hlive, decide_eq_false hexp]
  dsimp only
  cases hlast : w.exports.getLast? with
  | none => exact ⟨fun _ => List.getLast?_eq_none_iff.mp hlast, fun _ => rfl⟩
  | some ecomp =>
    constructor
    · intro he
      have hcalls := congrArg Prod.snd (Option.some.inj he)
      cases hcalls
    · intro hnil
      rw [hnil] at hlast
      cases hlast

lemma Recorded.removed (h : Recorded w es) {ext : Extension}
    (hw : w'.exports = w.exports.erase ⟨ext, false⟩) : Recorded w' (es ++ [.removed ext false]) := by
  have hlive : ∀ ecomp ∈ w'.exports, ecomp.freed = false := by
    intro ecomp hmem
    rw [hw] at hmem
    exact h.live ecomp (List.mem_of_mem_erase hmem)
  have hcomps : w'.exports.map ExportedComponent.comp = (w.exports.map ExportedComponent.comp).erase ext := by
    rw [hw, ← eraseP_comp h.live]
    exact map_eraseP_comp w.exports ext
  refine ⟨hlive, ?_, fun o => ?_⟩
  · rw [hcomps]
    exact h.once.erase ext
  · rw [exported_iff hlive, hcomps, h.once.mem_erase_iff, ← exported_iff h.live, h.exact, exportedBy_snoc]
    simp [and_comm, eq_comm]

/-! ### Requests of the clients -/

lemma unregisterClient_exports (w : Wrapper) (object : Extension) (name : Client) :
    (w.unregisterClient object name).1.exports = w.exports := by
  unfold Wrapper.unregisterClient
  split
  · exact (decreaseMafwcount_fields _ object).1
  · rfl

lemma unregisterAll_exports (name : Client) (rounds : Nat) (w : Wrapper) :
    (Wrapper.unregisterAll name rounds w).1.exports = w.exports := by
  induction rounds generalizing w with
  | zero => rfl
  | succ rounds ih =>
    rw [Wrapper.unregisterAll]
    split
    · rfl
    · exact (ih _).trans (unregisterClient_exports w _ name)

lemma handleSetProperty_exports (w : Wrapper) (client : Client) (comp : Extension) (s : Setting)
    (accepted : Bool) : (w.handleSetProperty client comp s accepted).1.exports = w.exports := by
  cases s with
  | other => rfl
  | activate value =>
    cases value with
    | false => exact unregisterClient_exports w comp client
    | true =>
      cases accepted with
      | false => rfl
      | true =>
        by_cases hmem : comp ∈ w.activated client
        · simp [Wrapper.handleSetProperty, Wrapper.registerClient, hmem]
        · simp [Wrapper.handleSetProperty, Wrapper.registerClient, hmem, Wrapper.increaseMafwcount]

/-! ### Runs -/

lemma handleClientExits_exports (w : Wrapper) (name oldname newname : Client) :
    (w.handleClientExits name oldname newname).1.exports = w.exports := by
  unfold Wrapper.handleClientExits
  split
  · rfl
  · exact unregisterAll_exports name _ w

lemma Recorded.added (h : Recorded w es) {ext : Extension} {result : ExportResult} {r : Wrapper × List Call}
    (hr : w.wrapperExport ext result = some r) : Recorded r.1 (es ++ [.added ext false result]) := by
  unfold Wrapper.wrapperExport at hr
  rw [findExport_live h.live] at hr
  by_cases hexp : w.Exported ext
  · rw [decide_eq_true hexp] at hr
    cases hr
    refine h.unchanged rfl (fun o he => ?_) fun o he => (by cases he)
    cases he
    exact hexp
  · rw [decide_eq_false hexp] at hr
    cases result with
    | exported =>
      cases hr
      exact h.exported_new hexp
    | refused =>
      cases hr
      exact h.unchanged rfl (fun o he => (by cases he)) fun o he => (by cases he)
    | pathTaken =>
      cases hr
      exact h.unchanged rfl (fun o he => (by cases he)) fun o he => (by cases he)

lemma Recorded.unexported (h : Recorded w es) {ext : Extension} (hk : w.Exported ext ∨ w.exports = [])
    {r : Wrapper × List Call} (hr : w.handle (.removed ext false) = some r) :
    Recorded r.1 (es ++ [.removed ext false]) := by
  by_cases hexp : w.Exported ext
  · have hentry := h.removesEntry hexp
    rw [RemovesEntry, if_pos hexp] at hentry
    obtain ⟨w', calls, hw, hexports, -⟩ := hentry
    rw [hw] at hr
    cases hr
    exact h.removed hexports
  · have hentry := (removesEntry_unexported h.live hexp).mpr (hk.resolve_left hexp)
    rw [RemovesEntry, if_neg hexp, hr] at hentry
    cases hentry
    refine h.unchanged rfl (fun o he => (by cases he)) fun o he => ?_
    cases he
    exact hexp

lemma Recorded.handle (h : Recorded w es) {e : Event} (hk : RemovesExported w e) {r : Wrapper × List Call}
    (hr : w.handle e = some r) : Recorded r.1 (es ++ [e]) := by
  cases e with
  | added ext isProxy result =>
    cases isProxy with
    | true =>
      cases hr
      exact h.unchanged rfl (fun o he => (by cases he)) fun o he => (by cases he)
    | false => exact h.added hr
  | removed ext isProxy =>
    cases isProxy with
    | true =>
      cases hr
      exact h.unchanged rfl (fun o he => (by cases he)) fun o he => (by cases he)
    | false => exact h.unexported hk hr
  | setProperty client comp s accepted =>
    cases hr
    refine h.unchanged ?_ (fun o he => (by cases he)) fun o he => (by cases he)
    split
    · exact handleSetProperty_exports w client comp s accepted
    · rfl
  | nameOwnerChanged name oldname newname =>
    cases hr
    exact h.unchanged (handleClientExits_exports w name oldname newname) (fun o he => (by cases he))
      fun o he => (by cases he)

lemma recorded_init : Recorded Wrapper.init [] := by
  refine ⟨fun ecomp hmem => absurd hmem List.not_mem_nil, List.nodup_nil, fun ext => ?_⟩
  refine ⟨fun hexp => absurd hexp List.not_mem_nil, ?_⟩
  rintro ⟨before, after, heq, -⟩
  simp at heq

/-- The wrapper after an event, with the events so far. -/
def recordStep (s : Wrapper × List Event) (e : Event) : Option (Wrapper × List Event) :=
  (s.1.handle e).map fun r => (r.1, s.2 ++ [e])

/-- The states of the runs whose events meet `guard`. -/
abbrev ExportReach (guard : Wrapper × List Event → Event → Prop) (s : Wrapper × List Event) : Prop :=
  Reach (fun s e t => recordStep s e = some t) guard (Wrapper.init, []) s

/-- In every run that removes only what is exported, or something while nothing is, `Exports` has
exactly one entry for each extension whose last export succeeded and that was not removed since.
The next removal does what it should exactly when it meets the same condition. -/
theorem exports_run {s : Wrapper × List Event} (h : ExportReach (fun s e => RemovesExported s.1 e) s) :
    (s.1.exports.map ExportedComponent.comp).Nodup ∧
      (∀ ext, ext ∈ s.1.exports.map ExportedComponent.comp ↔ ExportedBy s.2 ext) ∧
      ∀ ext, RemovesEntry s.1 ext ↔ RemovesExported s.1 (.removed ext false) := by
  have hinv : Recorded s.1 s.2 := by
    apply h.invariant (fun s => Recorded s.1 s.2) recorded_init
    intro s e t hs hk ht
    obtain ⟨r, hr, rfl⟩ := Option.map_eq_some_iff.mp ht
    exact hs.handle hk hr
  refine ⟨hinv.once, fun ext => ?_, fun ext => ?_⟩
  · rw [← exported_iff hinv.live]
    exact hinv.exact ext
  · by_cases hexp : s.1.Exported ext
    · exact ⟨fun _ => .inl hexp, fun _ => hinv.removesEntry hexp⟩
    · rw [removesEntry_unexported hinv.live hexp]
      exact (or_iff_right hexp).symm

/-- One extension is exported, another one is refused, a third one cannot have its path, and the
first one is removed. -/
theorem exports_run_removed : ∃ s, ExportReach (fun s e => RemovesExported s.1 e) s ∧
    s.1.exports.map ExportedComponent.comp = [0] ∧ ExportedBy s.2 0 := by
  have hreach : ExportReach (fun s e => RemovesExported s.1 e) _ :=
    .next (e := .removed 3 false)
      (.next (e := .added 2 false .pathTaken)
        (.next (e := .added 1 false .refused)
          (.next (e := .added 3 false .exported)
            (.next (e := .added 0 false .exported) .refl trivial rfl) trivial rfl) trivial rfl) trivial rfl)
      (.inl (by decide)) rfl
  obtain ⟨-, hexact, -⟩ := exports_run hreach
  exact ⟨_, hreach, rfl, (hexact 0).mp (by decide)⟩

/-- A component whose name was refused is removed: the entry of another one, which is still
there, is freed and its path and name are released. -/
theorem exports_run_wrongEntry : ∃ s, ExportReach (fun _ _ => True) s ∧ s.1.Exported 0 ∧
    ExportedBy s.2 0 ∧ ¬RemovesEntry s.1 1 ∧
    ∃ t, recordStep s (.removed 1 false) = some t ∧ ¬t.1.Exported 0 ∧ ExportedBy t.2 0 := by
  have hreach : ExportReach (fun _ _ => True) _ :=
    .next (e := .added 1 false .refused) (.next (e := .added 0 false .exported) .refl trivial rfl) trivial rfl
  have hexported : ExportedBy [.added 0 false .exported, .added 1 false .refused] 0 :=
    ⟨[], [.added 1 false .refused], rfl, by decide⟩
  refine ⟨_, hreach, by decide, hexported, fun h => ?_, _, rfl, by decide, ?_⟩
  · rw [RemovesEntry, if_neg (by decide)] at h
    cases h
  · exact ⟨[], [.added 1 false .refused, .removed 1 false], rfl, by decide⟩

end MafwShared.ExtensionWrapper
