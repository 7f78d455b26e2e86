import MafwShared.ExtensionWrapper
import MafwShared.Lib.Runs

/-!
# Activation counts

`Balanced` ties the counter of every exported extension to the clients that have it on
their lists. Removing an extension takes it off the lists but leaves its counter as it is,
and removing one that is not exported frees the entry of another one, so that the runs
considered are those in which neither is felt.
-/

namespace MafwShared.ExtensionWrapper
open CLib

/-- Whether a list has the extension on it, as a number. -/
def lists (comp : Extension) (l : List Extension) : Nat := if comp ∈ l then 1 else 0

/-- The clients that have the extension activated, each counted once. -/
def Wrapper.activeClients (w : Wrapper) (comp : Extension) : Nat :=
  tally (lists comp) w.sourceActivators

/-- How often the extension is told to deactivate. -/
def deactivations (comp : Extension) (calls : List Call) : Nat :=
  calls.count (.setProperty comp (.activate false))

structure Balanced (w : Wrapper) : Prop where
  live : ∀ ecomp ∈ w.exports, ecomp.freed = false
  once : (w.exports.map ExportedComponent.comp).Nodup
  nodup : ∀ client, (w.activated client).Nodup
  exported : ∀ client, ∀ comp ∈ w.activated client, w.Exported comp
  counted : ∀ comp, w.Exported comp → w.mafwRefcount comp = w.activeClients comp

/-- The request by which a client gives up an extension, or the signal that it has gone. -/
def Event.Leaves (e : Event) (client : Client) (comp : Extension) : Prop :=
  (∃ accepted, e = .setProperty client comp (.activate false) accepted) ∨
    ∃ oldname, oldname ≠ [] ∧ e = .nameOwnerChanged client oldname []

/-- A component that gets exported has no count left from before, and one that is removed is
exported, unless nothing is. -/
def Keeps (w : Wrapper) : Event → Prop
  | .added ext false .exported => w.Exported ext ∨ w.mafwRefcount ext = 0
  | .removed ext false => w.Exported ext ∨ w.exports = []
  | _ => True

instance (w : Wrapper) (e : Event) : Decidable (Keeps w e) :=
  match e with
  | .added ext false .exported => inferInstanceAs (Decidable (w.Exported ext ∨ w.mafwRefcount ext = 0))
  | .removed ext false => inferInstanceAs (Decidable (w.Exported ext ∨ w.exports = []))
  | .added _ false .refused | .added _ false .pathTaken | .added _ true _ | .removed _ true
  | .setProperty _ _ _ _ | .nameOwnerChanged _ _ _ => inferInstanceAs (Decidable True)

variable {w w' : Wrapper}

lemma lists_nil (comp : Extension) : lists comp [] = 0 := rfl

lemma lists_erase_ne {comp object : Extension} (h : comp ≠ object) (l : List Extension) :
    lists comp (l.erase object) = lists comp l := by
  simp only [lists, List.mem_erase_of_ne h]

/-! ### The lists of the clients -/

lemma removeObjectFromList_activated (w : Wrapper) (object : Extension) (name c : Client) :
    (w.removeObjectFromList (w.activated name) object name).1.activated c =
      if c = name then (w.activated name).erase object else w.activated c :=
  listAt_putList

lemma removeObjectFromList_activeClients (w : Wrapper) (object : Extension) (name : Client)
    (comp : Extension) :
    (w.removeObjectFromList (w.activated name) object name).1.activeClients comp +
        lists comp (w.activated name) =
      w.activeClients comp + lists comp ((w.activated name).erase object) := by
  have hput : (w.removeObjectFromList (w.activated name) object name).1.activeClients comp =
      lists comp ((w.activated name).erase object) +
        tally (lists comp) (w.sourceActivators.erase name) := tally_putList (lists_nil comp)
  have hsplit : w.activeClients comp = lists comp (w.activated name) +
      tally (lists comp) (w.sourceActivators.erase name) :=
    tally_listAt (lists_nil comp) w.sourceActivators name
  omega

lemma registerClient_activated {object : Extension} {name : Client} (h : object ∉ w.activated name)
    (c : Client) : (w.registerClient object name).2.1.activated c =
      if c = name then object :: w.activated name else w.activated c := by
  rw [Wrapper.registerClient, if_neg h]
  exact listAt_insert

lemma registerClient_activeClients {object : Extension} {name : Client}
    (h : object ∉ w.activated name) (comp : Extension) :
    (w.registerClient object name).2.1.activeClients comp =
      w.activeClients comp + if comp = object then 1 else 0 := by
  have hput : (w.registerClient object name).2.1.activeClients comp =
      lists comp (object :: w.activated name) +
        tally (lists comp) (w.sourceActivators.erase name) := by
    rw [Wrapper.registerClient, if_neg h]
    exact tally_insert _ _ _ _
  have hsplit : w.activeClients comp = lists comp (w.activated name) +
      tally (lists comp) (w.sourceActivators.erase name) :=
    tally_listAt (lists_nil comp) w.sourceActivators name
  have hcons : lists comp (object :: w.activated name) =
      lists comp (w.activated name) + if comp = object then 1 else 0 := by
    unfold lists
    by_cases hc : comp = object
    · subst hc
      simp [h]
    · simp [hc]
  omega

/-- An extension that the client has activated has no other client exactly when the count is
one. -/
lemma activeClients_eq_one_iff {client : Client} {comp : Extension}
    (h : comp ∈ w.activated client) :
    w.activeClients comp = 1 ↔ ∀ c, comp ∈ w.activated c ↔ c = client := by
  have hsplit : w.activeClients comp = lists comp (w.activated client) +
      tally (lists comp) (putList w.sourceActivators client []) :=
    tally_listAt (lists_nil comp) w.sourceActivators client
  have hone : lists comp (w.activated client) = 1 := if_pos h
  have hzero : w.activeClients comp = 1 ↔
      tally (lists comp) (putList w.sourceActivators client []) = 0 := by omega
  rw [hzero, tally_eq_zero_iff (lists_nil comp)]
  constructor
  · intro hall c
    have hc := hall c
    rw [listAt_putList] at hc
    by_cases hcc : c = client
    · subst hcc
      exact ⟨fun _ => rfl, fun _ => h⟩
    · rw [if_neg hcc] at hc
      refine ⟨fun hmem => ?_, fun heq => absurd heq hcc⟩
      have hmem' : lists comp (listAt w.sourceActivators c) = 1 := if_pos hmem
      omega
  · intro hall c
    rw [listAt_putList]
    by_cases hcc : c = client
    · rw [if_pos hcc]
      rfl
    · rw [if_neg hcc]
      exact if_neg fun hmem => hcc ((hall c).mp hmem)

/-! ### Giving an extension up -/

lemma exported_congr (h : w'.exports = w.exports) (comp : Extension) :
    w'.Exported comp ↔ w.Exported comp := by
  rw [Wrapper.Exported, Wrapper.Exported, h]

lemma activeClients_pos {client : Client} {comp : Extension} (h : comp ∈ w.activated client) :
    0 < w.activeClients comp := by
  have hsplit : w.activeClients comp = lists comp (w.activated client) +
      tally (lists comp) (w.sourceActivators.erase client) :=
    tally_listAt (lists_nil comp) w.sourceActivators client
  have hone : lists comp (w.activated client) = 1 := if_pos h
  omega

/-- What one client giving up one extension does. -/
structure GivenUp (w : Wrapper) (object : Extension) (name : Client) (r : Wrapper × List Call) :
    Prop where
  balanced : Balanced r.1
  exports : r.1.exports = w.exports
  activated : ∀ c, r.1.activated c =
    if c = name then (w.activated name).erase object else w.activated c
  active : ∀ comp, r.1.activeClients comp + (if comp = object then 1 else 0) = w.activeClients comp
  calls : ∀ comp, deactivations comp r.2 =
    if comp = object ∧ w.activeClients comp = 1 then 1 else 0

lemma decreaseMafwcount_fields (w : Wrapper) (object : Extension) :
    (w.decreaseMafwcount object).1.exports = w.exports ∧
      (w.decreaseMafwcount object).1.sourceActivators = w.sourceActivators ∧
      ∀ comp, (w.decreaseMafwcount object).1.mafwRefcount comp =
        w.mafwRefcount comp - if comp = object then 1 else 0 := by
  unfold Wrapper.decreaseMafwcount
  by_cases h0 : w.mafwRefcount object = 0
  · rw [if_pos h0]
    refine ⟨rfl, rfl, fun comp => ?_⟩
    by_cases hc : comp = object
    · rw [if_pos hc, hc, h0]
    · rw [if_neg hc, Nat.sub_zero]
  · rw [if_neg h0]
    refine ⟨rfl, rfl, fun comp => ?_⟩
    by_cases hc : comp = object
    · rw [if_pos hc, hc]
      exact Function.update_self _ _ _
    · rw [if_neg hc, Nat.sub_zero]
      exact Function.update_of_ne hc _ _

lemma decreaseMafwcount_calls (w : Wrapper) (object comp : Extension) :
    deactivations comp (w.decreaseMafwcount object).2 =
      if comp = object ∧ w.mafwRefcount object = 1 then 1 else 0 := by
  unfold Wrapper.decreaseMafwcount deactivations
  by_cases h0 : w.mafwRefcount object = 0
  · rw [if_pos h0, h0]
    simp
  · rw [if_neg h0]
    by_cases h1 : w.mafwRefcount object = 1
    · have hcount : [Call.setProperty object (.activate false)].count
          (.setProperty comp (.activate false)) = if comp = object then 1 else 0 := by
        by_cases hc : comp = object
        · rw [hc, if_pos rfl, List.count_singleton_self]
        · rw [if_neg hc, List.count_eq_zero]
          simp [hc]
      rw [h1, if_pos rfl, hcount]
      simp
    · have hpos : w.mafwRefcount object - 1 ≠ 0 := by omega
      rw [if_neg hpos]
      simp [h1]

lemma removeObjectFromList_calls (w : Wrapper) (l : List Extension) (object : Extension)
    (name : Client) (comp : Extension) :
    deactivations comp (w.removeObjectFromList l object name).2 = 0 := by
  unfold deactivations Wrapper.removeObjectFromList
  dsimp only
  split <;> rfl

lemma deactivations_append (comp : Extension) (a b : List Call) :
    deactivations comp (a ++ b) = deactivations comp a + deactivations comp b :=
  List.count_append

lemma deactivations_cons {comp : Extension} {call : Call} (calls : List Call)
    (h : call ≠ .setProperty comp (.activate false)) :
    deactivations comp (call :: calls) = deactivations comp calls :=
  List.count_cons_of_ne h

lemma removeObjectFromList_active {object : Extension} {name : Client}
    (hnodup : (w.activated name).Nodup) (hmem : object ∈ w.activated name) (comp : Extension) :
    (w.removeObjectFromList (w.activated name) object name).1.activeClients comp +
      (if comp = object then 1 else 0) = w.activeClients comp := by
  have hone := removeObjectFromList_activeClients w object name comp
  by_cases hc : comp = object
  · subst hc
    have h1 : lists comp (w.activated name) = 1 := if_pos hmem
    have h0 : lists comp ((w.activated name).erase comp) = 0 := if_neg hnodup.not_mem_erase
    rw [if_pos rfl]
    omega
  · rw [lists_erase_ne hc] at hone
    rw [if_neg hc]
    omega

lemma Balanced.unregisterClient (h : Balanced w) {object : Extension} {name : Client}
    (hmem : object ∈ w.activated name) : GivenUp w object name (w.unregisterClient object name) := by
  have hexp := h.exported name object hmem
  have hcount := h.counted object hexp
  have hpos := activeClients_pos hmem
  have heq : w.unregisterClient object name =
      let r := w.removeObjectFromList (w.activated name) object name
      let r' := r.1.decreaseMafwcount object
      (r'.1, r.2 ++ r'.2) := if_pos hmem
  rw [heq]
  obtain ⟨hexports, hlists, href⟩ := decreaseMafwcount_fields
    (w.removeObjectFromList (w.activated name) object name).1 object
  have hactivated : ∀ c, ((w.removeObjectFromList (w.activated name) object name).1.decreaseMafwcount
      object).1.activated c = if c = name then (w.activated name).erase object else w.activated c := by
    intro c
    rw [Wrapper.activated, hlists]
    exact removeObjectFromList_activated w object name c
  have hactive : ∀ comp, ((w.removeObjectFromList (w.activated name) object name).1.decreaseMafwcount
      object).1.activeClients comp + (if comp = object then 1 else 0) = w.activeClients comp := by
    intro comp
    rw [Wrapper.activeClients, hlists]
    exact removeObjectFromList_active (h.nodup name) hmem comp
  refine ⟨⟨?_, ?_, fun c => ?_, fun c comp hc => ?_, fun comp hc => ?_⟩, hexports, hactivated, hactive,
    fun comp => ?_⟩
  · rw [hexports]
    exact h.live
  · rw [hexports]
    exact h.once
  · rw [hactivated]
    by_cases hcn : c = name
    · rw [if_pos hcn]
      exact (h.nodup name).erase object
    · rw [if_neg hcn]
      exact h.nodup c
  · rw [hactivated] at hc
    rw [exported_congr hexports]
    by_cases hcn : c = name
    · rw [if_pos hcn] at hc
      exact h.exported name comp (List.mem_of_mem_erase hc)
    · rw [if_neg hcn] at hc
      exact h.exported c comp hc
  · rw [exported_congr hexports] at hc
    have hw : w.mafwRefcount comp = w.activeClients comp := h.counted comp hc
    have ha := hactive comp
    have hr := href comp
    change _ = w.mafwRefcount comp - _ at hr
    dsimp only
    omega
  · rw [deactivations_append, removeObjectFromList_calls, decreaseMafwcount_calls, Nat.zero_add]
    change (if comp = object ∧ w.mafwRefcount object = 1 then 1 else 0) = _
    rw [hcount]
    by_cases hc : comp = object
    · rw [hc]
    · simp [hc]

/-- What a client does that gives up all of its extensions. -/
structure GivenUpAll (w : Wrapper) (name : Client) (r : Wrapper × List Call) : Prop where
  balanced : Balanced r.1
  activated : ∀ c, r.1.activated c = if c = name then [] else w.activated c
  calls : ∀ comp, deactivations comp r.2 =
    if comp ∈ w.activated name ∧ w.activeClients comp = 1 then 1 else 0

lemma Balanced.unregisterAll (h : Balanced w) (name : Client) {rounds : Nat}
    (hrounds : (w.activated name).length = rounds) :
    GivenUpAll w name (Wrapper.unregisterAll name rounds w) := by
  induction rounds generalizing w with
  | zero =>
    have hnil : w.activated name = [] := List.eq_nil_of_length_eq_zero hrounds
    refine ⟨h, fun c => ?_, fun comp => ?_⟩
    · by_cases hc : c = name
      · rw [if_pos hc, hc]
        exact hnil
      · rw [if_neg hc]
        rfl
    · rw [hnil, if_neg fun hmem => absurd hmem.1 List.not_mem_nil]
      rfl
  | succ rounds ih =>
    obtain ⟨object, rest, hcons⟩ : ∃ object rest, w.activated name = object :: rest :=
      List.exists_cons_of_length_eq_add_one hrounds
    have hmem : object ∈ w.activated name := by
      rw [hcons]
      exact List.mem_cons_self
    have hnodup := h.nodup name
    rw [hcons] at hnodup
    obtain ⟨hnotin, -⟩ := List.nodup_cons.mp hnodup
    have hone := h.unregisterClient hmem
    have hrest : (w.unregisterClient object name).1.activated name = rest := by
      rw [hone.activated, if_pos rfl, hcons]
      exact List.erase_cons_head object rest
    have hall := ih hone.balanced (by
      rw [hrest]
      rw [hcons] at hrounds
      exact Nat.succ.inj hrounds)
    have heq : Wrapper.unregisterAll name (rounds + 1) w =
        ((Wrapper.unregisterAll name rounds (w.unregisterClient object name).1).1,
          (w.unregisterClient object name).2 ++
            (Wrapper.unregisterAll name rounds (w.unregisterClient object name).1).2) := by
      rw [Wrapper.unregisterAll, hcons]
    rw [heq]
    refine ⟨hall.balanced, fun c => ?_, fun comp => ?_⟩
    · rw [hall.activated, hone.activated]
      by_cases hc : c = name <;> simp [hc]
    · rw [deactivations_append, hone.calls, hall.calls, hrest, hcons]
      have hactive := hone.active comp
      by_cases hc : comp = object
      · subst hc
        simp [hnotin]
      · rw [if_neg hc, Nat.add_zero] at hactive
        simp [hc, hactive]

/-! ### Removing an extension -/

/-- The extension is off every list, its counter is as it was. -/
structure Deregistered (w : Wrapper) (comp : Extension) (r : Wrapper × List Call) : Prop where
  exports : r.1.exports = w.exports
  refcount : r.1.mafwRefcount = w.mafwRefcount
  activated : ∀ c, r.1.activated c = (w.activated c).erase comp
  active : ∀ o, o ≠ comp → r.1.activeClients o = w.activeClients o
  calls : ∀ o, deactivations o r.2 = 0

lemma removeExtension_spec (comp : Extension) (uiIds : List Client) (w : Wrapper)
    (hnodup : uiIds.Nodup) :
    (Wrapper.removeExtension comp uiIds w).1.exports = w.exports ∧
      (Wrapper.removeExtension comp uiIds w).1.mafwRefcount = w.mafwRefcount ∧
      (∀ c, (Wrapper.removeExtension comp uiIds w).1.activated c =
        if c ∈ uiIds then (w.activated c).erase comp else w.activated c) ∧
      (∀ o, o ≠ comp → (Wrapper.removeExtension comp uiIds w).1.activeClients o = w.activeClients o) ∧
      ∀ o, deactivations o (Wrapper.removeExtension comp uiIds w).2 = 0 := by
  induction uiIds generalizing w with
  | nil => exact ⟨rfl, rfl, fun c => rfl, fun o _ => rfl, fun o => rfl⟩
  | cons uiId uiIds ih =>
    obtain ⟨hnotin, hnodup⟩ := List.nodup_cons.mp hnodup
    obtain ⟨hexports, href, hactivated, hactive, hcalls⟩ :=
      ih (w.removeObjectFromList (w.activated uiId) comp uiId).1 hnodup
    have hone := removeObjectFromList_activated w comp uiId
    rw [Wrapper.removeExtension]
    refine ⟨hexports, href, fun c => ?_, fun o ho => ?_, fun o => ?_⟩
    · rw [hactivated, hone]
      by_cases hc : c = uiId
      · simp [hc, hnotin]
      · simp [hc]
    · have hsplit := removeObjectFromList_activeClients w comp uiId o
      rw [lists_erase_ne ho] at hsplit
      rw [hactive o ho]
      omega
    · rw [deactivations_append, removeObjectFromList_calls, hcalls]

lemma extensionDeregister_spec (w : Wrapper) (comp : Extension) :
    Deregistered w comp (w.extensionDeregister comp) := by
  have hnodup : (w.sourceActivators.keys.filter fun uiId => comp ∈ w.activated uiId).Nodup :=
    w.sourceActivators.keys_nodup.filter _
  obtain ⟨hexports, href, hactivated, hactive, hcalls⟩ := removeExtension_spec comp _ w hnodup
  refine ⟨hexports, href, fun c => (hactivated c).trans ?_, hactive, hcalls⟩
  by_cases hmem : comp ∈ w.activated c
  · have hkey : c ∈ w.sourceActivators.keys := by
      apply AList.mem_keys.mp
      rw [← AList.lookup_isSome]
      cases hl : w.sourceActivators.lookup c with
      | none =>
        rw [Wrapper.activated, listAt, hl] at hmem
        exact absurd hmem List.not_mem_nil
      | some l => rfl
    exact if_pos (List.mem_filter.mpr ⟨hkey, decide_eq_true hmem⟩)
  · rw [List.erase_of_not_mem hmem]
    exact ite_self _

lemma findExport_live (hlive : ∀ ecomp ∈ w.exports, ecomp.freed = false) (comp : Extension) :
    Wrapper.findExport comp w.exports = some (decide (w.Exported comp)) := by
  change Wrapper.findExport comp w.exports = some (decide (⟨comp, false⟩ ∈ w.exports))
  generalize w.exports = exports at hlive
  induction exports with
  | nil => rfl
  | cons ecomp rest ih =>
    obtain ⟨c, freed⟩ := ecomp
    have hfreed : freed = false := hlive _ List.mem_cons_self
    subst hfreed
    rw [Wrapper.findExport, if_neg Bool.false_ne_true]
    by_cases hc : c = comp
    · rw [if_pos hc, hc]
      simp
    · rw [if_neg hc, ih fun e he => hlive e (List.mem_cons_of_mem _ he)]
      simp [Ne.symm hc]

lemma exported_iff (hlive : ∀ ecomp ∈ w.exports, ecomp.freed = false) (comp : Extension) :
    w.Exported comp ↔ comp ∈ w.exports.map ExportedComponent.comp := by
  rw [List.mem_map]
  constructor
  · intro hexp
    exact ⟨_, hexp, rfl⟩
  · rintro ⟨⟨c, freed⟩, hmem, rfl⟩
    have hfreed : freed = false := hlive _ hmem
    rw [hfreed] at hmem
    exact hmem

lemma map_eraseP_comp (exports : List ExportedComponent) (comp : Extension) :
    (exports.eraseP fun ecomp => ecomp.comp = comp).map ExportedComponent.comp =
      (exports.map ExportedComponent.comp).erase comp := by
  induction exports with
  | nil => rfl
  | cons ecomp rest ih =>
    by_cases hc : ecomp.comp = comp
    · simp [hc]
    · simp [hc, ih, List.erase_cons_tail]

lemma Balanced.removed (h : Balanced w) {comp : Extension} (hexp : w.Exported comp) :
    ∃ r, w.wrapperUnexport comp = some r ∧ Balanced r.1 ∧ ∀ o, deactivations o r.2 = 0 := by
  have hspec := extensionDeregister_spec
    { w with exports := w.exports.eraseP fun ecomp => ecomp.comp = comp } comp
  generalize hr : { w with exports := w.exports.eraseP fun ecomp => ecomp.comp = comp
    }.extensionDeregister comp = r at hspec
  refine ⟨(r.1, .unregisterObjectPath comp :: .releaseName comp :: r.2), ?_, ?_, fun o => ?_⟩
  · rw [Wrapper.wrapperUnexport, findExport_live h.live, decide_eq_true hexp, ← hr]
  · have hlive : ∀ ecomp ∈ r.1.exports, ecomp.freed = false := by
      intro ecomp hmem
      rw [hspec.exports] at hmem
      exact h.live ecomp (List.mem_of_mem_eraseP hmem)
    have hcomps : r.1.exports.map ExportedComponent.comp =
        (w.exports.map ExportedComponent.comp).erase comp := by
      rw [hspec.exports]
      exact map_eraseP_comp w.exports comp
    have hstays : ∀ o, r.1.Exported o ↔ o ≠ comp ∧ w.Exported o := by
      intro o
      rw [exported_iff hlive, hcomps, exported_iff h.live]
      exact h.once.mem_erase_iff
    have hactivated : ∀ c, r.1.activated c = (w.activated c).erase comp := hspec.activated
    refine ⟨hlive, ?_, fun c => ?_, fun c o ho => ?_, fun o ho => ?_⟩
    · rw [hcomps]
      exact h.once.erase comp
    · rw [hactivated]
      exact (h.nodup c).erase comp
    · rw [hactivated] at ho
      obtain ⟨hne, hmem⟩ := (h.nodup c).mem_erase_iff.mp ho
      exact (hstays o).mpr ⟨hne, h.exported c o hmem⟩
    · obtain ⟨hne, hexp⟩ := (hstays o).mp ho
      rw [hspec.refcount, hspec.active o hne]
      exact h.counted o hexp
  · rw [deactivations_cons _ (by simp), deactivations_cons _ (by simp)]
    exact hspec.calls o

/-! ### Runs -/

lemma Balanced.activeClients_unexported (h : Balanced w) {comp : Extension} (hexp : ¬w.Exported comp) :
    w.activeClients comp = 0 := by
  apply (tally_eq_zero_iff (lists_nil comp)).mpr
  intro client
  exact if_neg fun hmem => hexp (h.exported client comp hmem)

lemma Balanced.exported_new (h : Balanced w) {comp : Extension} (hexp : ¬w.Exported comp)
    (hzero : w.mafwRefcount comp = 0) :
    Balanced { w with exports := ⟨comp, false⟩ :: w.exports } := by
  have hcons : ∀ o, ({ w with exports := ⟨comp, false⟩ :: w.exports } : Wrapper).Exported o ↔
      o = comp ∨ w.Exported o := by
    intro o
    simp [Wrapper.Exported]
  refine ⟨fun ecomp hmem => ?_, ?_, h.nodup, fun c o ho => ?_, fun o ho => ?_⟩
  · rcases List.mem_cons.mp hmem with rfl | hmem
    · rfl
    · exact h.live ecomp hmem
  · rw [List.map_cons, List.nodup_cons]
    exact ⟨fun hmem => hexp ((exported_iff h.live comp).mpr hmem), h.once⟩
  · exact (hcons o).mpr (.inr (h.exported c o ho))
  · rcases (hcons o).mp ho with rfl | ho
    · exact hzero.trans (h.activeClients_unexported hexp).symm
    · exact h.counted o ho

lemma Balanced.activates (h : Balanced w) {comp : Extension} {client : Client} (hexp : w.Exported comp)
    (hnew : comp ∉ w.activated client) :
    Balanced ((w.registerClient comp client).2.1.increaseMafwcount comp) := by
  have hactivated := registerClient_activated hnew
  have hactive := registerClient_activeClients hnew
  have hexports : (w.registerClient comp client).2.1.exports = w.exports := by
    rw [Wrapper.registerClient, if_neg hnew]
  have href : (w.registerClient comp client).2.1.mafwRefcount = w.mafwRefcount := by
    rw [Wrapper.registerClient, if_neg hnew]
  generalize (w.registerClient comp client).2.1 = w₁ at *
  refine ⟨?_, ?_, fun c => ?_, fun c o ho => ?_, fun o ho => ?_⟩
  · exact fun ecomp hmem => h.live ecomp (hexports ▸ hmem)
  · exact hexports ▸ h.once
  · change (w₁.activated c).Nodup
    rw [hactivated]
    by_cases hc : c = client
    · rw [if_pos hc]
      exact List.nodup_cons.mpr ⟨hnew, h.nodup client⟩
    · rw [if_neg hc]
      exact h.nodup c
  · change o ∈ w₁.activated c at ho
    rw [hactivated] at ho
    apply (exported_congr hexports o).mpr
    by_cases hc : c = client
    · rw [if_pos hc] at ho
      rcases List.mem_cons.mp ho with rfl | ho
      · exact hexp
      · exact h.exported client o ho
    · rw [if_neg hc] at ho
      exact h.exported c o ho
  · have hcount := h.counted o ((exported_congr hexports o).mp ho)
    change Function.update w₁.mafwRefcount comp (w₁.mafwRefcount comp + 1) o = w₁.activeClients o
    rw [hactive, href]
    by_cases ho : o = comp
    · subst ho
      rw [Function.update_self, if_pos rfl, hcount]
    · rw [Function.update_of_ne ho, if_neg ho, hcount]
      rfl

/-- What an event does to a balanced wrapper. -/
structure Answered (w : Wrapper) (e : Event) (r : Wrapper × List Call) : Prop where
  balanced : Balanced r.1
  atMostOnce : ∀ comp, deactivations comp r.2 ≤ 1
  calls : ∀ comp, 0 < deactivations comp r.2 ↔
    ∃ client, e.Leaves client comp ∧ ∀ c, comp ∈ w.activated c ↔ c = client

lemma Answered.quiet {e : Event} {r : Wrapper × List Call} (hb : Balanced r.1)
    (hcalls : ∀ comp, deactivations comp r.2 = 0)
    (hstays : ∀ client, ∀ comp ∈ w.activated client, ¬e.Leaves client comp) : Answered w e r := by
  refine ⟨hb, fun comp => ?_, fun comp => ?_⟩
  · rw [hcalls]
    exact Nat.zero_le 1
  · rw [hcalls]
    constructor
    · intro hpos
      exact absurd hpos (Nat.lt_irrefl 0)
    · rintro ⟨client, hleaves, hlast⟩
      exact absurd hleaves (hstays client comp ((hlast client).mpr rfl))

lemma Answered.unasked {e : Event} {r : Wrapper × List Call} (hb : Balanced r.1)
    (hcalls : ∀ comp, deactivations comp r.2 = 0)
    (hset : ∀ client comp accepted, e ≠ .setProperty client comp (.activate false) accepted)
    (howner : ∀ client oldname, e ≠ .nameOwnerChanged client oldname []) : Answered w e r := by
  refine .quiet hb hcalls ?_
  rintro client comp - (⟨accepted, heq⟩ | ⟨oldname, -, heq⟩)
  · exact hset client comp accepted heq
  · exact howner client oldname heq

lemma Balanced.added (h : Balanced w) {ext : Extension} {isProxy : Bool} {result : ExportResult}
    (hk : Keeps w (.added ext isProxy result)) :
    ∃ r, w.handle (.added ext isProxy result) = some r ∧ Answered w (.added ext isProxy result) r := by
  have hquiet : ∀ r : Wrapper × List Call, Balanced r.1 → (∀ comp, deactivations comp r.2 = 0) →
      Answered w (.added ext isProxy result) r :=
    fun r hb hcalls => .unasked hb hcalls (fun _ _ _ heq => by cases heq) fun _ _ heq => by cases heq
  cases isProxy with
  | true => exact ⟨(w, []), rfl, hquiet _ h fun comp => rfl⟩
  | false =>
    change ∃ r, w.wrapperExport ext result = some r ∧ _
    unfold Wrapper.wrapperExport
    rw [findExport_live h.live]
    by_cases hexp : w.Exported ext
    · rw [decide_eq_true hexp]
      exact ⟨(w, []), rfl, hquiet _ h fun comp => rfl⟩
    · rw [decide_eq_false hexp]
      cases result with
      | exported =>
        have hzero : w.mafwRefcount ext = 0 := (or_iff_right hexp).mp hk
        exact ⟨_, rfl, hquiet _ (h.exported_new hexp hzero) fun comp => rfl⟩
      | refused => exact ⟨_, rfl, hquiet _ h fun comp => rfl⟩
      | pathTaken => exact ⟨_, rfl, hquiet _ h fun comp => rfl⟩

lemma Balanced.unexported (h : Balanced w) {ext : Extension} {isProxy : Bool}
    (hk : Keeps w (.removed ext isProxy)) :
    ∃ r, w.handle (.removed ext isProxy) = some r ∧ Answered w (.removed ext isProxy) r := by
  have hquiet : ∀ r : Wrapper × List Call, Balanced r.1 → (∀ comp, deactivations comp r.2 = 0) →
      Answered w (.removed ext isProxy) r :=
    fun r hb hcalls => .unasked hb hcalls (fun _ _ _ heq => by cases heq) fun _ _ heq => by cases heq
  cases isProxy with
  | true => exact ⟨(w, []), rfl, hquiet _ h fun comp => rfl⟩
  | false =>
    rcases hk with hexp | hnil
    · obtain ⟨r, hr, hb, hcalls⟩ := h.removed hexp
      exact ⟨r, hr, hquiet r hb hcalls⟩
    · refine ⟨(w, []), ?_, hquiet _ h fun comp => rfl⟩
      change w.wrapperUnexport ext = _
      rw [Wrapper.wrapperUnexport, hnil]
      rfl

lemma Balanced.deactivates (h : Balanced w) (client : Client) (comp : Extension) (accepted : Bool) :
    Answered w (.setProperty client comp (.activate false) accepted)
      (w.unregisterClient comp client) := by
  by_cases hmem : comp ∈ w.activated client
  · have hone := h.unregisterClient hmem
    refine ⟨hone.balanced, fun o => ?_, fun o => ?_⟩
    · rw [hone.calls]
      split <;> decide
    · rw [hone.calls]
      constructor
      · intro hpos
        by_cases hcase : o = comp ∧ w.activeClients o = 1
        · obtain ⟨rfl, hcount⟩ := hcase
          exact ⟨client, .inl ⟨accepted, rfl⟩, (activeClients_eq_one_iff hmem).mp hcount⟩
        · rw [if_neg hcase] at hpos
          exact absurd hpos (Nat.lt_irrefl 0)
      · rintro ⟨c, ⟨_, heq⟩ | ⟨_, -, heq⟩, hlast⟩
        · cases heq
          rw [if_pos ⟨rfl, (activeClients_eq_one_iff hmem).mpr hlast⟩]
          exact Nat.one_pos
        · cases heq
  · have heq : w.unregisterClient comp client = (w, []) := if_neg hmem
    rw [heq]
    refine .quiet h (fun o => rfl) ?_
    rintro c o hin (⟨_, heq⟩ | ⟨_, -, heq⟩)
    · cases heq
      exact hmem hin
    · cases heq

lemma Balanced.exits (h : Balanced w) (name oldname newname : Bytes) :
    Answered w (.nameOwnerChanged name oldname newname)
      (w.handleClientExits name oldname newname) := by
  unfold Wrapper.handleClientExits
  by_cases hstays : newname ≠ [] ∨ oldname = []
  · rw [if_pos hstays]
    refine .quiet h (fun comp => rfl) ?_
    rintro client comp - (⟨accepted, heq⟩ | ⟨old, hold, heq⟩)
    · cases heq
    · cases heq
      rcases hstays with hne | hnil
      · exact hne rfl
      · exact hold hnil
  · rw [if_neg hstays]
    obtain ⟨hnew, hold⟩ := not_or.mp hstays
    rw [not_not] at hnew
    subst hnew
    have hall := h.unregisterAll name rfl
    refine ⟨hall.balanced, fun comp => ?_, fun comp => ?_⟩
    · rw [hall.calls]
      split <;> decide
    · rw [hall.calls]
      constructor
      · intro hpos
        by_cases hcase : comp ∈ w.activated name ∧ w.activeClients comp = 1
        · exact ⟨name, .inr ⟨oldname, hold, rfl⟩, (activeClients_eq_one_iff hcase.1).mp hcase.2⟩
        · rw [if_neg hcase] at hpos
          exact absurd hpos (Nat.lt_irrefl 0)
      · rintro ⟨client, ⟨_, heq⟩ | ⟨_, -, heq⟩, hlast⟩
        · cases heq
        · cases heq
          have hmem : comp ∈ w.activated name := (hlast name).mpr rfl
          rw [if_pos ⟨hmem, (activeClients_eq_one_iff hmem).mpr hlast⟩]
          exact Nat.one_pos

lemma Balanced.activated (h : Balanced w) (client : Client) {comp : Extension} (hexp : w.Exported comp)
    (accepted : Bool) :
    Answered w (.setProperty client comp (.activate true) accepted)
      (w.handleSetProperty client comp (.activate true) accepted) := by
  have hquiet : ∀ r : Wrapper × List Call, Balanced r.1 → (∀ o, deactivations o r.2 = 0) →
      Answered w (.setProperty client comp (.activate true) accepted) r := by
    intro r hb hcalls
    refine .quiet hb hcalls ?_
    rintro c o - (⟨_, heq⟩ | ⟨_, -, heq⟩) <;> cases heq
  cases accepted with
  | false => exact hquiet _ h fun o => deactivations_cons [] (by simp)
  | true =>
    by_cases hmem : comp ∈ w.activated client
    · have heq : w.handleSetProperty client comp (.activate true) true =
          (w, [.setProperty comp (.activate true)]) := by
        simp [Wrapper.handleSetProperty, Wrapper.registerClient, hmem]
      rw [heq]
      exact hquiet _ h fun o => deactivations_cons [] (by simp)
    · have heq : w.handleSetProperty client comp (.activate true) true =
          ((w.registerClient comp client).2.1.increaseMafwcount comp,
            .setProperty comp (.activate true) ::
              if w.activated client = [] then [.addMatch client] else []) := by
        simp [Wrapper.handleSetProperty, Wrapper.registerClient, hmem]
      rw [heq]
      refine hquiet _ (h.activates hexp hmem) fun o => ?_
      rw [deactivations_cons _ (by simp)]
      split <;> rfl

lemma Balanced.setProperty (h : Balanced w) (client : Client) (comp : Extension) (s : Setting)
    (accepted : Bool) :
    ∃ r, w.handle (.setProperty client comp s accepted) = some r ∧
      Answered w (.setProperty client comp s accepted) r := by
  refine ⟨_, rfl, ?_⟩
  by_cases hexp : w.Exported comp
  · rw [if_pos hexp]
    cases s with
    | activate value =>
      cases value with
      | false => exact h.deactivates client comp accepted
      | true => exact h.activated client hexp accepted
    | other =>
      refine .quiet h (fun o => deactivations_cons [] (by simp)) ?_
      rintro c o - (⟨_, heq⟩ | ⟨_, -, heq⟩) <;> cases heq
  · rw [if_neg hexp]
    refine .quiet h (fun o => rfl) ?_
    rintro c o hin (⟨_, heq⟩ | ⟨_, -, heq⟩)
    · cases heq
      exact hexp (h.exported client comp hin)
    · cases heq

lemma Balanced.handle (h : Balanced w) {e : Event} (hk : Keeps w e) :
    ∃ r, w.handle e = some r ∧ Answered w e r := by
  cases e with
  | added ext isProxy result => exact h.added hk
  | removed ext isProxy => exact h.unexported hk
  | setProperty client comp s accepted => exact h.setProperty client comp s accepted
  | nameOwnerChanged name oldname newname => exact ⟨_, rfl, h.exits name oldname newname⟩

lemma balanced_init : Balanced Wrapper.init := by
  have hnil : ∀ client, Wrapper.init.activated client = [] := fun client => rfl
  refine ⟨fun ecomp hmem => absurd hmem List.not_mem_nil, List.nodup_nil, fun client => ?_,
    fun client comp hmem => ?_, fun comp hexp => absurd hexp List.not_mem_nil⟩
  · rw [hnil]
    exact List.nodup_nil
  · rw [hnil] at hmem
    exact absurd hmem List.not_mem_nil

/-- The wrapper after an event, the calls it made left out. -/
def step (w : Wrapper) (e : Event) : Option Wrapper := (w.handle e).map Prod.fst

/-- The states of the runs in which every event meets the condition. -/
def ActivationReach (w : Wrapper) : Prop :=
  Reach (fun w e w' => step w e = some w') Keeps Wrapper.init w

/-- In every such run the counter of each exported extension is the number of clients that
have it on their lists, the lists mention exported extensions only, and the next event that
meets the condition tells an extension to deactivate, once, exactly when the last client that
has it gives it up or goes. -/
theorem activationCounts_run (hr : ActivationReach w) :
    (∀ comp, w.Exported comp → w.mafwRefcount comp = w.activeClients comp) ∧
      (∀ client, ∀ comp ∈ w.activated client, w.Exported comp) ∧
      ∀ e, Keeps w e → ∃ r, w.handle e = some r ∧ ∀ comp, deactivations comp r.2 ≤ 1 ∧
        (0 < deactivations comp r.2 ↔
          ∃ client, e.Leaves client comp ∧ ∀ c, comp ∈ w.activated c ↔ c = client) := by
  have hinv : Balanced w := by
    apply hr.invariant Balanced balanced_init
    intro s e t hs hk ht
    obtain ⟨r, hr, hanswered⟩ := hs.handle hk
    rw [step, hr] at ht
    cases ht
    exact hanswered.balanced
  refine ⟨hinv.counted, hinv.exported, fun e hk => ?_⟩
  obtain ⟨r, hr, hanswered⟩ := hinv.handle hk
  exact ⟨r, hr, fun comp => ⟨hanswered.atMostOnce comp, hanswered.calls comp⟩⟩

/-- Two clients activate an extension, one gives it up and one goes, and it is told to
deactivate; then it is removed and comes back. -/
theorem activationCounts_run_twoClients : ∃ w, ActivationReach w ∧ w.Exported 0 ∧
    w.mafwRefcount 0 = w.activeClients 0 := by
  have hreach : ActivationReach _ :=
    .next (e := .added 0 false .exported)
      (.next (e := .removed 0 false)
        (.next (e := .nameOwnerChanged [50] [50] [])
          (.next (e := .setProperty [49] 0 (.activate false) true)
            (.next (e := .setProperty [50] 0 (.activate true) true)
              (.next (e := .setProperty [49] 0 (.activate true) true)
                (.next (e := .added 0 false .exported) .refl (by decide) rfl)
                (by decide) rfl)
              (by decide) rfl)
            (by decide) rfl)
          (by decide) rfl)
        (by decide) rfl)
      (by decide) rfl
  obtain ⟨hcounts, -, -⟩ := activationCounts_run hreach
  exact ⟨_, hreach, by decide, hcounts 0 (by decide)⟩

/-- A client activates an extension that is then removed and comes back: the counter of the
extension stays ahead of its clients, and when its only client gives it up, it is not told to
deactivate. And a component whose name was refused takes the entry of another one along when
it is removed. -/
theorem activationCounts_readded :
    (∃ w, Reach (fun w e w' => step w e = some w') (fun _ _ => True) Wrapper.init w ∧ w.Exported 0 ∧
      w.mafwRefcount 0 = 2 ∧ w.activeClients 0 = 1 ∧ (∀ c, 0 ∈ w.activated c ↔ c = [49]) ∧
      ∃ r, w.handle (.setProperty [49] 0 (.activate false) true) = some r ∧ deactivations 0 r.2 = 0) ∧
    ∃ w, Reach (fun w e w' => step w e = some w') (fun _ _ => True) Wrapper.init w ∧
      0 ∈ w.activated [49] ∧ ¬w.Exported 0 := by
  have hreadded : Reach (fun w e w' => step w e = some w') (fun _ _ => True) Wrapper.init _ :=
    .next (e := .setProperty [49] 0 (.activate true) true)
      (.next (e := .added 0 false .exported)
        (.next (e := .removed 0 false)
          (.next (e := .setProperty [49] 0 (.activate true) true)
            (.next (e := .added 0 false .exported) .refl trivial rfl) trivial rfl) trivial rfl)
        trivial rfl) trivial rfl
  have hrefused : Reach (fun w e w' => step w e = some w') (fun _ _ => True) Wrapper.init _ :=
    .next (e := .removed 1 false)
      (.next (e := .added 1 false .refused)
        (.next (e := .setProperty [49] 0 (.activate true) true)
          (.next (e := .added 0 false .exported) .refl trivial rfl) trivial rfl) trivial rfl) trivial rfl
  exact ⟨⟨_, hreadded, by decide, rfl, rfl, (activeClients_eq_one_iff (by decide)).mp rfl, _, rfl,
    by decide⟩, _, hrefused, by decide, by decide⟩

end MafwShared.ExtensionWrapper
