import MafwShared.Discovery
import MafwShared.Lib.Runs
import Mathlib.Data.List.Nodup

/-!
# Proxies and services agree

`Agreed` follows every service name through its phases: its loss is still to be handled, or
nobody has to hear of one and a proxy is there or on its way exactly when the name has an owner.
A service that vanishes while its proxy is being set up breaks this, and so do two services with
one uuid, so that the runs considered are those without such events.
-/

namespace MafwShared.Discovery
open CLib

variable {w w' : World} {c : Component} {N M : Bytes} {px : Proxy}

/-! ### Service names -/

/-- A component whose service name is split into its parts again. -/
def Component.WellFormed (c : Component) : Prop := c.plugin ≠ [] ∧ (46 : UInt8) ∉ c.plugin ∧ c.uuid ≠ []

lemma splitParts_wellFormed {kind : Kind} {rest : Bytes} (h : splitParts kind rest = some c) :
    c.WellFormed := by
  unfold splitParts at h
  dsimp only at h
  split at h
  · cases h
  · split at h
    · cases h
    · rename_i hne
      cases h
      rw [not_or] at hne
      refine ⟨hne.1, fun hmem => ?_, hne.2⟩
      have hdot := List.mem_takeWhile_imp hmem
      simp at hdot

lemma splitParts_append (kind : Kind) {plugin uuid : Bytes} (hplugin : plugin ≠ [])
    (hdot : (46 : UInt8) ∉ plugin) (huuid : uuid ≠ []) :
    splitParts kind (plugin ++ 46 :: uuid) = some ⟨kind, plugin, uuid⟩ := by
  have hall : ∀ b ∈ plugin, decide (b ≠ 46) = true := by
    intro b hb
    rw [decide_eq_true_eq]
    rintro rfl
    exact hdot hb
  unfold splitParts
  rw [List.takeWhile_append_of_pos hall, List.dropWhile_append_of_pos hall]
  simp [hplugin, huuid]

lemma splitServicename_wellFormed (h : splitServicename N = some c) : c.WellFormed := by
  unfold splitServicename at h
  split at h
  · exact splitParts_wellFormed h
  · split at h
    · exact splitParts_wellFormed h
    · cases h

lemma splitServicename_service (h : c.WellFormed) : splitServicename c.service = some c := by
  obtain ⟨hplugin, hdot, huuid⟩ := h
  obtain ⟨kind, plugin, uuid⟩ := c
  have hparts := splitParts_append kind hplugin hdot huuid
  cases kind with
  | source =>
    simpa [splitServicename, Component.service, Kind.service, List.isPrefixOf] using hparts
  | renderer =>
    simpa [splitServicename, Component.service, Kind.service, List.isPrefixOf] using hparts

/-! ### What a name goes through -/

namespace World

def Registered (w : World) (N : Bytes) : Prop := ∃ px ∈ w.registry, px.service = N

def SettingUp (w : World) (N : Bytes) : Prop := ∃ s ∈ w.setups, s.extension.service = N

/-- The messages about a name that are still to be handled. -/
def mail (w : World) (N : Bytes) : List Message := w.inbox.filter fun m => m.name = N

/-- `create_proxy` is still to be called for the name. -/
def ToList (w : World) (N : Bytes) : Prop := ∃ names, w.stage = .listing names ∧ N ∈ names

def Listed (w : World) (N : Bytes) : Prop := ∃ names, w.stage = .listing names ∧ N ∉ names

/-- Somebody owns the name, or there is something left of it. -/
def About (w : World) (N : Bytes) : Prop := N ∈ w.owned ∨ w.mail N ≠ [] ∨ w.Registered N ∨ w.SettingUp N

/-- A proxy is there or on its way, or the service is still to announce itself. -/
def Expected (w : World) (N : Bytes) : Prop :=
  w.Registered N ∨ w.SettingUp N ∨ .hello N ∈ w.mail N ∨ N ∈ w.greetings

/-- No message and no call is outstanding. -/
def Quiet (w : World) : Prop := w.stage = .listing [] ∧ w.inbox = [] ∧ w.greetings = [] ∧ w.setups = []

end World

/-- A service has a well-formed name, and its uuid is no other service's when it takes the name.
It gives the name up only when its proxy is not being set up, when no earlier loss of the name
is still to be handled, and when it is not known from a HELLO or a list of names alone. -/
def Keeps (w : World) : Event → Prop
  | .appear name => ∀ c, splitServicename name = some c → name = c.service ∧
      ∀ name' c', splitServicename name' = some c' → c'.uuid = c.uuid → w.About name' → name' = name
  | .vanish name _ => (splitServicename name).isSome → ¬w.SettingUp name ∧
      (∀ m ∈ w.mail name, m = .hello name ∧ w.Registered name) ∧ ¬w.ToList name
  | _ => True

inductive Phase (w : World) (N : Bytes) : Prop
  | settled : (∀ m ∈ w.mail N, m = .hello N) → (w.Expected N ∨ w.ToList N → N ∈ w.owned) →
      (w.Listed N → N ∈ w.owned → w.Expected N) → Phase w N
  /-- A loss is still to be handled, behind `m` announcements and in front of `n`. -/
  | leaving (m n : Nat) (owner : Bytes) : w.Listed N →
      w.mail N = List.replicate m (.hello N) ++ .nameOwnerChanged N owner [] :: List.replicate n (.hello N) →
      owner ≠ [] → ¬w.SettingUp N → (0 < m → w.Registered N) →
      (N ∈ w.owned ↔ 0 < n ∨ N ∈ w.greetings) → Phase w N

structure Agreed (w : World) : Prop where
  unique : ∀ N N' c c', splitServicename N = some c → splitServicename N' = some c' → c'.uuid = c.uuid →
    w.About N → w.About N' → N' = N
  named : ∀ N c, splitServicename N = some c → w.About N → N = c.service
  registered : ∀ px ∈ w.registry, px.WellFormed
  setups : ∀ s ∈ w.setups, s.extension.WellFormed
  nodup : (w.registry.map fun px => px.uuid).Nodup
  matched : ∀ N, w.Registered N ∨ w.SettingUp N → 0 < w.matchRules N
  unmatched : (∀ names, w.stage ≠ .listing names) → ∀ N, w.matchRules N = 0
  phase : ∀ N c, splitServicename N = some c → Phase w N

/-- What a name goes through is untouched by a step. -/
structure SameFor (w w' : World) (N : Bytes) : Prop where
  owned : N ∈ w'.owned ↔ N ∈ w.owned
  greetings : N ∈ w'.greetings ↔ N ∈ w.greetings
  mail : w'.mail N = w.mail N
  registered : w'.Registered N ↔ w.Registered N
  settingUp : w'.SettingUp N ↔ w.SettingUp N
  toList : w'.ToList N ↔ w.ToList N
  listed : w'.Listed N ↔ w.Listed N

lemma SameFor.trans {v : World} (h : SameFor v w N) (h' : SameFor w w' N) : SameFor v w' N :=
  ⟨h'.owned.trans h.owned, h'.greetings.trans h.greetings, h'.mail.trans h.mail, h'.registered.trans h.registered,
    h'.settingUp.trans h.settingUp, h'.toList.trans h.toList, h'.listed.trans h.listed⟩

lemma SameFor.about (h : SameFor w w' N) : w'.About N ↔ w.About N := by
  rw [World.About, World.About, h.owned, h.mail, h.registered, h.settingUp]

lemma SameFor.expected (h : SameFor w w' N) : w'.Expected N ↔ w.Expected N := by
  rw [World.Expected, World.Expected, h.registered, h.settingUp, h.mail, h.greetings]

lemma Phase.frame (h : Phase w N) (hs : SameFor w w' N) : Phase w' N := by
  cases h with
  | settled hmail hsound hcomplete =>
    apply Phase.settled
    · rw [hs.mail]
      exact hmail
    · rw [hs.expected, hs.toList, hs.owned]
      exact hsound
    · rw [hs.listed, hs.owned, hs.expected]
      exact hcomplete
  | leaving m n owner hlisted hmail howner hsetup hreg howned =>
    refine .leaving m n owner (hs.listed.mpr hlisted) (hs.mail.trans hmail) howner (hs.settingUp.not.mpr hsetup)
      (fun hm => hs.registered.mpr (hreg hm)) ?_
    rw [hs.owned, hs.greetings]
    exact howned

lemma Agreed.of_phases (h : Agreed w) (hback : ∀ N, w'.About N → w.About N)
    (hregistered : ∀ px ∈ w'.registry, px.WellFormed) (hsetups : ∀ s ∈ w'.setups, s.extension.WellFormed)
    (hnodup : (w'.registry.map fun px => px.uuid).Nodup)
    (hmatched : ∀ N, w'.Registered N ∨ w'.SettingUp N → 0 < w'.matchRules N)
    (hunmatched : (∀ names, w'.stage ≠ .listing names) → ∀ N, w'.matchRules N = 0)
    (hphase : ∀ N c, splitServicename N = some c → Phase w' N) : Agreed w' :=
  ⟨fun N N' c c' hc hc' hu hN hN' => h.unique N N' c c' hc hc' hu (hback N hN) (hback N' hN'),
    fun N c hc hN => h.named N c hc (hback N hN), hregistered, hsetups, hnodup, hmatched, hunmatched, hphase⟩

lemma Agreed.step (h : Agreed w) (M : Bytes) (hothers : ∀ N, N ≠ M → SameFor w w' N)
    (habout : w'.About M → w.About M) (hregistered : ∀ px ∈ w'.registry, px.WellFormed)
    (hsetups : ∀ s ∈ w'.setups, s.extension.WellFormed) (hnodup : (w'.registry.map fun px => px.uuid).Nodup)
    (hrules : ∀ N, N ≠ M → w'.matchRules N = w.matchRules N)
    (hmatched : w'.Registered M ∨ w'.SettingUp M → 0 < w'.matchRules M)
    (hunmatched : (∀ names, w'.stage ≠ .listing names) → ∀ N, w'.matchRules N = 0)
    (hphase : ∀ c, splitServicename M = some c → Phase w' M) : Agreed w' := by
  refine h.of_phases (fun N hN => ?_) hregistered hsetups hnodup (fun N hN => ?_) hunmatched fun N c hc => ?_
  · by_cases he : N = M
    · subst he
      exact habout hN
    · exact (hothers N he).about.mp hN
  · by_cases he : N = M
    · subst he
      exact hmatched hN
    · rw [hrules N he]
      rw [(hothers N he).registered, (hothers N he).settingUp] at hN
      exact h.matched N hN
  · by_cases he : N = M
    · subst he
      exact hphase c hc
    · exact (h.phase N c hc).frame (hothers N he)

lemma not_about_init (N : Bytes) : ¬World.init.About N := by
  rintro (h | h | ⟨px, h, -⟩ | ⟨s, h, -⟩)
  · cases h
  · exact h rfl
  · cases h
  · cases h

lemma agreed_init : Agreed World.init := by
  refine ⟨fun N N' c c' hc hc' hu hN => absurd hN (not_about_init N), fun N c hc hN => absurd hN (not_about_init N),
    fun px h => (by cases h), fun s h => (by cases h), List.nodup_nil, ?_, fun _ _ => rfl, fun N c hc => ?_⟩
  · rintro N (⟨px, h, -⟩ | ⟨s, h, -⟩)
    · cases h
    · cases h
  · refine .settled (fun m hm => by cases hm) ?_ ?_
    · rintro ((⟨px, h, -⟩ | ⟨s, h, -⟩ | h | h) | ⟨names, h, -⟩) <;> cases h
    · rintro ⟨names, h, -⟩
      cases h

/-! ### The registry is asked for a uuid -/

lemma getExtensionByUuid_some (hp : w.getExtensionByUuid c.uuid = some px) : px ∈ w.registry ∧ px.uuid = c.uuid := by
  refine ⟨List.mem_of_find?_eq_some hp, ?_⟩
  simpa using List.find?_some hp

lemma Agreed.found (h : Agreed w) (hc : splitServicename N = some c) (hN : w.About N)
    (hp : w.getExtensionByUuid c.uuid = some px) : px ∈ w.registry ∧ px.service = N := by
  obtain ⟨hmem, huuid⟩ := getExtensionByUuid_some hp
  refine ⟨hmem, h.unique N px.service c px.toComponent hc (splitServicename_service (h.registered px hmem)) huuid hN ?_⟩
  exact .inr (.inr (.inl ⟨px, hmem, rfl⟩))

lemma Agreed.uuid_of_service (hpx : px.WellFormed) (hc : splitServicename N = some c) (hN : px.service = N) :
    px.toComponent = c := by
  rw [← hN, splitServicename_service hpx] at hc
  exact Option.some.inj hc

lemma Agreed.missing (h : Agreed w) (hc : splitServicename N = some c)
    (hp : w.getExtensionByUuid c.uuid = none) : ¬w.Registered N := by
  rintro ⟨px, hmem, hN⟩
  have hsame := Agreed.uuid_of_service (h.registered px hmem) hc hN
  have hnone := List.find?_eq_none.mp hp px hmem
  rw [hsame] at hnone
  simp at hnone

/-! ### Names that come and go -/

lemma send_fields (w : World) (m : Message) (b : Bool) :
    (w.send m b).owned = w.owned ∧ (w.send m b).greetings = w.greetings ∧ (w.send m b).stage = w.stage ∧
      (w.send m b).registry = w.registry ∧ (w.send m b).setups = w.setups ∧
      (w.send m b).matchRules = w.matchRules := by
  cases b <;> exact ⟨rfl, rfl, rfl, rfl, rfl, rfl⟩

lemma send_mail (w : World) (m : Message) (b : Bool) (N : Bytes) :
    (w.send m b).mail N = w.mail N ++ if b = true ∧ m.name = N then [m] else [] := by
  cases b with
  | false => simp [World.send]
  | true =>
    rw [World.send, if_pos rfl, World.mail, List.filter_append]
    by_cases hN : m.name = N
    · simp [World.mail, hN]
    · simp [World.mail, hN]

lemma Agreed.appear (h : Agreed w) (hnew : M ∉ w.owned) (hk : Keeps w (.appear M)) :
    Agreed (w.handle (.appear M)) := by
  have hothers : ∀ N, N ≠ M → SameFor w (w.handle (.appear M)) N := fun N hN =>
    ⟨List.mem_cons.trans (or_iff_right hN), List.mem_cons.trans (or_iff_right hN), rfl, Iff.rfl, Iff.rfl, Iff.rfl,
      Iff.rfl⟩
  have hback : ∀ N, N ≠ M → (w.handle (.appear M)).About N → w.About N := fun N hN hA =>
    (hothers N hN).about.mp hA
  refine ⟨fun N N' c c' hc hc' hu hN hN' => ?_, fun N c hc hN => ?_, h.registered, h.setups, h.nodup, h.matched,
    h.unmatched, fun N c hc => ?_⟩
  · by_cases he : N = M
    · subst he
      by_cases he' : N' = N
      · exact he'
      · exact (hk c hc).2 N' c' hc' hu (hback N' he' hN')
    · by_cases he' : N' = M
      · subst he'
        exact ((hk c' hc').2 N c hc hu.symm (hback N he hN)).symm
      · exact h.unique N N' c c' hc hc' hu (hback N he hN) (hback N' he' hN')
  · by_cases he : N = M
    · subst he
      exact (hk c hc).1
    · exact h.named N c hc (hback N he hN)
  · by_cases he : N = M
    · subst he
      cases h.phase N c hc with
      | settled hmail _ _ =>
        exact .settled hmail (fun _ => List.mem_cons_self) fun _ _ => .inr (.inr (.inr List.mem_cons_self))
      | leaving m n owner hlisted hmail howner hsetup hreg _ =>
        exact .leaving m n owner hlisted hmail howner hsetup hreg
          (iff_of_true List.mem_cons_self (.inr List.mem_cons_self))
    · exact (h.phase N c hc).frame (hothers N he)

lemma mem_filter_ne {l : List Bytes} (hN : N ≠ M) : N ∈ l.filter (· ≠ M) ↔ N ∈ l := by
  simp [hN]

lemma not_mem_filter_ne (l : List Bytes) (M : Bytes) : M ∉ l.filter (· ≠ M) := by
  simp

/-- A step of the bus about one name. -/
structure BusStep (w w' : World) (M : Bytes) : Prop where
  registry : w'.registry = w.registry
  setups : w'.setups = w.setups
  stage : w'.stage = w.stage
  rules : w'.matchRules = w.matchRules
  owned : ∀ N, N ≠ M → (N ∈ w'.owned ↔ N ∈ w.owned)
  greetings : ∀ N, N ≠ M → (N ∈ w'.greetings ↔ N ∈ w.greetings)
  mail : ∀ N, N ≠ M → w'.mail N = w.mail N

namespace BusStep

lemma registered (h : BusStep w w' M) (N : Bytes) : w'.Registered N ↔ w.Registered N := by
  rw [World.Registered, World.Registered, h.registry]

lemma settingUp (h : BusStep w w' M) (N : Bytes) : w'.SettingUp N ↔ w.SettingUp N := by
  rw [World.SettingUp, World.SettingUp, h.setups]

lemma toList (h : BusStep w w' M) (N : Bytes) : w'.ToList N ↔ w.ToList N := by
  rw [World.ToList, World.ToList, h.stage]

lemma listed (h : BusStep w w' M) (N : Bytes) : w'.Listed N ↔ w.Listed N := by
  rw [World.Listed, World.Listed, h.stage]

lemma sameFor (h : BusStep w w' M) (hN : N ≠ M) : SameFor w w' N :=
  ⟨h.owned N hN, h.greetings N hN, h.mail N hN, h.registered N, h.settingUp N, h.toList N, h.listed N⟩

lemma agreed (hb : BusStep w w' M) (h : Agreed w) (habout : w'.About M → w.About M)
    (hphase : ∀ c, splitServicename M = some c → Phase w' M) : Agreed w' := by
  refine h.step M (fun N hN => hb.sameFor hN) habout ?_ ?_ ?_ ?_ ?_ ?_ hphase
  · rw [hb.registry]
    exact h.registered
  · rw [hb.setups]
    exact h.setups
  · rw [hb.registry]
    exact h.nodup
  · intro N _
    rw [hb.rules]
  · rw [hb.registered, hb.settingUp, hb.rules]
    exact h.matched M
  · rw [hb.stage, hb.rules]
    exact h.unmatched

end BusStep

lemma handle_hello (w : World) (M : Bytes) :
    BusStep w (w.handle (.hello M)) M ∧ (w.handle (.hello M)).owned = w.owned ∧
      M ∉ (w.handle (.hello M)).greetings ∧
      (w.handle (.hello M)).mail M = w.mail M ++ if w.watches = true then [.hello M] else [] := by
  rw [World.handle]
  generalize hv : ({ w with greetings := w.greetings.filter (· ≠ M) } : World) = v
  obtain ⟨howned, hgreetings, hstage, hregistry, hsetups, hrules⟩ := send_fields v (.hello M) w.watches
  have hmail := send_mail v (.hello M) w.watches
  generalize v.send (.hello M) w.watches = w' at *
  subst hv
  refine ⟨⟨hregistry, hsetups, hstage, hrules, fun N _ => ?_, fun N hN => ?_, fun N hN => ?_⟩, howned, ?_, ?_⟩
  · rw [howned]
  · rw [hgreetings]
    exact mem_filter_ne hN
  · rw [hmail N, if_neg fun hs => hN hs.2.symm, List.append_nil]
    rfl
  · rw [hgreetings]
    exact not_mem_filter_ne _ _
  · rw [hmail M]
    simp [World.mail, Message.name]

lemma Agreed.hello (h : Agreed w) (hM : M ∈ w.owned) : Agreed (w.handle (.hello M)) := by
  obtain ⟨hb, howned, hgreet, hmail⟩ := handle_hello w M
  generalize w.handle (.hello M) = w' at *
  refine hb.agreed h (fun _ => .inl hM) fun c hc => ?_
  have hM' : M ∈ w'.owned := by
    rw [howned]
    exact hM
  cases h.phase M c hc with
  | settled hall _ _ =>
    refine .settled (fun m hm => ?_) (fun _ => hM') fun hlisted _ => ?_
    · rw [hmail] at hm
      rcases List.mem_append.mp hm with hm | hm
      · exact hall m hm
      · split at hm
        · exact List.mem_singleton.mp hm
        · cases hm
    · obtain ⟨names, hstage, -⟩ := (hb.listed M).mp hlisted
      refine .inr (.inr (.inl ?_))
      rw [hmail, if_pos (by rw [World.watches, hstage])]
      exact List.mem_append_right _ (List.mem_singleton_self _)
  | leaving m n owner hlisted hall howner hsetup hreg _ =>
    obtain ⟨names, hstage, hnames⟩ := hlisted
    have hlisted : w.Listed M := ⟨names, hstage, hnames⟩
    refine .leaving m (n + 1) owner ((hb.listed M).mpr hlisted) ?_ howner ((hb.settingUp M).not.mpr hsetup)
      (fun hm => (hb.registered M).mpr (hreg hm)) (iff_of_true hM' (.inl (Nat.succ_pos n)))
    rw [hmail, if_pos (by rw [World.watches, hstage]), hall, List.append_assoc, List.cons_append,
      ← List.replicate_succ']

lemma handle_vanish (w : World) (M owner : Bytes) :
    BusStep w (w.handle (.vanish M owner)) M ∧ M ∉ (w.handle (.vanish M owner)).owned ∧
      M ∉ (w.handle (.vanish M owner)).greetings ∧ (w.handle (.vanish M owner)).mail M =
        w.mail M ++ if 0 < w.matchRules M then [.nameOwnerChanged M owner []] else [] := by
  rw [World.handle]
  generalize hv : ({ w with
    owned := w.owned.filter (· ≠ M), greetings := w.greetings.filter (· ≠ M) } : World) = v
  obtain ⟨howned, hgreetings, hstage, hregistry, hsetups, hrules⟩ :=
    send_fields v (.nameOwnerChanged M owner []) (0 < w.matchRules M)
  have hmail := send_mail v (.nameOwnerChanged M owner []) (0 < w.matchRules M)
  generalize v.send (.nameOwnerChanged M owner []) (0 < w.matchRules M) = w' at *
  subst hv
  refine ⟨⟨hregistry, hsetups, hstage, hrules, fun N hN => ?_, fun N hN => ?_, fun N hN => ?_⟩, ?_, ?_, ?_⟩
  · rw [howned]
    exact mem_filter_ne hN
  · rw [hgreetings]
    exact mem_filter_ne hN
  · rw [hmail N, if_neg fun hs => hN hs.2.symm, List.append_nil]
    rfl
  · rw [howned]
    exact not_mem_filter_ne _ _
  · rw [hgreetings]
    exact not_mem_filter_ne _ _
  · rw [hmail M]
    simp [World.mail, Message.name]

lemma Agreed.vanish (h : Agreed w) {owner : Bytes} (hM : M ∈ w.owned) (howner : owner ≠ [])
    (hk : Keeps w (.vanish M owner)) : Agreed (w.handle (.vanish M owner)) := by
  obtain ⟨hb, howned, hgreet, hmail⟩ := handle_vanish w M owner
  generalize w.handle (.vanish M owner) = w' at *
  refine hb.agreed h (fun _ => .inl hM) fun c hc => ?_
  obtain ⟨hsetup, hall, htolist⟩ := hk (by rw [hc]; rfl)
  have hsetup' : ¬w'.SettingUp M := (hb.settingUp M).not.mpr hsetup
  by_cases hmatched : 0 < w.matchRules M
  · -- the client will hear of it
    rw [if_pos hmatched] at hmail
    refine .leaving (w.mail M).length 0 owner ?_ ?_ howner hsetup' (fun hpos => ?_) ?_
    · rw [hb.listed]
      have hstage : ¬∀ names, w.stage ≠ .listing names := fun hne =>
        absurd (h.unmatched hne M) (Nat.ne_of_gt hmatched)
      obtain ⟨names, hnames⟩ := not_forall_not.mp hstage
      exact ⟨names, hnames, fun hmem => htolist ⟨names, hnames, hmem⟩⟩
    · rw [hmail, List.replicate_zero]
      congr 1
      exact List.eq_replicate_iff.mpr ⟨rfl, fun m hm => (hall m hm).1⟩
    · obtain ⟨m, hm⟩ := List.length_pos_iff_exists_mem.mp hpos
      exact (hb.registered M).mpr (hall m hm).2
    · exact iff_of_false howned fun hor => hor.elim (fun hlt => absurd hlt (Nat.lt_irrefl 0)) hgreet
  · -- there is nothing of it
    have hreg : ¬w.Registered M := fun hreg => hmatched (h.matched M (.inl hreg))
    rw [if_neg hmatched, List.append_nil] at hmail
    refine .settled (fun m hm => ?_) ?_ fun _ hown => absurd hown howned
    · rw [hmail] at hm
      exact (hall m hm).1
    · rintro ((hreg' | hsu | hhello | hgr) | hto)
      · exact absurd ((hb.registered M).mp hreg') hreg
      · exact absurd hsu hsetup'
      · rw [hmail] at hhello
        exact absurd (hall _ hhello).2 hreg
      · exact absurd hgr hgreet
      · exact absurd ((hb.toList M).mp hto) htolist

/-! ### Proxies are created -/

/-- A proxy of the service is being set up, and there is a match for the loss of its name. -/
structure Created (w w' : World) (M : Bytes) : Prop where
  owned : w'.owned = w.owned
  greetings : w'.greetings = w.greetings
  inbox : w'.inbox = w.inbox
  stage : w'.stage = w.stage
  registry : w'.registry = w.registry
  rules : ∀ N, N ≠ M → w'.matchRules N = w.matchRules N
  matched : 0 < w'.matchRules M
  kept : ∀ s ∈ w.setups, s ∈ w'.setups
  setups : ∀ s ∈ w'.setups, s ∈ w.setups ∨ s.extension.WellFormed ∧ s.extension.service = M
  settingUp : w'.SettingUp M

lemma Created.sameFor (h : Created w w' M) (hN : N ≠ M) : SameFor w w' N := by
  refine ⟨?_, ?_, ?_, ?_, ?_, ?_, ?_⟩
  · rw [h.owned]
  · rw [h.greetings]
  · rw [World.mail, World.mail, h.inbox]
  · rw [World.Registered, World.Registered, h.registry]
  · constructor
    · rintro ⟨s, hs, hservice⟩
      rcases h.setups s hs with hs | ⟨-, hM⟩
      · exact ⟨s, hs, hservice⟩
      · exact absurd (hservice.symm.trans hM) hN
    · rintro ⟨s, hs, hservice⟩
      exact ⟨s, h.kept s hs, hservice⟩
  · rw [World.ToList, World.ToList, h.stage]
  · rw [World.Listed, World.Listed, h.stage]

lemma Agreed.create {v : World} (h : Agreed w) (hc : splitServicename M = some c) (hM : w.About M)
    (hregistry : v.registry = w.registry) (hsetups : v.setups = w.setups) (takesOver : Bool) :
    w.Registered M ∧ v.createProxy M takesOver = v ∨
      ¬w.Registered M ∧ Created v (v.createProxy M takesOver) M := by
  have hservice : c.service = M := (h.named M c hc hM).symm
  have hlookup : v.getExtensionByUuid c.uuid = w.getExtensionByUuid c.uuid := by
    rw [World.getExtensionByUuid, World.getExtensionByUuid, hregistry]
  rw [World.createProxy, hc]
  dsimp only
  rw [hlookup]
  cases hp : w.getExtensionByUuid c.uuid with
  | some px =>
    obtain ⟨hmem, hpx⟩ := h.found hc hM hp
    exact .inl ⟨⟨px, hmem, hpx⟩, rfl⟩
  | none =>
    refine .inr ⟨h.missing hc hp, ?_⟩
    have hrules : ∀ N, N ≠ M → Function.update v.matchRules M (v.matchRules M + 1) N = v.matchRules N :=
      fun N hN => Function.update_of_ne hN _ _
    have hpos : 0 < Function.update v.matchRules M (v.matchRules M + 1) M := by
      rw [Function.update_self]
      exact Nat.succ_pos _
    dsimp only
    rw [World.proxyNew]
    by_cases hinUse : (v.pathInUse c && !takesOver) = true
    · -- the path is in use, so that the service has its proxy set up already
      rw [if_pos hinUse]
      rw [Bool.and_eq_true] at hinUse
      obtain ⟨s, hs, hsame⟩ := List.any_eq_true.mp hinUse.1
      rw [Bool.and_eq_true, decide_eq_true_eq, decide_eq_true_eq] at hsame
      rw [hsetups] at hs
      have hown : s.extension.service = M :=
        h.unique M s.extension.service c s.extension.toComponent hc (splitServicename_service (h.setups s hs))
          hsame.2 hM (.inr (.inr (.inr ⟨s, hs, rfl⟩)))
      exact ⟨rfl, rfl, rfl, rfl, rfl, hrules, hpos, fun _ hs => hs, fun _ hs => .inl hs, s, hsetups ▸ hs, hown⟩
    · rw [if_neg hinUse]
      refine ⟨rfl, rfl, rfl, rfl, rfl, hrules, hpos, fun s hs => List.mem_append_left _ hs, fun s hs => ?_, ?_⟩
      · rcases List.mem_append.mp hs with hs | hs
        · exact .inl hs
        · rw [List.mem_singleton.mp hs]
          exact .inr ⟨splitServicename_wellFormed hc, hservice⟩
      · exact ⟨_, List.mem_append_right _ (List.mem_singleton_self _), hservice⟩

/-- What a step about one name has done before the registry is looked at. -/
structure Prepared (w v : World) (M : Bytes) : Prop where
  others : ∀ N, N ≠ M → SameFor w v N
  about : v.About M → w.About M
  registry : v.registry = w.registry
  setups : v.setups = w.setups
  rules : v.matchRules = w.matchRules
  listing : ∃ names, v.stage = .listing names

namespace Prepared
variable {v : World}

lemma unmatched (hp : Prepared w v M) (hne : ∀ names, v.stage ≠ .listing names) (N : Bytes) :
    v.matchRules N = 0 := by
  obtain ⟨names, hnames⟩ := hp.listing
  exact absurd hnames (hne names)

lemma registered (hp : Prepared w v M) (N : Bytes) : v.Registered N ↔ w.Registered N := by
  rw [World.Registered, World.Registered, hp.registry]

lemma settingUp (hp : Prepared w v M) (N : Bytes) : v.SettingUp N ↔ w.SettingUp N := by
  rw [World.SettingUp, World.SettingUp, hp.setups]

lemma agreed (hp : Prepared w v M) (h : Agreed w) (hphase : ∀ c, splitServicename M = some c → Phase v M) :
    Agreed v := by
  refine h.step M hp.others hp.about ?_ ?_ ?_ ?_ ?_ hp.unmatched hphase
  · rw [hp.registry]
    exact h.registered
  · rw [hp.setups]
    exact h.setups
  · rw [hp.registry]
    exact h.nodup
  · intro N _
    rw [hp.rules]
  · rw [hp.rules, hp.registered, hp.settingUp]
    exact h.matched M

lemma created (hp : Prepared w v M) (h : Agreed w) (hM : w.About M) (hcreated : Created v w' M)
    (hphase : ∀ c, splitServicename M = some c → Phase w' M) : Agreed w' := by
  refine h.step M (fun N hN => (hp.others N hN).trans (hcreated.sameFor hN)) (fun _ => hM) ?_ ?_ ?_ ?_
    (fun _ => hcreated.matched) ?_ hphase
  · rw [hcreated.registry, hp.registry]
    exact h.registered
  · intro s hs
    rcases hcreated.setups s hs with hs | ⟨hwf, -⟩
    · rw [hp.setups] at hs
      exact h.setups s hs
    · exact hwf
  · rw [hcreated.registry, hp.registry]
    exact h.nodup
  · intro N hN
    rw [hcreated.rules N hN, hp.rules]
  · intro hne
    rw [hcreated.stage] at hne
    obtain ⟨names, hnames⟩ := hp.listing
    exact absurd hnames (hne names)

end Prepared

/-! ### The initialization -/

lemma Agreed.watch (h : Agreed w) (hoff : w.stage = .off) : Agreed (w.handle .watch) := by
  have hsame : ∀ N, SameFor w (w.handle .watch) N := by
    intro N
    refine ⟨Iff.rfl, Iff.rfl, rfl, Iff.rfl, Iff.rfl, iff_of_false ?_ ?_, iff_of_false ?_ ?_⟩
    · rintro ⟨names, hs, -⟩
      cases hs
    · rintro ⟨names, hs, -⟩
      cases hoff.symm.trans hs
    · rintro ⟨names, hs, -⟩
      cases hs
    · rintro ⟨names, hs, -⟩
      cases hoff.symm.trans hs
  refine h.of_phases (fun N hN => hN) h.registered h.setups h.nodup h.matched (fun _ => h.unmatched ?_)
    fun N c hc => (h.phase N c hc).frame (hsame N)
  intro names hs
  cases hoff.symm.trans hs

lemma Agreed.listNames (h : Agreed w) (hwatching : w.stage = .watching) : Agreed (w.handle .listNames) := by
  refine h.of_phases (fun N hN => hN) h.registered h.setups h.nodup h.matched
    (fun hne => absurd rfl (hne w.owned)) fun N c hc => ?_
  cases h.phase N c hc with
  | settled hmail hsound _ =>
    refine .settled hmail ?_ ?_
    · rintro (hexpected | ⟨names, hs, hmem⟩)
      · exact hsound (.inl hexpected)
      · cases hs
        exact hmem
    · rintro ⟨names, hs, hnot⟩ howned
      cases hs
      exact absurd howned hnot
  | leaving _ _ _ hlisted _ _ _ _ _ =>
    obtain ⟨names, hs, -⟩ := hlisted
    cases hwatching.symm.trans hs

lemma prepared_next {names : List Bytes} (hstage : w.stage = .listing (M :: names)) :
    Prepared w { w with stage := .listing names } M := by
  refine ⟨fun N hN => ⟨Iff.rfl, Iff.rfl, rfl, Iff.rfl, Iff.rfl, ?_, ?_⟩, id, rfl, rfl, rfl, names, rfl⟩
  · constructor
    · rintro ⟨names', hs, hmem⟩
      cases hs
      exact ⟨_, hstage, List.mem_cons_of_mem _ hmem⟩
    · rintro ⟨names', hs, hmem⟩
      cases hstage.symm.trans hs
      exact ⟨_, rfl, (List.mem_cons.mp hmem).resolve_left hN⟩
  · constructor
    · rintro ⟨names', hs, hnot⟩
      cases hs
      exact ⟨_, hstage, fun hmem => hnot ((List.mem_cons.mp hmem).resolve_left hN)⟩
    · rintro ⟨names', hs, hnot⟩
      cases hstage.symm.trans hs
      exact ⟨_, rfl, fun hmem => hnot (List.mem_cons_of_mem _ hmem)⟩

lemma Agreed.createNext (h : Agreed w) {names : List Bytes} (hstage : w.stage = .listing (M :: names))
    (takesOver : Bool) : Agreed ({ w with stage := .listing names }.createProxy M takesOver) := by
  have hp := prepared_next hstage
  cases hc : splitServicename M with
  | none =>
    rw [World.createProxy, hc]
    refine hp.agreed h fun c hc' => ?_
    cases hc.symm.trans hc'
  | some c =>
    -- the listed name has an owner, and no loss of it is still to be handled
    obtain ⟨hall, howned⟩ : (∀ m ∈ w.mail M, m = .hello M) ∧ M ∈ w.owned := by
      cases h.phase M c hc with
      | settled hall hsound _ => exact ⟨hall, hsound (.inr ⟨_, hstage, List.mem_cons_self⟩)⟩
      | leaving _ _ _ hlisted _ _ _ _ _ =>
        obtain ⟨names', hs, hnot⟩ := hlisted
        cases hstage.symm.trans hs
        exact absurd List.mem_cons_self hnot
    rcases h.create hc (.inl howned) hp.registry hp.setups takesOver with ⟨hreg, heq⟩ | ⟨-, hcreated⟩
    · rw [heq]
      exact hp.agreed h fun _ _ =>
        .settled hall (fun _ => howned) fun _ _ => .inl ((hp.registered M).mpr hreg)
    · refine hp.created h (.inl howned) hcreated fun _ _ => ?_
      refine .settled ?_ (fun _ => ?_) fun _ _ => .inr (.inl hcreated.settingUp)
      · rw [World.mail, hcreated.inbox]
        exact hall
      · rw [hcreated.owned]
        exact howned

/-! ### Messages -/

/-- The next message is taken from the inbox. -/
structure Taken (w v : World) (m : Message) : Prop where
  mail : w.mail m.name = m :: v.mail m.name
  prepared : Prepared w v m.name
  owned : v.owned = w.owned
  greetings : v.greetings = w.greetings
  stage : v.stage = .listing []

lemma about_of_mail {m : Message} {mail : List Message} (h : w.mail N = m :: mail) : w.About N := by
  refine .inr (.inl ?_)
  rw [h]
  exact List.cons_ne_nil _ _

lemma taken {m : Message} {inbox : List Message} (h : w.inbox = m :: inbox) (hstage : w.stage = .listing []) :
    Taken w { w with inbox } m := by
  have hmail : w.mail m.name = m :: World.mail { w with inbox } m.name := by
    rw [World.mail, h, List.filter_cons_of_pos (by simp)]
    rfl
  refine ⟨hmail, ⟨fun N hN => ⟨Iff.rfl, Iff.rfl, ?_, Iff.rfl, Iff.rfl, Iff.rfl, Iff.rfl⟩,
    fun _ => about_of_mail hmail, rfl, rfl, rfl, [], hstage⟩, rfl, rfl, hstage⟩
  rw [World.mail, World.mail, h, List.filter_cons_of_neg (by simpa using Ne.symm hN)]

lemma Agreed.dispatch_hello {v : World} (h : Agreed w) (ht : Taken w v (.hello M)) (takesOver : Bool) :
    Agreed (v.createProxy M takesOver) := by
  have hp : Prepared w v M := ht.prepared
  have hmail : w.mail M = .hello M :: v.mail M := ht.mail
  cases hc : splitServicename M with
  | none =>
    rw [World.createProxy, hc]
    refine hp.agreed h fun c hc' => ?_
    cases hc.symm.trans hc'
  | some c =>
    rcases h.create hc (about_of_mail hmail) hp.registry hp.setups takesOver with
      ⟨hreg, heq⟩ | ⟨hreg, hcreated⟩
    · rw [heq]
      refine hp.agreed h fun _ _ => ?_
      cases h.phase M c hc with
      | settled hall hsound _ =>
        have howned : M ∈ v.owned := by
          rw [ht.owned]
          exact hsound (.inl (.inl hreg))
        refine .settled (fun m hm => hall m ?_) (fun _ => howned) fun _ _ => .inl ((hp.registered M).mpr hreg)
        rw [hmail]
        exact List.mem_cons_of_mem _ hm
      | leaving m n owner _ hall howner hsetup _ howned =>
        cases m with
        | zero =>
          rw [hmail] at hall
          cases hall
        | succ m =>
          rw [hmail, List.replicate_succ] at hall
          refine .leaving m n owner ⟨[], ht.stage, List.not_mem_nil⟩ (List.cons.inj hall).2 howner
            ((hp.settingUp M).not.mpr hsetup) (fun _ => (hp.registered M).mpr hreg) ?_
          rw [ht.owned, ht.greetings]
          exact howned
    · refine hp.created h (about_of_mail hmail) hcreated fun _ _ => ?_
      cases h.phase M c hc with
      | settled hall hsound _ =>
        refine .settled (fun m hm => hall m ?_) (fun _ => ?_) fun _ _ => .inr (.inl hcreated.settingUp)
        · rw [World.mail, hcreated.inbox] at hm
          rw [hmail]
          exact List.mem_cons_of_mem _ hm
        · rw [hcreated.owned, ht.owned]
          refine hsound (.inl (.inr (.inr (.inl ?_))))
          rw [hmail]
          exact List.mem_cons_self
      | leaving m n owner _ hall _ _ hregistered _ =>
        -- the announcement in front of a loss is one of a service that has its proxy
        cases m with
        | zero =>
          rw [hmail] at hall
          cases hall
        | succ m => exact absurd (hregistered (Nat.succ_pos m)) hreg

/-- A name is given up when the loss of it is the next message about it. -/
lemma Agreed.loss (h : Agreed w) (hc : splitServicename N = some c) {oldname newname : Bytes}
    {mail : List Message} (hmail : w.mail N = .nameOwnerChanged N oldname newname :: mail) :
    newname = [] ∧ oldname ≠ [] ∧ ¬w.SettingUp N ∧
      ∃ n, mail = List.replicate n (.hello N) ∧ (N ∈ w.owned ↔ 0 < n ∨ N ∈ w.greetings) := by
  cases h.phase N c hc with
  | settled hall _ _ =>
    have hhello := hall (.nameOwnerChanged N oldname newname) (by rw [hmail]; exact List.mem_cons_self)
    cases hhello
  | leaving m n owner _ hall howner hsetup _ howned =>
    cases m with
    | zero =>
      rw [hmail, List.replicate_zero, List.nil_append] at hall
      obtain ⟨hhead, htail⟩ := List.cons.inj hall
      cases hhead
      exact ⟨rfl, howner, hsetup, n, htail, howned⟩
    | succ m =>
      rw [hmail, List.replicate_succ] at hall
      cases (List.cons.inj hall).1

lemma Agreed.removes {v : World} (h : Agreed w) (hc : splitServicename N = some c) (hN : w.About N)
    (hregistry : v.registry = w.registry) {oldname : Bytes} (hold : oldname ≠ []) (takesOver : Bool) :
    ∃ registry, registry.Sublist w.registry ∧ (∀ px ∈ registry, px.service ≠ N) ∧
      (∀ px ∈ w.registry, px.service ≠ N → px ∈ registry) ∧
      v.handleMessage takesOver (.nameOwnerChanged N oldname []) =
        { v with registry, matchRules := Function.update v.matchRules N (v.matchRules N - 1) } := by
  have hlookup : v.getExtensionByUuid c.uuid = w.getExtensionByUuid c.uuid := by
    rw [World.getExtensionByUuid, World.getExtensionByUuid, hregistry]
  rw [World.handleMessage, if_neg (not_not.mpr rfl), if_neg hold, hc]
  dsimp only
  rw [hlookup]
  cases hp : w.getExtensionByUuid c.uuid with
  | none =>
    refine ⟨w.registry, List.Sublist.refl _, fun px hmem hs => h.missing hc hp ⟨px, hmem, hs⟩,
      fun px hmem _ => hmem, ?_⟩
    rw [← hregistry]
  | some extension =>
    obtain ⟨hmem, hservice⟩ := h.found hc hN hp
    have hnodup : w.registry.Nodup := List.Nodup.of_map _ h.nodup
    refine ⟨w.registry.erase extension, List.erase_sublist, fun px hpx hs => ?_, fun px hpx hne => ?_, ?_⟩
    · obtain ⟨hne, hpx⟩ := (hnodup.mem_erase_iff).mp hpx
      have hsame : px.uuid = extension.uuid := by
        rw [Agreed.uuid_of_service (h.registered px hpx) hc hs,
          Agreed.uuid_of_service (h.registered extension hmem) hc hservice]
      exact hne (List.inj_on_of_nodup_map h.nodup hpx hmem hsame)
    · refine (hnodup.mem_erase_iff).mpr ⟨?_, hpx⟩
      rintro rfl
      exact hne hservice
    · rw [← hregistry]

/-- Without a proxy only announcements are left, of a service that has taken the name again. -/
lemma Phase.announced {n : Nat} (hstage : w.stage = .listing []) (hmail : w.mail N = List.replicate n (.hello N))
    (howned : N ∈ w.owned ↔ 0 < n ∨ N ∈ w.greetings) (hnot : ¬w.Registered N) (hnot' : ¬w.SettingUp N) :
    Phase w N := by
  refine .settled (fun m hm => ?_) ?_ fun _ hown => ?_
  · rw [hmail] at hm
    exact List.eq_of_mem_replicate hm
  · rintro ((hr | hs | hhello | hgreet) | ⟨names, hnames, hmem⟩)
    · exact absurd hr hnot
    · exact absurd hs hnot'
    · rw [hmail] at hhello
      exact howned.mpr (.inl (Nat.pos_of_ne_zero (List.mem_replicate.mp hhello).1))
    · exact howned.mpr (.inr hgreet)
    · cases hstage.symm.trans hnames
      cases hmem
  · rcases howned.mp hown with hn | hgreet
    · refine .inr (.inr (.inl ?_))
      rw [hmail]
      exact List.mem_replicate.mpr ⟨Nat.ne_of_gt hn, rfl⟩
    · exact .inr (.inr (.inr hgreet))

lemma Agreed.dispatch_changed {v : World} {name oldname newname : Bytes} (h : Agreed w)
    (ht : Taken w v (.nameOwnerChanged name oldname newname)) (takesOver : Bool) :
    Agreed (v.handleMessage takesOver (.nameOwnerChanged name oldname newname)) := by
  have hp : Prepared w v name := ht.prepared
  have hmail : w.mail name = .nameOwnerChanged name oldname newname :: v.mail name := ht.mail
  cases hc : splitServicename name with
  | none =>
    have hnothing : v.handleMessage takesOver (.nameOwnerChanged name oldname newname) = v := by
      rw [World.handleMessage, hc]
      split
      · rfl
      · split <;> rfl
    rw [hnothing]
    refine hp.agreed h fun c hc' => ?_
    cases hc.symm.trans hc'
  | some c =>
    obtain ⟨rfl, hold, hsetup, n, hrest, howned⟩ := h.loss hc hmail
    obtain ⟨registry, hsub, hgone, hkept, heq⟩ :=
      h.removes hc (about_of_mail hmail) hp.registry hold takesOver
    rw [heq]
    generalize hw' : ({ v with
      registry, matchRules := Function.update v.matchRules name (v.matchRules name - 1) } : World) = w'
    have hnot : ¬w'.Registered name := by
      rw [← hw']
      rintro ⟨px, hpx, hs⟩
      exact hgone px hpx hs
    have hnot' : ¬w'.SettingUp name := by
      rw [← hw']
      exact (hp.settingUp name).not.mpr hsetup
    have hmail' : w'.mail name = List.replicate n (.hello name) := by
      rw [← hw']
      exact hrest
    have howned' : name ∈ w'.owned ↔ 0 < n ∨ name ∈ w'.greetings := by
      rw [← hw']
      dsimp only
      rw [ht.owned, ht.greetings]
      exact howned
    have hstage : w'.stage = .listing [] := by
      rw [← hw']
      exact ht.stage
    refine h.step name (fun N hN => (hp.others N hN).trans ?_) (fun _ => about_of_mail hmail) ?_ ?_ ?_ ?_
      (fun hor => hor.elim (fun hr => absurd hr hnot) fun hs => absurd hs hnot')
      (fun hne => absurd hstage (hne [])) fun _ _ => .announced hstage hmail' howned' hnot hnot'
    · rw [← hw']
      refine ⟨Iff.rfl, Iff.rfl, rfl, ?_, Iff.rfl, Iff.rfl, Iff.rfl⟩
      constructor
      · rintro ⟨px, hpx, hs⟩
        exact ⟨px, hp.registry ▸ hsub.subset hpx, hs⟩
      · rintro ⟨px, hpx, hs⟩
        refine ⟨px, hkept px (hp.registry ▸ hpx) ?_, hs⟩
        rw [hs]
        exact hN
    · rw [← hw']
      exact fun px hpx => h.registered px (hsub.subset hpx)
    · rw [← hw']
      exact fun s hs => h.setups s (hp.setups ▸ hs)
    · rw [← hw']
      exact (hsub.map _).nodup h.nodup
    · intro N hN
      rw [← hw']
      exact (Function.update_of_ne hN _ _).trans (congrFun hp.rules N)

/-! ### Replies -/

lemma Agreed.gotName (h : Agreed w) {i : Nat} {s : Setup} (hs : w.setups[i]? = some s) (name : Option Bytes) :
    Agreed (w.gotName i s name) := by
  have hmem : s ∈ w.setups := List.mem_of_getElem? hs
  obtain ⟨new, hcomponent, heq⟩ : ∃ new : Setup, new.extension.toComponent = s.extension.toComponent ∧
      w.gotName i s name = { w with setups := w.setups.set i new } := by
    cases name with
    | none => exact ⟨⟨s.extension, .listProperties⟩, rfl, rfl⟩
    | some name => exact ⟨⟨{ s.extension with name := some name }, .listProperties⟩, rfl, rfl⟩
  rw [heq]
  have hsettingUp : ∀ N, World.SettingUp { w with setups := w.setups.set i new } N ↔ w.SettingUp N := by
    intro N
    constructor
    · rintro ⟨s', hs', hservice⟩
      rcases List.mem_or_eq_of_mem_set hs' with hs' | rfl
      · exact ⟨s', hs', hservice⟩
      · refine ⟨s, hmem, ?_⟩
        rw [← hservice, hcomponent]
    · rintro ⟨s', hs', hservice⟩
      obtain ⟨j, hj⟩ := List.mem_iff_getElem?.mp hs'
      by_cases hij : i = j
      · subst hij
        cases hs.symm.trans hj
        refine ⟨new, List.mem_iff_getElem?.mpr ⟨i, ?_⟩, ?_⟩
        · obtain ⟨hlt, -⟩ := List.getElem?_eq_some_iff.mp hs
          exact List.getElem?_set_self hlt
        · rw [hcomponent]
          exact hservice
      · refine ⟨s', List.mem_iff_getElem?.mpr ⟨j, ?_⟩, hservice⟩
        exact (List.getElem?_set_ne hij).trans hj
  have hsame : ∀ N, SameFor w { w with setups := w.setups.set i new } N := fun N =>
    ⟨Iff.rfl, Iff.rfl, rfl, Iff.rfl, hsettingUp N, Iff.rfl, Iff.rfl⟩
  refine h.of_phases (fun N hN => (hsame N).about.mp hN) h.registered (fun s' hs' => ?_) h.nodup (fun N hN => ?_)
    h.unmatched fun N c hc => (h.phase N c hc).frame (hsame N)
  · rcases List.mem_or_eq_of_mem_set hs' with hs' | rfl
    · exact h.setups s' hs'
    · rw [hcomponent]
      exact h.setups s hmem
  · rw [hsettingUp] at hN
    exact h.matched N hN

lemma gotPropLists_eq (w : World) (i : Nat) (s : Setup) (properties : Option (List (Bytes × Nat))) :
    ∃ extension : Proxy, extension.toComponent = s.extension.toComponent ∧
      (w.getExtensionByUuid s.extension.uuid = none → w.gotPropLists i s properties =
        { w with registry := w.registry ++ [extension], setups := w.setups.eraseIdx i }) ∧
      ∀ px, w.getExtensionByUuid s.extension.uuid = some px → w.gotPropLists i s properties =
        { w with setups := w.setups.eraseIdx i } := by
  cases properties with
  | none =>
    refine ⟨s.extension, rfl, fun hp => ?_, fun px hp => ?_⟩
    · simp only [World.gotPropLists, World.getExtensionByUuid] at hp ⊢
      rw [hp]
    · simp only [World.gotPropLists, World.getExtensionByUuid] at hp ⊢
      rw [hp]
  | some properties =>
    refine ⟨{ s.extension with properties }, rfl, fun hp => ?_, fun px hp => ?_⟩
    · simp only [World.gotPropLists, World.getExtensionByUuid] at hp ⊢
      rw [hp]
    · simp only [World.gotPropLists, World.getExtensionByUuid] at hp ⊢
      rw [hp]

lemma nodup_concat {registry : List Proxy} {extension : Proxy}
    (h : (registry.map fun px => px.uuid).Nodup)
    (hp : registry.find? (fun px => px.uuid = extension.uuid) = none) :
    ((registry ++ [extension]).map fun px => px.uuid).Nodup := by
  rw [List.map_append, List.map_singleton]
  refine List.nodup_append.mpr ⟨h, List.nodup_singleton _, fun u hu u' hu' => ?_⟩
  rw [List.mem_singleton.mp hu']
  obtain ⟨px, hpx, rfl⟩ := List.mem_map.mp hu
  simpa using List.find?_eq_none.mp hp px hpx

lemma Agreed.gotPropLists (h : Agreed w) {i : Nat} {s : Setup} (hs : w.setups[i]? = some s)
    (properties : Option (List (Bytes × Nat))) : Agreed (w.gotPropLists i s properties) := by
  have hmem : s ∈ w.setups := List.mem_of_getElem? hs
  have hwf := h.setups s hmem
  generalize hM : s.extension.service = M
  have hc : splitServicename M = some s.extension.toComponent := hM ▸ splitServicename_service hwf
  have hsettingUp : w.SettingUp M := ⟨s, hmem, hM⟩
  have habout : w.About M := .inr (.inr (.inr hsettingUp))
  obtain ⟨hall, howned⟩ : (∀ m ∈ w.mail M, m = .hello M) ∧ M ∈ w.owned := by
    cases h.phase M _ hc with
    | settled hall hsound _ => exact ⟨hall, hsound (.inl (.inr (.inl hsettingUp)))⟩
    | leaving _ _ _ _ _ _ hnot _ _ => exact absurd hsettingUp hnot
  obtain ⟨registry, hregistry, hnodup, hin, hkept, heq⟩ : ∃ registry : List Proxy,
      (∀ px ∈ registry, px ∈ w.registry ∨ px.WellFormed ∧ px.service = M) ∧
      (registry.map fun px => px.uuid).Nodup ∧ (∃ px ∈ registry, px.service = M) ∧
      (∀ px ∈ w.registry, px ∈ registry) ∧
      w.gotPropLists i s properties = { w with registry, setups := w.setups.eraseIdx i } := by
    obtain ⟨extension, hcomponent, hadd, hpresent⟩ := gotPropLists_eq w i s properties
    cases hp : w.getExtensionByUuid s.extension.uuid with
    | none =>
      refine ⟨w.registry ++ [extension], fun px hpx => ?_, nodup_concat h.nodup (hcomponent ▸ hp), ?_,
        fun px hpx => List.mem_append_left _ hpx, hadd hp⟩
      · rcases List.mem_append.mp hpx with hpx | hpx
        · exact .inl hpx
        · rw [List.mem_singleton.mp hpx, hcomponent]
          exact .inr ⟨hwf, hM⟩
      · refine ⟨extension, List.mem_append_right _ (List.mem_singleton_self _), ?_⟩
        rw [hcomponent]
        exact hM
    | some px =>
      obtain ⟨hpx, hservice⟩ := h.found hc habout hp
      exact ⟨w.registry, fun px hpx => .inl hpx, h.nodup, ⟨px, hpx, hservice⟩, fun px hpx => hpx, hpresent px hp⟩
  rw [heq]
  refine h.step M (fun N hN => ⟨Iff.rfl, Iff.rfl, rfl, ?_, ?_, Iff.rfl, Iff.rfl⟩) (fun _ => habout) ?_ ?_ hnodup
    (fun _ _ => rfl) (fun _ => h.matched M (.inr hsettingUp)) h.unmatched fun _ _ => ?_
  · constructor
    · rintro ⟨px, hpx, hservice⟩
      rcases hregistry px hpx with hpx | ⟨-, hpx⟩
      · exact ⟨px, hpx, hservice⟩
      · exact absurd (hservice.symm.trans hpx) hN
    · rintro ⟨px, hpx, hservice⟩
      exact ⟨px, hkept px hpx, hservice⟩
  · constructor
    · rintro ⟨s', hs', hservice⟩
      exact ⟨s', List.mem_of_mem_eraseIdx hs', hservice⟩
    · rintro ⟨s', hs', hservice⟩
      obtain ⟨j, hj⟩ := List.mem_iff_getElem?.mp hs'
      refine ⟨s', List.mem_eraseIdx_iff_getElem?.mpr ⟨j, ?_, hj⟩, hservice⟩
      rintro rfl
      cases hs.symm.trans hj
      exact hN (hservice.symm.trans hM)
  · intro px hpx
    rcases hregistry px hpx with hpx | ⟨hpx, -⟩
    · exact h.registered px hpx
    · exact hpx
  · exact fun s' hs' => h.setups s' (List.mem_of_mem_eraseIdx hs')
  · exact .settled hall (fun _ => howned) fun _ _ => .inl hin

/-! ### Runs -/

lemma Agreed.handle (h : Agreed w) {e : Event} (hp : w.Possible e) (hk : Keeps w e) : Agreed (w.handle e) := by
  cases e with
  | appear name => exact h.appear hp hk
  | hello name => exact h.hello hp
  | vanish name owner => exact h.vanish hp.1 hp.2 hk
  | watch => exact h.watch hp
  | listNames => exact h.listNames hp
  | createNext takesOver =>
    obtain ⟨name, names, hstage⟩ := hp
    rw [World.handle, hstage]
    exact h.createNext hstage takesOver
  | dispatch takesOver =>
    obtain ⟨hstage, hne⟩ := hp
    rw [World.handle]
    cases hinbox : w.inbox with
    | nil => exact absurd hinbox hne
    | cons m inbox =>
      cases m with
      | hello name => exact h.dispatch_hello (taken hinbox hstage) takesOver
      | nameOwnerChanged name oldname newname => exact h.dispatch_changed (taken hinbox hstage) takesOver
  | gotName i name =>
    obtain ⟨-, s, hs, -⟩ := hp
    rw [World.handle, hs]
    exact h.gotName hs name
  | gotPropLists i properties =>
    obtain ⟨-, s, hs, -⟩ := hp
    rw [World.handle, hs]
    exact h.gotPropLists hs properties

/-- The steps of the bus and the client. -/
def Step (w : World) (e : Event) (w' : World) : Prop := w.handle e = w'

lemma createProxy_registry (w : World) (service : Bytes) (takesOver : Bool) :
    (w.createProxy service takesOver).registry = w.registry := by
  unfold World.createProxy
  split
  · rfl
  · split
    · rfl
    · dsimp only
      rw [World.proxyNew]
      split <;> rfl

lemma handleMessage_registry (w : World) (takesOver : Bool) (m : Message) :
    (w.handleMessage takesOver m).registry.Sublist w.registry := by
  cases m with
  | hello name =>
    rw [World.handleMessage, createProxy_registry]
  | nameOwnerChanged name oldname newname =>
    rw [World.handleMessage]
    split
    · exact List.Sublist.refl _
    · split
      · exact List.Sublist.refl _
      · split
        · exact List.Sublist.refl _
        · dsimp only
          split
          · exact List.Sublist.refl _
          · exact List.erase_sublist

lemma nodup_handle (h : (w.registry.map fun px => px.uuid).Nodup) (e : Event) :
    ((w.handle e).registry.map fun px => px.uuid).Nodup := by
  cases e with
  | appear name => exact h
  | hello name =>
    rw [World.handle, (send_fields _ _ _).2.2.2.1]
    exact h
  | vanish name owner =>
    rw [World.handle, (send_fields _ _ _).2.2.2.1]
    exact h
  | watch => exact h
  | listNames => exact h
  | createNext takesOver =>
    rw [World.handle]
    split
    · rw [createProxy_registry]
      exact h
    · exact h
  | dispatch takesOver =>
    rw [World.handle]
    split
    · exact h
    · rename_i m inbox _
      exact ((handleMessage_registry { w with inbox } takesOver m).map _).nodup h
  | gotName i name =>
    rw [World.handle]
    split
    · exact h
    · exact h
  | gotPropLists i properties =>
    rw [World.handle]
    split
    · exact h
    · rename_i s _
      obtain ⟨extension, hcomponent, hadd, hpresent⟩ := gotPropLists_eq w i s properties
      cases hp : w.getExtensionByUuid s.extension.uuid with
      | none =>
        rw [hadd hp]
        exact nodup_concat h (hcomponent ▸ hp)
      | some px =>
        rw [hpresent px hp]
        exact h

/-- The registry never has two proxies with the same uuid. In every run whose events meet the
condition, it has a proxy for a uuid when nothing is outstanding if and only if a service with
that uuid has an owner. -/
theorem proxies_agree (hr' : Reach Step (fun w e => w.Possible e) World.init w')
    (hr : Reach Step (fun w e => w.Possible e ∧ Keeps w e) World.init w) :
    (w'.registry.map fun px => px.uuid).Nodup ∧ (w.Quiet → ∀ uuid,
      (∃ px ∈ w.registry, px.uuid = uuid) ↔
        ∃ c : Component, c.WellFormed ∧ c.uuid = uuid ∧ c.service ∈ w.owned) := by
  constructor
  · apply hr'.invariant (fun w => (w.registry.map fun px => px.uuid).Nodup) List.nodup_nil
    rintro w₀ e w₁ h - rfl
    exact nodup_handle h e
  · intro hquiet uuid
    have h : Agreed w := by
      apply hr.invariant Agreed agreed_init
      rintro w₀ e w₁ h ⟨hp, hk⟩ rfl
      exact h.handle hp hk
    obtain ⟨hstage, hinbox, hgreetings, hsetups⟩ := hquiet
    have hsettled : ∀ c : Component, c.WellFormed → (w.Registered c.service ↔ c.service ∈ w.owned) := by
      intro c hwf
      have hmail : w.mail c.service = [] := by
        rw [World.mail, hinbox]
        rfl
      cases h.phase c.service c (splitServicename_service hwf) with
      | settled _ hsound hcomplete =>
        refine ⟨fun hreg => hsound (.inl (.inl hreg)), fun hown => ?_⟩
        rcases hcomplete ⟨[], hstage, List.not_mem_nil⟩ hown with hreg | ⟨s, hs, -⟩ | hhello | hgreet
        · exact hreg
        · rw [hsetups] at hs
          cases hs
        · rw [hmail] at hhello
          cases hhello
        · rw [hgreetings] at hgreet
          cases hgreet
      | leaving m n owner _ hall _ _ _ _ =>
        rw [hmail] at hall
        cases List.append_eq_nil_iff.mp hall.symm |>.2
    constructor
    · rintro ⟨px, hmem, rfl⟩
      have hwf := h.registered px hmem
      exact ⟨px.toComponent, hwf, rfl, (hsettled _ hwf).mp ⟨px, hmem, rfl⟩⟩
    · rintro ⟨c, hwf, rfl, hown⟩
      obtain ⟨px, hmem, hservice⟩ := (hsettled c hwf).mpr hown
      refine ⟨px, hmem, ?_⟩
      rw [Agreed.uuid_of_service (h.registered px hmem) (splitServicename_service hwf) hservice]

/-- A source and a renderer of one plugin, with the same uuid. -/
def mockSource : Component := ⟨.source, [97], [117]⟩

def mockRenderer : Component := ⟨.renderer, [97], [117]⟩

/-- `com.nokia.mafw.renderer_a.u` -/
def strayName : Bytes := Kind.renderer.service ++ [95, 97, 46, 117]

lemma mockSource_wellFormed : mockSource.WellFormed :=
  ⟨List.cons_ne_nil _ _, by decide, List.cons_ne_nil _ _⟩

/-- A source is exported and says HELLO. -/
theorem proxies_agree_oneSource : ∃ w : World,
    Reach Step (fun w e => w.Possible e ∧ Keeps w e) World.init w ∧ w.Quiet ∧ mockSource.service ∈ w.owned ∧
      ∃ px ∈ w.registry, px.uuid = [117] := by
  obtain ⟨w, hreach, hquiet, howned⟩ : ∃ w : World,
      Reach Step (fun w e => w.Possible e ∧ Keeps w e) World.init w ∧ w.Quiet ∧ mockSource.service ∈ w.owned := by
    refine ⟨_, .next (e := .gotPropLists 0 (some []))
      (.next (e := .gotName 0 (some [110]))
        (.next (e := .dispatch false)
          (.next (e := .hello mockSource.service)
            (.next (e := .appear mockSource.service)
              (.next (e := .listNames)
                (.next (e := .watch) .refl ⟨rfl, trivial⟩ rfl)
                ⟨rfl, trivial⟩ rfl)
              ⟨List.not_mem_nil, fun c hc => ⟨?_, fun name' c' _ _ habout => ?_⟩⟩ rfl)
            ⟨List.mem_cons_self, trivial⟩ rfl)
          ⟨⟨rfl, List.cons_ne_nil _ _⟩, trivial⟩ rfl)
        ⟨⟨rfl, _, rfl, rfl⟩, trivial⟩ rfl)
      ⟨⟨rfl, _, rfl, rfl⟩, trivial⟩ rfl, ⟨rfl, rfl, rfl, rfl⟩, List.mem_cons_self⟩
    · rw [splitServicename_service mockSource_wellFormed] at hc
      rw [Option.some.inj hc]
    · exact absurd habout (not_about_init name')
  obtain ⟨-, hagree⟩ := proxies_agree .refl hreach
  have hproxy := (hagree hquiet [117]).mpr ⟨mockSource, mockSource_wellFormed, rfl, howned⟩
  exact ⟨w, hreach, hquiet, howned, hproxy⟩

/-- A source vanishes while its proxy is being set up: the error replies leave a proxy of a
service that nobody owns. A source and a renderer have the same uuid, and the source vanishes:
the renderer has no proxy. A name that has another byte than a dot behind its kind: it gets a
proxy for a uuid that no service has. -/
theorem proxies_disagree :
    (∃ w : World, Reach Step (fun w e => w.Possible e) World.init w ∧ w.Quiet ∧
      (∃ px ∈ w.registry, px.uuid = mockSource.uuid) ∧ w.owned = []) ∧
    (∃ w : World, Reach Step (fun w e => w.Possible e) World.init w ∧ w.Quiet ∧ w.registry = [] ∧
      w.owned = [mockRenderer.service]) ∧
    ∃ w : World, Reach Step (fun w e => w.Possible e) World.init w ∧ w.Quiet ∧
      (∃ px ∈ w.registry, px.uuid = [117]) ∧ ∀ c : Component, c.service ∉ w.owned := by
  refine ⟨?_, ?_, ?_⟩
  · exact ⟨_, .next (e := .gotPropLists 0 none)
      (.next (e := .gotName 0 none)
        (.next (e := .dispatch false)
          (.next (e := .vanish mockSource.service [58])
            (.next (e := .createNext false)
              (.next (e := .listNames)
                (.next (e := .watch)
                  (.next (e := .appear mockSource.service) .refl List.not_mem_nil rfl)
                  rfl rfl)
                rfl rfl)
              ⟨_, _, rfl⟩ rfl)
            ⟨List.mem_cons_self, List.cons_ne_nil _ _⟩ rfl)
          ⟨rfl, List.cons_ne_nil _ _⟩ rfl)
        ⟨rfl, _, rfl, rfl⟩ rfl)
      ⟨rfl, _, rfl, rfl⟩ rfl, ⟨rfl, rfl, rfl, rfl⟩, ⟨_, List.mem_cons_self, rfl⟩, rfl⟩
  · exact ⟨_, .next (e := .dispatch false)
      (.next (e := .vanish mockSource.service [58])
        (.next (e := .gotPropLists 0 (some []))
          (.next (e := .gotPropLists 1 (some []))
            (.next (e := .gotName 1 (some [110]))
              (.next (e := .gotName 0 (some [110]))
                (.next (e := .createNext false)
                  (.next (e := .createNext false)
                    (.next (e := .listNames)
                      (.next (e := .watch)
                        (.next (e := .hello mockRenderer.service)
                          (.next (e := .appear mockRenderer.service)
                            (.next (e := .hello mockSource.service)
                              (.next (e := .appear mockSource.service) .refl List.not_mem_nil rfl)
                              List.mem_cons_self rfl)
                            (show mockRenderer.service ∉ [mockSource.service] by decide) rfl)
                          List.mem_cons_self rfl)
                        rfl rfl)
                      rfl rfl)
                    ⟨_, _, rfl⟩ rfl)
                  ⟨_, _, rfl⟩ rfl)
                ⟨rfl, _, rfl, rfl⟩ rfl)
              ⟨rfl, _, rfl, rfl⟩ rfl)
            ⟨rfl, _, rfl, rfl⟩ rfl)
          ⟨rfl, _, rfl, rfl⟩ rfl)
        ⟨List.mem_cons_of_mem _ List.mem_cons_self, List.cons_ne_nil _ _⟩ rfl)
      ⟨rfl, List.cons_ne_nil _ _⟩ rfl, ⟨rfl, rfl, rfl, rfl⟩, rfl, rfl⟩
  · refine ⟨_, .next (e := .gotPropLists 0 (some []))
      (.next (e := .gotName 0 (some [110]))
        (.next (e := .createNext false)
          (.next (e := .listNames)
            (.next (e := .watch)
              (.next (e := .hello strayName)
                (.next (e := .appear strayName) .refl List.not_mem_nil rfl)
                List.mem_cons_self rfl)
              rfl rfl)
            rfl rfl)
          ⟨_, _, rfl⟩ rfl)
        ⟨rfl, _, rfl, rfl⟩ rfl)
      ⟨rfl, _, rfl, rfl⟩ rfl, ⟨rfl, rfl, rfl, rfl⟩, ⟨_, List.mem_cons_self, rfl⟩, fun c hc => ?_⟩
    have heq : c.service = strayName := List.mem_singleton.mp hc
    obtain ⟨kind, plugin, uuid⟩ := c
    cases kind with
    | source => simp [Component.service, Kind.service, strayName] at heq
    | renderer => simp [Component.service, Kind.service, strayName] at heq

end MafwShared.Discovery
