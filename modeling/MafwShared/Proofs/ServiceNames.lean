import MafwShared.Proofs.ProxyDiscovery

/-!
# Service names

`split_servicename` should accept the names that services are exported under and no others. It
tests for the prefix without its dot, and takes whatever byte is behind it for the dot. A string
that is nothing but the prefix has no such byte.
-/

namespace MafwShared.Discovery
open CLib

variable {kind : Kind} {svc rest : Bytes} {c : Component}

/-- The string is read no further than to its end, and the result is the component it names, if it names one. -/
def SplitsRight (svc : Bytes) : Prop :=
  ∃ r, splitServicenameReads svc = some r ∧ ∀ c, r = some c ↔ c.WellFormed ∧ c.service = svc

lemma splitParts_eq_some_iff :
    splitParts kind rest = some c ↔ c.kind = kind ∧ c.WellFormed ∧ c.plugin ++ 46 :: c.uuid = rest := by
  constructor
  · intro h
    have hwf := splitParts_wellFormed h
    have happ := List.takeWhile_append_dropWhile (p := fun b : UInt8 => decide (b ≠ 46)) (l := rest)
    unfold splitParts at h
    dsimp only at h
    cases hdrop : rest.dropWhile (fun b => decide (b ≠ 46)) with
    | nil =>
      rw [hdrop] at h
      cases h
    | cons d uuid =>
      have hd := List.head?_dropWhile_not (fun b : UInt8 => decide (b ≠ 46)) rest
      rw [hdrop] at h hd happ
      obtain rfl : d = 46 := by simpa using hd
      dsimp only at h
      split at h
      · cases h
      · cases h
        exact ⟨rfl, hwf, happ⟩
  · rintro ⟨rfl, ⟨hplugin, hdot, huuid⟩, rfl⟩
    exact splitParts_append c.kind hplugin hdot huuid

lemma Component.service_eq (c : Component) : c.service = c.kind.service ++ 46 :: (c.plugin ++ 46 :: c.uuid) := by
  simp [Component.service]

lemma Component.exportName_eq (c : Component) : c.exportName = c.service := by
  obtain ⟨kind, plugin, uuid⟩ := c
  cases kind <;> rfl

/-- Neither prefix is the beginning of the other. -/
lemma service_append_inj {kind' : Kind} {s t : Bytes} (h : kind.service ++ s = kind'.service ++ t) :
    kind = kind' ∧ s = t := by
  cases kind <;> cases kind' <;> simp [Kind.service] at h <;> simp [h]

lemma splitReads_service (kind : Kind) (b : UInt8) (rest : Bytes) :
    splitServicenameReads (kind.service ++ b :: rest) = some (splitParts kind rest) := by
  have hat : stringAt (kind.service ++ b :: rest) (kind.service.length + 1) = some rest := by
    rw [stringAt, if_pos (by simp)]
    simp [List.drop_append]
  have hprefix : kind.service.isPrefixOf (kind.service ++ b :: rest) = true :=
    List.isPrefixOf_iff_prefix.mpr (List.prefix_append _ _)
  unfold splitServicenameReads
  cases kind with
  | source => rw [if_pos hprefix, hat, Option.map_some]
  | renderer =>
    rw [if_neg, if_pos hprefix, hat, Option.map_some]
    intro hsource
    obtain ⟨t, ht⟩ := List.isPrefixOf_iff_prefix.mp hsource
    cases (service_append_inj ht).1

lemma splitReads_bare (kind : Kind) : splitServicenameReads kind.service = none := by
  cases kind <;> rfl

lemma splitReads_other (h : ∀ kind : Kind, ¬ kind.service <+: svc) : splitServicenameReads svc = some none := by
  unfold splitServicenameReads
  rw [if_neg, if_neg]
  · rw [List.isPrefixOf_iff_prefix]
    exact h .renderer
  · rw [List.isPrefixOf_iff_prefix]
    exact h .source

/-! ### The names that are split wrongly -/

/-- A name with some other byte in the place of the first dot. -/
def Undotted (svc : Bytes) : Prop :=
  ∃ kind b plugin uuid, b ≠ (46 : UInt8) ∧ plugin ≠ [] ∧ (46 : UInt8) ∉ plugin ∧ uuid ≠ [] ∧
    svc = Kind.service kind ++ b :: (plugin ++ 46 :: uuid)

lemma splitsRight_bare (kind : Kind) : ¬ SplitsRight (kind.service ++ []) := by
  rintro ⟨r, hr, -⟩
  rw [List.append_nil, splitReads_bare] at hr
  cases hr

/-- With the dot in its place the string is split as it should be, with another byte if there is nothing to split. -/
lemma splitsRight_service (kind : Kind) (b : UInt8) (rest : Bytes) :
    SplitsRight (kind.service ++ b :: rest) ↔ b = 46 ∨ splitParts kind rest = none := by
  have hname : ∀ c : Component, c.service = kind.service ++ b :: rest ↔
      c.kind = kind ∧ b = 46 ∧ c.plugin ++ 46 :: c.uuid = rest := by
    intro c
    rw [c.service_eq]
    constructor
    · intro h
      obtain ⟨hkind, htail⟩ := service_append_inj h
      rw [List.cons.injEq] at htail
      exact ⟨hkind, htail.1.symm, htail.2⟩
    · rintro ⟨rfl, rfl, rfl⟩
      rfl
  unfold SplitsRight
  rw [splitReads_service]
  constructor
  · rintro ⟨r, hr, h⟩
    cases hr
    by_contra hn
    rw [not_or, ← ne_eq (splitParts kind rest), Option.ne_none_iff_exists'] at hn
    obtain ⟨hb, c, hc⟩ := hn
    exact hb ((hname c).mp ((h c).mp hc).2).2.1
  · intro h
    refine ⟨_, rfl, fun c => ?_⟩
    rw [hname]
    rcases h with rfl | hnone
    · rw [splitParts_eq_some_iff]
      tauto
    · rw [hnone]
      refine iff_of_false (fun h => by cases h) ?_
      rintro ⟨hwf, hkind, -, hrest⟩
      cases hnone.symm.trans (splitParts_eq_some_iff.mpr ⟨hkind, hwf, hrest⟩)

lemma undotted_service (kind : Kind) (b : UInt8) (rest : Bytes) :
    Undotted (kind.service ++ b :: rest) ↔ b ≠ 46 ∧ splitParts kind rest ≠ none := by
  rw [Option.ne_none_iff_exists']
  constructor
  · rintro ⟨kind', b', plugin, uuid, hb, hplugin, hdot, huuid, h⟩
    obtain ⟨rfl, htail⟩ := service_append_inj h
    cases htail
    exact ⟨hb, _, splitParts_append kind hplugin hdot huuid⟩
  · rintro ⟨hb, c, hc⟩
    obtain ⟨rfl, ⟨hplugin, hdot, huuid⟩, rfl⟩ := splitParts_eq_some_iff.mp hc
    exact ⟨_, b, c.plugin, c.uuid, hb, hplugin, hdot, huuid, rfl⟩

lemma splitReads_built (h : c.WellFormed) (hsvc : svc = c.exportName ∨ svc = c.service) :
    splitServicenameReads svc = some (some c) := by
  rw [c.exportName_eq, or_self] at hsvc
  obtain ⟨hplugin, hdot, huuid⟩ := h
  rw [hsvc, c.service_eq, splitReads_service, splitParts_append c.kind hplugin hdot huuid]

/-- For every string: it is split as it should be unless it is just a prefix, or a name with some other byte in
the place of the first dot. The names that both builders make of a component are split into its parts. -/
theorem split_servicename (svc : Bytes) :
    (SplitsRight svc ↔ (∀ kind : Kind, svc ≠ kind.service) ∧ ¬ Undotted svc) ∧
    ∀ c : Component, c.WellFormed → svc = c.exportName ∨ svc = c.service →
      splitServicenameReads svc = some (some c) := by
  refine ⟨?_, fun c => splitReads_built⟩
  by_cases hprefix : ∃ kind : Kind, kind.service <+: svc
  · obtain ⟨kind, t, rfl⟩ := hprefix
    cases t with
    | nil => exact iff_of_false (splitsRight_bare kind) fun h => h.1 kind (List.append_nil _)
    | cons b rest =>
      have hlonger : ∀ kind' : Kind, kind.service ++ b :: rest ≠ kind'.service := by
        intro kind' h
        have htail := (service_append_inj (h.trans (List.append_nil kind'.service).symm)).2
        cases htail
      rw [splitsRight_service, undotted_service, not_and_or, not_ne_iff, not_ne_iff]
      exact ⟨fun h => ⟨hlonger, h⟩, fun h => h.2⟩
  · have hnone := splitReads_other fun kind h => hprefix ⟨kind, h⟩
    refine iff_of_true ⟨none, hnone, fun c => ?_⟩ ⟨?_, ?_⟩
    · refine iff_of_false (fun h => by cases h) ?_
      rintro ⟨-, rfl⟩
      exact hprefix ⟨c.kind, c.service_eq ▸ List.prefix_append _ _⟩
    · rintro kind rfl
      exact hprefix ⟨kind, List.prefix_refl _⟩
    · rintro ⟨kind, b, plugin, uuid, -, -, -, -, rfl⟩
      exact hprefix ⟨kind, List.prefix_append _ _⟩

/-- `com.nokia.mafw.source` is read behind its end, and `com.nokia.mafw.sourcesa.b` is accepted. -/
theorem split_servicename_wrong : ¬ SplitsRight Kind.source.service ∧
    splitServicenameReads (Kind.source.service ++ [115, 97, 46, 98]) = some (some ⟨.source, [97], [98]⟩) ∧
    ¬ SplitsRight (Kind.source.service ++ [115, 97, 46, 98]) := by
  have haccepted : splitServicenameReads (Kind.source.service ++ [115, 97, 46, 98]) =
      some (some ⟨.source, [97], [98]⟩) := by decide
  refine ⟨?_, haccepted, ?_⟩
  · rintro ⟨r, hr, -⟩
    cases hr
  · rintro ⟨r, hr, h⟩
    cases haccepted.symm.trans hr
    exact absurd ((h ⟨.source, [97], [98]⟩).mp rfl).2 (by decide)

end MafwShared.Discovery
