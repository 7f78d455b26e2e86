import MafwShared.ExtensionSignals
import MafwShared.Proofs.RendererCalls

/-!
# Proxies relay all signals

However extensions are exported and withdrawn and their signals, the clients' proxies and the dispatching
of messages follow on each other, a proxy that has its matches emits the signals that are forwarded for
its extension, each of them once, in order and with the same arguments, and no signal of another one. No
client aborts.
-/

namespace MafwShared.MafwDbus.ExtensionSignals
open CLib RendererCalls
open Discovery (Kind)

variable {σ : Type} {floats : Floats σ} {e e' : Extension} {s : Signal σ} {m : Message}

/-! ### One signal -/

/-- The playlist that a proxy hands out for the renderer's. -/
def playlistOf (found : Bool) : Option MafwPlaylist → Option UInt32
  | some (.proxy id) => if id ≠ 0 ∧ found = true then some id else none
  | _ => none

/-- What a proxy should make of a signal. -/
def Signal.relayed (found : Bool) : Signal σ → Emitted σ
  | .propertyChanged prop val => .propertyChanged prop val
  | .nameChanged name => .nameChanged name
  | .error err => .error err
  | .metadataChanged objectId => .metadataChanged objectId
  | .containerChanged objectId => .containerChanged objectId
  | .updating progress processedItems remainingItems remainingTime =>
    .updating progress processedItems remainingItems remainingTime
  | .stateChanged state => .stateChanged state
  | .playlistChanged playlist => .playlistChanged (playlistOf found playlist)
  | .mediaChanged index objectId => .mediaChanged index (objectId.filter fun oid => oid ≠ [])
  | .bufferingInfo status => .bufferingInfo status
  | .mediaMetadataChanged name values => .mediaMetadataChanged name values

/-- Values that are sent are some values: the parser aborts on none. -/
def Signal.Filled : Signal σ → Prop
  | .mediaMetadataChanged _ values => values.values.isEmpty = false
  | _ => True

instance : (s : Signal σ) → Decidable s.Filled
  | .mediaMetadataChanged _ values => inferInstanceAs (Decidable (values.values.isEmpty = false))
  | .propertyChanged _ _ | .nameChanged _ | .error _ | .metadataChanged _ | .containerChanged _ | .updating _ _ _ _
  | .stateChanged _ | .playlistChanged _ | .mediaChanged _ _ | .bufferingInfo _ => inferInstanceAs (Decidable True)

/-- The messages of an extension's signals. -/
def concerns (e : Extension) (m : Message) : Bool :=
  extensionMatch .extension e.objectPath m || extensionMatch (interfaceOf e.kind) e.objectPath m

lemma objectPath_injective : Function.Injective Extension.objectPath := by
  rintro ⟨kind, uuid⟩ ⟨kind', uuid'⟩ h
  have hkind : kind = kind' := by
    cases kind <;> cases kind' <;> simp [Extension.objectPath, objectOf] at h ⊢
  subst hkind
  exact congrArg _ (List.append_cancel_left h)

variable (floats) in
lemma forward_path (e : Extension) (s : Signal σ) : (Wrapper.forward floats e s).path = e.objectPath := by
  cases s <;> rfl

variable (floats) in
lemma forward_interface (hof : s.isOf e.kind = true) : (Wrapper.forward floats e s).interface = .extension ∨
    (Wrapper.forward floats e s).interface = interfaceOf e.kind := by
  obtain ⟨kind, uuid⟩ := e
  cases kind <;> cases s <;> first | exact .inl rfl | exact .inr rfl | cases hof

lemma concerns_forward (hof : s.isOf e'.kind = true) : concerns e (Wrapper.forward floats e' s) = true ↔ e' = e := by
  have hpath := forward_path floats e' s
  constructor
  · intro h
    have hsame : (Wrapper.forward floats e' s).path = e.objectPath := by
      simp only [concerns, extensionMatch, Bool.or_eq_true, Bool.and_eq_true, decide_eq_true_eq] at h
      exact h.elim And.right And.right
    exact objectPath_injective (hpath.symm.trans hsame)
  · rintro rfl
    have hinterface := forward_interface floats hof
    simp only [concerns, extensionMatch, Bool.or_eq_true, Bool.and_eq_true, decide_eq_true_eq]
    exact hinterface.imp (⟨·, hpath⟩) (⟨·, hpath⟩)

lemma playlistOf_playlistId (found : Bool) (playlist : Option MafwPlaylist) :
    (if Wrapper.playlistId playlist ≠ 0 ∧ found = true then some (Wrapper.playlistId playlist) else none) =
      playlistOf found playlist := by
  rcases playlist with _ | _ | _
  · simp [Wrapper.playlistId, playlistOf]
  · rfl
  · simp [Wrapper.playlistId, playlistOf]

lemma parse_mediaMetadata (name : Bytes) {values : GValueArray} (h : values.values ≠ []) :
    cleverParseValist [.arg (.basic .string), .arg .gvaluearray]
      (cleverAppendValist [.basic .string name, .gvaluearray values]) =
      some [.arg (.basic .string name), .arg (.gvaluearray values)] := by
  have hstring : (Arg.basic .string name).Filled := fun _ he => by cases he
  have hvalues : (Arg.gvaluearray values).Filled := fun varr he => by
    cases he
    exact h
  have hnil : RoundTrips [] := rfl
  exact (roundTrips_cons _ hstring _).mpr ((roundTrips_cons _ hvalues _).mpr hnil)

lemma dispatch_forward (hfloat : ∀ status, floats.toFloat (floats.toDouble status) = status) {p : Proxy σ}
    (hkind : p.kind = e.kind) (hof : s.isOf e.kind = true) (hfilled : s.Filled) (found : Bool) :
    p.dispatchMessage floats found e.objectPath (Wrapper.forward floats e s) = some [s.relayed found] := by
  obtain ⟨kind, uuid⟩ := e
  unfold Proxy.dispatchMessage
  rw [hkind]
  cases kind with
  | source =>
    dsimp only
    unfold Proxy.sourceDispatchMessage
    cases s with
    | propertyChanged prop val =>
      cases val <;> rfl
    | nameChanged name => rfl
    | error err => rfl
    | metadataChanged objectId =>
      rw [if_neg (fun h => by cases h), if_neg (not_not.mpr (forward_path _ _ _))]
      rfl
    | containerChanged objectId =>
      rw [if_neg (fun h => by cases h), if_neg (not_not.mpr (forward_path _ _ _))]
      rfl
    | updating progress processedItems remainingItems remainingTime =>
      rw [if_neg (fun h => by cases h), if_neg (not_not.mpr (forward_path _ _ _))]
      rfl
    | stateChanged | playlistChanged | mediaChanged | bufferingInfo | mediaMetadataChanged => cases hof
  | renderer =>
    dsimp only
    unfold Proxy.rendererDispatchMessage
    cases s with
    | propertyChanged prop val => cases val <;> rfl
    | nameChanged name => rfl
    | error err => rfl
    | stateChanged state => rfl
    | playlistChanged playlist =>
      rw [if_neg (fun h => by cases h)]
      refine Eq.trans (b := some [.playlistChanged (if Wrapper.playlistId playlist ≠ 0 ∧ found = true then
        some (Wrapper.playlistId playlist) else none)]) rfl ?_
      rw [playlistOf_playlistId]
      rfl
    | mediaChanged index objectId =>
      refine Eq.trans (b := some [.mediaChanged index (Proxy.objectIdOf (objectId.getD []))]) rfl ?_
      rw [objectIdOf_getD]
      rfl
    | bufferingInfo status =>
      refine Eq.trans (b := some [.bufferingInfo (floats.toFloat (floats.toDouble status))]) rfl ?_
      rw [hfloat]
      rfl
    | mediaMetadataChanged name values =>
      rw [if_neg (fun h => by cases h)]
      dsimp only [Wrapper.forward, Wrapper.mafwDbusSignalFull]
      rw [parse_mediaMetadata name (List.isEmpty_eq_false_iff.mp hfilled)]
      rfl
    | metadataChanged | containerChanged | updating => cases hof

/-! ### The bus -/

section
variable {ι : Type*} {w v : World ι σ} {i j : ι} {ids : IdSupply}

variable (floats) in
/-- What is on the bus are signals, and the ones of an extension are those that were forwarded for it. -/
structure World.Sound (w : World ι σ) : Prop where
  isOf : ∀ e, ∀ s ∈ w.forwarded e, s.isOf e.kind = true ∧ s.Filled
  sent : ∀ e, w.bus.sent.filter (concerns e) = (w.forwarded e).map (Wrapper.forward floats e)
  arrived : ∀ i, ∀ m ∈ w.bus.inbox i, ∃ e s, m = Wrapper.forward floats e s ∧ s.isOf e.kind = true ∧ s.Filled
  kind : ∀ i (e : Extension) p, w.proxies i e.objectPath = some p → p.kind = e.kind

/-- A renderer's metadata that change have some values. -/
def Event.Fair : Event ι σ → Prop
  | .emit _ s => s.Filled
  | _ => True

instance : (event : Event ι σ) → Decidable event.Fair
  | .emit _ s => inferInstanceAs (Decidable s.Filled)
  | .exported _ | .unexported _ | .expire _ _ | .proxyNew _ _ _ | .proxyExtensionAttach _ _ | .dispose _ _
  | .dispatch _ _ => inferInstanceAs (Decidable True)

lemma World.sound_init : (World.init : World ι σ).Sound floats where
  isOf _ _ hs := by cases hs
  sent _ := rfl
  arrived _ _ hm := by cases hm
  kind _ _ _ hp := by cases hp

lemma filter_forward {signals : List (Signal σ)} (hof : ∀ s ∈ signals, s.isOf e'.kind = true) :
    (signals.map (Wrapper.forward floats e')).filter (concerns e) =
      if e' = e then signals.map (Wrapper.forward floats e) else [] := by
  split
  · rename_i he
    subst he
    rw [List.filter_eq_self]
    intro m hm
    obtain ⟨s, hs, rfl⟩ := List.mem_map.mp hm
    exact (concerns_forward (hof s hs)).mpr rfl
  · rename_i he
    rw [List.filter_eq_nil_iff]
    intro m hm hc
    obtain ⟨s, hs, rfl⟩ := List.mem_map.mp hm
    exact he ((concerns_forward (hof s hs)).mp hc)

lemma World.Sound.forward (h : w.Sound floats) {out : RendererWrapper.Renderer σ × List (Signal σ)}
    (hout : ∀ s ∈ out.2, s.isOf e'.kind = true ∧ s.Filled) : (w.forward floats e' out).Sound floats where
  isOf e s hs := by
    dsimp only [World.forward] at hs
    by_cases he : e = e'
    · subst he
      rw [Function.update_self] at hs
      exact (List.mem_append.mp hs).elim (h.isOf e s) (hout s)
    · rw [Function.update_of_ne he] at hs
      exact h.isOf e s hs
  sent e := by
    dsimp only [World.forward]
    rw [Bus.sent_sendAll, List.filter_append, h.sent, filter_forward fun s hs => (hout s hs).1]
    by_cases he : e' = e
    · subst he
      rw [if_pos rfl, Function.update_self, List.map_append]
    · rw [if_neg he, Function.update_of_ne (Ne.symm he), List.append_nil]
  arrived i m hm := by
    rcases Bus.mem_inbox_sendAll hm with hm | hm
    · exact h.arrived i m hm
    · obtain ⟨s, hs, rfl⟩ := List.mem_map.mp hm
      exact ⟨e', s, rfl, hout s hs⟩
  kind := h.kind

lemma throttled_isOf (hkind : e.kind = .renderer) {sent : List (RendererWrapper.RendererSignal σ)} :
    ∀ s ∈ sent.map Wrapper.throttled, s.isOf e.kind = true ∧ s.Filled := by
  intro s hs
  obtain ⟨x, -, rfl⟩ := List.mem_map.mp hs
  rw [hkind]
  cases x with
  | stateChanged | bufferingInfo => exact ⟨rfl, trivial⟩

lemma emitted_isOf [DecidableEq σ] {r : RendererWrapper.Renderer σ} (hof : s.isOf e.kind = true) (hfilled : s.Filled) :
    ∀ s' ∈ (Wrapper.emitted floats ids r s).2, s'.isOf e.kind = true ∧ s'.Filled := by
  cases s with
  | stateChanged | bufferingInfo => exact throttled_isOf (of_decide_eq_true hof)
  | _ =>
    intro s' hs'
    cases List.mem_singleton.mp hs'
    exact ⟨hof, hfilled⟩

lemma World.Sound.queued (h : w.Sound floats) (i : ι) (e : Extension) :
    ∃ queued : List (Signal σ), (w.bus.inbox i).filter (concerns e) = queued.map (Wrapper.forward floats e) ∧
      ∀ s ∈ queued, s.isOf e.kind = true ∧ s.Filled := by
  have harrived := h.arrived i
  generalize w.bus.inbox i = inbox at harrived ⊢
  induction inbox with
  | nil => exact ⟨[], rfl, fun s hs => by cases hs⟩
  | cons m rest ih =>
    obtain ⟨queued, hqueued, hof⟩ := ih fun m hm => harrived m (List.mem_cons_of_mem _ hm)
    by_cases hm : concerns e m = true
    · obtain ⟨e', s, rfl, hs⟩ := harrived m List.mem_cons_self
      obtain rfl := (concerns_forward hs.1).mp hm
      refine ⟨s :: queued, ?_, List.forall_mem_cons.mpr ⟨hs, hof⟩⟩
      rw [List.filter_cons_of_pos hm, hqueued, List.map_cons]
    · exact ⟨queued, (List.filter_cons_of_neg hm).trans hqueued, hof⟩

/-! ### A proxy over a run -/

/-- The proxy that a message goes to emits the signal that the message was sent for. -/
def HeardAs (floats : Floats σ) (e : Extension) (m : Message) (h : Emission σ) : Prop :=
  ∀ s, s.isOf e.kind = true → s.Filled → m = Wrapper.forward floats e s → h.signal = s.relayed h.found

lemma forall₂_heard {signals : List (Signal σ)} {heard : List (Emission σ)}
    (hof : ∀ s ∈ signals, s.isOf e.kind = true ∧ s.Filled)
    (h : List.Forall₂ (HeardAs floats e) (signals.map (Wrapper.forward floats e)) heard) :
    List.Forall₂ (fun s h => h.signal = s.relayed h.found) signals heard := by
  rw [List.forall₂_map_left_iff] at h
  induction h with
  | nil => exact .nil
  | cons hs _ ih =>
    obtain ⟨hs', hrest⟩ := List.forall_mem_cons.mp hof
    exact .cons (hs _ hs'.1 hs'.2 rfl) (ih hrest)

variable (floats) in
/-- What has come to pass for a client's proxy of an extension. -/
structure Relayed (i : ι) (e : Extension) (w v : World ι σ) : Prop where
  later : w.bus.Later v.bus
  forwarded : ∃ new, v.forwarded e = w.forwarded e ++ new
  proxy : ∀ p, w.proxies i e.objectPath = some p → ∃ took heard, v.bus.read i = w.bus.read i ++ took ∧
    v.proxies i e.objectPath = some { p with emitted := p.emitted ++ heard } ∧
    List.Forall₂ (HeardAs floats e) (took.filter (concerns e)) heard

/-- The proxy stays where it is. -/
def Event.Keeps (i : ι) (e : Extension) : Event ι σ → Prop
  | .proxyNew i' e' takesOver => i' = i → e' = e → takesOver = false
  | .dispose i' e' => i' = i → e' ≠ e
  | _ => True

instance [DecidableEq ι] (i : ι) (e : Extension) : (event : Event ι σ) → Decidable (event.Keeps i e)
  | .proxyNew i' e' takesOver => inferInstanceAs (Decidable (i' = i → e' = e → takesOver = false))
  | .dispose i' e' => inferInstanceAs (Decidable (i' = i → e' ≠ e))
  | .exported _ | .unexported _ | .emit _ _ | .expire _ _ | .proxyExtensionAttach _ _ | .dispatch _ _ =>
    inferInstanceAs (Decidable True)

namespace Relayed
variable {u : World ι σ}

lemma of_quiet (hlater : w.bus.Later v.bus) (hforwarded : ∃ new, v.forwarded e = w.forwarded e ++ new)
    (hread : v.bus.read i = w.bus.read i)
    (hproxy : ∀ p, w.proxies i e.objectPath = some p → v.proxies i e.objectPath = some p) : Relayed floats i e w v := by
  refine ⟨hlater, hforwarded, fun p hp => ⟨[], [], ?_, ?_, .nil⟩⟩
  · rw [hread, List.append_nil]
  · rw [hproxy p hp, List.append_nil]

lemma refl (w : World ι σ) : Relayed floats i e w w :=
  of_quiet (.refl _) ⟨[], (List.append_nil _).symm⟩ rfl fun _ hp => hp

lemma trans (h : Relayed floats i e w v) (h' : Relayed floats i e v u) : Relayed floats i e w u := by
  obtain ⟨new, hnew⟩ := h.forwarded
  obtain ⟨new', hnew'⟩ := h'.forwarded
  refine ⟨h.later.trans h'.later, ⟨new ++ new', ?_⟩, fun p hp => ?_⟩
  · rw [hnew', hnew, List.append_assoc]
  · obtain ⟨took, heard, hread, hproxy, hheard⟩ := h.proxy p hp
    obtain ⟨took', heard', hread', hproxy', hheard'⟩ := h'.proxy _ hproxy
    refine ⟨took ++ took', heard ++ heard', ?_, ?_, ?_⟩
    · rw [hread', hread, List.append_assoc]
    · rw [hproxy', List.append_assoc]
    · rw [List.filter_append]
      exact List.rel_append hheard hheard'

end Relayed

lemma relayed_forward (out : RendererWrapper.Renderer σ × List (Signal σ)) :
    Relayed floats i e w (w.forward floats e' out) := by
  refine .of_quiet (Bus.later_sendAll _ _) ?_ (congrFun (Bus.read_sendAll _ _) i) fun _ hp => hp
  dsimp only [World.forward]
  by_cases he : e = e'
  · subst he
    exact ⟨out.2, Function.update_self _ _ _⟩
  · exact ⟨[], by rw [Function.update_of_ne he, List.append_nil]⟩

lemma World.Sound.of_quiet (h : w.Sound floats) (hforwarded : v.forwarded = w.forwarded)
    (hsent : v.bus.sent = w.bus.sent) (hinbox : ∀ i, ∀ m ∈ v.bus.inbox i, m ∈ w.bus.inbox i)
    (hkind : ∀ i (e : Extension) p, v.proxies i e.objectPath = some p → p.kind = e.kind) : v.Sound floats where
  isOf e := hforwarded ▸ h.isOf e
  sent e := by rw [hforwarded, hsent, h.sent]
  arrived i m hm := h.arrived i m (hinbox i m hm)
  kind := hkind

section
variable [DecidableEq ι]

lemma setProxy_same {path : Bytes} {p : Option (Proxy σ)} : (w.setProxy i path p).proxies i path = p := by
  dsimp only [World.setProxy]
  rw [Function.update_self, Function.update_self]

lemma setProxy_other {path : Bytes} {p : Option (Proxy σ)} (h : j = i → path ≠ e.objectPath) :
    (w.setProxy j path p).proxies i e.objectPath = w.proxies i e.objectPath := by
  dsimp only [World.setProxy]
  by_cases hj : i = j
  · subst hj
    rw [Function.update_self]
    exact Function.update_of_ne (h rfl).symm _ _
  · rw [Function.update_of_ne hj]

lemma setProxy_kind {x : Option (Proxy σ)}
    (h : ∀ i (e : Extension) p, w.proxies i e.objectPath = some p → p.kind = e.kind) (hx : ∀ p ∈ x, p.kind = e'.kind) :
    ∀ i (e : Extension) p, (w.setProxy j e'.objectPath x).proxies i e.objectPath = some p → p.kind = e.kind := by
  intro i e p hp
  by_cases hsame : j = i ∧ e' = e
  · obtain ⟨rfl, rfl⟩ := hsame
    rw [setProxy_same] at hp
    exact hx p hp
  · rw [setProxy_other fun hj hpath => hsame ⟨hj, objectPath_injective hpath⟩] at hp
    exact h i e p hp

lemma Relayed.of_take {bus : Bus ι Message} (htake : w.bus.take j = some (m, bus)) (hbus : v.bus = bus)
    (hforwarded : v.forwarded = w.forwarded)
    (hother : ¬(j = i ∧ concerns e m = true) → v.proxies i e.objectPath = w.proxies i e.objectPath)
    (hsame : j = i → concerns e m = true → ∀ p, w.proxies i e.objectPath = some p → ∃ h, HeardAs floats e m h ∧
      v.proxies i e.objectPath = some { p with emitted := p.emitted ++ [h] }) : Relayed floats i e w v := by
  subst hbus
  obtain ⟨-, hread, -, -, hreads⟩ := Bus.take_eq_some htake
  refine ⟨Bus.later_take htake, ⟨[], by rw [hforwarded, List.append_nil]⟩, fun p hp => ?_⟩
  by_cases hj : j = i
  · subst hj
    by_cases hm : concerns e m = true
    · obtain ⟨h, hheard, hproxy⟩ := hsame rfl hm p hp
      exact ⟨[m], [h], hread, hproxy, List.filter_cons_of_pos hm ▸ .cons hheard .nil⟩
    · refine ⟨[m], [], hread, ?_, ?_⟩
      · rw [hother fun hc => hm hc.2, hp, List.append_nil]
      · rw [List.filter_cons_of_neg hm]
        exact .nil
  · refine ⟨[], [], ?_, ?_, .nil⟩
    · rw [(hreads i (Ne.symm hj)).2, List.append_nil]
    · rw [hother fun hc => hj hc.1, hp, List.append_nil]

variable [DecidableEq σ]

lemma relayed_dispatch (hfloat : ∀ status, floats.toFloat (floats.toDouble status) = status) (h : w.Sound floats)
    {bus : Bus ι Message} (htake : w.bus.take j = some (m, bus)) (found : Bool) :
    ∃ v, w.step floats ids (.dispatch j found) = some v ∧ Relayed floats i e w v ∧ v.Sound floats := by
  obtain ⟨hinbox, -, hsent, -, hothers⟩ := Bus.take_eq_some htake
  obtain ⟨e', s, rfl, hof, hfilled⟩ := h.arrived j m (hinbox ▸ List.mem_cons_self)
  have hstays : ∀ k, ∀ m ∈ bus.inbox k, m ∈ w.bus.inbox k := by
    intro k x hx
    by_cases hk : k = j
    · subst hk
      rw [hinbox]
      exact List.mem_cons_of_mem _ hx
    · rwa [(hothers k hk).1] at hx
  have hpath := forward_path floats e' s
  dsimp only [World.step]
  rw [htake]
  dsimp only
  rw [hpath]
  cases hhandler : w.proxies j e'.objectPath with
  | none =>
    refine ⟨_, rfl, .of_take htake rfl rfl (fun _ => rfl) fun hj hm p hp => ?_, ?_⟩
    · obtain rfl := (concerns_forward hof).mp hm
      rw [← hj, hhandler] at hp
      cases hp
    · exact h.of_quiet rfl hsent hstays h.kind
  | some q =>
    have hkind : q.kind = e'.kind := h.kind j e' q hhandler
    dsimp only
    rw [dispatch_forward hfloat hkind hof hfilled]
    refine ⟨_, rfl, .of_take htake rfl rfl (fun hm => ?_) fun hj hm p hp => ?_, ?_⟩
    · refine setProxy_other fun hj hsame => hm ⟨hj, ?_⟩
      exact (concerns_forward hof).mpr (objectPath_injective hsame)
    · obtain rfl := (concerns_forward hof).mp hm
      subst hj
      rw [hhandler] at hp
      cases hp
      refine ⟨⟨found, s.relayed found⟩, fun s' hof' hfilled' hs' => ?_, setProxy_same⟩
      -- Two signals with one message are told apart by nobody.
      have hsame := (dispatch_forward hfloat hkind hof hfilled found).symm.trans
        (hs' ▸ dispatch_forward hfloat hkind hof' hfilled' found)
      exact List.singleton_injective (Option.some.inj hsame)
    · refine h.of_quiet rfl hsent hstays (setProxy_kind h.kind fun p hp => ?_)
      cases hp
      exact hkind

lemma relayed_step (hfloat : ∀ status, floats.toFloat (floats.toDouble status) = status) (h : w.Sound floats)
    {event : Event ι σ} (hfair : event.Fair) (hs : w.step floats ids event = some v) :
    v.Sound floats ∧ ∀ i e, event.Keeps i e → Relayed floats i e w v := by
  cases event with
  | exported e' =>
    dsimp only [World.step] at hs
    split at hs <;> cases hs
    exact ⟨h.of_quiet rfl rfl (fun _ _ hm => hm) h.kind, fun _ _ _ =>
      .of_quiet (.refl _) ⟨[], (List.append_nil _).symm⟩ rfl fun _ hp => hp⟩
  | unexported e' =>
    cases hs
    exact ⟨h.of_quiet rfl rfl (fun _ _ hm => hm) h.kind, fun _ _ _ =>
      .of_quiet (.refl _) ⟨[], (List.append_nil _).symm⟩ rfl fun _ hp => hp⟩
  | emit e' s =>
    dsimp only [World.step] at hs
    split at hs
    · rename_i hof
      split at hs <;> cases hs
      · exact ⟨h, fun _ _ _ => .refl w⟩
      · exact ⟨h.forward (emitted_isOf hof hfair), fun _ _ _ => relayed_forward _⟩
    · cases hs
  | expire e' id =>
    dsimp only [World.step] at hs
    split at hs
    · rename_i hkind _
      cases hs
      exact ⟨h.forward (throttled_isOf hkind), fun _ _ _ => relayed_forward _⟩
    · cases hs
  | proxyNew j e' takesOver =>
    have hnew : ∀ p ∈ some (Proxy.mk e'.kind ([] : List (Emission σ))), p.kind = e'.kind := fun p hp => by
      cases hp
      rfl
    dsimp only [World.step] at hs
    split at hs
    · rename_i q hhandler
      cases takesOver with
      | false =>
        cases hs
        exact ⟨h.of_quiet rfl rfl (fun _ _ hm => hm) h.kind, fun _ _ _ =>
          .of_quiet (Bus.later_subscribe _ _ _) ⟨[], (List.append_nil _).symm⟩ rfl fun _ hp => hp⟩
      | true =>
        cases hs
        refine ⟨h.of_quiet rfl rfl (fun _ _ hm => hm) (setProxy_kind h.kind hnew), fun i e hkeeps => ?_⟩
        refine .of_quiet (Bus.later_subscribe _ _ _) ⟨[], (List.append_nil _).symm⟩ rfl fun p hp => ?_
        refine (setProxy_other fun hj hpath => ?_).trans hp
        cases hkeeps hj (objectPath_injective hpath)
    · rename_i hhandler
      cases hs
      refine ⟨h.of_quiet rfl rfl (fun _ _ hm => hm) (setProxy_kind h.kind hnew), fun i e _ => ?_⟩
      refine .of_quiet (Bus.later_subscribe _ _ _) ⟨[], (List.append_nil _).symm⟩ rfl fun p hp => ?_
      refine (setProxy_other fun hj hpath => ?_).trans hp
      subst hj
      rw [hpath, hp] at hhandler
      cases hhandler
  | proxyExtensionAttach j e' =>
    cases hs
    exact ⟨h.of_quiet rfl rfl (fun _ _ hm => hm) h.kind, fun _ _ _ =>
      .of_quiet (Bus.later_subscribe _ _ _) ⟨[], (List.append_nil _).symm⟩ rfl fun _ hp => hp⟩
  | dispose j e' =>
    cases hs
    refine ⟨h.of_quiet rfl rfl (fun _ _ hm => hm) (setProxy_kind h.kind fun p hp => by cases hp), fun i e hkeeps => ?_⟩
    refine .of_quiet (.refl _) ⟨[], (List.append_nil _).symm⟩ rfl fun p hp => ?_
    refine (setProxy_other fun hj hpath => ?_).trans hp
    exact hkeeps hj (objectPath_injective hpath)
  | dispatch j found =>
    cases htake : w.bus.take j with
    | none =>
      dsimp only [World.step] at hs
      rw [htake] at hs
      cases hs
    | some taken =>
      obtain ⟨m, bus⟩ := taken
      refine ⟨?_, fun i e _ => ?_⟩
      · obtain ⟨v', hv', -, hsound⟩ := relayed_dispatch (i := j) (e := ⟨.source, []⟩) hfloat h htake found
        cases hv'.symm.trans hs
        exact hsound
      · obtain ⟨v', hv', hrelayed, -⟩ := relayed_dispatch (i := i) (e := e) hfloat h htake found
        cases hv'.symm.trans hs
        exact hrelayed

/-! ### Runs -/

variable (floats ids) in
abbrev SignalsReach (guard : Event ι σ → Prop) : World ι σ → World ι σ → Prop :=
  Reach (fun w event v => w.step floats ids event = some v) fun _ event => guard event

lemma sound_reach (hfloat : ∀ status, floats.toFloat (floats.toDouble status) = status) (h : w.Sound floats)
    (hv : SignalsReach floats ids Event.Fair w v) : v.Sound floats :=
  hv.invariant (fun w => w.Sound floats) h fun _ _ _ hw hfair hs => (relayed_step hfloat hw hfair hs).1

lemma relayed_reach (hfloat : ∀ status, floats.toFloat (floats.toDouble status) = status) (h : w.Sound floats)
    (hv : SignalsReach floats ids (fun event => event.Fair ∧ event.Keeps i e) w v) :
    v.Sound floats ∧ Relayed floats i e w v := by
  induction hv with
  | refl => exact ⟨h, .refl w⟩
  | next _ hguard hs ih =>
    obtain ⟨hsound, hrelayed⟩ := relayed_step hfloat ih.1 hguard.1 hs
    exact ⟨hsound, ih.2.trans (hrelayed i e hguard.2)⟩

/-- From when a client has its matches, its proxy of an extension emits what was on its way and then what
is forwarded for the extension, each signal once, in order and with the same arguments, a playlist by its id
if the search for it succeeded when the message was handled, until only some of it is on its way; and
messages abort no client. -/
theorem signals_relayed (hfloat : ∀ status, floats.toFloat (floats.toDouble status) = status)
    (hw : SignalsReach floats ids Event.Fair .init w)
    (hv : SignalsReach floats ids (fun event => event.Fair ∧ event.Keeps i e) w v) {p : Proxy σ}
    (hp : w.proxies i e.objectPath = some p) (hwants : ∀ m, concerns e m = true → w.bus.wants i m = true) :
    (∃ (new queued left relayed : List (Signal σ)) (heard : List (Emission σ)), v.forwarded e = w.forwarded e ++ new ∧
      (w.bus.inbox i).filter (concerns e) = queued.map (Wrapper.forward floats e) ∧
      (v.bus.inbox i).filter (concerns e) = left.map (Wrapper.forward floats e) ∧
      queued ++ new = relayed ++ left ∧
      v.proxies i e.objectPath = some { p with emitted := p.emitted ++ heard } ∧
      List.Forall₂ (fun s h => h.signal = s.relayed h.found) relayed heard) ∧
      ∀ j found, v.bus.inbox j ≠ [] → (v.step floats ids (.dispatch j found)).isSome = true := by
  have hsound := sound_reach hfloat World.sound_init hw
  obtain ⟨hsound', hrelayed⟩ := relayed_reach hfloat hsound hv
  constructor
  · obtain ⟨new, hnew⟩ := hrelayed.forwarded
    obtain ⟨sent, hsent, hqueues⟩ := hrelayed.later.relayed
    obtain ⟨took, hread, hqueue⟩ := hqueues i
    obtain ⟨took', heard, hread', hproxy, hheard⟩ := hrelayed.proxy p hp
    obtain ⟨queued, hqueued, hof⟩ := hsound.queued i e
    obtain rfl : took' = took := List.append_cancel_left (hread'.symm.trans hread)
    have hforwarded : sent.filter (concerns e) = new.map (Wrapper.forward floats e) := by
      have h := hsound'.sent e
      rw [hsent, List.filter_append, hsound.sent, hnew, List.map_append] at h
      exact List.append_cancel_left h
    have hall : (queued ++ new).map (Wrapper.forward floats e) =
        took'.filter (concerns e) ++ (v.bus.inbox i).filter (concerns e) := by
      rw [List.map_append, ← hqueued, ← hforwarded, hqueue _ hwants]
    obtain ⟨relayed, left, hparts, htook, hleft⟩ := List.map_eq_append_iff.mp hall
    refine ⟨new, queued, left, relayed, heard, hnew, hqueued, hleft.symm, hparts, hproxy, ?_⟩
    refine forall₂_heard (fun s hs => ?_) (htook ▸ hheard)
    rcases List.mem_append.mp (hparts ▸ List.mem_append_left left hs) with hs | hs
    · exact hof s hs
    · exact hsound'.isOf e s (hnew ▸ List.mem_append_right _ hs)
  · intro j found hinbox
    cases htake : v.bus.take j with
    | none =>
      unfold Bus.take at htake
      split at htake
      · rename_i hnil
        exact absurd hnil hinbox
      · cases htake
    | some taken =>
      obtain ⟨u, hu, -⟩ : ∃ u, v.step floats ids (.dispatch j found) = some u ∧ Relayed floats i e v u ∧
          u.Sound floats := relayed_dispatch hfloat hsound' htake found
      rw [hu]
      rfl

end

end

/-- A `gfloat` is known here by the double of the same value. -/
def doubles : Floats UInt64 where
  zero := 0
  complete := 0x3FF0000000000000
  hundred := 0x4059000000000000
  hundred_ne_zero := by decide
  hundred_ne_complete := by decide
  toDouble := id
  toFloat := id

def player : Extension := ⟨.renderer, [112]⟩

def library : Extension := ⟨.source, [108]⟩

/-- A client has its proxy of the player. -/
def playerEvents : List (Event Bool UInt64) :=
  [.exported player, .exported library, .proxyNew true player false, .proxyExtensionAttach true player]

/-- The player buffers halfway and goes on, while the library changes and another client looks on. -/
def bufferingEvents : List (Event Bool UInt64) :=
  [.emit player (.bufferingInfo 0x3FE0000000000000), .emit library (.containerChanged [108]),
    .proxyNew false library false, .emit player (.bufferingInfo 0x3FE8000000000000), .dispatch true true,
    .emit library (.updating 10 1 9 60), .expire player 1, .emit player (.stateChanged 1), .dispatch true false,
    .dispatch false false, .emit player (.playlistChanged (some (.proxy 7)))]

/-- How much the client's proxy has emitted, and how much has yet to come to both clients. -/
def World.traffic (w : World Bool UInt64) : Option Nat × Nat × Nat :=
  ((w.proxies true player.objectPath).map fun p => p.emitted.length, (w.bus.inbox true).length,
    (w.bus.inbox false).length)

def playerWorld : World Bool UInt64 :=
  { exports := Function.update (Function.update (fun _ => none) player (some (.connect doubles.toStatuses)))
      library (some (.connect doubles.toStatuses))
    forwarded := fun _ => []
    bus := (Bus.init.subscribe true (extensionMatch .renderer player.objectPath)).subscribe true
      (extensionMatch .extension player.objectPath)
    proxies := Function.update (fun _ _ => none) true
      (Function.update (fun _ => none) player.objectPath (some ⟨.renderer, []⟩)) }

theorem signals_relayed_player : ∃ w : World Bool UInt64,
    SignalsReach doubles .ascending (fun event => event.Fair ∧ event.Keeps true player) playerWorld w ∧
      w.traffic = (some 2, 2, 0) ∧
      ∃ (new left relayed : List (Signal UInt64)) (heard : List (Emission UInt64)),
        w.forwarded player = new ∧ (w.bus.inbox true).filter (concerns player) =
          left.map (Wrapper.forward doubles player) ∧ new = relayed ++ left ∧
        w.proxies true player.objectPath = some ⟨.renderer, heard⟩ ∧
        List.Forall₂ (fun s h => h.signal = s.relayed h.found) relayed heard := by
  have hevents : runEvents (World.step doubles .ascending) (fun _ event => event.Fair) .init playerEvents =
      some playerWorld := rfl
  have hstart : SignalsReach doubles .ascending Event.Fair .init playerWorld := reach_of_runEvents hevents
  have hrun : (runEvents (World.step doubles .ascending) (fun _ event => event.Fair ∧ event.Keeps true player)
      playerWorld bufferingEvents).map World.traffic = some (some 2, 2, 0) := by decide +kernel
  obtain ⟨w, hw, htraffic⟩ := Option.map_eq_some_iff.mp hrun
  have hreach : SignalsReach doubles .ascending (fun event => event.Fair ∧ event.Keeps true player) playerWorld w :=
    reach_of_runEvents hw
  have hwants : ∀ m, concerns player m = true → playerWorld.bus.wants true m = true := by
    intro m hm
    simpa [playerWorld, Bus.subscribe, Bus.init, concerns, interfaceOf, player, Bool.or_comm] using hm
  obtain ⟨⟨new, queued, left, relayed, heard, hnew, hqueued, hleft, hparts, hproxy, hheard⟩, -⟩ :=
    signals_relayed (fun _ => rfl) hstart hreach (p := ⟨.renderer, []⟩) rfl hwants
  have hnone : queued = [] := List.map_eq_nil_iff.mp hqueued.symm
  subst hnone
  exact ⟨w, hreach, htraffic, new, left, relayed, heard, hnew, hleft, hparts, hproxy, hheard⟩

end MafwShared.MafwDbus.ExtensionSignals
