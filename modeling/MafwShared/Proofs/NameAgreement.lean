import MafwShared.ExtensionNames
import Mathlib.Algebra.BigOperators.Group.Finset.Basic
import Mathlib.Algebra.Order.BigOperators.Group.Finset
import Mathlib.Data.Fintype.Basic

/-!
# Proxies agree on an extension's name

Everybody may rename the extension at any time, and the extension tells every proxy of every
change. The last thing it has told a proxy is its name; a proxy that has heard everything has
that name, or it was renamed since and the extension is still to hear of it, or its first question
for the name failed. A proxy does not pass on a name that it was told, so that the messages die out.
-/

namespace MafwShared.ExtensionNames
open CLib

def Message.isGotName : Message → Bool
  | .gotName _ => true
  | .nameChanged _ => false

/-- The set-up of a proxy is asked for, answered or done, and none of it happens twice. -/
structure SetUpOnce (p : ProxyExtension) : Prop where
  handshake : p.failed = false →
    p.outbox.count .getName + p.inbox.countP Message.isGotName + p.connected.toNat = p.attached.toNat
  failed : p.failed = true → p.attached = true ∧ p.connected = true
  unattached : p.attached = false → p.inbox = []

structure Linked (name : Bytes) (p : ProxyExtension) : Prop extends SetUpOnce p where
  latest : ∀ m, p.inbox.getLast? = some m → m.name = name
  settled : p.failed = false → p.connected = true → p.inbox = [] →
    p.name = some name ∨ ∃ x, p.name = some x ∧ p.outbox.getLast? = some (.setName x)

section
variable {notifies : Notifies} {p : ProxyExtension} {name x : Bytes} {rest : List Request}

/-! ### One proxy -/

lemma linked_init (name : Bytes) : Linked name .init :=
  { handshake := fun _ => rfl
    failed := fun hf => nomatch hf
    unattached := fun _ => rfl
    latest := fun _ hm => nomatch hm
    settled := fun _ hc => nomatch hc }

lemma SetUpOnce.not_failed (h : SetUpOnce p) (ha : p.attached = false) : p.failed = false := by
  cases hf : p.failed with
  | false => rfl
  | true =>
    rw [(h.failed hf).1] at ha
    cases ha

lemma SetUpOnce.not_connected (h : SetUpOnce p) (ha : p.attached = false) : p.connected = false := by
  have hshake := h.handshake (h.not_failed ha)
  rw [ha] at hshake
  cases hc : p.connected with
  | false => rfl
  | true =>
    rw [hc] at hshake
    simp at hshake

lemma receive_latest {m : Message} {name : Bytes} (hm : m.name = name) :
    (∀ m', (p.receive m).inbox.getLast? = some m' → m'.name = name) ∧ (p.receive m).inbox ≠ [] := by
  constructor
  · intro m' hm'
    rw [ProxyExtension.receive, List.getLast?_concat] at hm'
    cases hm'
    exact hm
  · exact List.append_ne_nil_of_right_ne_nil _ (List.cons_ne_nil _ _)

lemma SetUpOnce.told (h : SetUpOnce p) (name : Bytes) :
    Linked name (if p.attached then p.receive (.nameChanged name) else p) := by
  cases ha : p.attached with
  | false =>
    rw [if_neg Bool.false_ne_true]
    refine ⟨h, fun m hm => ?_, fun _ hc => ?_⟩
    · rw [h.unattached ha] at hm
      cases hm
    · rw [h.not_connected ha] at hc
      cases hc
  | true =>
    rw [if_pos rfl]
    obtain ⟨hlatest, hne⟩ := receive_latest (p := p) (m := .nameChanged name) rfl
    refine ⟨⟨fun hf => ?_, h.failed, fun ha' => ?_⟩, hlatest, fun _ _ hnil => absurd hnil hne⟩
    · have hshake := h.handshake hf
      simpa [ProxyExtension.receive, Message.isGotName] using hshake
    · rw [ProxyExtension.receive, ha] at ha'
      cases ha'

lemma Linked.attach (h : Linked name p) (ha : p.attached = false) : Linked name p.proxyExtensionAttach := by
  have hnone := h.unattached ha
  have hc := h.not_connected ha
  have hf := h.not_failed ha
  refine ⟨⟨fun _ => ?_, fun hf' => ?_, fun ha' => ?_⟩, h.latest, fun _ hc' => ?_⟩
  · have hshake := h.handshake hf
    rw [ha, hc, hnone] at hshake
    have hcount : p.outbox.count .getName = 0 := by simpa using hshake
    simp [ProxyExtension.proxyExtensionAttach, hnone, hc, hcount]
  · rw [ProxyExtension.proxyExtensionAttach, hf] at hf'
    cases hf'
  · cases ha'
  · rw [ProxyExtension.proxyExtensionAttach, hc] at hc'
    cases hc'

lemma Linked.fail (h : Linked name p) (ha : p.attached = true) : Linked name p.gotNameError :=
  { handshake := fun hf => nomatch hf
    failed := fun _ => ⟨ha, rfl⟩
    unattached := h.unattached
    latest := h.latest
    settled := fun hf => nomatch hf }

lemma Linked.setName (hn : ∀ old new, old ≠ some new → notifies old new = true) (h : Linked name p) (x : Bytes) :
    Linked name (p.mafwExtensionSetName notifies false x) := by
  unfold ProxyExtension.mafwExtensionSetName ProxyExtension.extensionNameSet
  dsimp only
  by_cases htold : (notifies p.name x && p.connected && !false) = true
  · rw [if_pos htold]
    refine ⟨⟨fun hf => ?_, h.failed, h.unattached⟩, h.latest, fun _ _ _ => .inr ⟨x, rfl, List.getLast?_concat⟩⟩
    simpa using h.handshake hf
  · rw [if_neg htold]
    refine ⟨⟨h.handshake, h.failed, h.unattached⟩, h.latest, fun hf hc hnil => ?_⟩
    have hsame : p.name = some x := by
      by_contra hne
      have hconnected : p.connected = true := hc
      exact htold (by simp [hn p.name x hne, hconnected])
    exact hsame ▸ h.settled hf hc hnil

/-- A message of the extension. A name that it carries is not sent back. -/
lemma Linked.deliver (notifies : Notifies) (h : Linked name p) {m : Message} {inbox : List Message}
    (hm : p.inbox = m :: inbox) :
    Linked name ({ p with inbox := inbox }.dispatch notifies m) ∧
      ({ p with inbox := inbox }.dispatch notifies m).outbox = p.outbox ∧
      ({ p with inbox := inbox }.dispatch notifies m).inbox = inbox := by
  have hshake := h.handshake
  rw [hm] at hshake
  have hunattached : p.attached = false → inbox = [] := by
    intro ha
    have hnil := h.unattached ha
    rw [hm] at hnil
    cases hnil
  have hlatest : ∀ m', inbox.getLast? = some m' → m'.name = name := by
    intro m' hm'
    refine h.latest m' ?_
    rw [hm, List.getLast?_cons, hm']
    rfl
  have hname : inbox = [] → m.name = name := by
    rintro rfl
    exact h.latest m (by rw [hm]; rfl)
  cases m with
  | nameChanged x =>
    have hdispatch : { p with inbox := inbox }.dispatch notifies (.nameChanged x) =
        { p with inbox := inbox, name := some x } := by
      simp [ProxyExtension.dispatch, ProxyExtension.handleExtensionNameChanged, ProxyExtension.mafwExtensionSetName]
    rw [hdispatch]
    refine ⟨⟨⟨fun hf => ?_, h.failed, hunattached⟩, hlatest, fun _ _ hnil => .inl (congrArg some (hname hnil))⟩,
      rfl, rfl⟩
    simpa [Message.isGotName] using hshake hf
  | gotName x =>
    by_cases hf : p.failed = true
    · have hdispatch : { p with inbox := inbox }.dispatch notifies (.gotName x) = { p with inbox := inbox } := by
        rw [ProxyExtension.dispatch, if_pos hf]
      have hfailed : ¬p.failed = false := by simp [hf]
      rw [hdispatch]
      exact ⟨⟨⟨fun hf' => absurd hf' hfailed, h.failed, hunattached⟩, hlatest, fun hf' => absurd hf' hfailed⟩, rfl, rfl⟩
    · have hanswered : p.failed = false := Bool.not_eq_true _ ▸ hf
      have hshake := hshake hanswered
      rw [List.countP_cons] at hshake
      -- the set-up is not done yet, so that the handler is not connected
      have hc : p.connected = false := by
        cases hc : p.connected with
        | false => rfl
        | true =>
          rw [hc] at hshake
          cases ha : p.attached <;> simp [ha, Message.isGotName] at hshake
      have hdispatch : { p with inbox := inbox }.dispatch notifies (.gotName x) =
          { p with inbox := inbox, name := some x, connected := true } := by
        simp [ProxyExtension.dispatch, ProxyExtension.gotName, ProxyExtension.mafwExtensionSetName, hc, hanswered]
      rw [hdispatch]
      refine ⟨⟨⟨fun _ => ?_, fun hf' => absurd hf' hf, hunattached⟩, hlatest,
        fun _ _ hnil => .inl (congrArg some (hname hnil))⟩, rfl, rfl⟩
      rw [hc] at hshake
      simpa [Message.isGotName, Nat.add_assoc] using hshake

lemma Linked.served (h : Linked name p) (hout : p.outbox = .setName name :: rest) :
    Linked name { p with outbox := rest } := by
  refine ⟨⟨fun hf => ?_, h.failed, h.unattached⟩, h.latest, fun hf hc hnil => ?_⟩
  · have hshake := h.handshake hf
    rw [hout] at hshake
    simpa using hshake
  · rcases h.settled hf hc hnil with hname | ⟨x, hname, hlast⟩
    · exact .inl hname
    · rw [hout] at hlast
      cases rest with
      | nil =>
        cases hlast
        exact .inl hname
      | cons r rest => exact .inr ⟨x, hname, hlast⟩

lemma Linked.asked (h : Linked name p) (hout : p.outbox = .getName :: rest) :
    Linked name ({ p with outbox := rest }.receive (.gotName name)) := by
  have hshake := h.handshake
  rw [hout] at hshake
  obtain ⟨hlatest, hne⟩ := receive_latest (p := { p with outbox := rest }) (m := .gotName name) rfl
  refine ⟨⟨fun hf => ?_, h.failed, fun ha => ?_⟩, hlatest, fun _ _ hnil => absurd hnil hne⟩
  · have hshake := hshake hf
    simp only [ProxyExtension.receive, List.countP_append, Message.isGotName, List.countP_cons, List.countP_nil,
      List.count_cons_self] at hshake ⊢
    simp only [if_true]
    omega
  · have hattached : p.attached = false := ha
    have hshake := hshake (h.not_failed hattached)
    rw [hattached] at hshake
    simp at hshake

lemma SetUpOnce.served (h : SetUpOnce p) (hout : p.outbox = .setName x :: rest) :
    SetUpOnce { p with outbox := rest } := by
  refine ⟨fun hf => ?_, h.failed, h.unattached⟩
  have hshake := h.handshake hf
  rw [hout] at hshake
  simpa using hshake

end

/-! ### All of them -/

section
variable {ι : Type*} {notifies : Notifies} {w v : World ι} {name : Bytes}

def AllLinked (w : World ι) : Prop := ∀ i, Linked w.name (w.proxies i)

lemma allLinked_init (name : Bytes) : AllLinked (World.init name : World ι) := fun _ => linked_init name

/-- A new name for the extension. It takes no part in this what the proxies knew before, unless
the name is not new. -/
lemma setName_linked (hn : ∀ old new, old ≠ some new → notifies old new = true)
    (honce : ∀ i, SetUpOnce (w.proxies i)) (hsame : name = w.name → AllLinked w) :
    AllLinked (w.mafwExtensionSetName notifies name) := by
  unfold World.mafwExtensionSetName
  dsimp only
  by_cases htold : notifies (some w.name) name = true
  · rw [if_pos htold]
    exact fun i => (honce i).told name
  · rw [if_neg htold]
    have hname : w.name = name := by
      by_contra hne
      exact htold (hn _ _ fun h => hne (Option.some.inj h))
    intro i
    exact hname ▸ hsame hname.symm i

variable [DecidableEq ι]

lemma AllLinked.setProxy (h : AllLinked w) {i : ι} {p : ProxyExtension} (hp : Linked w.name p) :
    AllLinked (w.setProxy i p) := by
  intro j
  by_cases hj : j = i
  · subst hj
    simpa [World.setProxy] using hp
  · simpa [World.setProxy, hj] using h j

/-! What the events that may be impossible do. -/

lemma step_attach {i : ι} (hs : w.step notifies (.attach i) = some v) :
    (w.proxies i).attached = false ∧ v = w.setProxy i (w.proxies i).proxyExtensionAttach := by
  dsimp only [World.step] at hs
  split at hs
  · cases hs
  · rename_i ha
    exact ⟨Bool.not_eq_true _ ▸ ha, (Option.some.inj hs).symm⟩

lemma step_fail {i : ι} (hs : w.step notifies (.fail i) = some v) :
    (w.proxies i).attached = true ∧ v = w.setProxy i (w.proxies i).gotNameError := by
  dsimp only [World.step] at hs
  split at hs
  · rename_i hwaits
    exact ⟨(Bool.and_eq_true_iff.mp hwaits).1, (Option.some.inj hs).symm⟩
  · cases hs

lemma step_serve {i : ι} (hs : w.step notifies (.serve i) = some v) :
    ∃ r rest, (w.proxies i).outbox = r :: rest ∧
      v = (w.setProxy i { w.proxies i with outbox := rest }).handleExtensionMsg notifies i r := by
  dsimp only [World.step] at hs
  split at hs
  · cases hs
  · rename_i r rest hout
    exact ⟨r, rest, hout, (Option.some.inj hs).symm⟩

lemma step_deliver {i : ι} (hs : w.step notifies (.deliver i) = some v) :
    ∃ m rest, (w.proxies i).inbox = m :: rest ∧
      v = w.setProxy i ({ w.proxies i with inbox := rest }.dispatch notifies m) := by
  dsimp only [World.step] at hs
  split at hs
  · cases hs
  · rename_i m rest hin
    exact ⟨m, rest, hin, (Option.some.inj hs).symm⟩

lemma handle_getName (i : ι) (rest : List Request) :
    (w.setProxy i { w.proxies i with outbox := rest }).handleExtensionMsg notifies i .getName =
      w.setProxy i ({ w.proxies i with outbox := rest }.receive (.gotName w.name)) := by
  simp [World.handleExtensionMsg, World.setProxy]

lemma AllLinked.step (hn : ∀ old new, old ≠ some new → notifies old new = true) (h : AllLinked w) {e : Event ι}
    (hs : w.step notifies e = some v) : AllLinked v := by
  cases e with
  | rename name =>
    cases hs
    exact setName_linked hn (fun i => (h i).toSetUpOnce) fun _ => h
  | attach i =>
    obtain ⟨ha, rfl⟩ := step_attach hs
    exact h.setProxy ((h i).attach ha)
  | fail i =>
    obtain ⟨ha, rfl⟩ := step_fail hs
    exact h.setProxy ((h i).fail ha)
  | setName i name =>
    cases hs
    exact h.setProxy ((h i).setName hn name)
  | deliver i =>
    obtain ⟨m, rest, hin, rfl⟩ := step_deliver hs
    exact h.setProxy ((h i).deliver notifies hin).1
  | serve i =>
    obtain ⟨r, rest, hout, rfl⟩ := step_serve hs
    cases r with
    | getName =>
      rw [handle_getName]
      exact h.setProxy ((h i).asked hout)
    | setName name =>
      refine setName_linked hn (fun j => ?_) fun hname => ?_
      · by_cases hj : j = i
        · subst hj
          simpa [World.setProxy] using (h j).toSetUpOnce.served hout
        · simpa [World.setProxy, hj] using (h j).toSetUpOnce
      · have hsame : name = w.name := hname
        rw [hsame] at hout
        exact h.setProxy ((h i).served hout)

abbrev NameReach (notifies : Notifies) (name : Bytes) : World ι → Prop :=
  Reach (fun w e v => w.step notifies e = some v) (fun _ _ => True) (World.init name)

lemma allLinked_of_reach (hn : ∀ old new, old ≠ some new → notifies old new = true)
    (h : NameReach notifies name w) : AllLinked w :=
  h.invariant AllLinked (allLinked_init name) fun _ _ _ hw _ hs => hw.step hn hs

/-- In every run a proxy that was answered in its set-up and has no message on its way has the
extension's name. -/
theorem names_agree (hn : ∀ old new, old ≠ some new → notifies old new = true) (h : NameReach notifies name w)
    (i : ι) (hc : (w.proxies i).connected = true) (hf : (w.proxies i).failed = false)
    (hout : (w.proxies i).outbox = []) (hin : (w.proxies i).inbox = []) : (w.proxies i).name = some w.name := by
  rcases (allLinked_of_reach hn h i).settled hf hc hin with hname | ⟨x, -, hlast⟩
  · exact hname
  · rw [hout] at hlast
    cases hlast

/-! ### The messages die out -/

/-- What the messages on their way to and from a proxy can still lead to: a request is answered by
one message, or passed on to at most `n` proxies. -/
def load (n : Nat) (p : ProxyExtension) : Nat := (n + 2) * p.outbox.length + p.inbox.length

lemma load_taken (n : Nat) {p : ProxyExtension} {r : Request} {rest : List Request} (hout : p.outbox = r :: rest) :
    load n p = load n { p with outbox := rest } + (n + 2) := by
  simp only [load, hout, List.length_cons, Nat.mul_add, Nat.mul_one]
  omega

lemma load_receive (n : Nat) (p : ProxyExtension) (m : Message) : load n (p.receive m) = load n p + 1 := by
  simp only [load, ProxyExtension.receive, List.length_append, List.length_singleton]
  omega

lemma load_told (n : Nat) (name : Bytes) (p : ProxyExtension) :
    load n (if p.attached then p.receive (.nameChanged name) else p) ≤ load n p + 1 := by
  split
  · exact (load_receive n p _).le
  · exact Nat.le_add_right _ _

variable [Fintype ι]

def traffic (w : World ι) : Nat := ∑ i, load (Fintype.card ι) (w.proxies i)

lemma traffic_setProxy (i : ι) (p : ProxyExtension) :
    traffic (w.setProxy i p) + load (Fintype.card ι) (w.proxies i) = traffic w + load (Fintype.card ι) p := by
  have hsplit : ∀ v : World ι, traffic v =
      load (Fintype.card ι) (v.proxies i) + ∑ j ∈ Finset.univ.erase i, load (Fintype.card ι) (v.proxies j) :=
    fun v => (Finset.add_sum_erase _ (fun j => load (Fintype.card ι) (v.proxies j)) (Finset.mem_univ i)).symm
  have hrest : ∑ j ∈ Finset.univ.erase i, load (Fintype.card ι) ((w.setProxy i p).proxies j) =
      ∑ j ∈ Finset.univ.erase i, load (Fintype.card ι) (w.proxies j) := by
    refine Finset.sum_congr rfl fun j hj => ?_
    simp [World.setProxy, Finset.ne_of_mem_erase hj]
  rw [hsplit, hsplit w, hrest]
  simp only [World.setProxy, Function.update_self]
  omega

omit [DecidableEq ι] in
lemma traffic_setName (notifies : Notifies) (w : World ι) (name : Bytes) :
    traffic (w.mafwExtensionSetName notifies name) ≤ traffic w + Fintype.card ι := by
  unfold World.mafwExtensionSetName
  dsimp only
  split
  · calc traffic ({ w with name := name } : World ι).nameChanged
        ≤ ∑ i, (load (Fintype.card ι) (w.proxies i) + 1) :=
          Finset.sum_le_sum fun i _ => load_told _ name (w.proxies i)
      _ = traffic w + Fintype.card ι := by
          rw [Finset.sum_add_distrib, Finset.sum_const, Finset.card_univ, nsmul_one, Nat.cast_id, traffic]
  · exact Nat.le_add_right _ _

lemma traffic_arrival (h : AllLinked w) {e : Event ι} (he : e.Arrival) (hs : w.step notifies e = some v) :
    traffic v < traffic w := by
  cases e with
  | rename => exact he.elim
  | attach => exact he.elim
  | fail => exact he.elim
  | setName => exact he.elim
  | deliver i =>
    obtain ⟨m, rest, hin, rfl⟩ := step_deliver hs
    obtain ⟨-, hout', hin'⟩ := (h i).deliver notifies hin
    have htraffic := traffic_setProxy (w := w) i ({ w.proxies i with inbox := rest }.dispatch notifies m)
    unfold load at htraffic
    rw [hout', hin', hin, List.length_cons] at htraffic
    omega
  | serve i =>
    obtain ⟨r, rest, hout, rfl⟩ := step_serve hs
    have htaken := load_taken (Fintype.card ι) hout
    cases r with
    | getName =>
      rw [handle_getName]
      have htraffic := traffic_setProxy (w := w) i ({ w.proxies i with outbox := rest }.receive (.gotName w.name))
      rw [load_receive, htaken] at htraffic
      dsimp only at htraffic ⊢
      omega
    | setName name =>
      have htraffic := traffic_setProxy (w := w) i { w.proxies i with outbox := rest }
      rw [htaken] at htraffic
      have hname := traffic_setName notifies (w.setProxy i { w.proxies i with outbox := rest }) name
      rw [World.handleExtensionMsg]
      dsimp only at htraffic hname ⊢
      omega

/-- Whatever is on its way, arrivals alone come to an end, and then every proxy is set up and has
the extension's name, if it was not refused the name in its set-up. -/
theorem messages_die_out (hn : ∀ old new, old ≠ some new → notifies old new = true) (h : NameReach notifies name w)
    {es : List (Event ι)} (hrun : runEvents (World.step notifies) (fun _ e => e.Arrival) w es = some v) :
    es.length ≤ traffic w ∧ ((∀ e : Event ι, e.Arrival → v.step notifies e = none) →
      ∀ i, (v.proxies i).attached = true → (v.proxies i).connected = true ∧
        ((v.proxies i).failed = false → (v.proxies i).name = some v.name)) := by
  obtain ⟨hv, hle⟩ := runEvents_bounded AllLinked traffic
    (fun _ _ _ hw he hs => ⟨hw.step hn hs, traffic_arrival hw he hs⟩) (allLinked_of_reach hn h) hrun
  refine ⟨by omega, fun hquiet i ha => ?_⟩
  have hout : (v.proxies i).outbox = [] := by
    cases hbox : (v.proxies i).outbox with
    | nil => rfl
    | cons r rest =>
      have hserve := hquiet (.serve i) trivial
      simp [World.step, hbox] at hserve
  have hin : (v.proxies i).inbox = [] := by
    cases hbox : (v.proxies i).inbox with
    | nil => rfl
    | cons m rest =>
      have hdeliver := hquiet (.deliver i) trivial
      simp [World.step, hbox] at hdeliver
  have hc : (v.proxies i).connected = true := by
    cases hf : (v.proxies i).failed with
    | true => exact ((hv i).failed hf).2
    | false =>
      have hshake := (hv i).handshake hf
      rw [hout, hin, ha] at hshake
      simpa using hshake
  refine ⟨hc, fun hf => ?_⟩
  rcases (hv i).settled hf hc hin with hname | ⟨x, -, hlast⟩
  · exact hname
  · rw [hout] at hlast
    cases hlast

end

/-- Two proxies; the first is renamed while the extension takes another name. -/
def crossedRenames : List (Event Bool) :=
  [.attach true, .attach false, .serve true, .deliver true, .setName true [98], .rename [99]]

/-- The messages of the two renames pass each other, and the proxy has the last word. -/
def crossedArrivals : List (Event Bool) :=
  [.serve false, .deliver true, .serve true, .deliver false, .deliver false, .deliver true, .deliver false]

/-- The names and what is on its way. -/
def World.snapshot (w : World Bool) : Bytes × ProxyExtension × ProxyExtension :=
  (w.name, w.proxies true, w.proxies false)

theorem names_agree_crossed : ∃ w : World Bool, NameReach (fun _ _ => true) [97] w ∧ w.name = [98] ∧
    (w.proxies true).name = some w.name ∧ (w.proxies false).name = some w.name := by
  have hrun : (runEvents (World.step fun _ _ => true) (fun _ _ => True) (World.init [97])
      (crossedRenames ++ crossedArrivals)).map World.snapshot =
      some ([98], ⟨some [98], true, true, false, [], []⟩, ⟨some [98], true, true, false, [], []⟩) := by decide
  obtain ⟨w, hw, hsnap⟩ := Option.map_eq_some_iff.mp hrun
  simp only [World.snapshot, Prod.mk.injEq] at hsnap
  obtain ⟨hname, htrue, hfalse⟩ := hsnap
  have hreach := reach_of_runEvents hw
  exact ⟨w, hreach, hname,
    names_agree (fun _ _ _ => rfl) hreach true (by rw [htrue]) (by rw [htrue]) (by rw [htrue]) (by rw [htrue]),
    names_agree (fun _ _ _ => rfl) hreach false (by rw [hfalse]) (by rw [hfalse]) (by rw [hfalse]) (by rw [hfalse])⟩

/-- A proxy whose question failed is set up without a name, and the answer that comes late is dropped. -/
example : (runEvents (World.step fun _ _ => true) (fun _ _ => True) (World.init [97])
    [.attach true, .fail true, .serve true, .deliver true]).map World.snapshot =
      some ([97], ⟨none, true, true, true, [], []⟩, .init) := by decide

theorem messages_die_out_crossed : ∃ w v : World Bool, NameReach (fun _ _ => true) [97] w ∧
    crossedArrivals.length ≤ traffic w ∧ (v.proxies false).connected = true ∧ (v.proxies false).name = some v.name := by
  have hrun : ((runEvents (World.step fun _ _ => true) (fun _ _ => True) (World.init [97]) crossedRenames).bind fun w =>
      (runEvents (World.step fun _ _ => true) (fun _ e => e.Arrival) w crossedArrivals).map World.snapshot) =
      some ([98], ⟨some [98], true, true, false, [], []⟩, ⟨some [98], true, true, false, [], []⟩) := by decide
  obtain ⟨w, hw, hmap⟩ := Option.bind_eq_some_iff.mp hrun
  obtain ⟨v, hv, hsnap⟩ := Option.map_eq_some_iff.mp hmap
  simp only [World.snapshot, Prod.mk.injEq] at hsnap
  obtain ⟨-, htrue, hfalse⟩ := hsnap
  obtain ⟨hlength, hend⟩ := messages_die_out (fun _ _ _ => rfl) (reach_of_runEvents hw) hv
  have hquiet : ∀ e : Event Bool, e.Arrival → v.step (fun _ _ => true) e = none := by
    intro e he
    cases e with
    | serve i | deliver i => cases i <;> simp [World.step, htrue, hfalse]
    | rename | attach | fail | setName => exact he.elim
  obtain ⟨hc, hname⟩ := hend hquiet false (by rw [hfalse])
  exact ⟨w, v, reach_of_runEvents hw, hlength, hc, hname (by rw [hfalse])⟩

end MafwShared.ExtensionNames
