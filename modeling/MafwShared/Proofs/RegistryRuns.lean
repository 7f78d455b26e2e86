import MafwShared.Lib.Runs
import MafwShared.Proofs.DaemonTurn

/-!
# The daemon's registry over whole runs

From a consistent state every run keeps the two trees in step, gives out ascending ids
and never runs into an assertion, as long as the id counter does not wrap.
-/

namespace MafwShared
open CLib

variable {createObjectid : Bytes → Bytes} {d d' : Daemon}

/-! ### One turn -/

lemma plsIncrement_keys (pls : Pls) : (plsIncrement pls).id = pls.id ∧ (plsIncrement pls).name = pls.name := by
  simp [plsIncrement, plsSetUseCount, iAmDirty]

lemma plsDecrement_keys (pls : Pls) : (plsDecrement pls).id = pls.id ∧ (plsDecrement pls).name = pls.name := by
  simp [plsDecrement, plsSetUseCount, iAmDirty]

lemma handleUsecountHolderMsgs_registry {client newname : Client} (h : Registry d)
    (hr : d.handleUsecountHolderMsgs client newname = .ok d') :
    Registry d' ∧ d'.playlists = d.playlists ∧ d'.lastId = d.lastId := by
  apply handleUsecountHolderMsgs_invariant
    (fun d' => Registry d' ∧ d'.playlists = d.playlists ∧ d'.lastId = d.lastId) ?_ ?_ ⟨h, rfl, rfl⟩ hr
  · rintro d1 p pls ⟨h1, h2, h3⟩ hp
    obtain ⟨hid, hname⟩ := plsDecrement_keys pls
    exact ⟨h1.write hp hid hname, h2, h3⟩
  · rintro d1 c ⟨h1, h2, h3⟩
    exact ⟨h1.congr rfl rfl rfl rfl, h2, h3⟩

lemma removeUsecountHolder_frame (d : Daemon) (client : Client) (p : Ptr) :
    (d.removeUsecountHolder client p).heap = d.heap ∧ (d.removeUsecountHolder client p).brk = d.brk ∧
      (d.removeUsecountHolder client p).playlists = d.playlists ∧
      (d.removeUsecountHolder client p).playlistsByName = d.playlistsByName ∧
      (d.removeUsecountHolder client p).lastId = d.lastId := by
  unfold Daemon.removeUsecountHolder
  dsimp only
  split <;> exact ⟨rfl, rfl, rfl, rfl, rfl⟩

lemma Turned.registry {e : DaemonEvent} {sent : List Sent} (h : Registry d)
    (hfresh : e.Creates → d.playlists.lookup d.lastId = none) (ht : Turned createObjectid d e d' sent) :
    Registry d' := by
  cases ht with
  | kept => exact h
  | edited _ hold hedit =>
    have hid := handleEdit_identity hedit
    exact h.write hold hid.id_eq hid.name_eq
  | @played sender path m p old pls r _ _ hold hplay =>
    have hid := handlePlay_identity sender (atoi path) old d.draws m
    rw [hplay] at hid
    exact (h.write hold hid.id_eq hid.name_eq).congr rfl rfl rfl rfl
  | renamed _ hold hname hne => exact h.renamed hold hname hne
  | @incremented _ _ _ old _ hold =>
    obtain ⟨hid, hname⟩ := plsIncrement_keys old
    exact (h.write hold hid hname).congr rfl rfl rfl rfl
  | @decremented sender _ p old _ hold =>
    obtain ⟨hid, hname⟩ := plsDecrement_keys old
    obtain ⟨h1, h2, h3, h4, -⟩ := removeUsecountHolder_frame (d.write p (plsDecrement old)) sender p
    exact (h.write hold hid hname).congr h1 h2 h3 h4
  | released hr => exact (handleUsecountHolderMsgs_registry h hr).1
  | added hf hname _ _ =>
    obtain ⟨hid, hne, -⟩ := hf.identity
    exact h.added (by rw [hid]; exact hfresh hf.creates) hname hne
  | removed hp _ => exact h.removed hp

/-- How the ids change: nothing happens to them, the next one is created, or one of them is
destroyed. -/
inductive IdsTurned (d d' : Daemon) (sent : List Sent) : Prop
  | quiet : Quiet sent → d'.playlists = d.playlists → d'.lastId = d.lastId → IdsTurned d d' sent
  | created : createdIds sent = [d.lastId] → destroyedIds sent = [] →
      (∀ id, id ∈ d'.playlists ↔ id ∈ d.playlists ∨ id = d.lastId) →
      d'.lastId = (d.lastId + 1) % 2 ^ 32 → IdsTurned d d' sent
  | destroyed {id : Nat} : id ∈ d.playlists → createdIds sent = [] → destroyedIds sent = [id] →
      (∀ i, i ∈ d'.playlists ↔ i ∈ d.playlists ∧ i ≠ id) → d'.lastId = d.lastId → IdsTurned d d' sent

lemma Turned.ids {e : DaemonEvent} {sent : List Sent} (h : Registry d) (ht : Turned createObjectid d e d' sent) :
    IdsTurned d d' sent := by
  cases ht with
  | kept hq => exact .quiet hq rfl rfl
  | edited _ _ hedit => exact .quiet (handleEdit_quiet hedit) rfl rfl
  | @played sender path m p old pls r _ _ _ hplay =>
    have hq := handlePlay_quiet sender (atoi path) old d.draws m
    rw [hplay] at hq
    exact .quiet hq rfl rfl
  | renamed => exact .quiet ⟨rfl, rfl⟩ rfl rfl
  | incremented => exact .quiet ⟨rfl, rfl⟩ rfl rfl
  | @decremented sender _ p old _ _ =>
    obtain ⟨-, -, h3, -, h5⟩ := removeUsecountHolder_frame (d.write p (plsDecrement old)) sender p
    exact .quiet ⟨rfl, rfl⟩ h3 h5
  | released hr =>
    obtain ⟨-, h2, h3⟩ := handleUsecountHolderMsgs_registry h hr
    exact .quiet ⟨rfl, rfl⟩ h2 h3
  | added hf _ hcreated hdestroyed =>
    obtain ⟨hid, -, -⟩ := hf.identity
    refine .created hcreated hdestroyed (fun id => ?_) rfl
    simp only [Daemon.added, AList.mem_insert, hid]
    exact Or.comm
  | @removed _ p pls hp _ =>
    have hmem : pls.id ∈ d.playlists := by
      rw [← AList.lookup_isSome, h.byId.lookup hp]
      rfl
    refine .destroyed hmem rfl rfl (fun id => ?_) rfl
    simp only [Daemon.removed, AList.mem_erase]
    exact And.comm

namespace IdsTurned
variable {sent : List Sent}

lemma issued (h : IdsTurned d d' sent) : createdIds sent = [] ∧ d'.lastId = d.lastId ∨
    createdIds sent = [d.lastId] ∧ d'.lastId = (d.lastId + 1) % 2 ^ 32 := by
  cases h with
  | quiet hq _ hlast => exact Or.inl ⟨hq.1, hlast⟩
  | created hc _ _ hlast => exact Or.inr ⟨hc, hlast⟩
  | destroyed _ hc _ _ hlast => exact Or.inl ⟨hc, hlast⟩

lemma present (h : IdsTurned d d' sent) {id : Nat} (hid : id ∈ d'.playlists) :
    id ∈ d.playlists ∨ id ∈ createdIds sent := by
  cases h with
  | quiet _ hids _ =>
    rw [hids] at hid
    exact Or.inl hid
  | created hc _ hids _ =>
    rw [hc, List.mem_singleton]
    exact (hids id).mp hid
  | destroyed _ _ _ hids _ => exact Or.inl ((hids id).mp hid).1

end IdsTurned

/-! ### Whole runs -/

/-- The daemon together with the ids it has created in the run. -/
def registryStep (createObjectid : Bytes → Bytes) (s : Daemon × List Nat) (e : DaemonEvent) :
    Option (Daemon × List Nat) :=
  match s.1.handle createObjectid e with
  | .ok (d, sent) => some (d, s.2 ++ createdIds sent)
  | .error _ => none

abbrev RegistryReach (createObjectid : Bytes → Bytes) (d : Daemon) : Daemon × List Nat → Prop :=
  Reach (fun s e t => registryStep createObjectid s e = some t) (fun _ _ => True) (d, [])

lemma registryStep_eq {s t : Daemon × List Nat} {e : DaemonEvent}
    (h : registryStep createObjectid s e = some t) :
    ∃ sent, s.1.handle createObjectid e = .ok (t.1, sent) ∧ t.2 = s.2 ++ createdIds sent := by
  unfold registryStep at h
  split at h
  · rename_i d' sent hd
    cases h
    exact ⟨sent, hd, rfl⟩
  · cases h

/-- What a run keeps as long as the id counter has not wrapped. -/
structure InStep (d : Daemon) (s : Daemon × List Nat) : Prop where
  registry : Registry s.1
  lastId : s.1.lastId = d.lastId + s.2.length
  issued_lt : ∀ id, id ∈ d.playlists ∨ id ∈ s.2 → id < s.1.lastId
  present : ∀ id, id ∈ s.1.playlists → id ∈ d.playlists ∨ id ∈ s.2

lemma InStep.fresh {s : Daemon × List Nat} (h : InStep d s) : s.1.playlists.lookup s.1.lastId = none := by
  rw [AList.lookup_eq_none]
  intro hmem
  exact absurd (h.issued_lt _ (h.present _ hmem)) (Nat.lt_irrefl _)

lemma InStep.below {s : Daemon × List Nat} (h : InStep d s) : ∀ id ∈ s.1.playlists, id < s.1.lastId :=
  fun id hid => h.issued_lt id (h.present id hid)

lemma InStep.step {s t : Daemon × List Nat} {e : DaemonEvent} (h : InStep d s)
    (hcount : d.lastId + t.2.length < 2 ^ 32) (ht : registryStep createObjectid s e = some t) :
    InStep d t := by
  obtain ⟨sent, he, hlog⟩ := registryStep_eq ht
  have hturn := Turned.of_ok h.registry (fun _ => h.fresh) he
  have hreg := hturn.registry h.registry fun _ => h.fresh
  have hids := hturn.ids h.registry
  rcases hids.issued with ⟨hnone, hl⟩ | ⟨hone, hl⟩
  · have hlog' : t.2 = s.2 := by rw [hlog, hnone, List.append_nil]
    refine ⟨hreg, by rw [hl, hlog', h.lastId], fun id hid => ?_, fun id hid => ?_⟩
    · rw [hl]
      rw [hlog'] at hid
      exact h.issued_lt id hid
    · have hold := hids.present hid
      rw [hnone] at hold
      rw [hlog']
      exact h.present id (hold.resolve_right List.not_mem_nil)
  · have hlen : t.2.length = s.2.length + 1 := by rw [hlog, hone, List.length_append]; rfl
    have hsl := h.lastId
    have hl' : t.1.lastId = s.1.lastId + 1 := by rw [hl, Nat.mod_eq_of_lt (by omega)]
    refine ⟨hreg, by omega, fun id hid => ?_, fun id hid => ?_⟩
    · rw [hl']
      rw [hlog, hone, List.mem_append, List.mem_singleton, ← or_assoc] at hid
      rcases hid with hid | rfl
      · exact (h.issued_lt id hid).trans (Nat.lt_succ_self _)
      · exact Nat.lt_succ_self _
    · rw [hlog, hone, List.mem_append, List.mem_singleton, ← or_assoc]
      have hold := hids.present hid
      rw [hone, List.mem_singleton] at hold
      exact hold.imp_left fun hold => h.present id hold

lemma InStep.of_reach {guard : Daemon × List Nat → DaemonEvent → Prop} (h : Registry d)
    (hlast : ∀ id ∈ d.playlists, id < d.lastId) {s : Daemon × List Nat}
    (hr : Reach (fun s e t => registryStep createObjectid s e = some t) guard (d, []) s)
    (hcount : d.lastId + s.2.length < 2 ^ 32) : InStep d s := by
  have hinv := hr.invariant (fun s => d.lastId + s.2.length < 2 ^ 32 → InStep d s)
    (fun _ => ⟨h, rfl, fun id hid => by simpa using hlast id (by simpa using hid), fun id hid => Or.inl hid⟩)
    (fun s e t hs _ ht hc => by
      obtain ⟨sent, -, hlog⟩ := registryStep_eq ht
      have hlen : s.2.length ≤ t.2.length := by
        rw [hlog, List.length_append]
        exact Nat.le_add_right _ _
      exact (hs (by omega)).step hc ht)
  exact hinv hcount

/-- From a consistent state, and as long as the id counter does not wrap: both trees index
exactly the live playlists, the counter is above every id loaded or issued, a creation
takes an id that no playlist has or had, and no assertion of the handlers fails. -/
theorem registry_run (h : Registry d) (hlast : ∀ id ∈ d.playlists, id < d.lastId)
    {s : Daemon × List Nat} (hr : RegistryReach createObjectid d s)
    (hcount : d.lastId + s.2.length < 2 ^ 32) :
    Registry s.1 ∧ (∀ id, id ∈ d.playlists ∨ id ∈ s.2 ∨ id ∈ s.1.playlists → id < s.1.lastId) ∧
      (∀ e d' sent, s.1.handle createObjectid e = .ok (d', sent) →
        ∀ id ∈ createdIds sent, id ∉ d.playlists ∧ id ∉ s.2 ∧ id ∉ s.1.playlists) ∧
      ∀ e, s.1.handle createObjectid e ≠ .error .assertion := by
  have hstep := InStep.of_reach h hlast hr hcount
  refine ⟨hstep.registry, fun id hid => ?_, fun e d' sent he id hid => ?_, fun e he => ?_⟩
  · rcases hid with hid | hid | hid
    · exact hstep.issued_lt id (Or.inl hid)
    · exact hstep.issued_lt id (Or.inr hid)
    · exact hstep.issued_lt id (hstep.present id hid)
  · have hturn := Turned.of_ok hstep.registry (fun _ => hstep.fresh) he
    have heq : id = s.1.lastId := by
      rcases (hturn.ids hstep.registry).issued with ⟨hnone, -⟩ | ⟨hone, -⟩
      · rw [hnone] at hid
        cases hid
      · rw [hone] at hid
        exact List.mem_singleton.mp hid
    subst heq
    have hlt : ∀ id, id = s.1.lastId → ¬ (id ∈ d.playlists ∨ id ∈ s.2) := by
      rintro id rfl hid
      exact absurd (hstep.issued_lt _ hid) (Nat.lt_irrefl _)
    have hnot := hlt _ rfl
    exact ⟨fun hm => hnot (Or.inl hm), fun hm => hnot (Or.inr hm), fun hm => hnot (hstep.present _ hm)⟩
  · have hout : Outcome createObjectid s.1 e (s.1.handle createObjectid e) :=
      handle_turned hstep.registry fun _ => hstep.fresh
    rw [he] at hout
    exact hout

lemma registry_init (lastId : Nat) : Registry { Daemon.init with lastId := lastId } := by
  refine ⟨Indexes.empty _, Indexes.empty _, fun p pls hp => ?_, fun p hp => ?_⟩
  · cases hp
  · cases hp

/-- Two playlists are created, one is renamed, the other duplicated and destroyed. -/
theorem registry_run_fourRequests : ∃ s, RegistryReach id Daemon.init s ∧ s.2 = [1, 2, 3] ∧
    (∀ id, id ∈ s.2 → id < s.1.lastId) ∧ 1 ∉ s.1.playlists := by
  have hrun : runEvents (registryStep id) (fun _ _ => True) (Daemon.init, [])
      [.create [49] [97], .create [49] [98], .playlist [49] [50] (.setName [99]), .duplicate [50] 1 [98],
        .destroy [50] 1] = some (_, [1, 2, 3]) := rfl
  have hreach := reach_of_runEvents hrun
  obtain ⟨-, hlt, -⟩ := registry_run (registry_init 1) (by decide) hreach (by decide)
  exact ⟨_, hreach, rfl, fun id hid => hlt id (Or.inr (Or.inl hid)), by decide⟩

/-- One creation is enough to wrap the counter of a daemon that has loaded no playlists
but whose counter is at its end. -/
theorem registry_counter_wraps : ∃ d s, Registry d ∧ (∀ id ∈ d.playlists, id < d.lastId) ∧
    RegistryReach id d s ∧ s.2.length < 2 ^ 32 ∧ ∃ id ∈ s.2, ¬ id < s.1.lastId := by
  refine ⟨{ Daemon.init with lastId := 2 ^ 32 - 1 }, _, registry_init _, by decide,
    .next (e := .create [49] [97]) .refl trivial rfl, by decide, 2 ^ 32 - 1, by decide, by decide⟩

end MafwShared
