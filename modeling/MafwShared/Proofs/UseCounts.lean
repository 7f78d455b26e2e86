import MafwShared.Lib.Tally
import MafwShared.Proofs.RegistryRuns

/-!
# Use counts

`Counted` ties the use count of every playlist to the holds that are recorded for it, over
all clients; an address where no playlist lives counts as zero. A client that gives back
what it does not hold breaks it, so that the runs considered are those in which no client
does.
-/

namespace MafwShared
open CLib

variable {createObjectid : Bytes → Bytes} {d d' : Daemon}

/-- The playlists a client holds, once for each hold. -/
def Daemon.heldBy (d : Daemon) (client : Client) : List Ptr := (d.usecountHolders.lookup client).getD []

/-- The holds recorded for a playlist over all clients. -/
def Daemon.holds (d : Daemon) (p : Ptr) : Nat := tally (List.count p) d.usecountHolders

def Daemon.uses (d : Daemon) (p : Ptr) : Nat := ((d.heap p).map Pls.useCount).getD 0

/-- The holds of a client on the playlist with an id. -/
def Daemon.holdsOn (d : Daemon) (client : Client) (id : Nat) : Nat :=
  ((d.playlists.lookup id).map fun p => (d.heldBy client).count p).getD 0

/-- The playlist that a request to an object path is for. -/
def Daemon.addressee (d : Daemon) (path : Bytes) : Option Ptr :=
  if atoi path = 0 then none else d.playlists.lookup (atoi path)

structure Counted (d : Daemon) : Prop where
  registry : Registry d
  counted : ∀ p, d.uses p = d.holds p

/-! ### The table of holders -/

lemma heldBy_count_le (d : Daemon) (client : Client) (p : Ptr) : (d.heldBy client).count p ≤ d.holds p := by
  unfold Daemon.heldBy
  cases hl : d.usecountHolders.lookup client with
  | none => simp
  | some l => exact le_tally (List.count p) hl

lemma holds_split (d : Daemon) (client : Client) (p : Ptr) : d.holds p =
    (d.heldBy client).count p + tally (List.count p) (d.usecountHolders.erase client) := by
  rw [Daemon.holds, tally_split _ _ client, Daemon.heldBy]
  cases d.usecountHolders.lookup client <;> simp

lemma storeUsecountHolder_heldBy (d : Daemon) (client c : Client) (p : Ptr) :
    (d.storeUsecountHolder client p).heldBy c = if c = client then p :: d.heldBy client else d.heldBy c := by
  unfold Daemon.heldBy Daemon.storeUsecountHolder
  by_cases hc : c = client
  · subst hc
    rw [if_pos rfl, AList.lookup_insert]
    rfl
  · rw [if_neg hc, AList.lookup_insert_ne hc]

lemma removeUsecountHolder_heldBy (d : Daemon) (client c : Client) (p : Ptr) :
    (d.removeUsecountHolder client p).heldBy c =
      if c = client then (d.heldBy client).erase p else d.heldBy c := by
  unfold Daemon.heldBy Daemon.removeUsecountHolder Daemon.unregisterRequestor
  dsimp only
  by_cases hc : c = client
  · subst hc
    rw [if_pos rfl]
    split
    · rename_i hnil
      rw [AList.lookup_erase, hnil]
      rfl
    · rw [AList.lookup_insert]
      rfl
  · rw [if_neg hc]
    split
    · rw [AList.lookup_erase_ne hc]
    · rw [AList.lookup_insert_ne hc]

lemma unregisterRequestor_heldBy (d : Daemon) (client c : Client) :
    (d.unregisterRequestor client).heldBy c = if c = client then [] else d.heldBy c := by
  unfold Daemon.heldBy Daemon.unregisterRequestor
  by_cases hc : c = client
  · subst hc
    rw [if_pos rfl, AList.lookup_erase]
    rfl
  · rw [if_neg hc, AList.lookup_erase_ne hc]

lemma storeUsecountHolder_holds (d : Daemon) (client : Client) (p q : Ptr) :
    (d.storeUsecountHolder client p).holds q = d.holds q + if q = p then 1 else 0 := by
  rw [holds_split d client, Daemon.holds, Daemon.storeUsecountHolder, tally_insert, Daemon.heldBy,
    List.count_cons]
  simp only [beq_iff_eq, eq_comm (a := p)]
  omega

lemma removeUsecountHolder_holds {client : Client} {p : Ptr} (hp : p ∈ d.heldBy client) (q : Ptr) :
    (d.removeUsecountHolder client p).holds q + (if q = p then 1 else 0) = d.holds q := by
  have hcount : ((d.heldBy client).erase p).count q + (if q = p then 1 else 0) = (d.heldBy client).count q := by
    have hperm := (List.perm_cons_erase hp).count_eq q
    rw [List.count_cons] at hperm
    simp only [beq_iff_eq, eq_comm (a := p)] at hperm
    exact hperm.symm
  have hholds : (d.removeUsecountHolder client p).holds q =
      ((d.heldBy client).erase p).count q + tally (List.count q) (d.usecountHolders.erase client) := by
    unfold Daemon.removeUsecountHolder Daemon.unregisterRequestor Daemon.holds
    dsimp only
    split
    · rename_i hnil
      rw [Daemon.heldBy, hnil, List.count_nil, Nat.zero_add]
    · rw [tally_insert]
      rfl
  rw [hholds, holds_split d client]
  omega

lemma unregisterRequestor_holds (d : Daemon) (client : Client) (q : Ptr) :
    (d.unregisterRequestor client).holds q + (d.heldBy client).count q = d.holds q := by
  rw [holds_split d client, Nat.add_comm]
  rfl

/-! ### Use counts on the heap -/

lemma uses_eq {p : Ptr} {pls : Pls} (hp : d.heap p = some pls) : d.uses p = pls.useCount := by
  rw [Daemon.uses, hp]
  rfl

lemma uses_update {p : Ptr} {x : Option Pls} (h : d'.heap = Function.update d.heap p x) (q : Ptr) :
    d'.uses q = if q = p then (x.map Pls.useCount).getD 0 else d.uses q := by
  rw [Daemon.uses, h]
  by_cases hq : q = p
  · rw [hq, if_pos rfl, Function.update_self]
  · rw [if_neg hq, Function.update_of_ne hq, Daemon.uses]

lemma plsIncrement_useCount {pls : Pls} (h : pls.useCount + 1 < 2 ^ 32) :
    (plsIncrement pls).useCount = pls.useCount + 1 := Nat.mod_eq_of_lt h

lemma plsDecrement_useCount {pls : Pls} (h : 0 < pls.useCount) :
    (plsDecrement pls).useCount = pls.useCount - 1 := if_neg h.ne'

lemma Counted.isSome_of_held (h : Counted d) {client : Client} {p : Ptr} (hp : p ∈ d.heldBy client) :
    (d.heap p).isSome := by
  have hpos : 0 < (d.heldBy client).count p := List.count_pos_iff.mpr hp
  have hle := heldBy_count_le d client p
  cases hheap : d.heap p with
  | some pls => rfl
  | none =>
    have hzero : d.uses p = 0 := by rw [Daemon.uses, hheap]; rfl
    rw [h.counted] at hzero
    omega

lemma releaseAll_counts {l : List Ptr} (hl : ∀ p ∈ l, (d.heap p).isSome)
    (hcount : ∀ p, l.count p ≤ d.uses p) : ∃ d', d.releaseAll l = .ok d' ∧
      d'.usecountHolders = d.usecountHolders ∧ ∀ p, d'.uses p + l.count p = d.uses p := by
  induction l generalizing d with
  | nil => exact ⟨d, rfl, rfl, fun p => rfl⟩
  | cons p l ih =>
    obtain ⟨pls, hpls⟩ := Option.isSome_iff_exists.mp (hl p List.mem_cons_self)
    have hp := hcount p
    rw [List.count_cons_self, uses_eq hpls] at hp
    have huses : ∀ q, (d.write p (plsDecrement pls)).uses q + (if q = p then 1 else 0) = d.uses q := by
      intro q
      rw [uses_update (p := p) (x := some (plsDecrement pls)) rfl q]
      by_cases hq : q = p
      · rw [if_pos hq, if_pos hq, hq, uses_eq hpls, Option.map_some, Option.getD_some,
          plsDecrement_useCount (by omega)]
        omega
      · rw [if_neg hq, if_neg hq]
        rfl
    obtain ⟨d', hd', hholders, hd'uses⟩ := ih (d := d.write p (plsDecrement pls)) (fun q hq => by
        by_cases hqp : q = p
        · simp [Daemon.write, hqp]
        · simpa [Daemon.write, hqp] using hl q (List.mem_cons_of_mem p hq))
      (fun q => by
        have hq := hcount q
        have hu := huses q
        rw [List.count_cons] at hq
        simp only [beq_iff_eq, eq_comm (a := p)] at hq
        omega)
    refine ⟨d', ?_, hholders, fun q => ?_⟩
    · rw [Daemon.releaseAll, deref_eq hpls]
      exact hd'
    · have h1 := hd'uses q
      have h2 := huses q
      rw [List.count_cons]
      simp only [beq_iff_eq, eq_comm (a := p)]
      omega

/-! ### One turn -/

/-- A client leaves the bus; an old owner without a name is no client. -/
lemma Counted.disconnected (h : Counted d) (client : Client) :
    ∃ d', d.handleUsecountHolderMsgs client [] = .ok d' ∧ Counted d' ∧ d'.playlists = d.playlists ∧
      ∀ c, d'.heldBy c = if c = client ∧ client ≠ [] then [] else d.heldBy c := by
  by_cases hname : client = []
  · refine ⟨d, by simp [Daemon.handleUsecountHolderMsgs, hname], h, rfl, fun c => ?_⟩
    rw [if_neg fun hc => hc.2 hname]
  have hkept : d.heldBy client = [] → ∀ c, d.heldBy c = if c = client ∧ client ≠ [] then [] else d.heldBy c := by
    intro hnil c
    split
    · rename_i hc
      rw [hc.1, hnil]
    · rfl
  cases hl : d.usecountHolders.lookup client with
  | none =>
    refine ⟨d, by simp [Daemon.handleUsecountHolderMsgs, hname, hl], h, rfl, hkept ?_⟩
    rw [Daemon.heldBy, hl]
    rfl
  | some pllist =>
    have hheld : d.heldBy client = pllist := by
      rw [Daemon.heldBy, hl]
      rfl
    cases pllist with
    | nil => exact ⟨d, by simp [Daemon.handleUsecountHolderMsgs, hname, hl], h, rfl, hkept hheld⟩
    | cons p pllist =>
      obtain ⟨d1, hd1, hholders, huses⟩ := releaseAll_counts (l := p :: pllist)
        (fun q hq => h.isSome_of_held (hheld ▸ hq))
        (fun q => by
          rw [h.counted, ← hheld]
          exact heldBy_count_le d client q)
      have hhandled : d.handleUsecountHolderMsgs client [] = .ok (d1.unregisterRequestor client) := by
        simp [Daemon.handleUsecountHolderMsgs, hname, hl, hd1, bind, Except.bind]
      obtain ⟨hreg, hid, -⟩ := handleUsecountHolderMsgs_registry h.registry hhandled
      have hheld1 : ∀ c, d1.heldBy c = d.heldBy c := fun c => by rw [Daemon.heldBy, hholders, Daemon.heldBy]
      refine ⟨_, hhandled, ⟨hreg, fun q => ?_⟩, hid, fun c => ?_⟩
      · have h1 := unregisterRequestor_holds d1 client q
        have h2 : d1.holds q = d.holds q := by rw [Daemon.holds, hholders, Daemon.holds]
        have h3 := huses q
        have h4 : (d1.unregisterRequestor client).uses q = d1.uses q := rfl
        rw [hheld1, hheld] at h1
        rw [h.counted] at h3
        omega
      · rw [unregisterRequestor_heldBy, hheld1]
        simp [hname]

lemma request_unaddressed {path : Bytes} (h : d.addressee path = none) (sender : Client) (m : Member) :
    ∃ sent, d.handle createObjectid (.playlist sender path m) = .ok (d, sent) := by
  unfold Daemon.addressee at h
  simp only [Daemon.handle, handlePlaylistRequest]
  by_cases h0 : atoi path = 0
  · exact ⟨_, if_pos h0⟩
  · rw [if_neg h0] at h ⊢
    exact ⟨_, by rw [h]⟩

lemma request_addressed {path : Bytes} {p : Ptr} {old : Pls} (h : d.addressee path = some p)
    (hold : d.heap p = some old) (sender : Client) :
    d.handle createObjectid (.playlist sender path .incrementUseCount) =
        .ok ((d.write p (plsIncrement old)).storeUsecountHolder sender p, [ackOrError sender none]) ∧
      d.handle createObjectid (.playlist sender path .decrementUseCount) =
        .ok ((d.write p (plsDecrement old)).removeUsecountHolder sender p, [ackOrError sender none]) := by
  unfold Daemon.addressee at h
  simp only [Daemon.handle, handlePlaylistRequest]
  by_cases h0 : atoi path = 0
  · rw [if_pos h0] at h
    cases h
  · rw [if_neg h0] at h
    simp only [if_neg h0, h, deref_eq hold, bind, Except.bind, and_self]

lemma Counted.heap_addressee (h : Counted d) {path : Bytes} {p : Ptr} (hp : d.addressee path = some p) :
    d.playlists.lookup (atoi path) = some p ∧ ∃ old, d.heap p = some old := by
  unfold Daemon.addressee at hp
  split at hp
  · cases hp
  · obtain ⟨old, hold, -⟩ := h.registry.deref_id hp
    exact ⟨hp, old, hold⟩

lemma Counted.incremented (h : Counted d) {sender : Client} {p : Ptr} {old : Pls} (hold : d.heap p = some old)
    (hroom : d.uses p + 1 < 2 ^ 32) : Counted ((d.write p (plsIncrement old)).storeUsecountHolder sender p) := by
  obtain ⟨hid, hname⟩ := plsIncrement_keys old
  refine ⟨(h.registry.write hold hid hname).congr rfl rfl rfl rfl, fun q => ?_⟩
  rw [storeUsecountHolder_holds, uses_update (d := d) (p := p) rfl]
  have hq := h.counted q
  have hsame : (d.write p (plsIncrement old)).holds q = d.holds q := rfl
  by_cases hqp : q = p
  · rw [hqp, uses_eq hold] at hq
    rw [uses_eq hold] at hroom
    rw [if_pos hqp, if_pos hqp, Option.map_some, Option.getD_some, plsIncrement_useCount hroom, hsame, hqp, hq]
  · rw [if_neg hqp, if_neg hqp, hsame, hq, Nat.add_zero]

lemma Counted.decremented (h : Counted d) {sender : Client} {p : Ptr} {old : Pls} (hold : d.heap p = some old)
    (hheld : p ∈ d.heldBy sender) : Counted ((d.write p (plsDecrement old)).removeUsecountHolder sender p) := by
  obtain ⟨hid, hname⟩ := plsDecrement_keys old
  obtain ⟨h1, h2, h3, h4, -⟩ := removeUsecountHolder_frame (d.write p (plsDecrement old)) sender p
  refine ⟨(h.registry.write hold hid hname).congr h1 h2 h3 h4, fun q => ?_⟩
  rw [uses_update (d := d) (p := p) h1]
  have hq := h.counted q
  have hwritten : p ∈ (d.write p (plsDecrement old)).heldBy sender := hheld
  have hholds := removeUsecountHolder_holds hwritten q
  have hsame : (d.write p (plsDecrement old)).holds q = d.holds q := rfl
  by_cases hqp : q = p
  · have hpos : 0 < old.useCount := by
      have hle := heldBy_count_le d sender p
      have hcount := List.count_pos_iff.mpr hheld
      rw [← uses_eq hold, h.counted]
      omega
    rw [if_pos hqp, hsame, ← hq, hqp, uses_eq hold] at hholds
    rw [if_pos hqp, Option.map_some, Option.getD_some, plsDecrement_useCount hpos, hqp]
    omega
  · rw [if_neg hqp] at hholds ⊢
    rw [hsame, ← hq] at hholds
    exact hholds.symm

/-- A turn that changes neither use counts nor holds. A playlist that comes or goes has no
users. -/
structure UsesKept (d d' : Daemon) : Prop where
  holders : d'.usecountHolders = d.usecountHolders
  uses : ∀ p, d'.uses p = d.uses p
  ids : ∀ id, d'.playlists.lookup id = d.playlists.lookup id ∨
    (∀ p ∈ d.playlists.lookup id, d.uses p = 0) ∧ ∀ p ∈ d'.playlists.lookup id, d.uses p = 0

lemma usesKept_of_update {p : Ptr} {x : Option Pls} (hheap : d'.heap = Function.update d.heap p x)
    (hx : (x.map Pls.useCount).getD 0 = d.uses p) (hholders : d'.usecountHolders = d.usecountHolders)
    (hids : ∀ id, d'.playlists.lookup id = d.playlists.lookup id ∨
      (∀ p ∈ d.playlists.lookup id, d.uses p = 0) ∧ ∀ p ∈ d'.playlists.lookup id, d.uses p = 0) :
    UsesKept d d' := by
  refine ⟨hholders, fun q => ?_, hids⟩
  rw [uses_update hheap]
  by_cases hq : q = p
  · rw [if_pos hq, hx, hq]
  · rw [if_neg hq]

/-- The events that change use counts. -/
def DaemonEvent.CountsUses : DaemonEvent → Prop
  | .playlist _ _ .incrementUseCount => True
  | .playlist _ _ .decrementUseCount => True
  | .disconnected _ => True
  | _ => False

lemma Turned.usesKept {e : DaemonEvent} {sent : List Sent} (h : Registry d)
    (hfresh : e.Creates → d.playlists.lookup d.lastId = none) (ht : Turned createObjectid d e d' sent)
    (he : ¬ e.CountsUses) : UsesKept d d' := by
  cases ht with
  | kept => exact ⟨rfl, fun _ => rfl, fun _ => Or.inl rfl⟩
  | edited _ hold hedit =>
    refine usesKept_of_update rfl ?_ rfl fun _ => Or.inl rfl
    rw [uses_eq hold]
    exact (handleEdit_identity hedit).useCount_eq
  | @played sender path m p old pls r _ _ hold hplay =>
    refine usesKept_of_update rfl ?_ rfl fun _ => Or.inl rfl
    have hid := handlePlay_identity sender (atoi path) old d.draws m
    rw [hplay] at hid
    rw [uses_eq hold]
    exact hid.useCount_eq
  | renamed _ hold =>
    refine usesKept_of_update rfl ?_ rfl fun _ => Or.inl rfl
    rw [uses_eq hold]
    rfl
  | incremented | decremented | released => exact absurd trivial he
  | @added _ pls _ hf =>
    obtain ⟨hid, -, hu⟩ := hf.identity
    have hbrk : d.uses d.brk = 0 := by rw [Daemon.uses, h.heap_brk]; rfl
    refine usesKept_of_update rfl (hu.trans hbrk.symm) rfl fun id => ?_
    by_cases hpls : id = pls.id
    · right
      rw [hpls]
      refine ⟨fun p hp => ?_, fun p hp => ?_⟩
      · rw [hid, hfresh hf.creates] at hp
        cases hp
      · have hl : (d.added pls).playlists.lookup pls.id = some d.brk := AList.lookup_insert _
        rw [hl] at hp
        cases hp
        exact hbrk
    · exact Or.inl (AList.lookup_insert_ne hpls)
  | @removed _ p pls hp hu =>
    have huses : d.uses p = 0 := by rw [uses_eq hp, hu]
    refine usesKept_of_update rfl huses.symm rfl fun id => ?_
    by_cases hpls : id = pls.id
    · right
      rw [hpls]
      refine ⟨fun q hq => ?_, fun q hq => ?_⟩
      · rw [h.byId.lookup hp] at hq
        cases hq
        exact huses
      · have hl : (d.removed p pls).playlists.lookup pls.id = none := AList.lookup_erase _ _
        rw [hl] at hq
        cases hq
    · exact Or.inl (AList.lookup_erase_ne hpls)

/-! ### Whole runs -/

/-- The increments that the clients have not taken back, as they count themselves: for each
client and id. -/
def outstandingAfter (d : Daemon) (outstanding : Client → Nat → Nat) : DaemonEvent → Client → Nat → Nat
  | .playlist sender path .incrementUseCount => fun c id =>
    if c = sender ∧ id = atoi path ∧ (d.addressee path).isSome then outstanding c id + 1 else outstanding c id
  | .playlist sender path .decrementUseCount => fun c id =>
    if c = sender ∧ id = atoi path ∧ (d.addressee path).isSome then outstanding c id - 1 else outstanding c id
  | .disconnected client => fun c id => if c = client ∧ client ≠ [] then 0 else outstanding c id
  | _ => outstanding

/-- Nobody gives back what the daemon does not have on record as held, and the 32 bits of a
use count and of the id counter are enough. -/
def KeepsCounts (d : Daemon) : DaemonEvent → Prop
  | .playlist _ path .incrementUseCount => ∀ p ∈ d.addressee path, d.uses p + 1 < 2 ^ 32
  | .playlist sender path .decrementUseCount => ∀ p ∈ d.addressee path, p ∈ d.heldBy sender
  | e => e.Creates → d.playlists.lookup d.lastId = none

/-- The daemon together with the outstanding increments. -/
def useCountStep (createObjectid : Bytes → Bytes) (s : Daemon × (Client → Nat → Nat)) (e : DaemonEvent) :
    Option (Daemon × (Client → Nat → Nat)) :=
  match s.1.handle createObjectid e with
  | .ok (d, _) => some (d, outstandingAfter s.1 s.2 e)
  | .error _ => none

abbrev UseCountReach (createObjectid : Bytes → Bytes) (d : Daemon) : Daemon × (Client → Nat → Nat) → Prop :=
  Reach (fun s e t => useCountStep createObjectid s e = some t) (fun s e => KeepsCounts s.1 e)
    (d, fun _ _ => 0)

/-- The clients' own counts agree with the daemon's table. -/
structure Agreed (s : Daemon × (Client → Nat → Nat)) : Prop where
  counted : Counted s.1
  agreed : ∀ c id, s.2 c id = s.1.holdsOn c id

lemma holdsOn_of_lookup {client : Client} {id : Nat} {p : Ptr} (hp : d.playlists.lookup id = some p) :
    d.holdsOn client id = (d.heldBy client).count p := by
  rw [Daemon.holdsOn, hp]
  rfl

lemma holdsOn_of_none {client : Client} {id : Nat} (hid : d.playlists.lookup id = none) :
    d.holdsOn client id = 0 := by
  rw [Daemon.holdsOn, hid]
  rfl

lemma Counted.holdsOn_of_unused (h : Counted d) {client : Client} {id : Nat}
    (hid : ∀ p ∈ d.playlists.lookup id, d.uses p = 0) : d.holdsOn client id = 0 := by
  cases hl : d.playlists.lookup id with
  | none => exact holdsOn_of_none hl
  | some p =>
    have hle := heldBy_count_le d client p
    rw [← h.counted, hid p hl] at hle
    rw [holdsOn_of_lookup hl]
    exact Nat.le_zero.mp hle

lemma holdsOn_change (h : Registry d) {sender : Client} {plid : Nat} {p : Ptr} {l : List Ptr}
    (hp : d.playlists.lookup plid = some p) (hheld : ∀ c, d'.heldBy c = if c = sender then l else d.heldBy c)
    (hids : d'.playlists = d.playlists)
    (hrest : ∀ q, q ≠ p → l.count q = (d.heldBy sender).count q) (client : Client) (id : Nat) :
    d'.holdsOn client id = if client = sender ∧ id = plid then l.count p else d.holdsOn client id := by
  by_cases hc : client = sender ∧ id = plid
  · obtain ⟨rfl, rfl⟩ := hc
    rw [if_pos ⟨rfl, rfl⟩, holdsOn_of_lookup (hids ▸ hp), hheld, if_pos rfl]
  · rw [if_neg hc]
    cases hl : d.playlists.lookup id with
    | none => rw [holdsOn_of_none hl, holdsOn_of_none (hids ▸ hl)]
    | some q =>
      rw [holdsOn_of_lookup hl, holdsOn_of_lookup (hids ▸ hl), hheld]
      by_cases hs : client = sender
      · rw [if_pos hs, hs]
        refine hrest q fun hqp => hc ⟨hs, ?_⟩
        -- two ids of one playlist
        obtain ⟨x, hx, hxid⟩ := (h.byId _ _).mp hl
        obtain ⟨y, hy, hyid⟩ := (h.byId _ _).mp hp
        rw [hqp, hy] at hx
        cases hx
        exact hxid.symm.trans hyid
      · rw [if_neg hs]

lemma KeepsCounts.fresh {e : DaemonEvent} (h : KeepsCounts d e) :
    e.Creates → d.playlists.lookup d.lastId = none := by
  intro hc
  cases e with
  | create | duplicate | imported => exact h hc
  | destroy | list | disconnected | playlist => exact absurd hc (by simp [DaemonEvent.Creates])

lemma useCountStep_of_ok {s : Daemon × (Client → Nat → Nat)} {e : DaemonEvent} {sent : List Sent}
    (h : s.1.handle createObjectid e = .ok (d', sent)) :
    useCountStep createObjectid s e = some (d', outstandingAfter s.1 s.2 e) := by
  rw [useCountStep, h]

lemma Agreed.of_usesKept {s t : Daemon × (Client → Nat → Nat)} (h : Agreed s) (hreg : Registry t.1)
    (hk : UsesKept s.1 t.1) (ho : t.2 = s.2) : Agreed t := by
  have hholds : ∀ p, t.1.holds p = s.1.holds p := fun p => by rw [Daemon.holds, hk.holders, Daemon.holds]
  have hheld : ∀ c, t.1.heldBy c = s.1.heldBy c := fun c => by rw [Daemon.heldBy, hk.holders, Daemon.heldBy]
  have hcounted : Counted t.1 := ⟨hreg, fun p => by rw [hk.uses, h.counted.counted, hholds]⟩
  refine ⟨hcounted, fun c id => ?_⟩
  rw [ho, h.agreed]
  rcases hk.ids id with hsame | ⟨hold, hnew⟩
  · rw [Daemon.holdsOn, Daemon.holdsOn, hsame, hheld]
  · rw [h.counted.holdsOn_of_unused hold, hcounted.holdsOn_of_unused fun p hp => by rw [hk.uses, hnew p hp]]

lemma Agreed.incremented {s t : Daemon × (Client → Nat → Nat)} {sender : Client} {path : Bytes} (h : Agreed s)
    (hk : KeepsCounts s.1 (.playlist sender path .incrementUseCount))
    (ht : useCountStep createObjectid s (.playlist sender path .incrementUseCount) = some t) : Agreed t := by
  cases hp : s.1.addressee path with
  | none =>
    obtain ⟨sent, hsent⟩ := request_unaddressed hp sender .incrementUseCount
    rw [useCountStep_of_ok hsent] at ht
    cases ht
    exact ⟨h.counted, fun c id => by simp [outstandingAfter, hp, h.agreed]⟩
  | some p =>
    obtain ⟨hlookup, old, hold⟩ := h.counted.heap_addressee hp
    rw [useCountStep_of_ok (request_addressed hp hold sender).1] at ht
    cases ht
    refine ⟨h.counted.incremented hold (hk p hp), fun c id => ?_⟩
    have hheld : ∀ c, ((s.1.write p (plsIncrement old)).storeUsecountHolder sender p).heldBy c =
        if c = sender then p :: s.1.heldBy sender else s.1.heldBy c :=
      fun c => storeUsecountHolder_heldBy _ sender c p
    have hchange := holdsOn_change h.counted.registry hlookup hheld rfl
      (fun q hq => List.count_cons_of_ne hq.symm) c id
    refine Eq.trans ?_ hchange.symm
    simp only [outstandingAfter, hp, Option.isSome_some, and_true, h.agreed]
    by_cases hc : c = sender ∧ id = atoi path
    · rw [if_pos hc, if_pos hc, hc.1, hc.2, holdsOn_of_lookup hlookup, List.count_cons_self]
    · rw [if_neg hc, if_neg hc]

lemma Agreed.decremented {s t : Daemon × (Client → Nat → Nat)} {sender : Client} {path : Bytes} (h : Agreed s)
    (hk : KeepsCounts s.1 (.playlist sender path .decrementUseCount))
    (ht : useCountStep createObjectid s (.playlist sender path .decrementUseCount) = some t) : Agreed t := by
  cases hp : s.1.addressee path with
  | none =>
    obtain ⟨sent, hsent⟩ := request_unaddressed hp sender .decrementUseCount
    rw [useCountStep_of_ok hsent] at ht
    cases ht
    exact ⟨h.counted, fun c id => by simp [outstandingAfter, hp, h.agreed]⟩
  | some p =>
    obtain ⟨hlookup, old, hold⟩ := h.counted.heap_addressee hp
    rw [useCountStep_of_ok (request_addressed hp hold sender).2] at ht
    cases ht
    have hids := (removeUsecountHolder_frame (s.1.write p (plsDecrement old)) sender p).2.2.1
    refine ⟨h.counted.decremented hold (hk p hp), fun c id => ?_⟩
    have hheld : ∀ c, ((s.1.write p (plsDecrement old)).removeUsecountHolder sender p).heldBy c =
        if c = sender then (s.1.heldBy sender).erase p else s.1.heldBy c :=
      fun c => removeUsecountHolder_heldBy _ sender c p
    have hchange := holdsOn_change h.counted.registry hlookup hheld hids
      (fun q hq => List.count_erase_of_ne hq) c id
    refine Eq.trans ?_ hchange.symm
    simp only [outstandingAfter, hp, Option.isSome_some, and_true, h.agreed]
    by_cases hc : c = sender ∧ id = atoi path
    · rw [if_pos hc, if_pos hc, hc.1, hc.2, holdsOn_of_lookup hlookup, List.count_erase_self]
    · rw [if_neg hc, if_neg hc]

lemma Agreed.disconnected {s t : Daemon × (Client → Nat → Nat)} {client : Client} (h : Agreed s)
    (ht : useCountStep createObjectid s (.disconnected client) = some t) : Agreed t := by
  obtain ⟨d', hd', hcounted, hids, hheld⟩ := h.counted.disconnected client
  have hhandle : s.1.handle createObjectid (.disconnected client) = .ok (d', []) := by
    simp only [Daemon.handle, hd', bind, Except.bind]
  rw [useCountStep_of_ok hhandle] at ht
  cases ht
  refine ⟨hcounted, fun c id => ?_⟩
  simp only [outstandingAfter, Daemon.holdsOn, hids, hheld, h.agreed]
  by_cases hc : c = client ∧ client ≠ []
  · rw [if_pos hc, if_pos hc]
    cases s.1.playlists.lookup id <;> rfl
  · rw [if_neg hc, if_neg hc]

lemma Agreed.step {s t : Daemon × (Client → Nat → Nat)} {e : DaemonEvent} (h : Agreed s)
    (hk : KeepsCounts s.1 e) (ht : useCountStep createObjectid s e = some t) : Agreed t := by
  by_cases he : e.CountsUses
  · cases e with
    | create | destroy | duplicate | list | imported => exact absurd he id
    | disconnected client => exact h.disconnected ht
    | playlist sender path m =>
      cases m with
      | edit | play | setName => exact absurd he id
      | incrementUseCount => exact h.incremented hk ht
      | decrementUseCount => exact h.decremented hk ht
  · unfold useCountStep at ht
    split at ht
    · rename_i d' sent hd
      cases ht
      have hturn := Turned.of_ok h.counted.registry hk.fresh hd
      refine h.of_usesKept (hturn.registry h.counted.registry hk.fresh)
        (hturn.usesKept h.counted.registry hk.fresh he) ?_
      cases e with
      | create | destroy | duplicate | list | imported => rfl
      | disconnected => exact absurd trivial he
      | playlist sender path m =>
        cases m with
        | edit | play | setName => rfl
        | incrementUseCount | decrementUseCount => exact absurd trivial he
    · cases ht

lemma Counted.no_useAfterFree (h : Counted d) {e : DaemonEvent} (hk : KeepsCounts d e) :
    d.handle createObjectid e ≠ .error .useAfterFree := by
  intro he
  have hout : Outcome createObjectid d e (d.handle createObjectid e) := handle_turned h.registry hk.fresh
  rw [he] at hout
  obtain ⟨client, rfl⟩ := hout
  obtain ⟨d', hd', -⟩ := h.disconnected client
  simp only [Daemon.handle, hd', bind, Except.bind] at he
  cases he

/-- As long as nobody gives back what it does not hold: the use count of a playlist is the
number of the holds on record, a client's holds never exceed it, a playlist with an
outstanding increment stays, what the lists mention is alive, and no turn touches a
destroyed playlist. -/
theorem useCounts_run (h : Registry d) (hholders : d.usecountHolders = ∅)
    (hzero : ∀ p pls, d.heap p = some pls → pls.useCount = 0) {s : Daemon × (Client → Nat → Nat)}
    (hr : UseCountReach createObjectid d s) :
    (∀ p pls, s.1.heap p = some pls → pls.useCount = s.1.holds p ∧
      ∀ client, (s.1.heldBy client).count p ≤ pls.useCount) ∧
      (∀ client id, 0 < s.2 client id → id ∈ s.1.playlists) ∧
      (∀ client, ∀ p ∈ s.1.heldBy client, ∃ id, s.1.playlists.lookup id = some p) ∧
      ∀ e, KeepsCounts s.1 e → s.1.handle createObjectid e ≠ .error .useAfterFree := by
  have hstart : Agreed (d, fun _ _ => 0) := by
    have hheld : ∀ c, d.heldBy c = [] := fun c => by rw [Daemon.heldBy, hholders]; rfl
    refine ⟨⟨h, fun p => ?_⟩, fun c id => ?_⟩
    · have hholds : d.holds p = 0 := by rw [Daemon.holds, hholders]; rfl
      rw [hholds, Daemon.uses]
      cases hp : d.heap p with
      | none => rfl
      | some pls => exact hzero p pls hp
    · rw [Daemon.holdsOn, hheld]
      cases d.playlists.lookup id <;> rfl
  have hinv : Agreed s := hr.invariant Agreed hstart fun _ _ _ hs hk ht => hs.step hk ht
  refine ⟨fun p pls hp => ?_, fun client id hpos => ?_, fun client p hp => ?_, fun e => hinv.counted.no_useAfterFree⟩
  · rw [← uses_eq hp, hinv.counted.counted]
    exact ⟨rfl, fun client => heldBy_count_le s.1 client p⟩
  · rw [hinv.agreed] at hpos
    rw [← AList.lookup_isSome]
    cases hl : s.1.playlists.lookup id with
    | some p => rfl
    | none =>
      rw [holdsOn_of_none hl] at hpos
      exact absurd hpos (Nat.lt_irrefl 0)
  · obtain ⟨pls, hpls⟩ := Option.isSome_iff_exists.mp (hinv.counted.isSome_of_held hp)
    exact ⟨pls.id, hinv.counted.registry.byId.lookup hpls⟩

/-- A daemon with one playlist, that nobody uses. -/
def oneList : Daemon :=
  Daemon.init.added
    { id := 1, name := [97], repeatMode := 0, shuffled := 0, useCount := 0, len := 0, alloc := 0, poolst := 0,
      vidx := nullArray, pidx := nullArray, iidx := nullArray, dirty := true }

lemma oneList_start : Registry oneList ∧ oneList.usecountHolders = ∅ ∧
    ∀ p pls, oneList.heap p = some pls → pls.useCount = 0 := by
  refine ⟨(registry_init 1).added rfl rfl (by decide), rfl, fun p pls hp => ?_⟩
  by_cases h0 : p = 0
  · subst h0
    cases hp
    rfl
  · rw [show oneList.heap p = none from Function.update_of_ne h0 _ _] at hp
    cases hp

/-- Two clients increment, one of them decrements again and cannot destroy the playlist. -/
theorem useCounts_run_twoClients : ∃ s, UseCountReach id oneList s ∧ 0 < s.2 [49] 1 ∧ 1 ∈ s.1.playlists := by
  have hreach : UseCountReach id oneList _ :=
    .next (e := .destroy [50] 1)
      (.next (e := .playlist [50] [49] .decrementUseCount)
        (.next (e := .playlist [50] [49] .incrementUseCount)
          (.next (e := .playlist [49] [49] .incrementUseCount) .refl
            (fun p hp => by cases hp; decide) rfl)
          (fun p hp => by cases hp; decide) rfl)
        (fun p hp => by cases hp; decide) rfl)
      (by intro h; cases h) rfl
  obtain ⟨h1, h2, h3⟩ := oneList_start
  obtain ⟨-, hstays, -⟩ := useCounts_run h1 h2 h3 hreach
  exact ⟨_, hreach, by decide, hstays [49] 1 (by decide)⟩

/-- One client increments, another one decrements and destroys the playlist: the first one
still has its increment outstanding and the daemon trips over its list when it leaves. -/
theorem useCounts_foreignDecrement : ∃ s : Daemon × (Client → Nat → Nat),
    Reach (fun s e t => useCountStep id s e = some t) (fun _ _ => True) (oneList, fun _ _ => 0) s ∧
      0 < s.2 [49] 1 ∧ 1 ∉ s.1.playlists ∧ (∃ p ∈ s.1.heldBy [49], s.1.heap p = none) ∧
      s.1.handle id (.disconnected [49]) = .error .useAfterFree := by
  refine ⟨_, .next (e := .destroy [50] 1)
    (.next (e := .playlist [50] [49] .decrementUseCount)
      (.next (e := .playlist [49] [49] .incrementUseCount) .refl trivial rfl) trivial rfl) trivial rfl, ?_⟩
  exact ⟨by decide, by decide, ⟨0, by decide, rfl⟩, rfl⟩

end MafwShared
