import MafwShared.Proofs.RegistryRuns
import MafwShared.Proofs.SamePlay
import MafwShared.Proofs.WellFormed

/-!
# Duplicated playlists

All playlists of a daemon are well formed along its runs, duplicates included. A duplicate
takes over everything of its source but the play position, which the source code assigns to
itself: it stays at the start.
-/

namespace MafwShared
open CLib

variable {createObjectid : Bytes → Bytes} {d d' : Daemon}

/-! ### The daemon's playlists are well formed -/

/-- The operation of `aplaylist.c` behind an edit. -/
def EditMember.op (pls : Pls) : EditMember → PlsOp
  | .insertItem index objectids => .inserts index objectids
  | .appendItem objectids => .inserts pls.len objectids
  | .removeItem index => .remove index
  | .move src dst => .move src dst
  | .clear => .clear

/-- No edit removes a committed item in front of a pool, and no list grows to 2^31 items. -/
def DaemonEvent.Keeps (d : Daemon) : DaemonEvent → Prop
  | .playlist _ path (.edit m) =>
    ∀ pls ∈ d.playlistOf (atoi path), (m.op pls).Fits (pls, d.draws) ∧ (m.op pls).KeepsPool (pls, d.draws)
  | .imported data none => data.urilist.length < 2 ^ 31
  | _ => True

instance (d : Daemon) : (e : DaemonEvent) → Decidable (e.Keeps d)
  | .playlist _ path (.edit m) => inferInstanceAs (Decidable (∀ pls ∈ d.playlistOf (atoi path),
      (m.op pls).Fits (pls, d.draws) ∧ (m.op pls).KeepsPool (pls, d.draws)))
  | .imported data none => inferInstanceAs (Decidable (data.urilist.length < 2 ^ 31))
  | .create _ _ | .destroy _ _ | .duplicate _ _ _ | .list _ _ | .imported _ (some _) | .disconnected _
  | .playlist _ _ (.play _) | .playlist _ _ (.setName _) | .playlist _ _ .incrementUseCount
  | .playlist _ _ .decrementUseCount => .isTrue trivial

def Daemon.WellFormed (d : Daemon) : Prop := ∀ p pls, d.heap p = some pls → pls.WF

lemma Daemon.WellFormed.update (h : d.WellFormed) {p : Ptr} {pls : Pls} (hwf : pls.WF)
    (hheap : d'.heap = Function.update d.heap p (some pls)) : d'.WellFormed := fun q x hx => by
  rw [hheap] at hx
  rcases of_update_some hx with ⟨-, rfl⟩ | ⟨-, hx⟩
  · exact hwf
  · exact h q x hx

lemma handleEdit_apply {sender : Client} {plid : Nat} {p q : Pls} {m : EditMember} {sent : List Sent}
    (h : handleEdit sender plid p m = some (q, sent)) (r : Draws) : (m.op p).apply (p, r) = some (q, r) := by
  cases m with
  | insertItem index objectids =>
    obtain ⟨⟨b, q'⟩, hins, hq⟩ := Option.map_eq_some_iff.mp h
    obtain ⟨rfl, -⟩ := Prod.mk.inj hq
    simp only [EditMember.op, PlsOp.apply, hins, Option.map_some]
  | appendItem objectids =>
    obtain ⟨⟨b, q'⟩, hins, hq⟩ := Option.map_eq_some_iff.mp h
    obtain ⟨rfl, -⟩ := Prod.mk.inj hq
    have hins' : plsInserts p p.len objectids = some (b, q') := hins
    simp only [EditMember.op, PlsOp.apply, hins', Option.map_some]
  | removeItem index =>
    unfold handleEdit at h
    dsimp only at h
    split at h
    · cases h
      rfl
    · cases h
      rfl
  | move src dst =>
    unfold handleEdit at h
    dsimp only at h
    split at h
    · cases h
      rfl
    · cases h
      rfl
  | clear =>
    cases h
    rfl

lemma handlePlay_wf {p : Pls} (h : p.WF) (sender : Client) (plid : Nat) (r : Draws) (m : PlayMember) :
    (handlePlay sender plid p r m).1.WF := by
  cases m with
  | getName | getRepeat | isShuffled | getItem | getSize => exact h
  | setRepeat => exact wf_congr h rfl rfl rfl rfl rfl rfl
  | shuffle => exact plsShuffle_wf h
  | unshuffle => exact plsUnshuffle_wf h
  | getItems startIndex endIndex =>
    simp only [handlePlay]
    split <;> exact h
  | getStarting index => exact (plsGetStarting_kept (s := ⟨p, r, index, none⟩) h).wf
  | getLast index => exact (plsGetLast_kept (s := ⟨p, r, index, none⟩) h).wf
  | getNext index => exact (plsGetNext_kept (s := ⟨p, r, index, none⟩) h).wf
  | getPrev index => exact (plsGetPrev_kept (s := ⟨p, r, index, none⟩) h).wf

lemma appendAll_wf {oids : List Bytes} {p q : Pls} (h : p.WF) (hsize : p.len + oids.length ≤ 2 ^ 31)
    (hq : appendAll oids p = some q) : q.WF := by
  induction oids generalizing p with
  | nil =>
    cases hq
    exact h
  | cons oid oids ih =>
    rw [List.length_cons] at hsize
    have hone : p.len + [oid].length ≤ 2 ^ 31 := by
      rw [List.length_singleton]
      omega
    obtain ⟨b, p', hp', hwf⟩ := plsInserts_wf h p.len hone
    obtain ⟨q', hq', -, hins⟩ := plsInserts_accepted (List.cons_ne_nil oid []) le_rfl h.len_le hone
    rw [hq'] at hp'
    cases hp'
    have hlen : p'.len = p.len + 1 := hins.len_eq
    rw [appendAll, plsAppend, hq'] at hq
    exact ih hwf (by omega) hq

/-! ### The fields of a duplicate -/

lemma duplicateFields_content (new src : Pls) :
    SameContent { src with poolst := new.poolst } (duplicateFields new src) := by
  unfold duplicateFields
  dsimp only
  by_cases hs : src.shuffled = 0
  · rw [if_neg (not_not.mpr hs)]
    exact ⟨rfl, rfl, rfl, rfl, forUpto_copy _ _ _, fun h => absurd hs h, fun h => absurd hs h⟩
  · rw [if_pos hs]
    exact ⟨rfl, rfl, rfl, rfl, forUpto_copy _ _ _, fun _ => forUpto_copy _ _ _, fun _ => forUpto_copy _ _ _⟩

lemma duplicateFields_alloc (new src : Pls) : (duplicateFields new src).alloc = src.alloc := by
  unfold duplicateFields
  dsimp only
  split <;> rfl

lemma duplicateFields_wf {new src : Pls} (h : src.WF) (hnew : new.poolst = 0) : (duplicateFields new src).WF := by
  have hsame := duplicateFields_content new src
  have hlen := hsame.len_eq
  have hpool := hsame.poolst_eq
  dsimp only at hlen hpool
  refine wf_of_ordered ?_ fun hs => ?_
  · rw [hlen, duplicateFields_alloc]
    exact h.len_le
  · rw [hsame.shuffled_eq] at hs
    refine ⟨by omega, ?_⟩
    rw [hlen]
    exact (Pls.WF.ordered h hs).pair.congr (hsame.pidx hs) (hsame.iidx hs)

/-! ### One turn -/

lemma handleUsecountHolderMsgs_wellFormed {client newname : Client} (h : d.WellFormed)
    (hr : d.handleUsecountHolderMsgs client newname = .ok d') : d'.WellFormed := by
  apply handleUsecountHolderMsgs_invariant Daemon.WellFormed ?_ ?_ h hr
  · intro d1 p pls h1 hp
    have hwf : (plsDecrement pls).WF := wf_congr (h1 p pls hp) rfl rfl rfl rfl rfl rfl
    exact h1.update hwf rfl
  · intro d1 c h1
    exact h1

lemma Fresh.wf {e : DaemonEvent} {pls : Pls} (h : d.WellFormed) (hk : e.Keeps d)
    (hf : Fresh createObjectid d e pls) : pls.WF := by
  cases hf with
  | created hnew => exact plsNew_wf hnew
  | duplicated _ hsrc hnew => exact duplicateFields_wf (h _ _ hsrc) (plsNew_fields hnew).2.2
  | @imported data name new _ _ hnew hall =>
    have hsize : data.urilist.length < 2 ^ 31 := hk
    refine appendAll_wf (plsNew_wf hnew) ?_ hall
    rw [(plsNew_fields hnew).2.1, Nat.zero_add]
    split
    · exact hsize.le
    · rw [List.length_map]
      exact hsize.le

lemma Turned.wellFormed {e : DaemonEvent} {sent : List Sent} (h : d.WellFormed) (hk : e.Keeps d)
    (ht : Turned createObjectid d e d' sent) : d'.WellFormed := by
  cases ht with
  | kept => exact h
  | @edited sender path m p old pls sent hl hold hedit =>
    have hof : old ∈ d.playlistOf (atoi path) := by
      rw [Daemon.playlistOf, hl]
      exact hold
    obtain ⟨hfit, hpool⟩ := hk old hof
    obtain ⟨u, hu, hwf⟩ := PlsOp.apply_wf (s := (old, d.draws)) (h p old hold) (m.op old) hfit hpool
    rw [handleEdit_apply hedit d.draws] at hu
    cases hu
    exact h.update hwf rfl
  | @played sender path m p old pls r sent hl hold hplay =>
    have hwf := handlePlay_wf (h p old hold) sender (atoi path) d.draws m
    rw [hplay] at hwf
    exact h.update hwf rfl
  | @renamed sender path name p old hl hold =>
    have hwf : ({ old with name := name, dirty := true } : Pls).WF :=
      wf_congr (h p old hold) rfl rfl rfl rfl rfl rfl
    exact h.update hwf rfl
  | @incremented sender path p old hl hold =>
    have hwf : (plsIncrement old).WF := wf_congr (h p old hold) rfl rfl rfl rfl rfl rfl
    exact h.update hwf rfl
  | @decremented sender path p old hl hold =>
    have hwf : (plsDecrement old).WF := wf_congr (h p old hold) rfl rfl rfl rfl rfl rfl
    exact h.update hwf (removeUsecountHolder_frame _ _ _).1
  | released hr => exact handleUsecountHolderMsgs_wellFormed h hr
  | added hf => exact h.update (hf.wf h hk) rfl
  | removed hp => exact fun q x hx => h q x (of_update_none hx).2

/-! ### Requests on one of two playlists -/

/-- No request on playlist `i` changes playlist `j`. -/
def RequestsApart (createObjectid : Bytes → Bytes) (d : Daemon) (i j : Nat) : Prop :=
  ∀ sender path m d' sent, atoi path = i → d.handle createObjectid (.playlist sender path m) = .ok (d', sent) →
    d'.playlistOf j = d.playlistOf j

lemma playlistOf_update (h : Registry d) {i j : Nat} (hne : i ≠ j) {p : Ptr} (hp : d.playlists.lookup i = some p)
    {x : Option Pls} (hheap : d'.heap = Function.update d.heap p x) (hids : d'.playlists = d.playlists) :
    d'.playlistOf j = d.playlistOf j := by
  unfold Daemon.playlistOf
  rw [hids, hheap]
  cases hj : d.playlists.lookup j with
  | none => rfl
  | some q =>
    have hqp : q ≠ p := by
      rintro rfl
      obtain ⟨pls, hpls, -, hid⟩ := h.deref_id hp
      obtain ⟨pls', hpls', -, hid'⟩ := h.deref_id hj
      rw [hpls] at hpls'
      cases hpls'
      exact hne (hid.symm.trans hid')
    exact Function.update_of_ne hqp _ _

lemma requestsApart (h : Registry d) {i j : Nat} (hne : i ≠ j) : RequestsApart createObjectid d i j := by
  rintro sender path m d' sent rfl he
  have hturn := Turned.of_ok (e := .playlist sender path m) h (fun hc => False.elim hc) he
  cases hturn with
  | kept => rfl
  | edited hl => exact playlistOf_update h hne hl rfl rfl
  | played hl => exact playlistOf_update h hne hl rfl rfl
  | renamed hl => exact playlistOf_update h hne hl rfl rfl
  | incremented hl => exact playlistOf_update h hne hl rfl rfl
  | @decremented _ _ p old hl =>
    obtain ⟨hheap, -, hids, -⟩ := removeUsecountHolder_frame (d.write p (plsDecrement old)) sender p
    exact playlistOf_update h hne hl hheap hids
  | added hf => cases hf

/-! ### Duplicates along runs -/

lemma playlistOf_added (h : Registry d) {pls : Pls} (hfresh : d.playlists.lookup pls.id = none) :
    (d.added pls).playlistOf pls.id = some pls ∧
      ∀ id old, d.playlistOf id = some old → (d.added pls).playlistOf id = some old := by
  constructor
  · simp only [Daemon.playlistOf, Daemon.added, AList.lookup_insert, Option.bind_some, Function.update_self]
  · intro id old hold
    obtain ⟨p, hp, hheap⟩ := Option.bind_eq_some_iff.mp hold
    have hid : id ≠ pls.id := by
      rintro rfl
      rw [hfresh] at hp
      cases hp
    have hbrk : p ≠ d.brk := by
      rintro rfl
      rw [h.heap_brk] at hheap
      cases hheap
    simp only [Daemon.playlistOf, Daemon.added, AList.lookup_insert_ne hid, hp, Option.bind_some,
      Function.update_of_ne hbrk, hheap]

/-- What a duplicate promises: the fields of its source, the same items from the same calls, and
from then on a life of its own. -/
structure FaithfulCopy (createObjectid : Bytes → Bytes) (d : Daemon) (srcId newId : Nat) (src new : Pls) : Prop where
  content : SameContent src new
  plays : ∀ calls r, navResults calls new r = navResults calls src r
  apart : ∀ t, RegistryReach createObjectid d t → d.lastId + t.2.length < 2 ^ 32 →
    RequestsApart createObjectid t.1 srcId newId ∧ RequestsApart createObjectid t.1 newId srcId

/-- The states of runs that keep the pools. -/
abbrev KeptReach (createObjectid : Bytes → Bytes) (d : Daemon) : Daemon × List Nat → Prop :=
  Reach (fun s e t => registryStep createObjectid s e = some t) (fun s e => e.Keeps s.1) (d, [])

lemma Daemon.WellFormed.run (h : Registry d) (hlast : ∀ id ∈ d.playlists, id < d.lastId) (hwf : d.WellFormed)
    {s : Daemon × List Nat} (hr : KeptReach createObjectid d s) (hcount : d.lastId + s.2.length < 2 ^ 32) :
    s.1.WellFormed := by
  induction hr with
  | refl => exact hwf
  | @next s t e hs hk hstep ih =>
    obtain ⟨sent, he, hlog⟩ := registryStep_eq hstep
    have hlen : s.2.length ≤ t.2.length := by
      rw [hlog, List.length_append]
      exact Nat.le_add_right _ _
    have hin := InStep.of_reach h hlast hs (by omega)
    exact (Turned.of_ok hin.registry (fun _ => hin.fresh) he).wellFormed (ih (by omega)) hk

/-- In every state that a run reaches from a consistent one, edits keeping the pools: the playlist
that an accepted duplicate request creates is a faithful copy exactly if nothing of the source was
played. -/
theorem duplicate_faithful (h : Registry d) (hlast : ∀ id ∈ d.playlists, id < d.lastId) (hwf : d.WellFormed)
    {s : Daemon × List Nat} (hr : KeptReach createObjectid d s) (hcount : d.lastId + s.2.length + 1 < 2 ^ 32)
    {sender : Client} {srcId : Nat} {newName : Bytes} {sent : List Sent}
    (he : s.1.handle createObjectid (.duplicate sender srcId newName) = .ok (d', sent))
    (hacc : createdIds sent ≠ []) :
    ∃ src new, s.1.playlistOf srcId = some src ∧ d'.playlistOf srcId = some src ∧
      d'.playlistOf s.1.lastId = some new ∧
      (FaithfulCopy createObjectid d' srcId s.1.lastId src new ↔ src.poolst = 0) := by
  have hin := InStep.of_reach h hlast hr (by omega)
  have hsound := hwf.run h hlast hr (by omega)
  have hturn := Turned.of_ok hin.registry (fun _ => hin.fresh) he
  cases hturn with
  | kept hq => exact absurd hq.1 hacc
  | @added _ pls _ hf _ hcreated _ =>
    have hid := hf.identity.1
    have hfresh : s.1.playlists.lookup pls.id = none := by
      rw [hid]
      exact hin.fresh
    obtain ⟨hnew, hold⟩ := playlistOf_added hin.registry hfresh
    rw [hid] at hnew
    cases hf with
    | @duplicated _ _ _ p src new hl hsrc hplsNew =>
      have hof : s.1.playlistOf srcId = some src := by
        rw [Daemon.playlistOf, hl]
        exact hsrc
      have hsame := duplicateFields_content new src
      rw [(plsNew_fields hplsNew).2.2] at hsame
      refine ⟨src, duplicateFields new src, hof, hold srcId src hof, hnew, fun hc => ?_, fun hpool => ?_⟩
      · exact hc.content.poolst_eq.symm.trans hsame.poolst_eq
      · have hsame' : SameContent src (duplicateFields new src) := by
          rw [← hpool] at hsame
          exact hsame
        refine ⟨hsame', hsame'.navResults (hsound p src hsrc), fun t ht hlt => ?_⟩
        have hstep : registryStep createObjectid s (.duplicate sender srcId newName) =
            some (s.1.added (duplicateFields new src), s.2 ++ createdIds sent) := by
          rw [registryStep, he]
        have hlen : (s.2 ++ createdIds sent).length = s.2.length + 1 := by
          rw [hcreated, List.length_append]
          rfl
        have hin' := hin.step (by dsimp only; omega) hstep
        have hlater := (InStep.of_reach hin'.registry hin'.below ht hlt).registry
        have hne : srcId ≠ s.1.lastId := by
          rintro rfl
          rw [hin.fresh] at hl
          cases hl
        exact ⟨requestsApart hlater hne, requestsApart hlater hne.symm⟩

/-- A playlist of two items is shuffled, and then `calls` are made. -/
def shuffledPair (calls : List PlayMember) : Option (Daemon × List Nat) :=
  runEvents (registryStep id) (fun s e => e.Keeps s.1) (Daemon.init, [])
    ([.create [49] [112], .playlist [49] [49] (.edit (.appendItem [[97], [98]])),
        .playlist [49] [49] (.play .shuffle)] ++ calls.map fun m => .playlist [49] [49] (.play m))

/-- A shuffled playlist of which nothing was played yet. -/
theorem duplicate_faithful_unplayed : ∃ s d' src new, KeptReach id Daemon.init s ∧
    s.1.playlistOf 1 = some src ∧ src.shuffled ≠ 0 ∧ FaithfulCopy id d' 1 2 src new := by
  have hrun : shuffledPair [] = some ((shuffledPair []).get rfl) := rfl
  have hreach := reach_of_runEvents hrun
  have hinit : Daemon.init.WellFormed := fun p pls hp => (by cases hp)
  have hdup : ((shuffledPair []).get rfl).1.handle id (.duplicate [50] 1 [113]) =
      .ok (_, [signalPlaylistCreated 2, .reply [50] [.uint32 2]]) := rfl
  have hstart : (((shuffledPair []).get rfl).1.playlistOf 1).map (fun p => (p.poolst, p.shuffled)) = some (0, 1) := by
    decide +kernel
  obtain ⟨src, new, hsrc, -, -, hiff⟩ :=
    duplicate_faithful (registry_init 1) (by decide) hinit hreach (by decide) hdup (by decide)
  rw [hsrc, Option.map_some, Option.some.injEq, Prod.mk.injEq] at hstart
  obtain ⟨hpool, hshuf⟩ := hstart
  exact ⟨_, _, src, new, hreach, hsrc, by rw [hshuf]; decide, hiff.mpr hpool⟩

/-- The first item drawn is played in the source, and the duplicate draws another one. -/
theorem duplicate_loses_position : ∃ s d' sent src new, KeptReach id Daemon.init s ∧
    s.1.handle id (.duplicate [49] 1 [113]) = .ok (d', sent) ∧ s.1.playlistOf 1 = some src ∧
    d'.playlistOf 2 = some new ∧ src.poolst = 1 ∧ new.poolst = 0 ∧
    navResults [(.getStarting, 0, none)] src (fun _ => 1) = [(true, 0, some [97])] ∧
    navResults [(.getStarting, 0, none)] new (fun _ => 1) = [(true, 1, some [98])] ∧
    ¬FaithfulCopy id d' 1 2 src new := by
  have hrun : shuffledPair [.getStarting 0] = some ((shuffledPair [.getStarting 0]).get rfl) := rfl
  refine ⟨_, _, _, _, _, reach_of_runEvents hrun, rfl, rfl, rfl, ?_, ?_, ?_, ?_, fun h => ?_⟩
  · decide +kernel
  · decide +kernel
  · decide +kernel
  · decide +kernel
  · exact absurd h.content.poolst_eq (by decide +kernel)

end MafwShared
