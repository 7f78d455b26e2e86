import MafwShared.Lib.Succession
import MafwShared.Proofs.OnePlaylist

/-!
# One play order for everybody

A shuffled playlist draws its play order an item at a time, when somebody asks for one, and every
client of the daemon plays the same list. What they are answered is what a player would answer that
has drawn one order for the whole list beforehand and only walks about in it.
-/

namespace MafwShared
open CLib

variable {p q : Pls} {s t : Nav} {i k : Nat}

/-! ### The play order -/

/-- `q` is `p` with more of its play order decided. -/
structure PlaysOn (p q : Pls) : Prop where
  len_eq : q.len = p.len
  shuffled_eq : q.shuffled = p.shuffled
  repeatMode_eq : q.repeatMode = p.repeatMode
  vidx_eq : q.vidx = p.vidx
  poolst_le : p.poolst ≤ q.poolst
  history : ∀ i < p.poolst, q.pidx i = p.pidx i

lemma PlaysOn.refl (p : Pls) : PlaysOn p p := ⟨rfl, rfl, rfl, rfl, le_rfl, fun _ _ => rfl⟩

lemma PlaysOn.trans {r : Pls} (h : PlaysOn p q) (h' : PlaysOn q r) : PlaysOn p r :=
  ⟨h'.len_eq.trans h.len_eq, h'.shuffled_eq.trans h.shuffled_eq, h'.repeatMode_eq.trans h.repeatMode_eq,
    h'.vidx_eq.trans h.vidx_eq, h.poolst_le.trans h'.poolst_le,
    fun i hi => (h'.history i (hi.trans_le h.poolst_le)).trans (h.history i hi)⟩

lemma Redrawn.playsOn (h : Redrawn p q) : PlaysOn p q :=
  ⟨h.len_eq, h.shuffled_eq, h.repeatMode_eq, h.vidx_eq, h.poolst_le, h.history⟩

/-- The items in the order they are played in, as far as it is decided. -/
def Pls.playOrder (p : Pls) : List Nat := if p.shuffled = 0 then List.range p.len else cells p.pidx p.len

lemma playOrder_perm (h : p.WF) : p.playOrder.Perm (List.range p.len) := by
  unfold Pls.playOrder
  split
  · exact List.Perm.refl _
  · rename_i hs
    exact h.perm hs

lemma playOrder_nodup (h : p.WF) : p.playOrder.Nodup := (playOrder_perm h).nodup_iff.mpr List.nodup_range

lemma mem_playOrder (h : p.WF) : i ∈ p.playOrder ↔ i < p.len := by
  rw [(playOrder_perm h).mem_iff, List.mem_range]

lemma length_playOrder (h : p.WF) : p.playOrder.length = p.len := by
  rw [(playOrder_perm h).length_eq, List.length_range]

lemma playOrder_unshuffled (hs : p.shuffled = 0) (hi : i < p.len) : p.playOrder[i]? = some i := by
  rw [Pls.playOrder, if_pos hs, List.getElem?_range hi]

lemma playOrder_committed (h : p.WF) (hr : PlaysOn p q) (hs : p.shuffled ≠ 0) (hk : k < p.poolst) :
    q.playOrder[k]? = some (p.pidx k) := by
  have hlt := hk.trans_le (h.poolst_le hs)
  rw [Pls.playOrder, hr.shuffled_eq, if_neg hs, hr.len_eq, getElem?_cells _ hlt, hr.history k hk]

/-! ### The eager player -/

/-- The item that a call finds in a play order. -/
def NavCall.find (order : List Nat) (wrap : Bool) (index : Nat) : NavCall → Option Nat
  | getStarting => order.head?
  | getLast => order.getLast?
  | getNext => following order wrap index
  | getPrev => preceding order wrap index

def Pls.repeats (p : Pls) : Bool := p.repeatMode ≠ 0

/-- The item that a call has found. -/
def foundItem (u : Bool × Nav) : Option Nat := if u.1 then some u.2.index else none

/-! ### One call -/

lemma plsGetStarting_found (h : s.pls.WF) (hq : q.WF) (hr : PlaysOn (plsGetStarting s).pls q) :
    foundItem (decide (s.pls.len ≠ 0), plsGetStarting s) = q.playOrder.head? := by
  have hstep := plsGetStarting_step s
  generalize plsGetStarting s = t at hstep hr
  have hlen := hr.len_eq.trans hstep.redrawn.len_eq
  have hwf := (hstep.kept h).wf
  rw [List.head?_eq_getElem?]
  cases hstep with
  | empty hempty =>
    rw [List.getElem?_eq_none (by rw [length_playOrder hq, hlen, hempty]), hempty]
    rfl
  | first hne hs =>
    rw [playOrder_unshuffled (hr.shuffled_eq.trans hs) (by omega), decide_eq_true hne]
    rfl
  | drawn hne hs hpool =>
    have hnew := Nav.shuffle_poolst (h.poolst_le hs) 1
    have hcommitted : 0 < ((s.shuffle 1).report ((s.shuffle 1).pls.pidx 0)).pls.poolst := by
      change 0 < (s.shuffle 1).pls.poolst
      omega
    rw [playOrder_committed hwf hr ((Nav.shuffle_kept h hs 1).shuffled hs) hcommitted, decide_eq_true hne]
    rfl
  | played hne hs hpool =>
    rw [playOrder_committed hwf hr hs (Nat.pos_of_ne_zero hpool), decide_eq_true hne]
    rfl

lemma plsGetLast_found (h : s.pls.WF) (hq : q.WF) (hr : PlaysOn (plsGetLast s).pls q) :
    foundItem (decide (s.pls.len ≠ 0), plsGetLast s) = q.playOrder.getLast? := by
  have hstep := plsGetLast_step s
  generalize plsGetLast s = t at hstep hr
  have hlen := hr.len_eq.trans hstep.redrawn.len_eq
  have hwf := (hstep.kept h).wf
  rw [List.getLast?_eq_getElem?, length_playOrder hq, hlen]
  cases hstep with
  | empty hempty =>
    rw [List.getElem?_eq_none (by rw [length_playOrder hq, hlen]; omega), hempty]
    rfl
  | last hne hs =>
    rw [playOrder_unshuffled (hr.shuffled_eq.trans hs) (by omega), decide_eq_true hne]
    rfl
  | drawn hne hs =>
    have hnew := Nav.shuffle_poolst (h.poolst_le hs) s.pls.len
    have hslen := (Nav.shuffle_kept h hs s.pls.len).redrawn.len_eq
    have hcommitted : s.pls.len - 1 < ((s.shuffle s.pls.len).report
        ((s.shuffle s.pls.len).pls.pidx ((s.shuffle s.pls.len).pls.len - 1))).pls.poolst := by
      change s.pls.len - 1 < (s.shuffle s.pls.len).pls.poolst
      omega
    rw [playOrder_committed hwf hr ((Nav.shuffle_kept h hs _).shuffled hs) hcommitted, decide_eq_true hne, hslen]
    rfl

lemma playOrder_commit (h : s.pls.WF) (hs : s.pls.shuffled ≠ 0) (hi : s.index < s.pls.len)
    (hr : PlaysOn s.commit.pls q) : q.playOrder[s.commit.pls.iidx s.index]? = some s.index := by
  have hc := Nav.commit_kept h hs hi
  rw [playOrder_committed hc.wf hr (hc.shuffled hs) (Nav.commit_iidx_lt h hs hi), Nav.commit_cell h hs hi]

lemma plsGetNext_found (h : s.pls.WF) (hq : q.WF) (hr : PlaysOn (plsGetNext s).2.pls q) :
    foundItem (plsGetNext s) = following q.playOrder s.pls.repeats s.index := by
  have hstep := plsGetNext_step s
  generalize plsGetNext s = u at hstep hr
  have hlen := hr.len_eq.trans hstep.redrawn.len_eq
  have hwf := (hstep.kept h).wf
  have hnodup := playOrder_nodup hq
  have hsize := length_playOrder hq
  cases hstep with
  | outside hi =>
    rw [following_of_notMem (by rw [mem_playOrder hq]; omega)]
    rfl
  | following hs hi =>
    have hs' := hr.shuffled_eq.trans hs
    rw [following_getElem? hnodup (playOrder_unshuffled hs' (by omega)) (by omega), playOrder_unshuffled hs' (by omega)]
    rfl
  | around hs hi hrep =>
    have hs' := hr.shuffled_eq.trans hs
    rw [following_last hnodup (playOrder_unshuffled hs' (by omega)) (by omega), List.head?_eq_getElem?,
      playOrder_unshuffled hs' (by omega), Pls.repeats, decide_eq_true hrep]
    rfl
  | ended hs hi hrep =>
    have hs' := hr.shuffled_eq.trans hs
    rw [following_last hnodup (playOrder_unshuffled hs' (by omega)) (by omega), Pls.repeats,
      decide_eq_false (not_not.mpr hrep)]
    rfl
  | played hs hi hnext =>
    have hcur := playOrder_committed h hr hs (Nat.lt_of_succ_lt hnext)
    have hle := h.poolst_le hs
    rw [(Pls.WF.ordered h hs).pair.right hi] at hcur
    rw [following_getElem? hnodup hcur (by omega), playOrder_committed h hr hs hnext]
    rfl
  | drawn hs hi hlast hpool =>
    have hc := Nav.commit_kept h hs hi
    have hd := Nav.shuffle_kept hc.wf (hc.shuffled hs) 1
    have hcur := playOrder_commit h hs hi (hd.redrawn.playsOn.trans hr)
    have hpos := Nav.commit_iidx_last h hs hi (not_lt.mpr hlast)
    have hnew := Nav.shuffle_poolst (s := s.commit) hpool.le 1
    have hclen := hc.redrawn.len_eq
    have hend : (s.commit.shuffle 1).pls.poolst - 1 = s.commit.pls.iidx s.index + 1 := by omega
    have hdrawn : s.commit.pls.iidx s.index + 1 < (s.commit.shuffle 1).pls.poolst := by omega
    rw [following_getElem? hnodup hcur (by omega),
      playOrder_committed hd.wf hr (hd.shuffled (hc.shuffled hs)) hdrawn, hend]
    rfl
  | replayed hs hi hlast hpool hrep =>
    have hc := Nav.commit_kept h hs hi
    have hcur := playOrder_commit h hs hi hr
    have hpos := Nav.commit_iidx_last h hs hi (not_lt.mpr hlast)
    have hle := hc.wf.poolst_le (hc.shuffled hs)
    have hclen := hc.redrawn.len_eq
    have hrep' : s.pls.repeatMode ≠ 0 := hc.redrawn.repeatMode_eq ▸ hrep
    rw [following_last hnodup hcur (by omega), List.head?_eq_getElem?,
      playOrder_committed hc.wf hr (hc.shuffled hs) (by omega), Pls.repeats, decide_eq_true hrep']
    rfl
  | exhausted hs hi hlast hpool hrep =>
    have hc := Nav.commit_kept h hs hi
    have hcur := playOrder_commit h hs hi hr
    have hpos := Nav.commit_iidx_last h hs hi (not_lt.mpr hlast)
    have hle := hc.wf.poolst_le (hc.shuffled hs)
    have hclen := hc.redrawn.len_eq
    have hrep' : s.pls.repeatMode = 0 := hc.redrawn.repeatMode_eq ▸ hrep
    rw [following_last hnodup hcur (by omega), Pls.repeats, decide_eq_false (not_not.mpr hrep')]
    rfl

lemma plsGetPrev_found (h : s.pls.WF) (hq : q.WF) (hr : PlaysOn (plsGetPrev s).2.pls q) :
    foundItem (plsGetPrev s) = preceding q.playOrder s.pls.repeats s.index := by
  have hstep := plsGetPrev_step s
  generalize plsGetPrev s = u at hstep hr
  have hlen := hr.len_eq.trans hstep.redrawn.len_eq
  have hnodup := playOrder_nodup hq
  have hsize := length_playOrder hq
  cases hstep with
  | outside hi =>
    rw [preceding_of_notMem (by rw [mem_playOrder hq]; omega)]
    rfl
  | preceding hs hi hpos =>
    have hs' := hr.shuffled_eq.trans hs
    rw [preceding_getElem? hnodup (playOrder_unshuffled hs' (by omega)) (by omega), playOrder_unshuffled hs' (by omega)]
    rfl
  | around hs hi hfirst hrep =>
    have hs' := hr.shuffled_eq.trans hs
    rw [hfirst, preceding_first hnodup (playOrder_unshuffled hs' (by omega)), List.getLast?_eq_getElem?, hsize, hlen,
      playOrder_unshuffled hs' (by omega), Pls.repeats, decide_eq_true hrep]
    rfl
  | ended hs hi hfirst hrep =>
    have hs' := hr.shuffled_eq.trans hs
    rw [hfirst, preceding_first hnodup (playOrder_unshuffled hs' (by omega)), Pls.repeats,
      decide_eq_false (not_not.mpr hrep)]
    rfl
  | played hs hi hpos =>
    have hc := Nav.commit_kept h hs hi
    have hcur := playOrder_commit h hs hi hr
    have hlt := Nav.commit_iidx_lt h hs hi
    rw [s.commit_fields.1] at hpos
    rw [preceding_getElem? hnodup hcur (by omega),
      playOrder_committed hc.wf hr (hc.shuffled hs) (k := s.commit.pls.iidx s.index - 1) (by omega)]
    rw [s.commit_fields.1]
    rfl
  | drawn hs hi hzero hrep =>
    have hc := Nav.commit_kept h hs hi
    have hcur := playOrder_commit h hs hi ((plsGetLast_kept hc.wf).redrawn.playsOn.trans hr)
    have hclen := hc.redrawn.len_eq
    have hrep' : s.pls.repeatMode ≠ 0 := hc.redrawn.repeatMode_eq ▸ hrep
    have hfound := plsGetLast_found hc.wf hq hr
    rw [s.commit_fields.1] at hzero
    rw [hzero] at hcur
    rw [decide_eq_true (by omega)] at hfound
    rw [hfound, preceding_first hnodup hcur, Pls.repeats, decide_eq_true hrep', if_pos rfl]
  | exhausted hs hi hzero hrep =>
    have hc := Nav.commit_kept h hs hi
    have hcur := playOrder_commit h hs hi hr
    have hrep' : s.pls.repeatMode = 0 := hc.redrawn.repeatMode_eq ▸ hrep
    rw [s.commit_fields.1] at hzero
    rw [hzero] at hcur
    rw [preceding_first hnodup hcur, Pls.repeats, decide_eq_false (not_not.mpr hrep')]
    rfl

/-- A call finds what the eager player finds in any play order that later draws can lead to. -/
lemma NavCall.run_found (call : NavCall) (h : s.pls.WF) (hq : q.WF) (hr : PlaysOn (call.run s).2.pls q) :
    foundItem (call.run s) = call.find q.playOrder s.pls.repeats s.index := by
  cases call with
  | getStarting => exact plsGetStarting_found h hq hr
  | getLast => exact plsGetLast_found h hq hr
  | getNext => exact plsGetNext_found h hq hr
  | getPrev => exact plsGetPrev_found h hq hr

lemma NavCall.run_navigated (call : NavCall) (h : s.pls.WF) : Navigated s (call.run s).1 (call.run s).2 := by
  cases call with
  | getStarting => exact plsGetStarting_navigated h
  | getLast => exact plsGetLast_navigated h
  | getNext => exact plsGetNext_navigated h
  | getPrev => exact plsGetPrev_navigated h

/-! ### One request -/

/-- The navigation call that a request makes, with what the handler's variable holds before it. -/
def PlayMember.nav : PlayMember → Option (NavCall × Nat)
  | .getStarting index => some (.getStarting, index)
  | .getLast index => some (.getLast, index)
  | .getNext index => some (.getNext, index)
  | .getPrev index => some (.getPrev, index)
  | _ => none

/-- The methods that set a playlist's modes. -/
def PlayMember.SetsMode : PlayMember → Prop
  | .setRepeat _ | .shuffle | .unshuffle => True
  | _ => False

instance : (m : PlayMember) → Decidable m.SetsMode
  | .setRepeat _ | .shuffle | .unshuffle => .isTrue trivial
  | .getName | .getRepeat | .isShuffled | .getItem _ | .getItems _ _ | .getStarting _ | .getLast _ | .getNext _
  | .getPrev _ | .getSize => .isFalse id

/-- The reply of the eager player. -/
def eagerReply (order : List Nat) (wrap : Bool) (items : Nat → Bytes) (sender : Client) (call : NavCall)
    (index : Nat) : Sent :=
  match call.find order wrap index with
  | some i => .reply sender [.uint32 i, .string (items i)]
  | none => .reply sender [.uint32 index, .string []]

lemma handlePlay_nav {m : PlayMember} {call : NavCall} {index : Nat} (hm : m.nav = some (call, index))
    (sender : Client) (plid : Nat) (p : Pls) (r : Draws) :
    handlePlay sender plid p r m = ((call.run ⟨p, r, index, none⟩).2.pls, (call.run ⟨p, r, index, none⟩).2.draws,
      [replyNav sender (call.run ⟨p, r, index, none⟩).2]) := by
  cases m <;> cases hm <;> rfl

/-- The reply does not depend on when the order was drawn. -/
lemma replyNav_eager (h : p.WF) (hq : q.WF) (sender : Client) (call : NavCall) (r : Draws) (index : Nat)
    (hr : PlaysOn (call.run ⟨p, r, index, none⟩).2.pls q) :
    replyNav sender (call.run ⟨p, r, index, none⟩).2 =
      eagerReply q.playOrder p.repeats p.vidx sender call index := by
  have hfound := call.run_found (s := ⟨p, r, index, none⟩) h hq hr
  have hnav := call.run_navigated (s := ⟨p, r, index, none⟩) h
  unfold eagerReply replyNav
  unfold foundItem at hfound
  cases hb : (call.run ⟨p, r, index, none⟩).1 with
  | true =>
    obtain ⟨-, hoid⟩ := hnav.item hb
    rw [hb, if_pos rfl] at hfound
    rw [← hfound, hoid]
    rfl
  | false =>
    obtain ⟨hindex, hoid⟩ := hnav.none hb
    rw [hb, if_neg Bool.false_ne_true] at hfound
    rw [← hfound, hindex, hoid]
    rfl

lemma handlePlay_playsOn (h : p.WF) (sender : Client) (plid : Nat) (r : Draws) {m : PlayMember}
    (hm : ¬m.SetsMode) : PlaysOn p (handlePlay sender plid p r m).1 := by
  cases hnav : m.nav with
  | some c =>
    obtain ⟨call, index⟩ := c
    rw [handlePlay_nav hnav]
    exact (call.run_navigated (s := ⟨p, r, index, none⟩) h).redrawn.playsOn
  | none =>
    cases m with
    | getName | getRepeat | isShuffled | getItem | getSize => exact .refl p
    | setRepeat | shuffle | unshuffle => exact absurd trivial hm
    | getItems startIndex endIndex =>
      simp only [handlePlay]
      split <;> exact .refl p
    | getStarting | getLast | getNext | getPrev => cases hnav

/-! ### One turn of the daemon -/

/-- More of the play order may be decided than in `pls`. -/
structure Playing (pls cur : Pls) : Prop where
  wf : cur.WF
  playsOn : PlaysOn pls cur

lemma playing_intrinsic (pls : Pls) : Intrinsic (Playing pls) := by
  rintro p q ⟨hwf, hplays⟩ hsame
  have hlen : q.len = p.len := (congrArg Pls.len hsame :)
  have hs : q.shuffled = p.shuffled := (congrArg Pls.shuffled hsame :)
  have hpool : q.poolst = p.poolst := (congrArg Pls.poolst hsame :)
  have hpidx : q.pidx = p.pidx := (congrArg Pls.pidx hsame :)
  refine ⟨wf_congr hwf hlen (congrArg Pls.alloc hsame :) hs hpool hpidx (congrArg Pls.iidx hsame :), hplays.trans ?_⟩
  exact ⟨hlen, hs, (congrArg Pls.repeatMode hsame :), (congrArg Pls.vidx hsame :), hpool.ge, fun i _ => by rw [hpidx]⟩

/-- The events after which the items and the modes of a playlist are as before. -/
def DaemonEvent.LeavesOrder (id : Nat) : DaemonEvent → Prop
  | .destroy _ i => i ≠ id
  | .playlist _ path (.edit _) => atoi path ≠ id
  | .playlist _ path (.play m) => atoi path = id → ¬m.SetsMode
  | _ => True

instance (id : Nat) : (e : DaemonEvent) → Decidable (e.LeavesOrder id)
  | .destroy _ i => inferInstanceAs (Decidable (i ≠ id))
  | .playlist _ path (.edit _) => inferInstanceAs (Decidable (atoi path ≠ id))
  | .playlist _ path (.play m) => inferInstanceAs (Decidable (atoi path = id → ¬m.SetsMode))
  | .create _ _ | .duplicate _ _ _ | .list _ _ | .imported _ _ | .disconnected _ | .playlist _ _ (.setName _)
  | .playlist _ _ .incrementUseCount | .playlist _ _ .decrementUseCount => .isTrue trivial

lemma DaemonEvent.LeavesOrder.spares {e : DaemonEvent} {id : Nat} (he : e.LeavesOrder id) (pls : Pls) :
    e.Spares id (Playing pls) := by
  refine ⟨?_, ?_, ?_⟩
  · rintro sender rfl
    exact he rfl
  · rintro sender path m rfl
    exact he
  · rintro sender path m rfl hid p r ⟨hwf, hplays⟩
    exact ⟨handlePlay_wf hwf sender id r m, hplays.trans (handlePlay_playsOn hwf sender id r (he hid))⟩

section
variable {createObjectid : Bytes → Bytes} {d d' : Daemon} {pls : Pls} {id : Nat}

lemma handle_nav {sender : Client} {path : Bytes} {m : PlayMember} {call : NavCall} {index : Nat}
    (hm : m.nav = some (call, index)) (hpos : atoi path ≠ 0) (hcur : d.playlistOf (atoi path) = some p)
    {sent : List Sent} (he : d.handle createObjectid (.playlist sender path (.play m)) = .ok (d', sent)) :
    d'.playlistOf (atoi path) = some (call.run ⟨p, d.draws, index, none⟩).2.pls ∧
      sent = [replyNav sender (call.run ⟨p, d.draws, index, none⟩).2] := by
  obtain ⟨ptr, hl, hcell⟩ := Option.bind_eq_some_iff.mp hcur
  simp only [Daemon.handle, handlePlaylistRequest, if_neg hpos, hl, deref_eq hcell, bind, Except.bind,
    handlePlay_nav hm, Except.ok.injEq, Prod.mk.injEq] at he
  obtain ⟨rfl, rfl⟩ := he
  refine ⟨?_, rfl⟩
  simp only [Daemon.playlistOf, Daemon.write, hl, Option.bind_some, Function.update_self]

/-! ### Whole runs -/

/-- The daemon together with what it was asked and what it sent. -/
def Daemon.recordStep (createObjectid : Bytes → Bytes) (s : Daemon × List (DaemonEvent × List Sent))
    (e : DaemonEvent) : Option (Daemon × List (DaemonEvent × List Sent)) :=
  match s.1.handle createObjectid e with
  | .ok (d, sent) => some (d, s.2 ++ [(e, sent)])
  | .error _ => none

/-- Runs that leave the items and the modes of a playlist alone, and in which no creation finds its
id taken. -/
abbrev PlayReach (createObjectid : Bytes → Bytes) (id : Nat) (d : Daemon) :
    Daemon × List (DaemonEvent × List Sent) → Prop :=
  Reach (fun s e t => Daemon.recordStep createObjectid s e = some t)
    (fun s e => e.LeavesOrder id ∧ (e.Creates → s.1.playlists.lookup s.1.lastId = none)) (d, [])

/-- Every navigation request to a playlist was replied to as the eager player does. -/
def RepliedLike (order : List Nat) (pls : Pls) (id : Nat) (record : List (DaemonEvent × List Sent)) : Prop :=
  ∀ sender path m call index sent, (DaemonEvent.playlist sender path (.play m), sent) ∈ record → atoi path = id →
    m.nav = some (call, index) → sent = [eagerReply order pls.repeats pls.vidx sender call index]

/-- What a run keeps: whatever is drawn later on, the replies so far fit to it. -/
structure SharedOrder (pls : Pls) (id : Nat) (s : Daemon × List (DaemonEvent × List Sent)) : Prop where
  registry : Registry s.1
  playing : ∃ cur, s.1.playlistOf id = some cur ∧ cur.WF ∧ PlaysOn pls cur ∧
    ∀ q, q.WF → PlaysOn cur q → RepliedLike q.playOrder pls id s.2

lemma SharedOrder.step {s t : Daemon × List (DaemonEvent × List Sent)} {e : DaemonEvent} (h : SharedOrder pls id s)
    (hpos : id ≠ 0) (he : e.LeavesOrder id) (hfresh : e.Creates → s.1.playlists.lookup s.1.lastId = none)
    (ht : Daemon.recordStep createObjectid s e = some t) : SharedOrder pls id t := by
  obtain ⟨cur, hcur, hwf, hplays, hreplied⟩ := h.playing
  unfold Daemon.recordStep at ht
  split at ht
  · rename_i d' sent hd
    cases ht
    have hturn := Turned.of_ok h.registry hfresh hd
    have hstill : s.1.Holds id (Playing cur) := ⟨cur, hcur, hwf, .refl cur⟩
    obtain ⟨cur', hcur', hwf', hplays'⟩ :=
      hturn.holds (playing_intrinsic cur) hstill h.registry hfresh (he.spares cur)
    refine ⟨hturn.registry h.registry hfresh, cur', hcur', hwf', hplays.trans hplays', fun q hq hlater => ?_⟩
    intro sender path m call index sent' hmem hpath hm
    rcases List.mem_append.mp hmem with hold | hnew
    · exact hreplied q hq (hplays'.trans hlater) sender path m call index sent' hold hpath hm
    · cases List.mem_singleton.mp hnew
      subst hpath
      obtain ⟨hafter, rfl⟩ := handle_nav hm hpos hcur hd
      rw [hafter] at hcur'
      cases hcur'
      rw [replyNav_eager hwf hq sender call s.1.draws index hlater, Pls.repeats, Pls.repeats, hplays.repeatMode_eq,
        hplays.vidx_eq]
  · cases ht

/-- In every run that leaves the items and the modes of a playlist alone, whoever asks and whatever
is drawn, all navigation requests are replied to as by a player that has laid out one play order of
the whole list beforehand, with what was committed at the beginning of the run in its place. -/
theorem one_order_for_all (h : Registry d) (hpos : id ≠ 0) (hpls : d.playlistOf id = some pls) (hwf : pls.WF)
    {s : Daemon × List (DaemonEvent × List Sent)} (hr : PlayReach createObjectid id d s) :
    ∃ order : List Nat, order.Perm (List.range pls.len) ∧ (pls.shuffled = 0 → order = List.range pls.len) ∧
      (pls.shuffled ≠ 0 → ∀ k < pls.poolst, order[k]? = some (pls.pidx k)) ∧ RepliedLike order pls id s.2 := by
  have hstart : SharedOrder pls id (d, []) :=
    ⟨h, pls, hpls, hwf, .refl pls, fun q _ _ sender path m call index sent hmem => absurd hmem List.not_mem_nil⟩
  have hend := hr.invariant (SharedOrder pls id) hstart fun s e t hs he ht => hs.step hpos he.1 he.2 ht
  obtain ⟨cur, -, hcwf, hplays, hreplied⟩ := hend.playing
  have hperm := playOrder_perm hcwf
  rw [hplays.len_eq] at hperm
  refine ⟨cur.playOrder, hperm, fun hs => ?_, fun hs k hk => playOrder_committed hwf hplays hs hk,
    hreplied cur hcwf (.refl cur)⟩
  rw [Pls.playOrder, if_pos (hplays.shuffled_eq.trans hs), hplays.len_eq]

end

/-- Three items are appended to a playlist and shuffled. -/
def threeShuffled : Option (Daemon × List Nat) :=
  runEvents (registryStep id) (fun _ _ => True) (Daemon.init, [])
    [.create [49] [112], .playlist [49] [49] (.edit (.appendItem [[97], [98], [99]])),
      .playlist [49] [49] (.play .shuffle)]

/-- One client starts at the first item, which the random numbers choose, and another one goes on
from there. The first one asks for the last item, and the other one for what is in front of the first. -/
def twoListeners : List DaemonEvent :=
  [.playlist [49] [49] (.play (.getStarting 9)), .create [50] [113], .playlist [50] [49] (.play (.getNext 1)),
    .playlist [49] [49] (.setName [114]), .playlist [49] [49] (.play (.getLast 0)),
    .playlist [50] [49] (.play (.getPrev 1))]

def twoListenersHear : List (List Sent) :=
  [[.reply [49] [.uint32 1, .string [98]]], [signalPlaylistCreated 2, .reply [50] [.uint32 2]],
    [.reply [50] [.uint32 2, .string [99]]], [sendPropertyChanged 1 .name], [.reply [49] [.uint32 0, .string [97]]],
    [.reply [50] [.uint32 1, .string []]]]

lemma threeShuffled_start : ∃ d pls, Registry d ∧ d.playlistOf 1 = some pls ∧ pls.WF ∧ pls.len = 3 ∧
    (runEvents (Daemon.recordStep id)
      (fun s e => e.LeavesOrder 1 ∧ (e.Creates → s.1.playlists.lookup s.1.lastId = none)) (d, [])
      twoListeners).map (fun s => s.2.map Prod.snd) = some twoListenersHear := by
  have hrun : threeShuffled = some (threeShuffled.get rfl) := rfl
  have hin := InStep.of_reach (registry_init 1) (by decide) (reach_of_runEvents hrun) (by decide)
  refine ⟨{ (threeShuffled.get rfl).1 with draws := fun _ => 1 }, ((threeShuffled.get rfl).1.playlistOf 1).get rfl,
    hin.registry.congr rfl rfl rfl rfl, rfl, ?_, rfl, by decide +kernel⟩
  exact ⟨by decide, fun _ => by decide, fun _ => by decide, fun _ => by decide⟩

theorem one_order_for_all_twoListeners : ∃ (d : Daemon) (pls : Pls) (order : List Nat)
    (s : Daemon × List (DaemonEvent × List Sent)), PlayReach id 1 d s ∧ s.2.map Prod.snd = twoListenersHear ∧
      order.Perm [0, 1, 2] ∧ RepliedLike order pls 1 s.2 := by
  obtain ⟨d, pls, hreg, hpls, hwf, hlen, hreplies⟩ := threeShuffled_start
  obtain ⟨s, hs, hheard⟩ := Option.map_eq_some_iff.mp hreplies
  have hreach : PlayReach id 1 d s := reach_of_runEvents hs
  obtain ⟨order, hperm, -, -, hreplied⟩ := one_order_for_all hreg Nat.one_ne_zero hpls hwf hreach
  rw [hlen] at hperm
  exact ⟨d, pls, order, s, hreach, hheard, hperm, hreplied⟩

end MafwShared
