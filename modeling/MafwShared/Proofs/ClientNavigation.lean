import MafwShared.ProxyPlaylist
import MafwShared.Proofs.Navigation
import MafwShared.Proofs.RegistryRuns

/-!
# The client's navigation

A proxy's calls against the functions of `aplaylist.c` on the daemon's playlist. Nothing in
a reply tells an item whose object id is empty from no item, and such items can be inserted; and
one of the calls reads its reply after giving it back. The two levels agree on the playlists without
such items, as far as the memory of a reply outlasts it.
-/

namespace MafwShared
open CLib

variable {proxy : MafwProxyPlaylist} {released : Released} {d : Daemon} {ptr : Ptr} {pls : Pls} {s t : Nav}
  {m : PlayMember}

/-! ### The two levels -/

/-- The playlist of the proxy is the one that the daemon keeps at `ptr`. -/
structure MafwProxyPlaylist.BoundTo (proxy : MafwProxyPlaylist) (d : Daemon) (ptr : Ptr) (pls : Pls) : Prop where
  id_pos : 0 < proxy.id
  id_lt : proxy.id < 2 ^ 32
  lookup : d.playlists.lookup proxy.id = some ptr
  heap : d.heap ptr = some pls

/-- The daemon after a navigation call on the playlist at `ptr`. -/
def Daemon.navigated (d : Daemon) (ptr : Ptr) (t : Nav) : Daemon := { d.write ptr t.pls with draws := t.draws }

/-- The caller's variables after a call that points them at an item, or leaves them alone. -/
def NavVars.receive (v : NavVars) (found : Bool) (t : Nav) : NavVars :=
  if found then { index := v.index.map fun _ => t.index, oid := v.oid.map fun _ => t.oid } else v

/-- An item's object id is still there to be copied when its reply is not. -/
def Released.Reads (released : Released) (oid : Bytes) : Prop :=
  (∃ n, released.strlen oid = some (n + 1)) ∧ released.strdup oid = some oid

/-- Memory that outlasts its reply. -/
def Released.intact : Released := ⟨fun oid => some oid.length, some⟩

lemma Released.reads_intact {oid : Bytes} (h : oid ≠ []) : intact.Reads oid := by
  obtain ⟨b, rest, rfl⟩ := List.exists_cons_of_ne_nil h
  exact ⟨⟨rest.length, rfl⟩, rfl⟩

/-- Whatever is called, the client gets what the daemon's functions find on the playlist. -/
structure MafwProxyPlaylist.Refines (proxy : MafwProxyPlaylist) (released : Released) (d : Daemon) (ptr : Ptr)
    (pls : Pls) : Prop where
  getItem : ∀ index, proxy.getItem released d index = .ok (plsGetItem pls index, d)
  getStartingIndex : ∀ garbage v, (v.index.isSome ∨ v.oid.isSome) →
    proxy.getStartingIndex d garbage v =
      .ok (v.receive (decide (pls.len ≠ 0)) (plsGetStarting ⟨pls, d.draws, garbage, none⟩),
        d.navigated ptr (plsGetStarting ⟨pls, d.draws, garbage, none⟩))
  getLastIndex : ∀ garbage v, (v.index.isSome ∨ v.oid.isSome) →
    proxy.getLastIndex d garbage v =
      .ok (v.receive (decide (pls.len ≠ 0)) (plsGetLast ⟨pls, d.draws, garbage, none⟩),
        d.navigated ptr (plsGetLast ⟨pls, d.draws, garbage, none⟩))
  getNext : ∀ index oid,
    proxy.getNext d ⟨some index, oid⟩ =
      .ok ((plsGetNext ⟨pls, d.draws, index, none⟩).1,
        NavVars.receive ⟨some index, oid⟩ (plsGetNext ⟨pls, d.draws, index, none⟩).1
          (plsGetNext ⟨pls, d.draws, index, none⟩).2,
        d.navigated ptr (plsGetNext ⟨pls, d.draws, index, none⟩).2)
  getPrev : ∀ index oid,
    proxy.getPrev d ⟨some index, oid⟩ =
      .ok ((plsGetPrev ⟨pls, d.draws, index, none⟩).1,
        NavVars.receive ⟨some index, oid⟩ (plsGetPrev ⟨pls, d.draws, index, none⟩).1
          (plsGetPrev ⟨pls, d.draws, index, none⟩).2,
        d.navigated ptr (plsGetPrev ⟨pls, d.draws, index, none⟩).2)

/-! ### One call -/

lemma atoi_decimal {n : Nat} (h : n < 2 ^ 32) : atoi (decimal n) = n := by
  have hscan := scanNumber_unsigned (fun _ => mem_decimal (n := n)) (decimal_ne_nil n) (t := []) rfl
  rw [List.append_nil, digitsValue_decimal] at hscan
  have hint : scanInt (decimal n) = some ((n : Int).bmod (2 ^ 32), []) := by
    rw [scanInt, hscan]
    simp only [Option.map_some, Bool.false_eq_true, if_false]
    rw [min_eq_right (by omega), max_eq_right (by omega)]
  unfold atoi
  rw [hint]
  dsimp only
  have hmod : (n : Int).bmod (2 ^ 32) % 2 ^ 32 = n := by
    rw [Int.bmod_def]
    split <;> omega
  rw [hmod, Int.toNat_natCast]

lemma MafwProxyPlaylist.BoundTo.write_self (h : proxy.BoundTo d ptr pls) :
    { d.write ptr pls with draws := d.draws } = d := by
  unfold Daemon.write
  rw [← h.heap, Function.update_eq_self]

lemma mafwDbusCall_play (h : proxy.BoundTo d ptr pls) {pls' : Pls} {r : Draws} {args : List Arg}
    (hplay : handlePlay proxy.connection proxy.id pls d.draws m = (pls', r, [.reply proxy.connection args])) :
    proxy.mafwDbusCall d m = .ok (some args, { d.write ptr pls' with draws := r }) := by
  have hid := atoi_decimal h.id_lt
  have hpos := h.id_pos
  unfold MafwProxyPlaylist.mafwDbusCall handlePlaylistRequest MafwProxyPlaylist.objPath
  dsimp only
  rw [hid, if_neg (by omega), h.lookup]
  dsimp only [Daemon.deref]
  rw [h.heap]
  simp only [bind, Except.bind, hplay, List.findSome?_cons, Sent.replyTo, if_true]

/-- What a client makes of the reply, in which an empty object id stands for no item. -/
lemma getItem_eq (h : proxy.BoundTo d ptr pls) (index : Nat) :
    proxy.getItem released d index =
      match released.strlen ((plsGetItem pls index).getD []), released.strdup ((plsGetItem pls index).getD []) with
      | none, _ => .error .useAfterFree
      | some 0, _ => .ok (none, d)
      | some _, none => .error .useAfterFree
      | some _, some oid => .ok (some oid, d) := by
  have hcall := mafwDbusCall_play h (m := .getItem index) rfl
  rw [h.write_self] at hcall
  unfold MafwProxyPlaylist.getItem
  rw [hcall]
  rfl

lemma getItem_none_iff (h : proxy.BoundTo d ptr pls) {index : Nat} (hnone : plsGetItem pls index = none) :
    proxy.getItem released d index = .ok (none, d) ↔ released.strlen [] = some 0 := by
  rw [getItem_eq h, hnone, Option.getD_none]
  constructor
  · intro hcall
    split at hcall
    · cases hcall
    · assumption
    · cases hcall
    · cases hcall
  · intro hzero
    rw [hzero]
    rfl

lemma getItem_some_iff (h : proxy.BoundTo d ptr pls) {index : Nat} {oid : Bytes}
    (hsome : plsGetItem pls index = some oid) :
    proxy.getItem released d index = .ok (some oid, d) ↔ released.Reads oid := by
  rw [getItem_eq h, hsome, Option.getD_some]
  constructor
  · intro hcall
    split at hcall
    · cases hcall
    · cases hcall
    · cases hcall
    · rename_i n copy hne hlen hcopy
      cases hcall
      obtain ⟨k, rfl⟩ := Nat.exists_eq_succ_of_ne_zero hne
      exact ⟨⟨k, hlen⟩, hcopy⟩
  · rintro ⟨⟨n, hlen⟩, hcopy⟩
    rw [hlen, hcopy]
    rfl

lemma getItem_intact (h : proxy.BoundTo d ptr pls) (index : Nat) :
    proxy.getItem .intact d index = .ok ((plsGetItem pls index).filter fun oid => oid ≠ [], d) := by
  rw [getItem_eq h]
  unfold Released.intact
  cases plsGetItem pls index with
  | none => rfl
  | some oid => cases oid <;> rfl

lemma sendMethod_eq (h : proxy.BoundTo d ptr pls)
    (hplay : handlePlay proxy.connection proxy.id pls d.draws m = (t.pls, t.draws, [replyNav proxy.connection t]))
    (v : NavVars) :
    proxy.sendMethodGetUintStrParams d m v =
      if t.oid.getD [] = [] then .ok (false, v, d.navigated ptr t)
      else .ok (true, v.store t.index (t.oid.getD []), d.navigated ptr t) := by
  unfold MafwProxyPlaylist.sendMethodGetUintStrParams
  rw [mafwDbusCall_play h hplay]
  simp only [bind, Except.bind]
  rfl

/-- On a playlist without empty object ids nothing is lost between the two. -/
lemma sendMethod_navigated (h : proxy.BoundTo d ptr pls) (hitems : ∀ i < pls.len, pls.vidx i ≠ [])
    {found : Bool} (hnav : Navigated s found t) (hs : s.pls = pls) (ho : s.oid = none)
    (hplay : handlePlay proxy.connection proxy.id pls d.draws m = (t.pls, t.draws, [replyNav proxy.connection t]))
    (v : NavVars) :
    proxy.sendMethodGetUintStrParams d m v = .ok (found, v.receive found t, d.navigated ptr t) := by
  rw [sendMethod_eq h hplay]
  cases found with
  | false =>
    have hnone := (hnav.none rfl).2
    rw [hnone, ho]
    rfl
  | true =>
    obtain ⟨hlt, hoid⟩ := hnav.item rfl
    rw [hs] at hlt hoid
    have hne := hitems t.index hlt
    unfold NavVars.store NavVars.receive
    rw [hoid, Option.getD_some, if_neg hne, if_pos rfl]

/-! ### All calls -/

/-- For every well-formed playlist of the daemon, whatever the random numbers: the client's
calls do what the daemon's functions do exactly when no item has an empty object id and what
is left of a reply can still be read. -/
theorem client_refines (h : proxy.BoundTo d ptr pls) (hwf : pls.WF) :
    proxy.Refines released d ptr pls ↔
      (∀ i < pls.len, pls.vidx i ≠ [] ∧ released.Reads (pls.vidx i)) ∧ released.strlen [] = some 0 := by
  have hitem : ∀ i < pls.len, plsGetItem pls i = some (pls.vidx i) := fun i hi => if_neg (not_le.mpr hi)
  constructor
  · intro hr
    have hend : plsGetItem pls pls.len = none := if_pos le_rfl
    have hzero : released.strlen [] = some 0 := by
      have hcall := hr.getItem pls.len
      rw [hend] at hcall
      exact (getItem_none_iff h hend).mp hcall
    refine ⟨fun i hi => ?_, hzero⟩
    have hcall := hr.getItem i
    rw [hitem i hi] at hcall
    have hreads := (getItem_some_iff h (hitem i hi)).mp hcall
    refine ⟨fun hempty => ?_, hreads⟩
    obtain ⟨⟨n, hlen⟩, -⟩ := hreads
    rw [hempty, hzero] at hlen
    cases hlen
  · rintro ⟨hall, hzero⟩
    have hitems : ∀ i < pls.len, pls.vidx i ≠ [] := fun i hi => (hall i hi).1
    refine ⟨fun index => ?_, fun garbage v hv => ?_, fun garbage v hv => ?_, fun index oid => ?_,
      fun index oid => ?_⟩
    · by_cases hi : index < pls.len
      · rw [hitem index hi]
        exact (getItem_some_iff h (hitem index hi)).mpr (hall index hi).2
      · have hnone : plsGetItem pls index = none := if_pos (not_lt.mp hi)
        rw [hnone]
        exact (getItem_none_iff h hnone).mpr hzero
    · have hnav := plsGetStarting_navigated (s := ⟨pls, d.draws, garbage, none⟩) hwf
      have hcall := sendMethod_navigated h hitems hnav rfl rfl (m := .getStarting garbage) rfl v
      unfold MafwProxyPlaylist.getStartingIndex
      rw [if_pos hv, hcall]
      rfl
    · have hnav := plsGetLast_navigated (s := ⟨pls, d.draws, garbage, none⟩) hwf
      have hcall := sendMethod_navigated h hitems hnav rfl rfl (m := .getLast garbage) rfl v
      unfold MafwProxyPlaylist.getLastIndex
      rw [if_pos hv, hcall]
      rfl
    · have hnav := plsGetNext_navigated (s := ⟨pls, d.draws, index, none⟩) hwf
      exact sendMethod_navigated h hitems hnav rfl rfl (m := .getNext index) rfl ⟨some index, oid⟩
    · have hnav := plsGetPrev_navigated (s := ⟨pls, d.draws, index, none⟩) hwf
      exact sendMethod_navigated h hitems hnav rfl rfl (m := .getPrev index) rfl ⟨some index, oid⟩

/-- A client creates a playlist, appends items to it and shuffles it. -/
def shuffledItems (items : List Bytes) : Option (Daemon × List Nat) :=
  runEvents (registryStep id) (fun _ _ => True) (Daemon.init, [])
    [.create [49] [112], .playlist [49] [49] (.edit (.appendItem items)), .playlist [49] [49] (.play .shuffle)]

theorem client_refines_twoItems : ∃ s pls, RegistryReach id Daemon.init s ∧
    MafwProxyPlaylist.Refines ⟨1, [49]⟩ .intact s.1 0 pls ∧ pls.len = 2 := by
  have hrun : shuffledItems [[97], [98]] = some ((shuffledItems [[97], [98]]).get rfl) := rfl
  refine ⟨_, _, reach_of_runEvents hrun, (client_refines ⟨by decide, by decide, rfl, rfl⟩ ?_).mpr
    ⟨fun i hi => ⟨?_, Released.reads_intact ?_⟩, rfl⟩, rfl⟩
  · exact ⟨by decide, fun _ => by decide, fun _ => by decide, fun _ => by decide⟩
  · revert i
    decide
  · revert i
    decide

/-- The second item is there, and the step to it is one of the daemon's, but the client finds no
item at its index and, after the first item, nothing more to play; and where the memory of a reply is
gone with it, asking for any item ends the client. -/
theorem client_misses_item : (∃ s pls, RegistryReach id Daemon.init s ∧
    MafwProxyPlaylist.BoundTo ⟨1, [49]⟩ s.1 0 pls ∧ pls.WF ∧ plsGetItem pls 1 = some [] ∧
    (plsGetNext ⟨pls, s.1.draws, 0, none⟩).1 = true ∧
    (MafwProxyPlaylist.getItem ⟨1, [49]⟩ .intact s.1 1).map Prod.fst = .ok none ∧
    (MafwProxyPlaylist.getNext ⟨1, [49]⟩ s.1 ⟨some 0, some none⟩).map (fun r => (r.1, r.2.1)) =
      .ok (false, ⟨some 0, some none⟩) ∧
    ¬MafwProxyPlaylist.Refines ⟨1, [49]⟩ .intact s.1 0 pls) ∧
    ∃ s pls, RegistryReach id Daemon.init s ∧ MafwProxyPlaylist.BoundTo ⟨1, [49]⟩ s.1 0 pls ∧ pls.WF ∧
      plsGetItem pls 0 = some [97] ∧
      (MafwProxyPlaylist.getItem ⟨1, [49]⟩ ⟨fun _ => none, fun _ => none⟩ s.1 0).map Prod.fst =
        .error .useAfterFree ∧
      ¬MafwProxyPlaylist.Refines ⟨1, [49]⟩ ⟨fun _ => none, fun _ => none⟩ s.1 0 pls := by
  have hrun : shuffledItems [[97], [], [98]] = some ((shuffledItems [[97], [], [98]]).get rfl) := rfl
  have hplain : shuffledItems [[97], [98]] = some ((shuffledItems [[97], [98]]).get rfl) := rfl
  refine ⟨⟨_, _, reach_of_runEvents hrun, ⟨by decide, by decide, rfl, rfl⟩, ?_, rfl, rfl, rfl, rfl, fun h => ?_⟩,
    _, _, reach_of_runEvents hplain, ⟨by decide, by decide, rfl, rfl⟩, ?_, rfl, rfl, fun h => ?_⟩
  · exact ⟨by decide, fun _ => by decide, fun _ => by decide, fun _ => by decide⟩
  · have hitem := h.getItem 1
    rw [getItem_intact ⟨by decide, by decide, rfl, rfl⟩] at hitem
    cases hitem
  · exact ⟨by decide, fun _ => by decide, fun _ => by decide, fun _ => by decide⟩
  · have hitem := h.getItem 0
    rw [getItem_eq ⟨by decide, by decide, rfl, rfl⟩] at hitem
    cases hitem

end MafwShared
