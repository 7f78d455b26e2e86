import MafwShared.PlaylistWrapper
import MafwShared.Lib.Runs
import MafwShared.Lib.Splice
import MafwShared.Proofs.PlaylistEdits

/-!
# A client's copy of a playlist

A client keeps the item list up to date from the signals alone. Items it has not been
told about are `none`. `Mirrors copy items` is the agreement that the signals maintain,
request after request.
-/

namespace MafwShared
open CLib

abbrev Copy := List (Option Bytes)

/-- A signal applied to a client's copy, `none` when it reaches outside of it. -/
def Copy.apply (copy : Copy) : Signal → Option Copy
  | .contentsChanged _ start nremove nreplace =>
    if start + nremove ≤ copy.length then some (splice copy start nremove (List.replicate nreplace none))
    else none
  | .itemMoved _ src dst =>
    if src < copy.length ∧ dst < copy.length then some (moveItem copy src dst) else none
  | _ => some copy

/-- The signals among what the daemon sent, one after the other. -/
def Copy.receive : Copy → List Sent → Option Copy
  | copy, [] => some copy
  | copy, .signal s :: sent => (copy.apply s).bind fun copy => receive copy sent
  | copy, _ :: sent => copy.receive sent

/-- Same length, and what the copy knows is right. -/
def Mirrors (copy : Copy) (items : List Bytes) : Prop :=
  List.Forall₂ (fun c oid => ∀ x, c = some x → x = oid) copy items

lemma mirrors_iff {copy : Copy} {items : List Bytes} : Mirrors copy items ↔
    copy.length = items.length ∧
      ∀ (i : Nat) (x : Bytes), copy[i]? = some (some x) → items[i]? = some x := by
  unfold Mirrors
  rw [List.forall₂_iff_get]
  constructor
  · rintro ⟨hlen, h⟩
    refine ⟨hlen, fun i x hx => ?_⟩
    obtain ⟨hi, hget⟩ := List.getElem?_eq_some_iff.mp hx
    have hx' := h i hi (hlen ▸ hi) x hget
    rw [List.getElem?_eq_some_iff]
    exact ⟨hlen ▸ hi, hx'.symm⟩
  · rintro ⟨hlen, h⟩
    refine ⟨hlen, fun i h1 h2 x hx => ?_⟩
    have hx' := h i x (List.getElem?_eq_some_iff.mpr ⟨h1, hx⟩)
    obtain ⟨_, hget⟩ := List.getElem?_eq_some_iff.mp hx'
    exact hget.symm

lemma mirrors_unknown (items : List Bytes) : Mirrors (List.replicate items.length none) items := by
  rw [mirrors_iff]
  refine ⟨by simp, fun i x hx => ?_⟩
  rw [List.getElem?_replicate] at hx
  split at hx <;> cases hx

lemma mirrors_copy (items : List Bytes) : Mirrors (items.map some) items := by
  rw [mirrors_iff]
  exact ⟨by simp, fun i x hx => by simpa using hx⟩

lemma Mirrors.length_eq {copy : Copy} {items : List Bytes} (h : Mirrors copy items) :
    copy.length = items.length := List.Forall₂.length_eq h

/-! ### One request -/

/-- The signals of a request are about the list as it was, and what they describe is what
happened to it. -/
def EditMember.Announced (p : Pls) : EditMember → Prop
  | .insertItem index objectids => index ≤ p.len ∧ p.len + objectids.length < 2 ^ 31
  | .appendItem objectids => p.len + objectids.length < 2 ^ 31
  | .move src dst => src = dst → src < p.len
  | _ => True

instance (p : Pls) : (m : EditMember) → Decidable (m.Announced p)
  | .insertItem index objectids =>
    inferInstanceAs (Decidable (index ≤ p.len ∧ p.len + objectids.length < 2 ^ 31))
  | .appendItem objectids => inferInstanceAs (Decidable (p.len + objectids.length < 2 ^ 31))
  | .move src dst => inferInstanceAs (Decidable (src = dst → src < p.len))
  | .removeItem _ | .clear => .isTrue trivial

lemma contentsChanged_mirrors {copy : Copy} {items : List Bytes} (h : Mirrors copy items)
    (plid : Nat) {i n : Nat} (hfit : i + n ≤ items.length) (oids : List Bytes) :
    ∃ copy', copy.apply (.contentsChanged plid i n oids.length) = some copy' ∧
      Mirrors copy' (splice items i n oids) := by
  rw [← h.length_eq] at hfit
  exact ⟨_, if_pos hfit, rel_splice h (mirrors_unknown oids) i n⟩

lemma receive_reply (copy : Copy) (sender : Client) (args : List Arg) (s : Signal) :
    copy.receive [.reply sender args, .signal s] = copy.apply s := by
  cases h : copy.apply s <;> simp [Copy.receive, h]

lemma receive_ack (copy : Copy) (sender : Client) (err : Option (PlaylistError × String)) (s : Signal) :
    copy.receive [ackOrError sender err, .signal s] = copy.apply s := by
  cases err <;> cases h : copy.apply s <;> simp [ackOrError, Copy.receive, h]

/-- The request is served, its signals are applicable and keep the copy up to date. -/
def KeepsCopy (sender : Client) (plid : Nat) (p : Pls) (copy : Copy) (m : EditMember) : Prop :=
  ∃ q sent copy', handleEdit sender plid p m = some (q, sent) ∧ q.len ≤ q.alloc ∧
    copy.receive sent = some copy' ∧ Mirrors copy' (cells q.vidx q.len)

section
variable {p : Pls} {copy : Copy} (hl : p.len ≤ p.alloc) (h : Mirrors copy (cells p.vidx p.len))
  (sender : Client) (plid : Nat)
include hl h

/-- A refused insertion is answered with an error, but the signal is sent all the same. -/
lemma insertItem_keepsCopy {index : Nat} {objectids : List Bytes} (hidx : index ≤ p.len)
    (hsize : p.len + objectids.length < 2 ^ 31) :
    KeepsCopy sender plid p copy (.insertItem index objectids) := by
  obtain ⟨copy', happly, hmirrors⟩ :=
    contentsChanged_mirrors h plid (n := 0) (i := index) (by simpa using hidx) objectids
  by_cases hne : objectids = []
  · have hreq : handleEdit sender plid p (.insertItem index objectids) =
        some (p, [ackOrError sender (some (.invalidIndex, "Wrong index")),
          sendContentsChanged plid index 0 objectids.length]) := by
      simp [handleEdit, plsInserts_rejected (Or.inl hne)]
    refine ⟨p, _, copy', hreq, hl, (receive_ack _ _ _ _).trans happly, ?_⟩
    rwa [hne, splice_self] at hmirrors
  · obtain ⟨q, hq, -, hins⟩ := plsInserts_accepted hne hidx hl hsize.le
    have hreq : handleEdit sender plid p (.insertItem index objectids) =
        some (q, [ackOrError sender none, sendContentsChanged plid index 0 objectids.length]) := by
      simp [handleEdit, hq]
    refine ⟨q, _, copy', hreq, hins.len_le, (receive_ack _ _ _ _).trans happly, ?_⟩
    rw [hins.items]
    exact hmirrors

/-- The position is computed from the length after the insertion, modulo 2 ^ 32. -/
lemma appendItem_keepsCopy {objectids : List Bytes} (hsize : p.len + objectids.length < 2 ^ 31) :
    KeepsCopy sender plid p copy (.appendItem objectids) := by
  obtain ⟨copy', happly, hmirrors⟩ :=
    contentsChanged_mirrors h plid (n := 0) (i := p.len) (by simp) objectids
  by_cases hne : objectids = []
  · have hstart : (2 ^ 32 + p.len - objectids.length) % 2 ^ 32 = p.len := by
      rw [hne, List.length_nil]
      omega
    have hreq : handleEdit sender plid p (.appendItem objectids) =
        some (p, [ackOrError sender (some (.invalidIndex, "and what now")),
          sendContentsChanged plid p.len 0 objectids.length]) := by
      rw [handleEdit, plsAppends, plsInserts_rejected (Or.inl hne), Option.map_some]
      dsimp only
      rw [hstart]
      rfl
    refine ⟨p, _, copy', hreq, hl, (receive_ack _ _ _ _).trans happly, ?_⟩
    rwa [hne, splice_self] at hmirrors
  · obtain ⟨q, hq, -, hins⟩ := plsInserts_accepted hne le_rfl hl hsize.le
    have hstart : (2 ^ 32 + q.len - objectids.length) % 2 ^ 32 = p.len := by
      rw [hins.len_eq]
      omega
    have hreq : handleEdit sender plid p (.appendItem objectids) =
        some (q, [ackOrError sender none, sendContentsChanged plid p.len 0 objectids.length]) := by
      rw [handleEdit, plsAppends, hq, Option.map_some]
      dsimp only
      rw [hstart]
      rfl
    refine ⟨q, _, copy', hreq, hins.len_le, (receive_ack _ _ _ _).trans happly, ?_⟩
    rw [hins.items]
    exact hmirrors

lemma removeItem_keepsCopy (index : Nat) : KeepsCopy sender plid p copy (.removeItem index) := by
  by_cases hidx : index < p.len
  · obtain ⟨q, hq, -, hrem, -⟩ := plsRemove_accepted hidx
    obtain ⟨copy', happly, hmirrors⟩ :=
      contentsChanged_mirrors h plid (n := 1) (i := index)
        (by rw [length_cells]; omega) []
    have hreq : handleEdit sender plid p (.removeItem index) =
        some (q, [.reply sender [.boolean true], sendContentsChanged plid index 1 0]) := by
      simp [handleEdit, hq]
    have halloc : q.alloc = p.alloc := (congrArg Pls.alloc hrem.frame :)
    refine ⟨q, _, copy', hreq, ?_, (receive_reply _ _ _ _).trans happly, ?_⟩
    · rw [hrem.len_eq, halloc]
      omega
    · rw [hrem.items, List.eraseIdx_eq_take_drop_succ]
      simpa [splice] using hmirrors
  · have hreq : handleEdit sender plid p (.removeItem index) =
        some (p, [.error sender .invalidIndex "Wrong index"]) := by
      simp [handleEdit, plsRemove_rejected (not_lt.mp hidx)]
    exact ⟨p, _, copy, hreq, hl, rfl, h⟩

lemma move_keepsCopy {src dst : Nat} (hann : src = dst → src < p.len) :
    KeepsCopy sender plid p copy (.move src dst) := by
  have hlen : copy.length = p.len := by simpa using h.length_eq
  by_cases hrej : src ≠ dst ∧ (src ≥ p.len ∨ dst ≥ p.len)
  · have hreq : handleEdit sender plid p (.move src dst) = some (p, [.reply sender [.boolean false]]) := by
      simp [handleEdit, plsMove, hrej.1, hrej.2]
    exact ⟨p, _, copy, hreq, hl, rfl, h⟩
  · have hin : src < copy.length ∧ dst < copy.length := by omega
    have happly : copy.apply (.itemMoved plid src dst) = some (moveItem copy src dst) := if_pos hin
    obtain ⟨q, hq, hmoved⟩ : ∃ q, plsMove p src dst = (true, q) ∧ Moved p src dst q :=
      plsMove_accepted (by omega) (by omega)
    have hqlen : q.len = p.len := (congrArg Pls.len hmoved.frame :)
    have hqalloc : q.alloc = p.alloc := (congrArg Pls.alloc hmoved.frame :)
    have hreq : handleEdit sender plid p (.move src dst) =
        some (q, [.reply sender [.boolean true], sendItemMoved plid src dst]) := by
      simp [handleEdit, hq]
    refine ⟨q, _, _, hreq, ?_, (receive_reply _ _ _ _).trans happly, ?_⟩
    · rw [hqlen, hqalloc]
      exact hl
    · rw [hmoved.items]
      exact rel_moveItem h src dst

omit hl in
lemma clear_keepsCopy : KeepsCopy sender plid p copy .clear := by
  obtain ⟨copy', happly, hmirrors⟩ :=
    contentsChanged_mirrors h plid (n := p.len) (i := 0) (by simp) []
  refine ⟨plsClear p, _, copy', rfl, le_rfl, (receive_ack _ _ _ _).trans happly, ?_⟩
  have hall : splice (cells p.vidx p.len) 0 p.len [] = [] := by simp [splice]
  rwa [hall] at hmirrors

theorem handleEdit_keepsCopy {m : EditMember} (hm : m.Announced p) : KeepsCopy sender plid p copy m := by
  cases m with
  | insertItem index objectids => exact insertItem_keepsCopy hl h sender plid hm.1 hm.2
  | appendItem objectids => exact appendItem_keepsCopy hl h sender plid hm
  | removeItem index => exact removeItem_keepsCopy hl h sender plid index
  | move src dst => exact move_keepsCopy hl h sender plid hm
  | clear => exact clear_keepsCopy h sender plid

end

/-! ### Whole runs -/

/-- The daemon serves a request and the client receives the signals. The copy is `none`
once a signal was not applicable. -/
def replicaStep (s : Pls × Option Copy) (e : Client × EditMember) : Option (Pls × Option Copy) :=
  (handleEdit e.1 s.1.id s.1 e.2).map fun (q, sent) => (q, s.2.bind fun copy => copy.receive sent)

/-- The runs of a playlist and of a client that starts with a copy of it. -/
abbrev ReplicaReach (guard : Pls × Option Copy → Client × EditMember → Prop) (p : Pls) :
    Pls × Option Copy → Prop :=
  Reach (fun s e t => replicaStep s e = some t) guard (p, some ((cells p.vidx p.len).map some))

/-- Every signal that reaches the client is applicable, and after each request the copy
has the length of the playlist and knows nothing wrong about it. -/
theorem signals_keep_copy {p : Pls} (hl : p.len ≤ p.alloc) {s : Pls × Option Copy}
    (h : ReplicaReach (fun s e => e.2.Announced s.1) p s) :
    (∃ copy, s.2 = some copy ∧ copy.length = s.1.len ∧
      ∀ (i : Nat) (oid : Bytes), copy[i]? = some (some oid) → plsGetItem s.1 i = some oid) ∧
    ∀ e : Client × EditMember, e.2.Announced s.1 → (replicaStep s e).isSome := by
  have hinv : s.1.len ≤ s.1.alloc ∧ ∃ copy, s.2 = some copy ∧ Mirrors copy (cells s.1.vidx s.1.len) := by
    apply h.invariant (fun s => s.1.len ≤ s.1.alloc ∧
      ∃ copy, s.2 = some copy ∧ Mirrors copy (cells s.1.vidx s.1.len))
    · exact ⟨hl, _, rfl, mirrors_copy _⟩
    · rintro s e t ⟨hle, copy, hcopy, hmirrors⟩ hann ht
      obtain ⟨q, sent, copy', hreq, hq, hreceive, hmirrors'⟩ :=
        handleEdit_keepsCopy hle hmirrors e.1 s.1.id hann
      simp only [replicaStep, hreq, Option.map_some, hcopy, Option.bind_some, hreceive,
        Option.some.injEq] at ht
      subst ht
      exact ⟨hq, copy', rfl, hmirrors'⟩
  obtain ⟨hle, copy, hcopy, hmirrors⟩ := hinv
  refine ⟨⟨copy, hcopy, by simpa using hmirrors.length_eq, fun i oid hi => ?_⟩, fun e he => ?_⟩
  · have hitem := (mirrors_iff.mp hmirrors).2 i oid hi
    have hlt : i < s.1.len := by
      obtain ⟨hlt, -⟩ := List.getElem?_eq_some_iff.mp hitem
      simpa using hlt
    rw [getElem?_cells _ hlt] at hitem
    rw [plsGetItem, if_neg (not_le.mpr hlt), hitem]
  · obtain ⟨q, sent, -, hreq, -⟩ := handleEdit_keepsCopy hle hmirrors e.1 s.1.id he
    simp [replicaStep, hreq]

/-- A playlist with the items `a`, `b` and `c`. -/
def threeItems : Pls :=
  { id := 1, name := [112], repeatMode := 0, shuffled := 0, useCount := 0, len := 3, alloc := 16,
    poolst := 0, vidx := fun i => [97 + i.toUInt8], pidx := nullArray, iidx := nullArray, dirty := true }

/-- Two insertions, a move, a refused removal and a removal. -/
theorem signals_keep_copy_threeItems : ∃ q, ReplicaReach (fun s e => e.2.Announced s.1) threeItems
      (q, some [some [97], some [99], none, none]) ∧
    ∀ i oid, [some [97], some [99], none, none][i]? = some (some oid) → plsGetItem q i = some oid := by
  have hrun : runEvents replicaStep (fun s e => e.2.Announced s.1)
      (threeItems, some ((cells threeItems.vidx threeItems.len).map some))
      [([49], .insertItem 1 [[120]]), ([49], .appendItem [[121]]), ([50], .move 3 1),
        ([49], .removeItem 9), ([49], .removeItem 3)] = some (_, some [some [97], some [99], none, none]) :=
    rfl
  have hreach := reach_of_runEvents hrun
  obtain ⟨⟨copy, hcopy, -, hknown⟩, -⟩ := signals_keep_copy (by decide) hreach
  cases hcopy
  exact ⟨_, hreach, hknown⟩

/-- A refused insertion is announced as if it had happened, and a move of an item that
does not exist onto itself is announced as well. -/
theorem signals_reach_outside :
    (∃ q, ReplicaReach (fun _ _ => True) threeItems (q, none) ∧
      handleEdit [49] 1 threeItems (.insertItem 5 [[120]]) =
        some (q, [.error [49] .invalidIndex "Wrong index", .signal (.contentsChanged 1 5 0 1)])) ∧
    ∃ q, ReplicaReach (fun _ _ => True) threeItems (q, none) ∧
      handleEdit [49] 1 threeItems (.move 7 7) =
        some (q, [.reply [49] [.boolean true], .signal (.itemMoved 1 7 7)]) := by
  constructor
  · exact ⟨threeItems, .next (e := ([49], .insertItem 5 [[120]])) .refl trivial rfl, rfl⟩
  · exact ⟨threeItems, .next (e := ([49], .move 7 7)) .refl trivial rfl, rfl⟩

end MafwShared
