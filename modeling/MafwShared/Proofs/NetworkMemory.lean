import MafwShared.BrowseNetwork
import MafwShared.Proofs.BrowseDelivery
import MafwShared.Proofs.SessionIsolation

/-!
# What each client sees of the wrapper process

The table and the heap hold the data of the sessions of all clients and sources. What a client with
its proxy of one source sees of them is a wrapper of that source alone.
-/

namespace MafwShared.BrowseNetwork
open CLib
open BrowseRequests (Source Wrapper)

variable {ι μ : Type*} {freeze : μ → Bytes} {thaw : Bytes → μ} {n n' : Network ι μ} {l l' : ι × Source}
  {w : Wrapper} {i : ι} {k : Source} {id id' : Nat} {p q : BrowseRequests.Ptr}

/-- The data of a session, which are in the table once its browse call has returned. -/
def dataOf (w : Wrapper) (id : Nat) : Option BrowseRequests.Ptr :=
  match w.browsing with
  | none => w.browseRequests id
  | some (_, id', p) => if id' = id then some p else w.browseRequests id

/-- What the table and the heap hold. -/
structure Placed (n : Network ι μ) : Prop where
  data : ∀ id p, dataOf n.wrapper id = some p →
    ∃ i k, n.owner id = some (i, k) ∧ n.sender p = some i ∧ (n.wrapper.heap p).map BrowseRequests.Request.ecomp = some k
  inj : ∀ id id' p, dataOf n.wrapper id = some p → dataOf n.wrapper id' = some p → id = id'
  held : ∀ p, n.wrapper.heap p ≠ none → ∃ id, dataOf n.wrapper id = some p
  fresh : ∀ p, n.wrapper.heap p ≠ none → p < n.wrapper.brk
  calling : ∀ k id p, n.wrapper.browsing = some (k, id, p) →
    n.wrapper.browseRequests id = none ∧ ∃ i, n.owner id = some (i, k)
  running : ∀ k id p, n.wrapper.sessions k id = some p → dataOf n.wrapper id = some p ∧ ∃ i, n.owner id = some (i, k)
  idle : ∀ id ∈ n.wrapper.idle, n.owner id ≠ none ∧ ∀ k, n.wrapper.sessions k id = none
  started : ∀ l id, (n.ends l).history.started id = true ↔ n.owner id = some l

/-- The data at an address. -/
def dataAt (w : Wrapper) (p : BrowseRequests.Ptr) : Option BrowseData := (w.heap p).map BrowseRequests.Request.data

namespace Placed

lemma dataOf_of_table (h : Placed n) (hp : n.wrapper.browseRequests id = some p) : dataOf n.wrapper id = some p := by
  unfold dataOf
  split
  · exact hp
  · rename_i k id' q hb
    split
    · rename_i hid
      subst hid
      cases (h.calling k id' q hb).1.symm.trans hp
    · exact hp

end Placed

lemma Placed.lt_brk (h : Placed n) (hp : dataOf n.wrapper id = some p) : p < n.wrapper.brk := by
  obtain ⟨i, k, -, -, hk⟩ := h.data id p hp
  refine h.fresh p fun hnone => ?_
  rw [hnone] at hk
  cases hk

lemma dataOf_of_browsing (h : w.browsing = some (k, id, p)) : dataOf w id = some p := by
  unfold dataOf
  rw [h]
  exact if_pos rfl

lemma dataOf_of_idle (h : w.browsing = none) : dataOf w id = w.browseRequests id := by
  unfold dataOf
  rw [h]

lemma owner_ne (hl : n.owner id = some l) (h : l' ≠ l) : n.owner id ≠ some l' :=
  fun heq => h (Option.some.inj (heq.symm.trans hl))

lemma Placed.owner_of_sender (h : Placed n) (hp : dataOf n.wrapper id = some p) (hsender : n.sender p = some i)
    (hl : ∃ i, n.owner id = some (i, k)) :
    n.owner id = some (i, k) ∧ (n.wrapper.heap p).map BrowseRequests.Request.ecomp = some k := by
  obtain ⟨i₀, hl₀⟩ := hl
  obtain ⟨i', k', hl', hsender', hecomp⟩ := h.data id p hp
  obtain rfl := Option.some.inj (hsender.symm.trans hsender')
  obtain rfl : k = k' := (Prod.mk.inj (Option.some.inj (hl₀.symm.trans hl'))).2
  exact ⟨hl', hecomp⟩

lemma placed_init : Placed (Network.init : Network ι μ) where
  data := by rintro _ _ ⟨⟩
  inj := by rintro _ _ _ ⟨⟩
  held _ hp := absurd rfl hp
  fresh _ hp := absurd rfl hp
  calling := by rintro _ _ _ ⟨⟩
  running := by rintro _ _ _ ⟨⟩
  idle := by rintro _ ⟨⟩
  started _ _ := by
    constructor
    · rintro ⟨⟩
    · rintro ⟨⟩

lemma Placed.congr (h : Placed n) (hbrowsing : n'.wrapper.browsing = n.wrapper.browsing)
    (htable : n'.wrapper.browseRequests = n.wrapper.browseRequests)
    (hheap : ∀ p, (n'.wrapper.heap p).map BrowseRequests.Request.ecomp =
      (n.wrapper.heap p).map BrowseRequests.Request.ecomp)
    (hbrk : n.wrapper.brk ≤ n'.wrapper.brk)
    (hsessions : ∀ k id p, n'.wrapper.sessions k id = some p → n.wrapper.sessions k id = some p)
    (hidle : ∀ id ∈ n'.wrapper.idle, n.owner id ≠ none ∧ ∀ k, n'.wrapper.sessions k id = none)
    (hsender : n'.sender = n.sender) (howner : n'.owner = n.owner)
    (hstarted : ∀ l id, (n'.ends l).history.started id = (n.ends l).history.started id) : Placed n' := by
  have hdata : ∀ id, dataOf n'.wrapper id = dataOf n.wrapper id := by
    intro id
    unfold dataOf
    rw [hbrowsing, htable]
  have hsome : ∀ p, n'.wrapper.heap p ≠ none → n.wrapper.heap p ≠ none := by
    intro p hp hnone
    have hmap := hheap p
    rw [hnone, Option.map_none] at hmap
    exact hp (Option.map_eq_none_iff.mp hmap)
  refine ⟨fun id p hp => ?_, fun id id' p hp hp' => ?_, fun p hp => ?_, fun p hp => ?_, fun k id p hp => ?_,
    fun k id p hp => ?_, fun id hid => ?_, fun l id => ?_⟩
  · rw [howner, hsender, hheap]
    exact h.data id p (hdata id ▸ hp)
  · exact h.inj id id' p (hdata id ▸ hp) (hdata id' ▸ hp')
  · obtain ⟨id, hid⟩ := h.held p (hsome p hp)
    exact ⟨id, (hdata id).trans hid⟩
  · exact (h.fresh p (hsome p hp)).trans_le hbrk
  · rw [howner, htable]
    exact h.calling k id p (hbrowsing ▸ hp)
  · rw [howner, hdata]
    exact h.running k id p (hsessions k id p hp)
  · rw [howner]
    exact hidle id hid
  · rw [howner, hstarted]
    exact h.started l id

lemma hashRemove_browsing : (w.hashRemove id).browsing = w.browsing :=
  (BrowseRequests.freeAt_fields w (w.browseRequests id)).2.1

lemma Placed.hashRemove (h : Placed n) (hbrowsing : n.wrapper.browsing = none)
    (hover : ∀ k, n.wrapper.sessions k id = none) : Placed { n with wrapper := n.wrapper.hashRemove id } := by
  have hc := BrowseRequests.hashRemove_changed n.wrapper id
  have hbrowsing' : (n.wrapper.hashRemove id).browsing = none := hashRemove_browsing.trans hbrowsing
  have hdata : ∀ id' p, dataOf (n.wrapper.hashRemove id) id' = some p → id' ≠ id ∧ dataOf n.wrapper id' = some p := by
    intro id' p hp
    rw [dataOf_of_idle hbrowsing', hc.table] at hp
    split at hp
    · cases hp
    · rename_i hid
      exact ⟨hid, (dataOf_of_idle hbrowsing).trans hp⟩
  have hkept : ∀ id' p, id' ≠ id → dataOf n.wrapper id' = some p → n.wrapper.browseRequests id ≠ some p :=
    fun id' p hid hp hentry => hid (h.inj id' id p hp (h.dataOf_of_table hentry))
  have hstays : ∀ id' p, id' ≠ id → dataOf n.wrapper id' = some p →
      dataOf (n.wrapper.hashRemove id) id' = some p := by
    intro id' p hid hp
    rw [dataOf_of_idle hbrowsing', hc.table, if_neg hid, ← dataOf_of_idle hbrowsing]
    exact hp
  refine ⟨fun id' p hp => ?_, fun id' id'' p hp hp' => ?_, fun p hp => ?_, fun p hp => ?_, fun k id' p hp => ?_,
    fun k id' p hp => ?_, fun id' hid => ?_, h.started⟩
  · obtain ⟨hid, hp⟩ := hdata id' p hp
    dsimp only
    rw [hc.heap, if_neg (hkept id' p hid hp)]
    exact h.data id' p hp
  · exact h.inj id' id'' p (hdata id' p hp).2 (hdata id'' p hp').2
  · dsimp only at hp
    rw [hc.heap] at hp
    split at hp
    · exact absurd rfl hp
    · rename_i hne
      obtain ⟨id', hid'⟩ := h.held p hp
      refine ⟨id', hstays id' p ?_ hid'⟩
      rintro rfl
      exact hne ((dataOf_of_idle hbrowsing).symm.trans hid')
  · dsimp only at hp ⊢
    rw [hc.heap] at hp
    rw [hc.brk]
    split at hp
    · exact absurd rfl hp
    · exact h.fresh p hp
  · cases hbrowsing'.symm.trans hp
  · dsimp only at hp ⊢
    rw [hc.sessions] at hp
    obtain ⟨hp', howner⟩ := h.running k id' p hp
    refine ⟨hstays id' p ?_ hp', howner⟩
    rintro rfl
    cases (hover k).symm.trans hp
  · dsimp only at hid ⊢
    rw [hc.idle] at hid
    rw [hc.sessions]
    exact h.idle id' hid

lemma Placed.endSession (h : Placed n) (k : Source) (id : Nat) :
    Placed { n with wrapper := n.wrapper.endSession k id } := by
  refine h.congr rfl rfl (fun _ => rfl) le_rfl (fun _ _ _ hs => (BrowseRequests.endSession_of_some hs).1)
    (fun id' hid => ⟨(h.idle id' hid).1, fun k' => ?_⟩) rfl rfl fun _ _ => rfl
  dsimp only
  rw [BrowseRequests.endSession_sessions]
  split
  · rfl
  · exact (h.idle id' hid).2 k'

lemma Placed.endSession_none (h : Placed n) (hl : n.owner id = some (i, k)) (k' : Source) :
    (n.wrapper.endSession k id).sessions k' id = none := by
  cases hs : (n.wrapper.endSession k id).sessions k' id with
  | none => rfl
  | some q =>
    obtain ⟨hs', hne⟩ := BrowseRequests.endSession_of_some hs
    obtain ⟨-, i', howner⟩ := h.running k' id q hs'
    cases hl.symm.trans howner
    exact absurd ⟨rfl, rfl⟩ hne

/-- A refused cancel of a session that is over does what any cancel does. -/
lemma handleCancelBrowse_over {error : Bool} (hover : error = true → w.sessions k id = none) :
    (w.handleCancelBrowse k id error).1 = (w.endSession k id).hashRemove id := by
  cases error with
  | false => rfl
  | true =>
    have hsame : w.endSession k id = w := by
      unfold BrowseRequests.Wrapper.endSession
      rw [← hover rfl, Function.update_eq_self, Function.update_eq_self]
    rw [hsame]
    rfl

/-- The session is over, and its entry is to be removed. -/
def ended (w : Wrapper) (k : Source) (id : Nat) : Wrapper := { w.endSession k id with idle := w.idle ++ [id] }

lemma Placed.ended (h : Placed n) (hl : n.owner id = some (i, k)) :
    Placed { n with wrapper := BrowseNetwork.ended n.wrapper k id } := by
  refine (h.endSession k id).congr rfl rfl (fun _ => rfl) le_rfl (fun _ _ _ hs => hs) (fun id' hid => ?_) rfl rfl
    fun _ _ => rfl
  rcases List.mem_append.mp hid with hid | hid
  · exact (h.endSession k id).idle id' hid
  · obtain rfl := List.mem_singleton.mp hid
    refine ⟨?_, h.endSession_none hl⟩
    rw [hl]
    exact Option.some_ne_none _

lemma Placed.start (h : Placed n) (hbrowsing : n.wrapper.browsing = none) (hnew : n.owner id = none)
    (hown : n'.wrapper = n.wrapper.browse k id) (hsender : n'.sender = Function.update n.sender n.wrapper.brk (some i))
    (howner : n'.owner = Function.update n.owner id (some (i, k)))
    (hstarted : ∀ l id', (n'.ends l).history.started id' = true ↔
      (n.ends l).history.started id' = true ∨ l = (i, k) ∧ id' = id) : Placed n' := by
  have hdata : ∀ id', dataOf n'.wrapper id' = if id' = id then some n.wrapper.brk else dataOf n.wrapper id' := by
    intro id'
    rw [hown, dataOf_of_idle hbrowsing, dataOf]
    exact if_congr eq_comm rfl rfl
  have hheap : ∀ q, q ≠ n.wrapper.brk → n'.wrapper.heap q = n.wrapper.heap q := fun q hq =>
    hown ▸ BrowseRequests.malloc_heap_ne n.wrapper _ hq
  have hself : n'.wrapper.heap n.wrapper.brk = some ⟨k, BrowseData.init⟩ := hown ▸ Function.update_self _ _ _
  have holder : ∀ id', id' ≠ id → n'.owner id' = n.owner id' := fun id' hid => howner ▸ Function.update_of_ne hid _ _
  have hmine : n'.owner id = some (i, k) := howner ▸ Function.update_self _ _ _
  refine ⟨fun id' q hq => ?_, fun id' id'' q hq hq' => ?_, fun q hq => ?_, fun q hq => ?_, fun k' id' q hq => ?_,
    fun k' id' q hq => ?_, fun id' hid => ?_, fun l id' => ?_⟩
  · rw [hdata] at hq
    split at hq
    · rename_i hid
      subst hid
      cases hq
      exact ⟨i, k, hmine, hsender ▸ Function.update_self _ _ _, by rw [hself, Option.map_some]⟩
    · rename_i hid
      have hne := (h.lt_brk hq).ne
      rw [holder id' hid, hheap q hne, hsender, Function.update_of_ne hne]
      exact h.data id' q hq
  · rw [hdata] at hq hq'
    split at hq <;> split at hq'
    · rename_i hid hid'
      exact hid.trans hid'.symm
    · cases hq
      exact absurd rfl (h.lt_brk hq').ne
    · cases hq'
      exact absurd rfl (h.lt_brk hq).ne
    · exact h.inj id' id'' q hq hq'
  · by_cases hbrk : q = n.wrapper.brk
    · exact ⟨id, by rw [hdata, if_pos rfl, hbrk]⟩
    · rw [hheap q hbrk] at hq
      obtain ⟨id', hid'⟩ := h.held q hq
      refine ⟨id', ?_⟩
      rw [hdata, if_neg]
      · exact hid'
      · rintro rfl
        obtain ⟨i', k', howner', -⟩ := h.data id' q hid'
        cases hnew.symm.trans howner'
  · have hsucc : n'.wrapper.brk = n.wrapper.brk + 1 := hown ▸ rfl
    rw [hsucc]
    by_cases hbrk : q = n.wrapper.brk
    · exact hbrk ▸ Nat.lt_succ_self _
    · exact (h.fresh q (hheap q hbrk ▸ hq)).trans (Nat.lt_succ_self _)
  · rw [hown] at hq
    cases hq
    refine ⟨?_, i, hmine⟩
    cases hentry : n.wrapper.browseRequests id with
    | none => exact hown ▸ hentry
    | some q =>
      obtain ⟨i', k', howner', -⟩ := h.data id q (h.dataOf_of_table hentry)
      cases hnew.symm.trans howner'
  · rw [hown, BrowseRequests.browse_sessions] at hq
    rw [hdata]
    split at hq
    · rename_i hsame
      obtain ⟨rfl, rfl⟩ := hsame
      exact ⟨(if_pos rfl).trans hq, i, hmine⟩
    · obtain ⟨hq', i', howner'⟩ := h.running k' id' q hq
      have hid : id' ≠ id := by
        rintro rfl
        cases hnew.symm.trans howner'
      rw [if_neg hid, holder id' hid]
      exact ⟨hq', i', howner'⟩
  · rw [hown] at hid
    obtain ⟨hne, hover⟩ := h.idle id' hid
    have hdiff : id' ≠ id := by
      rintro rfl
      exact hne hnew
    rw [holder id' hdiff, hown]
    refine ⟨hne, fun k' => ?_⟩
    rw [BrowseRequests.browse_sessions, if_neg fun hsame => hdiff hsame.2]
    exact hover k'
  · rw [hstarted, h.started]
    by_cases hid : id' = id
    · subst hid
      rw [hmine, hnew]
      exact ⟨fun hor => hor.elim (fun hn => by cases hn) fun hl => congrArg some hl.1.symm,
        fun hl => .inr ⟨(Option.some.inj hl).symm, rfl⟩⟩
    · rw [holder id' hid]
      exact ⟨fun hor => hor.resolve_right fun hl => hid hl.2, .inl⟩

lemma Placed.returns (h : Placed n) (hb : n.wrapper.browsing = some (k, id, p)) :
    Placed { n with wrapper := n.wrapper.browseReturns.1 } := by
  obtain ⟨hnone, i, howner⟩ := h.calling k id p hb
  have hc := BrowseRequests.hashReplace_changed n.wrapper id p
  have hreturns : n.wrapper.browseReturns.1 = { n.wrapper.hashReplace id p with browsing := none } := by
    rw [BrowseRequests.Wrapper.browseReturns, hb]
  have hdata : ∀ id', dataOf { n.wrapper.hashReplace id p with browsing := none } id' = dataOf n.wrapper id' := by
    intro id'
    rw [dataOf_of_idle rfl, hc.table, dataOf, hb]
    dsimp only
    by_cases hid : id' = id
    · rw [if_pos hid, if_pos hid.symm]
    · rw [if_neg hid, if_neg (Ne.symm hid)]
  have hheap : ∀ q, (n.wrapper.hashReplace id p).heap q = n.wrapper.heap q := by
    intro q
    refine (hc.heap q).trans (if_neg ?_)
    rw [hnone]
    exact (Option.some_ne_none q).symm
  rw [hreturns]
  refine ⟨fun id' q hq => ?_, fun id' id'' q hq hq' => ?_, fun q hq => ?_, fun q hq => ?_, fun k' id' q hq => ?_,
    fun k' id' q hq => ?_, fun id' hid => ?_, h.started⟩
  · dsimp only
    rw [hheap]
    exact h.data id' q (hdata id' ▸ hq)
  · exact h.inj id' id'' q (hdata id' ▸ hq) (hdata id'' ▸ hq')
  · obtain ⟨id', hid'⟩ := h.held q (hheap q ▸ hq)
    exact ⟨id', (hdata id').trans hid'⟩
  · exact (h.fresh q (hheap q ▸ hq)).trans_eq hc.brk.symm
  · cases hq
  · have hq' := congrFun (congrFun hc.sessions k') id' ▸ hq
    obtain ⟨hdata', howner'⟩ := h.running k' id' q hq'
    exact ⟨(hdata id').trans hdata', howner'⟩
  · have hid' := hc.idle ▸ hid
    obtain ⟨hne, hover⟩ := h.idle id' hid'
    exact ⟨hne, fun k' => (congrFun (congrFun hc.sessions k') id').trans (hover k')⟩

/-- A write through the pointer that the source has. -/
def store (w : Wrapper) (p : BrowseRequests.Ptr) (req : BrowseRequests.Request) : Wrapper :=
  { w with heap := Function.update w.heap p (some req) }

lemma dataAt_store_self (req : BrowseRequests.Request) : dataAt (store w p req) p = some req.data := by
  unfold dataAt store
  dsimp only
  rw [Function.update_self, Option.map_some]

lemma dataAt_store_of_ne (h : q ≠ p) (req : BrowseRequests.Request) : dataAt (store w p req) q = dataAt w q := by
  unfold dataAt store
  dsimp only
  rw [Function.update_of_ne h]

namespace Placed

lemma dataAt_some (h : Placed n) (hp : dataOf n.wrapper id = some p) : ∃ d, dataAt n.wrapper p = some d := by
  obtain ⟨i, k, -, -, hk⟩ := h.data id p hp
  obtain ⟨req, hreq, -⟩ := Option.map_eq_some_iff.mp hk
  exact ⟨req.data, by rw [dataAt, hreq, Option.map_some]⟩

lemma dataAt_browse (h : Placed n) (hq : dataOf n.wrapper id' = some q) :
    dataAt (n.wrapper.browse k id) q = dataAt n.wrapper q := by
  unfold dataAt
  exact congrArg (Option.map BrowseRequests.Request.data) (BrowseRequests.malloc_heap_ne n.wrapper _ (h.lt_brk hq).ne)

lemma dataAt_remove (h : Placed n) (hq : dataOf n.wrapper id' = some q) (hid : id' ≠ id) :
    dataAt (n.wrapper.hashRemove id) q = dataAt n.wrapper q := by
  unfold dataAt
  rw [(BrowseRequests.hashRemove_changed n.wrapper id).heap, if_neg]
  exact fun hentry => hid (h.inj id' id q hq (h.dataOf_of_table hentry))

lemma returns_changed (h : Placed n) (hb : n.wrapper.browsing = some (k, id, p)) :
    BrowseRequests.EntryChanged n.wrapper id (some p) n.wrapper.browseReturns.1 ∧
      n.wrapper.browseReturns.1.browsing = none ∧
      ∀ q, dataAt n.wrapper.browseReturns.1 q = dataAt n.wrapper q := by
  have hreturns : n.wrapper.browseReturns.1 = { n.wrapper.hashReplace id p with browsing := none } := by
    rw [BrowseRequests.Wrapper.browseReturns, hb]
  have hc := BrowseRequests.hashReplace_changed n.wrapper id p
  rw [hreturns]
  refine ⟨hc, rfl, fun q => ?_⟩
  unfold dataAt
  rw [hc.heap, if_neg]
  rw [(h.calling k id p hb).1]
  exact (Option.some_ne_none q).symm

end Placed

section
variable [DecidableEq ι] {owner owner' : Nat → Option (ι × Source)} {w' : Wrapper}

/-- The wrapper as one client and one of its sources have it. -/
def sourceWrapper (owner : Nat → Option (ι × Source)) (w : Wrapper) (l : ι × Source) : SourceWrapper :=
  { browseRequests := fun id => if owner id = some l then (w.browseRequests id).bind (dataAt w) else none
    browsing := w.browsing.bind fun e => if owner e.2.1 = some l then (dataAt w e.2.2).map (e.2.1, ·) else none
    idle := w.idle.filter fun id => owner id = some l }

/-- A client, its proxy of a source, and this source. -/
def view (n : Network ι μ) (l : ι × Source) : Browsing μ := (n.ends l).beside (sourceWrapper n.owner n.wrapper l)

lemma sourceWrapper_ext {a b : SourceWrapper} (hrequests : ∀ id, a.browseRequests id = b.browseRequests id)
    (hbrowsing : a.browsing = b.browsing) (hidle : a.idle = b.idle) : a = b := by
  obtain ⟨requests, browsing, idle⟩ := a
  obtain ⟨requests', browsing', idle'⟩ := b
  obtain rfl : requests = requests' := funext hrequests
  cases hbrowsing
  cases hidle
  rfl

lemma sourceWrapper_browsing (hp : w.browsing = some (k, id, p)) :
    (sourceWrapper owner w l).browsing = if owner id = some l then (dataAt w p).map (id, ·) else none := by
  rw [sourceWrapper, hp]
  rfl

lemma sourceWrapper_other (howner : ∀ id, owner' id = some l ↔ owner id = some l)
    (htable : ∀ id, owner id = some l → w'.browseRequests id = w.browseRequests id)
    (hbrowsing : ∀ e, owner e.2.1 = some l → (w'.browsing = some e ↔ w.browsing = some e))
    (hentry : ∀ id q, owner id = some l → w.browseRequests id = some q → dataAt w' q = dataAt w q)
    (hcall : ∀ k id q, owner id = some l → w.browsing = some (k, id, q) → dataAt w' q = dataAt w q)
    (hidle : (w'.idle.filter fun id => owner' id = some l) = w.idle.filter fun id => owner id = some l) :
    sourceWrapper owner' w' l = sourceWrapper owner w l := by
  refine sourceWrapper_ext (fun id => ?_) ?_ hidle
  · dsimp only [sourceWrapper]
    by_cases hl : owner id = some l
    · rw [if_pos hl, if_pos ((howner id).mpr hl), htable id hl]
      cases hq : w.browseRequests id with
      | none => rfl
      | some q => exact hentry id q hl hq
    · rw [if_neg hl, if_neg fun hl' => hl ((howner id).mp hl')]
  · by_cases hmine : ∃ e, w.browsing = some e ∧ owner e.2.1 = some l
    · obtain ⟨⟨k, id, q⟩, hq, hl⟩ := hmine
      rw [sourceWrapper_browsing hq, sourceWrapper_browsing ((hbrowsing _ hl).mpr hq), if_pos hl,
        if_pos ((howner id).mpr hl), hcall k id q hl hq]
    · have hnone : (sourceWrapper owner w l).browsing = none := by
        refine Option.bind_eq_none_iff.mpr fun e he => if_neg fun hl => hmine ⟨e, he, hl⟩
      have hnone' : (sourceWrapper owner' w' l).browsing = none := by
        refine Option.bind_eq_none_iff.mpr fun e he => if_neg fun hl => ?_
        have hl' := (howner _).mp hl
        exact hmine ⟨e, (hbrowsing e hl').mp he, hl'⟩
      rw [hnone, hnone']

/-! ### The session of a call and the sessions of the table -/

section
variable {v : SourceWrapper} {b b' : BrowseData}

lemma userData_of_browsing (h : v.browsing = some (id, b)) : v.userData id = some b := by
  rw [SourceWrapper.userData, h]
  exact if_pos rfl

lemma userData_of_table (h : ∀ b, v.browsing ≠ some (id, b)) : v.userData id = v.browseRequests id := by
  unfold SourceWrapper.userData
  split
  · rfl
  · rename_i id' b hb
    refine if_neg ?_
    rintro rfl
    exact h b hb

lemma write_of_browsing (h : v.browsing = some (id, b)) : v.write id b' = { v with browsing := some (id, b') } := by
  rw [SourceWrapper.write, h]
  exact if_pos rfl

lemma write_of_table (h : ∀ b, v.browsing ≠ some (id, b)) :
    v.write id b' = { v with browseRequests := Function.update v.browseRequests id (some b') } := by
  unfold SourceWrapper.write
  split
  · rfl
  · rename_i id' b hb
    refine if_neg ?_
    rintro rfl
    exact h b hb

end

/-- The data of a session are those of the call under way, or in the table. -/
lemma dataOf_cases (hp : dataOf n.wrapper id = some p) (hl : n.owner id = some l) :
    (∃ k, n.wrapper.browsing = some (k, id, p)) ∨
      n.wrapper.browseRequests id = some p ∧ ∀ b, (sourceWrapper n.owner n.wrapper l).browsing ≠ some (id, b) := by
  unfold dataOf at hp
  split at hp
  · rename_i hb
    refine .inr ⟨hp, fun b hb' => ?_⟩
    rw [sourceWrapper, hb, Option.bind_none] at hb'
    cases hb'
  · rename_i k id' q hb
    split at hp
    · rename_i hid
      subst hid
      cases hp
      exact .inl ⟨k, hb⟩
    · rename_i hid
      refine .inr ⟨hp, fun b hb' => ?_⟩
      rw [sourceWrapper_browsing hb] at hb'
      split at hb'
      · obtain ⟨d, -, hd⟩ := Option.map_eq_some_iff.mp hb'
        exact hid (Prod.mk.inj hd).1
      · cases hb'

lemma Placed.userData (h : Placed n) (hp : dataOf n.wrapper id = some p) (hl : n.owner id = some l) :
    (sourceWrapper n.owner n.wrapper l).userData id = dataAt n.wrapper p := by
  rcases dataOf_cases hp hl with ⟨k, hb⟩ | ⟨htable, hb⟩
  · obtain ⟨d, hd⟩ := h.dataAt_some hp
    rw [hd]
    refine userData_of_browsing ?_
    rw [sourceWrapper_browsing hb, if_pos hl, hd, Option.map_some]
  · rw [userData_of_table hb]
    dsimp only [sourceWrapper]
    rw [if_pos hl, htable, Option.bind_some]

lemma Placed.write (h : Placed n) (hp : dataOf n.wrapper id = some p) (hl : n.owner id = some l)
    (req : BrowseRequests.Request) :
    sourceWrapper n.owner (store n.wrapper p req) l = (sourceWrapper n.owner n.wrapper l).write id req.data := by
  have hentry : ∀ id', n.wrapper.browseRequests id' ≠ some p →
      (n.wrapper.browseRequests id').bind (dataAt (store n.wrapper p req)) =
        (n.wrapper.browseRequests id').bind (dataAt n.wrapper) := by
    intro id' hne
    cases hq : n.wrapper.browseRequests id' with
    | none => rfl
    | some q => exact dataAt_store_of_ne (fun hqp => hne (hq.trans (congrArg some hqp))) req
  rcases dataOf_cases hp hl with ⟨k, hb⟩ | ⟨htable, hb⟩
  · obtain ⟨d, hd⟩ := h.dataAt_some hp
    have hbrowsing : (sourceWrapper n.owner n.wrapper l).browsing = some (id, d) := by
      rw [sourceWrapper_browsing hb, if_pos hl, hd, Option.map_some]
    rw [write_of_browsing hbrowsing]
    refine sourceWrapper_ext (fun id' => if_congr Iff.rfl (hentry id' fun hq => ?_) rfl) ?_ rfl
    · obtain rfl := h.inj id id' p hp (h.dataOf_of_table hq)
      cases (h.calling k id p hb).1.symm.trans hq
    · have hb' : (store n.wrapper p req).browsing = some (k, id, p) := hb
      rw [sourceWrapper_browsing hb', if_pos hl, dataAt_store_self, Option.map_some]
  · rw [write_of_table hb]
    refine sourceWrapper_ext (fun id' => ?_) ?_ rfl
    · dsimp only [sourceWrapper, store]
      by_cases hid : id' = id
      · subst hid
        rw [Function.update_self, if_pos hl, htable]
        exact dataAt_store_self req
      · rw [Function.update_of_ne hid]
        exact if_congr Iff.rfl (hentry id' fun hq => hid (h.inj id' id p (h.dataOf_of_table hq) hp)) rfl
    · cases hb₀ : n.wrapper.browsing with
      | none => rw [sourceWrapper, sourceWrapper, store, hb₀, Option.bind_none, Option.bind_none]
      | some e =>
        obtain ⟨k, id', q⟩ := e
        have hb' : (store n.wrapper p req).browsing = some (k, id', q) := hb₀
        dsimp only
        rw [sourceWrapper_browsing hb', sourceWrapper_browsing hb₀, dataAt_store_of_ne]
        rintro rfl
        have hq := dataOf_of_browsing hb₀
        obtain rfl := h.inj id' id q hq hp
        obtain ⟨d, hd⟩ := h.dataAt_some hq
        exact hb d (by rw [sourceWrapper_browsing hb₀, if_pos hl, hd, Option.map_some])

lemma Placed.write_other (h : Placed n) (hp : dataOf n.wrapper id = some p) (hl : n.owner id ≠ some l)
    (req : BrowseRequests.Request) :
    sourceWrapper n.owner (store n.wrapper p req) l = sourceWrapper n.owner n.wrapper l := by
  have hkept : ∀ id' q, n.owner id' = some l → dataOf n.wrapper id' = some q →
      dataAt (store n.wrapper p req) q = dataAt n.wrapper q := by
    intro id' q hl' hq
    refine dataAt_store_of_ne ?_ req
    rintro rfl
    exact hl (h.inj id' id q hq hp ▸ hl')
  exact sourceWrapper_other (fun _ => Iff.rfl) (fun _ _ => rfl) (fun _ _ => Iff.rfl)
    (fun id' q hl' hq => hkept id' q hl' (h.dataOf_of_table hq))
    (fun _ id' q hl' hq => hkept id' q hl' (dataOf_of_browsing hq)) rfl

/-! ### Entries that come and go -/

lemma Placed.browse_own (h : Placed n) (hnew : n.owner id = none) :
    sourceWrapper (Function.update n.owner id (some l)) (n.wrapper.browse l.2 id) l =
      { sourceWrapper n.owner n.wrapper l with browsing := some (id, BrowseData.init) } := by
  refine sourceWrapper_ext (fun id' => ?_) ?_ ?_
  · dsimp only [sourceWrapper]
    change (if _ then (n.wrapper.browseRequests id').bind _ else none) = _
    cases hq : n.wrapper.browseRequests id' with
    | none => rw [Option.bind_none, Option.bind_none, ite_self, ite_self]
    | some q =>
      have hdata := h.dataOf_of_table hq
      have hid : id' ≠ id := by
        rintro rfl
        obtain ⟨i', k', howner, -⟩ := h.data id' q hdata
        cases hnew.symm.trans howner
      rw [Function.update_of_ne hid, Option.bind_some, Option.bind_some, h.dataAt_browse hdata]
  · have hcall : (n.wrapper.browse l.2 id).browsing = some (l.2, id, n.wrapper.brk) := rfl
    rw [sourceWrapper_browsing hcall, if_pos (Function.update_self _ _ _)]
    have hself : (n.wrapper.browse l.2 id).heap n.wrapper.brk = some ⟨l.2, BrowseData.init⟩ :=
      Function.update_self _ _ _
    rw [dataAt, hself]
    rfl
  · refine List.filter_congr fun id' hid' => ?_
    have hid : id' ≠ id := by
      rintro rfl
      exact (h.idle id' hid').1 hnew
    rw [Function.update_of_ne hid]

lemma Placed.browse_other (h : Placed n) (hbrowsing : n.wrapper.browsing = none) (hnew : n.owner id = none)
    (hl : l' ≠ l) : sourceWrapper (Function.update n.owner id (some l')) (n.wrapper.browse l'.2 id) l =
      sourceWrapper n.owner n.wrapper l := by
  have howner : ∀ id', Function.update n.owner id (some l') id' = some l ↔ n.owner id' = some l := by
    intro id'
    by_cases hid : id' = id
    · subst hid
      rw [Function.update_self, hnew]
      exact ⟨fun heq => absurd (Option.some.inj heq) hl, fun hn => by cases hn⟩
    · rw [Function.update_of_ne hid]
  refine sourceWrapper_other howner (fun _ _ => rfl) (fun e he => ?_) (fun id' q _ hq => ?_)
    (fun k' id' q _ hq => ?_) ?_
  · refine ⟨fun hb => ?_, fun hb => ?_⟩
    · cases hb
      cases hnew.symm.trans he
    · cases hbrowsing.symm.trans hb
  · exact h.dataAt_browse (h.dataOf_of_table hq)
  · cases hbrowsing.symm.trans hq
  · refine List.filter_congr fun id' _ => ?_
    rw [decide_eq_decide]
    exact howner id'

lemma Placed.returns_own (h : Placed n) (hb : n.wrapper.browsing = some (k, id, p)) (hl : n.owner id = some l) :
    ∃ b, (sourceWrapper n.owner n.wrapper l).browsing = some (id, b) ∧
      sourceWrapper n.owner n.wrapper.browseReturns.1 l =
        { sourceWrapper n.owner n.wrapper l with
          browsing := none
          browseRequests := Function.update (sourceWrapper n.owner n.wrapper l).browseRequests id (some b) } := by
  obtain ⟨b, hdata⟩ := h.dataAt_some (dataOf_of_browsing hb)
  obtain ⟨hc, hnone, hheap⟩ := h.returns_changed hb
  refine ⟨b, by rw [sourceWrapper_browsing hb, if_pos hl, hdata, Option.map_some], ?_⟩
  refine sourceWrapper_ext (fun id' => ?_) ?_ (by rw [sourceWrapper, hc.idle]; rfl)
  · dsimp only [sourceWrapper]
    rw [hc.table]
    by_cases hid : id' = id
    · subst hid
      rw [if_pos rfl, if_pos hl, Function.update_self, Option.bind_some, hheap, hdata]
    · rw [if_neg hid, Function.update_of_ne hid]
      exact if_congr Iff.rfl (Option.bind_congr fun q _ => hheap q) rfl
  · rw [sourceWrapper, hnone]
    rfl

lemma Placed.returns_other (h : Placed n) (hb : n.wrapper.browsing = some (k, id, p)) (hl : n.owner id ≠ some l) :
    sourceWrapper n.owner n.wrapper.browseReturns.1 l = sourceWrapper n.owner n.wrapper l := by
  obtain ⟨hc, hnone, hheap⟩ := h.returns_changed hb
  refine sourceWrapper_other (fun _ => Iff.rfl) (fun id' hl' => ?_) (fun e he => ?_) (fun _ q _ _ => hheap q)
    (fun _ _ q _ _ => hheap q) (by rw [hc.idle])
  · rw [hc.table, if_neg]
    rintro rfl
    exact hl hl'
  · rw [hnone, hb]
    refine ⟨fun hn => (by cases hn), fun heq => ?_⟩
    cases heq
    exact absurd he hl

lemma Placed.remove_own (h : Placed n) (hbrowsing : n.wrapper.browsing = none) :
    sourceWrapper n.owner (n.wrapper.hashRemove id) l = (sourceWrapper n.owner n.wrapper l).remove id := by
  have hc := BrowseRequests.hashRemove_changed n.wrapper id
  refine sourceWrapper_ext (fun id' => ?_) ?_ (by rw [sourceWrapper, hc.idle]; rfl)
  · dsimp only [sourceWrapper, SourceWrapper.remove]
    rw [hc.table]
    by_cases hid : id' = id
    · rw [if_pos hid, hid, Function.update_self, Option.bind_none, ite_self]
    · rw [if_neg hid, Function.update_of_ne hid]
      exact if_congr Iff.rfl (Option.bind_congr fun q hq => h.dataAt_remove (h.dataOf_of_table hq) hid) rfl
  · change _ = (sourceWrapper n.owner n.wrapper l).browsing
    rw [sourceWrapper, sourceWrapper, hashRemove_browsing, hbrowsing, Option.bind_none, Option.bind_none]

lemma Placed.remove_other (h : Placed n) (hbrowsing : n.wrapper.browsing = none) (hl : n.owner id ≠ some l) :
    sourceWrapper n.owner (n.wrapper.hashRemove id) l = sourceWrapper n.owner n.wrapper l := by
  have hc := BrowseRequests.hashRemove_changed n.wrapper id
  have hother : ∀ id', n.owner id' = some l → id' ≠ id := by
    rintro id' hl' rfl
    exact hl hl'
  refine sourceWrapper_other (fun _ => Iff.rfl) (fun id' hl' => ?_) (fun e _ => by rw [hashRemove_browsing])
    (fun id' q hl' hq => h.dataAt_remove (h.dataOf_of_table hq) (hother id' hl')) (fun k' id' q _ hq => ?_)
    (by rw [hc.idle])
  · rw [hc.table, if_neg (hother id' hl')]
  · cases hbrowsing.symm.trans hq

end

end MafwShared.BrowseNetwork
