import MafwShared.Proofs.NetworkMemory

/-!
# Browse results are delivered to all clients

Every step of all the clients and sources is one of a client with a source, or nothing, for each of
them, so that a run of all is a run of each.
-/

namespace MafwShared.BrowseNetwork
open CLib
open BrowseRequests (Source Wrapper)

variable {ι μ : Type*} {freeze : μ → Bytes} {thaw : Bytes → μ} {n n' : Network ι μ} {l l' : ι × Source}
  {w : Wrapper} {i : ι} {k : Source} {id : Nat} {p : BrowseRequests.Ptr} [DecidableEq ι]

/-! ### The ends -/

lemma setEnd_self (n : Network ι μ) (l : ι × Source) (c : ProxyEnd μ) : (n.setEnd l c).ends l = c :=
  Function.update_self _ _ _

lemma setEnd_other (n : Network ι μ) (c : ProxyEnd μ) (h : l' ≠ l) : (n.setEnd l c).ends l' = n.ends l' :=
  Function.update_of_ne h _ _

lemma foldl_post (maxresults : Nat) (messages : List ResultMessage) :
    (messages.map (BrowseRequests.Sent.result k)).foldl (Network.post i maxresults) n =
      n.setEnd (i, k) ((n.ends (i, k)).sent maxresults messages) := by
  induction messages generalizing n with
  | nil =>
    have hsame : (n.ends (i, k)).sent maxresults [] = n.ends (i, k) := by
      simp only [ProxyEnd.sent, List.map_nil, List.append_nil]
    rw [hsame, Network.setEnd, Function.update_eq_self]
    rfl
  | cons m messages ih =>
    rw [List.map_cons, List.foldl_cons, ih, Network.post, setEnd_self]
    simp only [Network.setEnd, Function.update_idem, ProxyEnd.sent, List.append_assoc, List.cons_append,
      List.nil_append, List.map_cons, List.map_nil]

/-- What a client and its proxy do does not depend on the wrapper. -/
lemma step_beside (c : ProxyEnd μ) (v : SourceWrapper) (e : ClientEvent) :
    (c.beside v).step freeze thaw e.event = (c.step freeze thaw e).map (·.beside v) := by
  obtain ⟨inbox, proxy, history⟩ := c
  cases e with
  | browse =>
    change (if proxy.Free then _ else _) = Option.map _ (Option.map _ (if proxy.Free then _ else _))
    split <;> rfl
  | receiveReply =>
    simp only [ProxyEnd.step, ProxyEnd.beside, ClientEvent.event, Browsing.step]
    split <;> rfl
  | cancelBrowse browseId =>
    change (if proxy.Free then _ else _) = Option.map _ (Option.map _ (if proxy.Free then _ else _))
    split
    · cases hreq : proxy.browseRequests browseId <;>
        simp only [Browsing.cancelBrowse, ProxyEnd.beside, hreq, Option.map_some]
    · rfl
  | dispatch =>
    simp only [ProxyEnd.step, ProxyEnd.beside, ClientEvent.event, Browsing.step]
    split <;> rfl
  | iterate =>
    simp only [ProxyEnd.step, ProxyEnd.beside, ClientEvent.event, Browsing.step]
    split
    · rename_i i rest newReq hd
      cases rest with
      | nil => rfl
      | cons m rest =>
        simp only [Browsing.iterate]
        split
        · rfl
        · split <;> rfl
    · rfl
  | callbackReturn =>
    simp only [ProxyEnd.step, ProxyEnd.beside, ClientEvent.event, Browsing.step]
    split
    · rename_i i c rest hd hcall
      cases hreq : proxy.browseRequests i with
      | none => rfl
      | some req =>
        simp only [Option.map_some]
        split <;> rfl
    · rfl

lemma iterate_started (s : Browsing μ) (newReq : Bool) (rest : List ResultStruct) :
    (s.iterate thaw id newReq rest).history.started = s.history.started := by
  cases rest with
  | nil => rfl
  | cons m rest =>
    cases newReq with
    | true => rfl
    | false =>
      cases hreq : s.proxy.browseRequests id <;>
        simp [Browsing.iterate, hreq, Browsing.setDispatch, Browsing.delivered]

lemma step_started {c c' : ProxyEnd μ} {e : ClientEvent} (he : c.step freeze thaw e = some c') :
    c'.history.started = c.history.started := by
  obtain ⟨t, ht, rfl⟩ := Option.map_eq_some_iff.mp he
  cases e with
  | browse =>
    cases Browsing.Stepped.of_step ht
    rfl
  | receiveReply => cases Browsing.Stepped.of_step ht <;> rfl
  | cancelBrowse browseId =>
    cases Browsing.Stepped.of_step ht
    unfold Browsing.cancelBrowse
    split <;> rfl
  | dispatch =>
    cases Browsing.Stepped.of_step ht
    rfl
  | iterate =>
    cases Browsing.Stepped.of_step ht
    exact iterate_started _ _ _
  | callbackReturn =>
    cases Browsing.Stepped.of_step ht
    split <;> rfl

/-! ### Steps -/

/-- What a client with its proxy sees of a step. -/
def Seen (freeze : μ → Bytes) (thaw : Bytes → μ) (s t : Browsing μ) : Prop :=
  t = s ∨ ∃ e, SourceKeeps s e ∧ s.step freeze thaw e = some t

/-- What the table and the heap hold stays in order, and a client with a proxy sees a step of theirs or nothing. -/
def Projected (freeze : μ → Bytes) (thaw : Bytes → μ) (n n' : Network ι μ) : Prop :=
  Placed n' ∧ ∀ l, Seen freeze thaw (view n l) (view n' l)

lemma view_eq {c : ProxyEnd μ} {v : SourceWrapper} (hend : n.ends l = c)
    (hwrapper : sourceWrapper n.owner n.wrapper l = v) : view n l = c.beside v := by
  rw [view, hend, hwrapper]

lemma Placed.userData_view (h : Placed n) (hp : dataOf n.wrapper id = some p) (hl : n.owner id = some l)
    {req : BrowseRequests.Request} (hreq : n.wrapper.heap p = some req) :
    (view n l).wrapper.userData id = some req.data := by
  refine (h.userData hp hl).trans ?_
  rw [dataAt, hreq, Option.map_some]

lemma seen_own {e : BrowseEvent μ} (hkeeps : SourceKeeps (view n l) e)
    (hstep : (view n l).step freeze thaw e = some (view n' l))
    (hends : ∀ l', l' ≠ l → n'.ends l' = n.ends l')
    (hother : ∀ l', l' ≠ l → sourceWrapper n'.owner n'.wrapper l' = sourceWrapper n.owner n.wrapper l')
    (l' : ι × Source) : Seen freeze thaw (view n l') (view n' l') := by
  by_cases hl : l' = l
  · subst hl
    exact .inr ⟨e, hkeeps, hstep⟩
  · refine .inl ?_
    rw [view, view, hends l' hl, hother l' hl]

lemma Placed.setEnd (h : Placed n) {c : ProxyEnd μ} (hc : c.history.started = (n.ends l).history.started) :
    Placed (n.setEnd l c) := by
  refine h.congr rfl rfl (fun _ => rfl) le_rfl (fun _ _ _ hs => hs) h.idle rfl rfl fun l' id => ?_
  by_cases hl : l' = l
  · rw [hl, setEnd_self, hc]
  · rw [setEnd_other n c hl]

lemma client_projected (h : Placed n) {e : ClientEvent} {c : ProxyEnd μ}
    (he : (n.ends l).step freeze thaw e = some c) : Projected freeze thaw n (n.setEnd l c) := by
  refine ⟨h.setEnd (step_started he), seen_own (e := e.event) ?_ ?_ (fun l' hl => setEnd_other n c hl)
    fun _ _ => rfl⟩
  · cases e <;> trivial
  · rw [view, step_beside, he, view, setEnd_self]
    rfl

lemma sourceWrapper_idle {owner : Nat → Option (ι × Source)} (h : w.browsing = none) :
    (sourceWrapper owner w l).browsing = none := by
  rw [sourceWrapper, h]
  rfl

lemma start_projected (h : Placed n) (hcall : (n.ends (i, k)).proxy.call = .browse)
    (hbrowsing : n.wrapper.browsing = none) (hnew : n.owner id = none) :
    Projected freeze thaw n { n.setEnd (i, k) ((n.ends (i, k)).started id) with
      wrapper := n.wrapper.browse k id
      sender := Function.update n.sender n.wrapper.brk (some i)
      owner := Function.update n.owner id (some (i, k)) } := by
  refine ⟨h.start hbrowsing hnew rfl rfl rfl fun l id' => ?_, seen_own (e := .start id) (l := (i, k)) ?_ ?_
    (fun l' hl => setEnd_other n _ hl) fun l' hl => h.browse_other hbrowsing hnew hl.symm⟩
  · change ((n.setEnd (i, k) _).ends l).history.started id' = true ↔ _
    by_cases hl : l = (i, k)
    · subst hl
      rw [setEnd_self]
      by_cases hid : id' = id
      · simp [ProxyEnd.started, hid]
      · simp [ProxyEnd.started, hid]
    · rw [setEnd_other n _ hl]
      simp [hl]
  · by_contra hne
    have hstarted := (h.started (i, k) id).mp (Bool.not_eq_false _ ▸ hne)
    cases hnew.symm.trans hstarted
  · rw [Browsing.step, if_pos ⟨hcall, sourceWrapper_idle hbrowsing⟩]
    refine congrArg some (Eq.symm ?_)
    exact view_eq (c := (n.ends (i, k)).started id) (setEnd_self n _ _) (h.browse_own hnew)

lemma refuse_projected (h : Placed n) (hcall : (n.ends (i, k)).proxy.call = .browse)
    (hbrowsing : n.wrapper.browsing = none) :
    Projected freeze thaw n { n.setEnd (i, k) ((n.ends (i, k)).setCall .browseError) with
      wrapper := n.wrapper.browseFails k } := by
  have hheap : ∀ q, (n.wrapper.browseFails k).heap q = n.wrapper.heap q := by
    intro q
    by_cases hq : q = n.wrapper.brk
    · have hnone : n.wrapper.heap q = none := by
        by_contra hne
        exact (h.fresh q hne).ne hq
      rw [hnone, hq]
      exact Function.update_self _ _ _
    · exact (Function.update_of_ne hq _ _).trans (BrowseRequests.malloc_heap_ne n.wrapper _ hq)
  have hsame : ∀ l, sourceWrapper n.owner (n.wrapper.browseFails k) l = sourceWrapper n.owner n.wrapper l := by
    have hdata : ∀ q, dataAt (n.wrapper.browseFails k) q = dataAt n.wrapper q := fun q =>
      congrArg (Option.map BrowseRequests.Request.data) (hheap q)
    exact fun l => sourceWrapper_other (fun _ => Iff.rfl) (fun _ _ => rfl) (fun _ _ => Iff.rfl)
      (fun _ q _ _ => hdata q) (fun _ _ q _ _ => hdata q) rfl
  refine ⟨?_, seen_own (e := .refuse) (l := (i, k)) trivial ?_ (fun l' hl => setEnd_other n _ hl) fun l' _ => hsame l'⟩
  · have hend := h.setEnd (l := (i, k)) (c := (n.ends (i, k)).setCall .browseError) rfl
    exact hend.congr rfl rfl (fun q => congrArg _ (hheap q)) (Nat.le_succ _) (fun _ _ _ hs => hs) hend.idle rfl rfl
      fun _ _ => rfl
  · rw [Browsing.step, if_pos ⟨hcall, sourceWrapper_idle hbrowsing⟩]
    refine congrArg some (Eq.symm ?_)
    exact view_eq (c := (n.ends (i, k)).setCall .browseError) (setEnd_self n _ _) (hsame (i, k))

/-! ### Sending -/

/-- The data of a session have changed and messages were sent. -/
def sendFrom (n : Network ι μ) (l : ι × Source) (p : BrowseRequests.Ptr) (req : BrowseRequests.Request)
    (out : BrowseData × List ResultMessage) : Network ι μ :=
  { n.setEnd l ((n.ends l).sent req.data.maxresults out.2) with
    wrapper := store n.wrapper p { req with data := out.1 } }

lemma foldl_post_store {req : BrowseRequests.Request} (hecomp : req.ecomp = k)
    (out : BrowseData × List ResultMessage) :
    (out.2.map (BrowseRequests.Sent.result req.ecomp)).foldl (Network.post i req.data.maxresults)
      { n with wrapper := store n.wrapper p { req with data := out.1 } } = sendFrom n (i, k) p req out := by
  subst hecomp
  exact foldl_post _ _

lemma Placed.sendFrom (h : Placed n) {req : BrowseRequests.Request} (hreq : n.wrapper.heap p = some req)
    (out : BrowseData × List ResultMessage) : Placed (sendFrom n l p req out) := by
  have hend := h.setEnd (l := l) (c := (n.ends l).sent req.data.maxresults out.2) rfl
  refine hend.congr rfl rfl (fun q => ?_) le_rfl (fun _ _ _ hs => hs) hend.idle rfl rfl fun _ _ => rfl
  change (Function.update n.wrapper.heap p _ q).map _ = (n.wrapper.heap q).map _
  by_cases hq : q = p
  · rw [hq, Function.update_self, hreq]
    rfl
  · rw [Function.update_of_ne hq]

lemma Placed.sendFrom_own (h : Placed n) (hp : dataOf n.wrapper id = some p) (hl : n.owner id = some l)
    (req : BrowseRequests.Request) (out : BrowseData × List ResultMessage) :
    view (BrowseNetwork.sendFrom n l p req out) l = (view n l).send id req.data.maxresults out :=
  view_eq (c := (n.ends l).sent req.data.maxresults out.2) (setEnd_self n _ _) (h.write hp hl _)

lemma Placed.sendFrom_other (h : Placed n) (hp : dataOf n.wrapper id = some p) (hl : n.owner id = some l)
    (hother : l' ≠ l) (req : BrowseRequests.Request) (out : BrowseData × List ResultMessage) :
    sourceWrapper n.owner (BrowseNetwork.sendFrom n l p req out).wrapper l' = sourceWrapper n.owner n.wrapper l' :=
  h.write_other hp (owner_ne hl hother) _

lemma timeout_projected (h : Placed n) {req : BrowseRequests.Request} (hsender : n.sender p = some i)
    (hreq : n.wrapper.heap p = some req) (htimer : req.data.timeoutId = true) :
    Projected freeze thaw n
      ((n.wrapper.timeout p req).2.foldl (Network.post i req.data.maxresults)
        { n with wrapper := (n.wrapper.timeout p req).1 }) := by
  obtain ⟨id, hp⟩ := h.held p (by rw [hreq]; exact Option.some_ne_none _)
  obtain ⟨i', k, hl, hsender', hecomp⟩ := h.data id p hp
  obtain rfl := Option.some.inj (hsender.symm.trans hsender')
  rw [hreq] at hecomp
  change Projected freeze thaw n ((List.map _ (sendBrowseRes req.data).2).foldl _
    { n with wrapper := store n.wrapper p { req with data := (sendBrowseRes req.data).1 } })
  rw [foldl_post_store (Option.some.inj hecomp)]
  refine ⟨h.sendFrom hreq _, seen_own (e := .timeout id) trivial ?_ (fun l' hl' => setEnd_other n _ hl') fun l' hl' =>
    h.sendFrom_other hp hl hl' req _⟩
  rw [Browsing.step, h.userData_view hp hl hreq, Option.bind_some, if_pos htimer, h.sendFrom_own hp hl]

/-! ### Sessions that end -/

lemma ended_own {owner : Nat → Option (ι × Source)} (hl : owner id = some l) :
    sourceWrapper owner (ended w k id) l =
      { sourceWrapper owner w l with idle := (sourceWrapper owner w l).idle ++ [id] } := by
  refine sourceWrapper_ext (fun _ => rfl) rfl ?_
  simp [sourceWrapper, ended, hl]

lemma ended_other {owner : Nat → Option (ι × Source)} (hl : owner id ≠ some l) :
    sourceWrapper owner (ended w k id) l = sourceWrapper owner w l := by
  refine sourceWrapper_ext (fun _ => rfl) rfl ?_
  simp [sourceWrapper, ended, hl]

lemma emit_ended {req : BrowseRequests.Request} (hreq : w.heap p = some req) (r : BrowseResult μ) :
    w.emit freeze k id p r = some
      (let out := emitBrowseResult freeze req.data id r
      let v := store w p { req with data := out.1 }
      (if BrowseRequests.Wrapper.final r then ended v k id else v, out.2.map (.result req.ecomp))) := by
  rw [BrowseRequests.Wrapper.emit, hreq]
  rfl

/-- A result is in the message of its session, which may have been sent. -/
def append (freeze : μ → Bytes) (n : Network ι μ) (l : ι × Source) (p : BrowseRequests.Ptr)
    (req : BrowseRequests.Request) (id : Nat) (r : BrowseResult μ) : Network ι μ :=
  sendFrom (n.setEnd l ((n.ends l).emitted id r)) l p req (emitBrowseResult freeze req.data id r)

lemma append_ends (req : BrowseRequests.Request) (r : BrowseResult μ) (hl : l' ≠ l) :
    (append freeze n l p req id r).ends l' = n.ends l' :=
  (setEnd_other _ _ hl).trans (setEnd_other n _ hl)

lemma Placed.append (h : Placed n) {req : BrowseRequests.Request} (hreq : n.wrapper.heap p = some req)
    (r : BrowseResult μ) : Placed (append freeze n l p req id r) := by
  have hend : Placed (n.setEnd l ((n.ends l).emitted id r)) := h.setEnd rfl
  exact hend.sendFrom hreq _

lemma Placed.append_own (h : Placed n) (hp : dataOf n.wrapper id = some p) (hl : n.owner id = some l)
    (req : BrowseRequests.Request) (r : BrowseResult μ) :
    view (BrowseNetwork.append freeze n l p req id r) l =
      ((view n l).emitted id r).send id req.data.maxresults (emitBrowseResult freeze req.data id r) := by
  have hend : Placed (n.setEnd l ((n.ends l).emitted id r)) := h.setEnd rfl
  have hview : view (n.setEnd l ((n.ends l).emitted id r)) l = (view n l).emitted id r :=
    view_eq (c := (n.ends l).emitted id r) (setEnd_self n _ _) rfl
  rw [← hview]
  exact hend.sendFrom_own hp hl req _

lemma Placed.append_other (h : Placed n) (hp : dataOf n.wrapper id = some p) (hl : n.owner id = some l)
    (hother : l' ≠ l) (req : BrowseRequests.Request) (r : BrowseResult μ) :
    sourceWrapper n.owner (BrowseNetwork.append freeze n l p req id r).wrapper l' =
      sourceWrapper n.owner n.wrapper l' :=
  h.write_other hp (owner_ne hl hother) _

lemma emit_projected (h : Placed n) {req : BrowseRequests.Request} {r : BrowseResult μ}
    (hs : n.wrapper.sessions k id = some p) (hsender : n.sender p = some i) (hreq : n.wrapper.heap p = some req)
    {wrapper : Wrapper} {sent : List BrowseRequests.Sent}
    (hemit : n.wrapper.emit freeze k id p r = some (wrapper, sent)) (hkeeps : SourcesKeep n (.emit k id r)) :
    Projected freeze thaw n (sent.foldl (Network.post i req.data.maxresults)
      { n.setEnd (i, k) ((n.ends (i, k)).emitted id r) with wrapper }) := by
  obtain ⟨hp, howner⟩ := h.running k id p hs
  obtain ⟨hl, hecomp⟩ := h.owner_of_sender hp hsender howner
  rw [hreq] at hecomp
  obtain rfl := Option.some.inj hecomp
  rw [emit_ended hreq] at hemit
  obtain ⟨rfl, rfl⟩ := Prod.mk.inj (Option.some.inj hemit)
  have hkeep : SourceKeeps (view n (i, req.ecomp)) (.emit id r) := ⟨hkeeps.1 (i, req.ecomp) hl, hkeeps.2⟩
  have happend : Placed (append freeze n (i, req.ecomp) p req id r) := h.append hreq r
  by_cases hfinal : r.remainingCount = 0 ∨ r.error.isSome = true
  · have hlast : BrowseRequests.Wrapper.final r = true := decide_eq_true hfinal
    refine (congrArg (Projected freeze thaw n) (foldl_post _ _)).mpr ?_
    rw [if_pos hlast]
    refine ⟨happend.ended hl, seen_own (e := .emit id r) (l := (i, req.ecomp)) hkeep ?_
      (fun l' hl' => append_ends (p := p) req r hl') fun l' hl' => (ended_other ?_).trans ?_⟩
    · rw [Browsing.step, h.userData_view hp hl hreq, Option.map_some]
      dsimp only
      rw [if_pos hfinal, ← h.append_own hp hl]
      refine congrArg some (Eq.symm ?_)
      exact view_eq (c := (append freeze n (i, req.ecomp) p req id r).ends (i, req.ecomp)) rfl (ended_own hl)
    · exact owner_ne hl hl'
    · exact h.append_other hp hl hl' req r
  · have hlast : ¬BrowseRequests.Wrapper.final r = true := fun hlast => hfinal (of_decide_eq_true hlast)
    refine (congrArg (Projected freeze thaw n) (foldl_post _ _)).mpr ?_
    rw [if_neg hlast]
    refine ⟨happend, seen_own (e := .emit id r) (l := (i, req.ecomp)) hkeep ?_
      (fun l' hl' => append_ends (p := p) req r hl') fun l' hl' => h.append_other hp hl hl' req r⟩
    rw [Browsing.step, h.userData_view hp hl hreq, Option.map_some]
    dsimp only
    rw [if_neg hfinal]
    exact congrArg some (h.append_own hp hl req r).symm

/-! ### Entries -/

lemma returns_projected (h : Placed n) (hb : n.wrapper.browsing = some (k, id, p)) (hsender : n.sender p = some i) :
    Projected freeze thaw n { n.setEnd (i, k) ((n.ends (i, k)).setCall (.browseReply id)) with
      wrapper := n.wrapper.browseReturns.1 } := by
  obtain ⟨hl, -⟩ := h.owner_of_sender (dataOf_of_browsing hb) hsender (h.calling k id p hb).2
  obtain ⟨b, hbrowsing, hwrapper⟩ := h.returns_own hb hl
  refine ⟨(h.returns hb).setEnd (l := (i, k)) (c := (n.ends (i, k)).setCall (.browseReply id)) rfl,
    seen_own (e := .browseReturn) (l := (i, k)) trivial ?_ (fun l' hl' => setEnd_other n _ hl') fun l' hl' =>
      h.returns_other hb (owner_ne hl hl')⟩
  have hcalled : (view n (i, k)).wrapper.browsing = some (id, b) := hbrowsing
  rw [Browsing.step, hcalled, Option.map_some]
  refine congrArg some (Eq.symm ?_)
  exact view_eq (c := (n.ends (i, k)).setCall (.browseReply id)) (setEnd_self n _ _) hwrapper

lemma removeFromHash_projected (h : Placed n) {idle : List Nat} (hbrowsing : n.wrapper.browsing = none)
    (hidle : n.wrapper.idle = id :: idle) :
    Projected freeze thaw n { n with wrapper := { n.wrapper with idle }.hashRemove id } := by
  have hmem : ∀ id' ∈ idle, id' ∈ n.wrapper.idle := fun id' hid => hidle ▸ List.mem_cons_of_mem id hid
  have hrest : Placed { n with wrapper := { n.wrapper with idle } } :=
    h.congr rfl rfl (fun _ => rfl) le_rfl (fun _ _ _ hs => hs) (fun id' hid => h.idle id' (hmem id' hid)) rfl rfl
      fun _ _ => rfl
  obtain ⟨hne, hover⟩ := h.idle id (hidle ▸ List.mem_cons_self)
  obtain ⟨l, hl⟩ := Option.ne_none_iff_exists'.mp hne
  refine ⟨hrest.hashRemove hbrowsing hover, seen_own (e := .removeFromHash) (l := l) trivial ?_ (fun _ _ => rfl)
    fun l' hl' => ?_⟩
  · have hmine : (view n l).wrapper.idle = id :: idle.filter fun id => n.owner id = some l := by
      change n.wrapper.idle.filter _ = _
      rw [hidle]
      exact List.filter_cons_of_pos (decide_eq_true hl)
    rw [Browsing.step, hmine]
    refine congrArg some (Eq.symm ?_)
    exact view_eq (c := n.ends l) rfl (hrest.remove_own hbrowsing)
  · have hother := owner_ne hl hl'
    refine (hrest.remove_other hbrowsing hother).trans (sourceWrapper_ext (fun _ => rfl) rfl ?_)
    change idle.filter _ = n.wrapper.idle.filter _
    rw [hidle, List.filter_cons_of_neg (by simpa using hother)]

lemma cancel_projected (h : Placed n) (hcall : (n.ends (i, k)).proxy.call = .cancel id)
    (hbrowsing : n.wrapper.browsing = none) (hstarted : (n.ends (i, k)).history.started id = true) {error : Bool}
    (hover : error = true → n.wrapper.sessions k id = none) :
    Projected freeze thaw n { n.setEnd (i, k) ((n.ends (i, k)).setCall .cancelReply) with
      wrapper := (n.wrapper.handleCancelBrowse k id error).1 } := by
  rw [handleCancelBrowse_over hover]
  have hl := (h.started (i, k) id).mp hstarted
  have hend := h.endSession k id
  have hremoved := hend.hashRemove hbrowsing (h.endSession_none hl)
  refine ⟨hremoved.setEnd (l := (i, k)) (c := (n.ends (i, k)).setCall .cancelReply) rfl,
    seen_own (e := .cancel) (l := (i, k)) trivial ?_ (fun l' hl' => setEnd_other n _ hl') fun l' hl' =>
      hend.remove_other hbrowsing (owner_ne hl hl')⟩
  have hcalled : (view n (i, k)).proxy.call = .cancel id := hcall
  rw [Browsing.step, hcalled]
  refine congrArg some (Eq.symm ?_)
  exact view_eq (c := (n.ends (i, k)).setCall .cancelReply) (setEnd_self n _ _) (hend.remove_own hbrowsing)

/-! ### Runs -/

/-- The table and the heap are in order, and so are the sessions of each client with each source. -/
def Sound (thaw : Bytes → μ) (n : Network ι μ) : Prop := Placed n ∧ ∀ l, Browsing.Sound thaw (view n l)

lemma Sound.started_of_cancel (h : Sound thaw n) (hcall : (n.ends l).proxy.call = .cancel id) :
    (n.ends l).history.started id = true := by
  obtain ⟨hwired, hvalid⟩ := h.2 l
  by_contra hne
  have hnew : ((view n l).session id).started = false := Bool.eq_false_of_not_eq_true hne
  have hcancelled : (view n l).history.cancelled id = false := congrArg Session.cancelled ((hvalid id).untouched hnew)
  cases hcancelled.symm.trans (hwired.cancel id hcall)

/-- A step of the network is one of each client with each source, or nothing. -/
theorem step_projected (h : Sound thaw n) {e : Event ι μ} (hkeeps : SourcesKeep n e)
    (he : n.step freeze thaw e = some n') : Projected freeze thaw n n' := by
  cases e with
  | client i k e =>
    obtain ⟨c, hc, rfl⟩ := Option.map_eq_some_iff.mp he
    exact client_projected h.1 hc
  | start i k id =>
    rw [Network.step] at he
    split at he
    · rename_i hstart
      cases he
      exact start_projected h.1 hstart.1 hstart.2.1 hkeeps
    · cases he
  | refuse i k =>
    rw [Network.step] at he
    split at he
    · rename_i hrefuse
      cases he
      exact refuse_projected h.1 hrefuse.1 hrefuse.2
    · cases he
  | emit k id r =>
    rw [Network.step] at he
    split at he
    · cases he
    · rename_i p hs
      split at he
      · rename_i i req wrapper sent hsender hreq hemit
        cases he
        exact emit_projected h.1 hs hsender hreq hemit hkeeps
      · cases he
  | timeout p =>
    rw [Network.step] at he
    split at he
    · rename_i i req hsender hreq
      split at he
      · rename_i htimer
        cases he
        exact timeout_projected h.1 hsender hreq htimer.2
      · cases he
    · cases he
  | browseReturns =>
    rw [Network.step] at he
    split at he
    · cases he
    · rename_i k id p hb
      obtain ⟨i, hsender, rfl⟩ := Option.map_eq_some_iff.mp he
      exact returns_projected h.1 hb hsender
  | removeFromHash =>
    rw [Network.step] at he
    split at he
    · rename_i id idle hbrowsing hidle
      cases he
      exact removeFromHash_projected h.1 hbrowsing hidle
    · cases he
  | cancel i k error =>
    rw [Network.step] at he
    split at he
    · rename_i id hcall hbrowsing
      cases he
      have hover : error = true → n.wrapper.sessions k id = none := fun herror => hkeeps herror id (by rw [hcall]; rfl)
      exact cancel_projected h.1 hcall hbrowsing (h.started_of_cancel hcall) hover
    · cases he

lemma sound_init : Sound thaw (Network.init : Network ι μ) := by
  refine ⟨placed_init, fun l => ?_⟩
  exact Browsing.sound_init

lemma Sound.step (h : Sound thaw n) (hmeta : ∀ m, thaw (freeze m) = m) {e : Event ι μ} (hkeeps : SourcesKeep n e)
    (he : n.step freeze thaw e = some n') : Sound thaw n' := by
  obtain ⟨hplaced, hseen⟩ := step_projected h hkeeps he
  refine ⟨hplaced, fun l => ?_⟩
  rcases hseen l with hsame | ⟨e', hkeeps', he'⟩
  · exact hsame ▸ h.2 l
  · exact (h.2 l).step hmeta hkeeps' he'

abbrev NetworkReach (freeze : μ → Bytes) (thaw : Bytes → μ) : Network ι μ → Network ι μ → Prop :=
  Reach (fun n e n' => n.step freeze thaw e = some n') SourcesKeep

/-- Every run of the network is one of each client with each source. -/
theorem Sound.run (h : Sound thaw n) (hmeta : ∀ m, thaw (freeze m) = m) (hr : NetworkReach freeze thaw n n')
    (l : ι × Source) : Sound thaw n' ∧ Browsing.BrowseReach freeze thaw (view n l) (view n' l) := by
  refine hr.seen (view · l) (Sound thaw) h fun _ _ _ hs hkeeps he => ⟨hs.step hmeta hkeeps he, ?_⟩
  exact (step_projected hs hkeeps he).2 l

/-- A source that runs a session can always call back with a result: the data of the session were not freed. -/
lemma Placed.emit_possible (h : Placed n) (hs : n.wrapper.sessions k id = some p) (r : BrowseResult μ) :
    n.step freeze thaw (.emit k id r) ≠ none := by
  obtain ⟨hp, -⟩ := h.running k id p hs
  obtain ⟨i, k', -, hsender, hecomp⟩ := h.data id p hp
  obtain ⟨req, hreq, -⟩ := Option.map_eq_some_iff.mp hecomp
  simp only [Network.step, hs, hsender, hreq, emit_ended hreq, ne_eq, reduceCtorEq, not_false_eq_true]

lemma Sound.owner_of_emitted (h : Sound thaw n) (hne : (n.ends l).history.emitted id ≠ []) : n.owner id = some l := by
  refine (h.1.started l id).mp ?_
  by_contra hnot
  have hnew : ((view n l).session id).started = false := Bool.eq_false_of_not_eq_true hnot
  exact hne (congrArg Session.emitted (((h.2 l).2 id).untouched hnew))

/-- In every run of all the clients with all the sources, a client gets for each session a prefix of what the
source has emitted, all of it once the session has ended uncancelled and nothing of it is left in the queue or
in the loop, and nothing more after a cancel; only the client and the source that the session was started for
have anything of it; and no source writes a result to data that were freed. -/
theorem delivered_to_owner (hmeta : ∀ m, thaw (freeze m) = m) (hr : NetworkReach freeze thaw Network.init n)
    (l : ι × Source) (id : Nat) :
    (n.ends l).history.delivered id <+: ((n.ends l).history.emitted id).map BrowseResult.normal ∧
      ((n.ends l).history.cancelled id = false → Session.Ended ((n.ends l).history.emitted id) →
        (∀ m ∈ (n.ends l).inbox, m.browseId ≠ id) → (n.ends l).proxy.dispatch = .mainLoop →
          (n.ends l).history.delivered id = ((n.ends l).history.emitted id).map BrowseResult.normal) ∧
      ((n.ends l).history.cancelled id = true → ∀ n', NetworkReach freeze thaw n n' →
        (n'.ends l).history.delivered id = (n.ends l).history.delivered id) ∧
      (((n.ends l).history.emitted id ≠ [] ∨ ∃ m ∈ (n.ends l).inbox, m.browseId = id) → n.owner id = some l) ∧
      ∀ r, n.wrapper.sessions l.2 id ≠ none → n.step freeze thaw (.emit l.2 id r) ≠ none := by
  obtain ⟨hs, -⟩ := sound_init.run hmeta hr l
  have hl := hs.2 l
  refine ⟨(hl.2 id).isPrefix, fun hc hend hin hmain => hl.complete hc hend hin hmain, fun hc n' hn' => ?_, ?_,
    fun r hrun => ?_⟩
  · exact hl.frozen hmeta hc (hs.run hmeta hn' l).2
  · rintro (hne | ⟨m, hm, rfl⟩)
    · exact hs.owner_of_emitted hne
    · exact (hs.1.started l m.browseId).mp (hl.1.inbox m hm)
  · obtain ⟨p, hp⟩ := Option.ne_none_iff_exists'.mp hrun
    exact hs.1.emit_possible hp r

/-- Two clients with a source each, whose sessions overlap. -/
theorem delivered_to_owner_twoClients : ∃ n : Network Bool Bytes,
    NetworkReach (fun m => m) (fun m => m) Network.init n ∧
    (n.ends (false, 0)).history.delivered 5 = [⟨0, 0, none, [109], none⟩] ∧
    (n.ends (true, 1)).history.delivered 6 = [⟨1, 0, none, [110], none⟩] ∧
    (n.ends (false, 0)).history.delivered 5 = ((n.ends (false, 0)).history.emitted 5).map BrowseResult.normal ∧
    n.owner 6 = some (true, 1) := by
  have hrun : (runEvents (Network.step (fun m => m) fun m => m) SourcesKeep (Network.init : Network Bool Bytes)
      [.client false 0 .browse, .start false 0 5, .client true 1 .browse, .emit 0 5 ⟨0, 0, some [], [109], none⟩,
        .browseReturns, .start true 1 6, .browseReturns, .emit 1 6 ⟨1, 0, some [], [110], none⟩, .timeout 1,
        .client true 1 .receiveReply, .client false 0 .receiveReply, .client true 1 .dispatch,
        .client false 0 .dispatch, .removeFromHash, .client true 1 .iterate, .client false 0 .iterate,
        .client false 0 .callbackReturn]).map
        (fun n => ((n.ends (false, 0)).history.delivered 5, (n.ends (true, 1)).history.delivered 6,
          decide ((n.ends (false, 0)).inbox = [] ∧ (n.ends (false, 0)).proxy.dispatch = .mainLoop ∧
            (n.ends (false, 0)).history.cancelled 5 = false ∧
            (∃ r ∈ (n.ends (false, 0)).history.emitted 5, r.remainingCount = 0) ∧
            (n.ends (true, 1)).history.emitted 6 ≠ []))) =
      some ([⟨0, 0, none, [109], none⟩], [⟨1, 0, none, [110], none⟩], true) := by
    decide +kernel
  obtain ⟨n, hn, heq⟩ := Option.map_eq_some_iff.mp hrun
  simp only [Prod.mk.injEq, decide_eq_true_eq] at heq
  obtain ⟨hfirst, hsecond, hin, hmain, hc, hend, hemitted⟩ := heq
  have hreach := reach_of_runEvents hn
  refine ⟨n, hreach, hfirst, hsecond, ?_, ?_⟩
  · refine (delivered_to_owner (fun _ => rfl) hreach (false, 0) 5).2.1 hc hend (fun m hm => ?_) hmain
    rw [hin] at hm
    cases hm
  · exact (delivered_to_owner (fun _ => rfl) hreach (true, 1) 6).2.2.2.1 (.inl hemitted)

end MafwShared.BrowseNetwork
