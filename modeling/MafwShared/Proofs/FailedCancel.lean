import MafwShared.BrowseRequests
import MafwShared.Lib.Runs
import MafwShared.ProxySource

/-!
# A cancel that fails

The answer of the source decides whether a session is cancelled. The wrapper drops the data of
the session whatever the answer is, and the proxy has dropped or marked its own record before it
asks. What a failed cancel should leave alone it leaves alone only where there is nothing.
-/

namespace MafwShared
open CLib

/-- A failed cancel leaves the table of the wrapper and the data of its sessions as they were. -/
def BrowseRequests.Wrapper.CancelLeaves (w : BrowseRequests.Wrapper) (s : BrowseRequests.Source)
    (browseId : Nat) : Prop :=
  (w.handleCancelBrowse s browseId true).1.browseRequests = w.browseRequests ∧
    (w.handleCancelBrowse s browseId true).1.heap = w.heap

section
variable {μ : Type*} (freeze : μ → Bytes) (thaw : Bytes → μ)

/-- The session is registered at the proxy and not marked to stop. The results in the next message for it are
passed on, and so is the rest of the message in whose callback the client may be. -/
structure Browsing.Listening (s : Browsing μ) (browseId : Nat) : Prop where
  registered : ∃ req, s.proxy.browseRequests browseId = some req ∧ req.stopEmitting = false
  reaches : ∀ m rest, (s.iterate thaw browseId false (m :: rest)).history.delivered browseId =
    s.history.delivered browseId ++ [parseResult thaw m]
  goesOn : ∀ remainingCount rest, s.proxy.dispatch = .inCallback browseId remainingCount rest →
    remainingCount ≠ 0 → s.step freeze thaw .callbackReturn = some (s.setDispatch (.looping browseId rest true))

/-- A cancel of a session that the proxy knows, when it returns `FALSE`, leaves the session as it was. -/
def Browsing.CancelLeaves (s : Browsing μ) (browseId : Nat) : Prop :=
  s.proxy.browseRequests browseId ≠ none → (s.proxy.cancelBrowse browseId false).1 = false →
    Browsing.Listening freeze thaw { s with proxy := (s.proxy.cancelBrowse browseId false).2 } browseId

variable {freeze thaw}

/-- Whoever is registered and not marked to stop gets the results. -/
lemma Browsing.listening_of_registered {s : Browsing μ} {browseId : Nat} {req : BrowseReq}
    (h : s.proxy.browseRequests browseId = some req) (hstop : req.stopEmitting = false)
    (hcall : s.proxy.call = .none) : Browsing.Listening freeze thaw s browseId := by
  refine ⟨⟨req, h, hstop⟩, fun m rest => ?_, fun remainingCount rest hd hne => ?_⟩
  · simp only [Browsing.iterate, h]
    exact Function.update_self _ _ _
  · simp [Browsing.step, hd, hcall, h, hstop, hne]

/-- The first half of the call is what the proxy does before it waits for the reply. -/
lemma Browsing.cancelBrowse_proxy (s : Browsing μ) {browseId : Nat} (acknowledged : Bool)
    (h : s.proxy.browseRequests browseId ≠ none) :
    (s.cancelBrowse browseId).proxy =
      { (s.proxy.cancelBrowse browseId acknowledged).2 with call := .cancel browseId } := by
  obtain ⟨req, hreq⟩ := Option.ne_none_iff_exists'.mp h
  simp only [Browsing.cancelBrowse, ProxySource.cancelBrowse, hreq]

lemma ProxySource.cancelBrowse_known (p : ProxySource) {browseId : Nat} (acknowledged : Bool) {req : BrowseReq}
    (h : p.browseRequests browseId = some req) :
    (p.cancelBrowse browseId acknowledged).1 = acknowledged ∧
      (p.cancelBrowse browseId acknowledged).2.browseRequests browseId =
        if req.emitting then some { req with stopEmitting := true } else none := by
  simp only [ProxySource.cancelBrowse, h]
  exact ⟨trivial, Function.update_self _ _ _⟩

lemma Browsing.cancelLeaves_iff (s : Browsing μ) (browseId : Nat) :
    Browsing.CancelLeaves freeze thaw s browseId ↔ s.proxy.browseRequests browseId = none := by
  constructor
  · intro h
    by_contra hknown
    obtain ⟨req, hreq⟩ := Option.ne_none_iff_exists'.mp hknown
    obtain ⟨hfalse, hafter⟩ := s.proxy.cancelBrowse_known false hreq
    obtain ⟨req', hreq', hstop⟩ := (h hknown hfalse).registered
    dsimp only at hreq'
    rw [hafter] at hreq'
    split at hreq'
    · cases hreq'
      cases hstop
    · cases hreq'
  · exact fun hnone hknown => absurd hnone hknown

end

namespace BrowseRequests
variable {w : Wrapper}

lemma hashRemove_none {browseId : Nat} (h : w.browseRequests browseId = none) : w.hashRemove browseId = w := by
  unfold Wrapper.hashRemove
  rw [h, Wrapper.freeAt, ← h, Function.update_eq_self]

lemma Wrapper.cancelLeaves_iff (w : Wrapper) (s : Source) (browseId : Nat) :
    w.CancelLeaves s browseId ↔ w.browseRequests browseId = none := by
  unfold Wrapper.CancelLeaves Wrapper.handleCancelBrowse
  constructor
  · rintro ⟨htable, -⟩
    have hcell := congrFun htable browseId
    exact hcell.symm.trans (Function.update_self _ _ _)
  · intro h
    dsimp only
    rw [if_pos rfl, hashRemove_none h]
    exact ⟨rfl, rfl⟩

/-- The source goes on with the pointer to the data that were freed, so that its next result is written there. -/
lemma failed_cancel_dangles {μ : Type*} (freeze : μ → Bytes) {s : Source} {browseId : Nat} {p : Ptr}
    (hsession : w.sessions s browseId = some p) (hentry : w.browseRequests browseId = some p)
    (r : BrowseResult μ) :
    (w.handleCancelBrowse s browseId true).1.handle freeze (.emit s browseId r) = none := by
  have hfreed : (w.hashRemove browseId).heap p = none := by
    unfold Wrapper.hashRemove
    rw [hentry, Wrapper.freeAt]
    exact Function.update_self _ _ _
  have hsame : (w.hashRemove browseId).sessions s browseId = some p := by
    unfold Wrapper.hashRemove
    rw [hentry, Wrapper.freeAt]
    exact hsession
  change Wrapper.handle freeze (w.hashRemove browseId) (.emit s browseId r) = none
  rw [Wrapper.handle, hsame]
  dsimp only
  rw [Wrapper.emit, hfreed]

end BrowseRequests

/-- A failed cancel leaves the session intact on both sides exactly when the wrapper has no entry for the id
and the proxy does not know it; a session that the wrapper has an entry for can then write to freed data. -/
theorem failed_cancel {μ : Type*} (freeze : μ → Bytes) (thaw : Bytes → μ) (w : BrowseRequests.Wrapper)
    (source : BrowseRequests.Source) (s : Browsing μ) (browseId : Nat) :
    (w.CancelLeaves source browseId ↔ w.browseRequests browseId = none) ∧
      (Browsing.CancelLeaves freeze thaw s browseId ↔ s.proxy.browseRequests browseId = none) ∧
      ∀ p, w.sessions source browseId = some p → w.browseRequests browseId = some p → ∀ r : BrowseResult μ,
        (w.handleCancelBrowse source browseId true).1.handle freeze (.emit source browseId r) = none :=
  ⟨w.cancelLeaves_iff source browseId, s.cancelLeaves_iff browseId,
    fun _ hsession hentry r => BrowseRequests.failed_cancel_dangles freeze hsession hentry r⟩

/-- With one session under way: a failed cancel of another id leaves everything as it is, one of its own id
takes the data that the source writes its next result to. -/
theorem failed_cancel_oneSession :
    ((BrowseRequests.Wrapper.init.browse 0 7).browseReturns).1.CancelLeaves 0 8 ∧
      Browsing.CancelLeaves id id (.init : Browsing Bytes) 8 ∧
      (((BrowseRequests.Wrapper.init.browse 0 7).browseReturns).1.handleCancelBrowse 0 7 true).1.handle id
        (.emit 0 7 (⟨1, 0, none, [], none⟩ : BrowseResult Bytes)) = none := by
  obtain ⟨hwrapper, hproxy, -⟩ :=
    failed_cancel id id (BrowseRequests.Wrapper.init.browse 0 7).browseReturns.1 0 (.init : Browsing Bytes) 8
  obtain ⟨-, -, hdangles⟩ :=
    failed_cancel id id (BrowseRequests.Wrapper.init.browse 0 7).browseReturns.1 0 (.init : Browsing Bytes) 7
  exact ⟨hwrapper.mpr rfl, hproxy.mpr rfl, hdangles 0 rfl rfl _⟩

/-- A source refuses to cancel a session that is under way: the wrapper drops its data, the next result of
the source is written to them, and the proxy, which has returned `FALSE`, does not know the session any
more and would not pass a result on. -/
theorem failed_cancel_drops :
    (∃ w : BrowseRequests.Wrapper,
      Reach (fun w e w' => (w.handle (id : Bytes → Bytes) e).map Prod.fst = some w') (fun w e => w.Possible e)
        .init w ∧
      ¬w.CancelLeaves 0 7 ∧
      (w.handleCancelBrowse 0 7 true).1.handle (id : Bytes → Bytes) (.emit 0 7 ⟨1, 0, none, [], none⟩) = none) ∧
    ∃ s : Browsing Bytes, Reach (fun s e t => s.step id id e = some t) (fun _ _ => True) .init s ∧
      s.proxy.browseRequests 7 = some ⟨false, false⟩ ∧ (s.proxy.cancelBrowse 7 false).1 = false ∧
      (s.proxy.cancelBrowse 7 false).2.browseRequests 7 = none ∧ ¬Browsing.CancelLeaves id id s 7 := by
  constructor
  · have hreach : Reach (fun w e w' => (BrowseRequests.Wrapper.handle (id : Bytes → Bytes) w e).map Prod.fst =
        some w') (fun w e => w.Possible e) .init _ :=
      .next (e := .browseReturns) (.next (e := .browse 0 7) .refl ⟨rfl, List.not_mem_nil⟩ rfl)
        (by simp [BrowseRequests.Wrapper.Possible, BrowseRequests.Wrapper.browse]) rfl
    refine ⟨_, hreach, fun h => ?_, rfl⟩
    have hcell := congrFun h.1 7
    cases hcell
  · have hreach : Reach (fun s e t => Browsing.step (id : Bytes → Bytes) id s e = some t) (fun _ _ => True) .init _ :=
      .next (e := .receiveReply)
        (.next (e := .browseReturn)
          (.next (e := .start 7)
            (.next (e := .browse) .refl trivial rfl) trivial rfl) trivial rfl) trivial rfl
    refine ⟨_, hreach, rfl, rfl, rfl, fun h => ?_⟩
    obtain ⟨req, hreq, -⟩ := (h (by decide) rfl).registered
    cases hreq

end MafwShared
