import MafwShared.ImportCalls
import MafwShared.Proofs.ImportSessions

/-!
# The course of an import in the daemon

What an import's data go through when browses are cancelled and end at any time. The `n`th import is
the one with the id `n`, and its data are at the address before. A source never gives out the id of a
browse session twice; a daemon that reads freed data goes no further.
-/

namespace MafwShared.ImportCalls
open CLib ImportRequests

variable {lib : Libmafw} {w w' w'' : Wrapper} {p q : Ptr} {data : ImportData} {sent : List ImportRequests.Sent}

/-! ### Messages -/

/-- The report of an import in a message. -/
def reportIn : ImportRequests.Sent → Option (Client × List Arg)
  | .done (.playlistImported dest args) => some (dest, args)
  | _ => none

/-- What an application will be told of an import by its messages. -/
def resultIn (n : Nat) : Incoming → Option ImportResult
  | .playlistImported args => (parseImported args).bind fun r => if r.1 = n then some r.2 else none
  | .signal _ => none

lemma mem_incomingOf {name : Client} {args : List Arg} :
    Incoming.playlistImported args ∈ sent.filterMap (incomingOf name) ↔ (name, args) ∈ sent.filterMap reportIn := by
  simp only [List.mem_filterMap]
  refine exists_congr fun m => and_congr_right fun _ => ?_
  rcases m with _ | _ | _ | m
  · exact iff_of_false nofun nofun
  · exact iff_of_false nofun nofun
  · exact iff_of_false nofun nofun
  · cases m with
    | playlistImported dest args' =>
      simp only [incomingOf, reportIn, Option.some.injEq, Prod.mk.injEq]
      split
      · rename_i hdest
        simp [hdest]
      · rename_i hdest
        exact iff_of_false nofun fun h => hdest h.1
    | _ => exact iff_of_false nofun nofun

lemma results_incomingOf (name : Client) (n : Nat) :
    (sent.filterMap (incomingOf name)).filterMap (resultIn n) =
      (sent.filterMap reportIn).filterMap fun m => if m.1 = name then resultIn n (.playlistImported m.2) else none := by
  rw [List.filterMap_filterMap, List.filterMap_filterMap]
  apply List.filterMap_congr
  intro m _
  rcases m with _ | _ | _ | m
  · rfl
  · rfl
  · rfl
  · cases m with
    | playlistImported dest args =>
      simp only [incomingOf, reportIn, Option.bind_some]
      split <;> rfl
    | _ => rfl

lemma importDone_report {createObjectid : Bytes → Bytes} {d d' : Daemon} {data : PlparseData} {err : Option GError}
    {messages : List MafwShared.Sent} (h : d.importDone createObjectid data err = .ok (d', messages)) :
    ∃ args result, parseImported args = some (data.importId, result) ∧
      (messages.map ImportRequests.Sent.done).filterMap reportIn = [(data.sender, args)] ∧
      messages.filter isReport = [.playlistImported data.sender args] := by
  unfold Daemon.importDone at h
  cases err with
  | some err =>
    cases h
    exact ⟨_, _, rfl, rfl, rfl⟩
  | none =>
    dsimp only at h
    split at h
    · cases h
    · obtain ⟨⟨new, p, d₁⟩, -, h⟩ := bind_ok h
      dsimp only at h
      split at h
      · cases h
      · cases h
        exact ⟨_, _, rfl, rfl, rfl⟩

/-! ### Stages of an import -/

/-- The browse session of an import, which is remembered when it is cancelled. -/
def session (w : Wrapper) (p : Ptr) : Option (Source × Nat) :=
  match w.browses p with
  | some session => some session
  | none => (w.heap p).bind fun data => data.source.map fun s => (s, data.browseId)

/-- What there is at an address. -/
inductive Course (w : Wrapper) (p : Ptr) : Prop
  | unborn : w.brk ≤ p → w.heap p = none → w.metadata p = none → w.browses p = none → w.reports p = [] → Course w p
  | asked (data : ImportData) (s : Source) : p < w.brk → w.heap p = some data → data.importId = p + 1 →
      data.source = none → w.metadata p = some s → w.browses p = none → (∀ i, Call.browse p i ∉ w.calls) →
      w.importRequests (p + 1) = some p → w.reports p = [] → Course w p
  | browsed (data : ImportData) (s : Source) (i : Nat) : p < w.brk → w.heap p = some data → data.importId = p + 1 →
      data.source = some s → w.metadata p = none → w.browses p = some (s, i) →
      (∀ j, Call.browse p j ∈ w.calls → j = i) → Call.browse p i ∈ w.calls ∨ data.browseId = i →
      w.importRequests (p + 1) = some p → w.reports p = [] → Course w p
  /-- Cancelled while it was browsed. -/
  | stopped (data : ImportData) (s : Source) : p < w.brk → w.heap p = some data → data.importId = p + 1 →
      data.source = some s → w.metadata p = none → w.browses p = none → (∀ i, Call.browse p i ∉ w.calls) →
      w.reports p = [] → Course w p
  | gone : p < w.brk → w.heap p = none → w.metadata p = none → w.browses p = none → Course w p

/-- The import will be reported, unless it is cancelled. -/
def Live (w : Wrapper) (p : Ptr) : Prop :=
  w.browses p ≠ none ∨ w.metadata p ≠ none ∧ ∃ data, w.heap p = some data ∧ data.cancel = false

structure Courses (w : Wrapper) : Prop where
  course : ∀ p, Course w p
  nextId_eq : w.nextId = w.brk
  table : ∀ n p, w.importRequests n = some p → n = p + 1
  distinct : ∀ p q x, session w p = some x → session w q = some x → p = q

/-- A step that has nothing to do with an import. -/
structure Spared (w w' : Wrapper) (p : Ptr) : Prop where
  heap : w'.heap p = w.heap p
  metadata : w'.metadata p = w.metadata p
  browses : w'.browses p = w.browses p
  reports : w'.reports p = w.reports p
  table : w'.importRequests (p + 1) = w.importRequests (p + 1)
  calls : ∀ i, Call.browse p i ∈ w'.calls ↔ Call.browse p i ∈ w.calls
  brk : p < w'.brk ↔ p < w.brk

lemma Spared.trans (h : Spared w w' p) (h' : Spared w' w'' p) : Spared w w'' p :=
  ⟨h'.heap.trans h.heap, h'.metadata.trans h.metadata, h'.browses.trans h.browses, h'.reports.trans h.reports,
    h'.table.trans h.table, fun i => (h'.calls i).trans (h.calls i), h'.brk.trans h.brk⟩

lemma Spared.session (h : Spared w w' p) : session w' p = session w p := by
  rw [ImportCalls.session, ImportCalls.session, h.heap, h.browses]

lemma Spared.live (h : Spared w w' p) : Live w' p ↔ Live w p := by
  rw [Live, Live, h.browses, h.metadata, h.heap]

lemma Course.spared (h : Course w p) (hs : Spared w w' p) : Course w' p := by
  cases h with
  | unborn hle hheap hmeta hbrowse hrep =>
    exact .unborn (Nat.not_lt.mp fun hlt => absurd (hs.brk.mp hlt) (Nat.not_lt.mpr hle)) (hs.heap.trans hheap)
      (hs.metadata.trans hmeta) (hs.browses.trans hbrowse) (hs.reports.trans hrep)
  | asked data s hlt hheap hid hsource hmeta hbrowse hcalls htable hrep =>
    exact .asked data s (hs.brk.mpr hlt) (hs.heap.trans hheap) hid hsource (hs.metadata.trans hmeta)
      (hs.browses.trans hbrowse) (fun i hi => hcalls i ((hs.calls i).mp hi)) (hs.table.trans htable)
      (hs.reports.trans hrep)
  | browsed data s i hlt hheap hid hsource hmeta hbrowse honly hcall htable hrep =>
    exact .browsed data s i (hs.brk.mpr hlt) (hs.heap.trans hheap) hid hsource (hs.metadata.trans hmeta)
      (hs.browses.trans hbrowse) (fun j hj => honly j ((hs.calls j).mp hj)) (hcall.imp_left (hs.calls i).mpr)
      (hs.table.trans htable) (hs.reports.trans hrep)
  | stopped data s hlt hheap hid hsource hmeta hbrowse hcalls hrep =>
    exact .stopped data s (hs.brk.mpr hlt) (hs.heap.trans hheap) hid hsource (hs.metadata.trans hmeta)
      (hs.browses.trans hbrowse) (fun i hi => hcalls i ((hs.calls i).mp hi)) (hs.reports.trans hrep)
  | gone hlt hheap hmeta hbrowse =>
    exact .gone (hs.brk.mpr hlt) (hs.heap.trans hheap) (hs.metadata.trans hmeta) (hs.browses.trans hbrowse)

lemma session_of_browses {x : Source × Nat} (h : w.browses p = some x) : session w p = some x := by
  rw [session, h]

lemma session_of_heap (h : w.browses p = none) (hp : w.heap p = some data) :
    session w p = data.source.map fun s => (s, data.browseId) := by
  rw [session, h, hp]
  rfl

lemma Course.session_none (h : Course w p) (hheap : w.heap p = none) : session w p = none := by
  have hbrowse : w.browses p = none := by
    cases h with
    | unborn _ _ _ h _ | gone _ _ _ h => exact h
    | asked _ _ _ hp | browsed _ _ _ _ hp | stopped _ _ _ hp => cases hheap.symm.trans hp
  rw [session, hbrowse, hheap]
  rfl

lemma Course.importId (h : Course w p) (hp : w.heap p = some data) : data.importId = p + 1 := by
  cases h with
  | unborn _ hheap | gone _ hheap => cases hheap.symm.trans hp
  | asked _ _ _ hheap hid | browsed _ _ _ _ hheap hid | stopped _ _ _ hheap hid =>
    cases hheap.symm.trans hp
    exact hid

lemma Courses.init (d : Daemon) : Courses (Wrapper.init d) where
  course _ := .unborn (Nat.zero_le _) rfl rfl rfl rfl
  nextId_eq := rfl
  table _ _ h := by cases h
  distinct _ _ _ h := by cases h

lemma Courses.of_spared (h : Courses w) (hspared : ∀ q, q ≠ p → Spared w w' q) (hp : Course w' p)
    (hid : w'.nextId = w'.brk) (htable : ∀ n q, w'.importRequests n = some q → n = q + 1)
    (hsession : ∀ x, session w' p = some x → session w p = some x ∨ ∀ q, q ≠ p → session w q ≠ some x) :
    Courses w' := by
  refine ⟨fun q => ?_, hid, htable, fun q r x hq hr => ?_⟩
  · by_cases hqp : q = p
    · rw [hqp]
      exact hp
    · exact (h.course q).spared (hspared q hqp)
  · have hother : ∀ r, r ≠ p → session w' r = some x → session w' p = some x → False := by
      intro r hne hr hpx
      rw [(hspared r hne).session] at hr
      rcases hsession x hpx with hold | hnew
      · exact hne (h.distinct r p x hr hold)
      · exact hnew r hne hr
    by_cases hqp : q = p
    · by_cases hrp : r = p
      · rw [hqp, hrp]
      · exact (hother r hrp hr (hqp ▸ hq)).elim
    · by_cases hrp : r = p
      · exact (hother q hqp hq (hrp ▸ hr)).elim
      · rw [(hspared q hqp).session] at hq
        rw [(hspared r hrp).session] at hr
        exact h.distinct q r x hq hr

/-! ### Turns of the daemon -/

/-- The reply that the daemon is still to send, by its destination and the id in it. -/
def asking : Call → Option (Client × Nat)
  | .getMetadata sender importId => some (sender, importId)
  | .browse _ _ => none

/-- What is heard of an import in a turn. -/
inductive News (w w' : Wrapper) (p : Ptr) (sender : Client) (sent : List ImportRequests.Sent) : Prop
  | quiet : sent.filterMap reportIn = [] → w'.reports p = w.reports p → (Live w p → Live w' p) → News w w' p sender sent
  | reported (args : List Arg) (result : ImportResult) : parseImported args = some (p + 1, result) →
      sent.filterMap reportIn = [(sender, args)] → w.reports p = [] →
      w'.reports p = [.playlistImported sender args] → News w w' p sender sent

/-- A turn that concerns one import. -/
structure Moved (w w' : Wrapper) (p : Ptr) (sender : Client) (sent : List ImportRequests.Sent) : Prop where
  courses : Courses w'
  spared : ∀ q, q ≠ p → Spared w w' q
  lt_brk : p < w'.brk
  sent_by : ∀ data, w'.heap p = some data → data.sender = sender
  news : News w w' p sender sent

lemma Moved.concat {sender : Client} (h : Moved w w' p sender sent) {m : ImportRequests.Sent} (hm : reportIn m = none) :
    Moved w w' p sender (sent ++ [m]) := by
  have hsent : (sent ++ [m]).filterMap reportIn = sent.filterMap reportIn := by
    rw [List.filterMap_append, List.filterMap_cons_none hm, List.filterMap_nil, List.append_nil]
  refine ⟨h.courses, h.spared, h.lt_brk, h.sent_by, ?_⟩
  cases h.news with
  | quiet hnone hrep hlive => exact .quiet (hsent.trans hnone) hrep hlive
  | reported args result hparse hone hrep hrep' => exact .reported args result hparse (hsent.trans hone) hrep hrep'

lemma Moved.reports_mono {sender : Client} (hm : Moved w w' p sender sent) {x : MafwShared.Sent}
    (hx : x ∈ w.reports q) : x ∈ w'.reports q := by
  by_cases hq : q = p
  · subst hq
    cases hm.news with
    | quiet _ hrep _ => exact hrep.symm ▸ hx
    | reported _ _ _ _ hnone _ =>
      rw [hnone] at hx
      cases hx
  · exact (hm.spared q hq).reports.symm ▸ hx

lemma Moved.results {sender : Client} (hm : Moved w w' p sender sent) (name : Client) :
    (∀ n, n ≠ p + 1 ∨ name ≠ sender → (sent.filterMap (incomingOf name)).filterMap (resultIn n) = []) ∧
      (∀ args, .playlistImported args ∈ sent.filterMap (incomingOf name) → ∃ result,
        parseImported args = some (p + 1, result) ∧ .playlistImported name args ∈ w'.reports p) := by
  cases hm.news with
  | quiet hnone _ _ =>
    refine ⟨fun n _ => ?_, fun args hargs => ?_⟩
    · rw [results_incomingOf, hnone]
      rfl
    · rw [mem_incomingOf, hnone] at hargs
      cases hargs
  | reported args result hparse hone _ hreported =>
    refine ⟨fun n hn => ?_, fun args' hargs => ?_⟩
    · rw [results_incomingOf, hone]
      apply List.filterMap_cons_none
      rcases hn with hn | hn
      · split
        · rw [resultIn, hparse, Option.bind_some]
          exact if_neg (Ne.symm hn)
        · rfl
      · exact if_neg (Ne.symm hn)
    · rw [mem_incomingOf, hone, List.mem_singleton] at hargs
      cases hargs
      refine ⟨result, hparse, ?_⟩
      rw [hreported]
      exact List.mem_cons_self

/-- The sender's messages tell of the import once, and then it was reported for the first time. -/
lemma Moved.own {sender : Client} (hm : Moved w w' p sender sent) :
    ((sent.filterMap (incomingOf sender)).filterMap (resultIn (p + 1)) = [] ∧ w'.reports p = w.reports p ∧
        (Live w p → Live w' p)) ∨
      ∃ result, (sent.filterMap (incomingOf sender)).filterMap (resultIn (p + 1)) = [result] ∧ w.reports p = [] := by
  rw [results_incomingOf]
  cases hm.news with
  | quiet hnone hrep hlive =>
    refine .inl ⟨?_, hrep, hlive⟩
    rw [hnone]
    rfl
  | reported args result hparse hone hrep _ =>
    refine .inr ⟨result, ?_, hrep⟩
    rw [hone]
    refine List.filterMap_cons_some ?_
    rw [if_pos rfl, resultIn, hparse, Option.bind_some]
    exact if_pos rfl

/-- A turn without a reply. -/
structure Silent (w w' : Wrapper) (sent : List ImportRequests.Sent) : Prop where
  reply : sent.findSome? replyOf = none
  asks : w'.calls.filterMap asking = w.calls.filterMap asking

/-- Data in the hands of a callback, which began in `w`. -/
structure Held (w w' : Wrapper) (p : Ptr) (data : ImportData) : Prop where
  spared : ∀ q, q ≠ p → Spared w w' q
  nextId_eq : w'.nextId = w'.brk
  table : ∀ n q, w'.importRequests n = some q → n = q + 1
  lt_brk : p < w'.brk
  heap : w'.heap p = some data
  importId : data.importId = p + 1
  metadata : w'.metadata p = none
  browses : w'.browses p = none
  reports : w'.reports p = []

namespace Held

lemma write (h : Held w w' p data) {new : ImportData} (hid : new.importId = data.importId) :
    Held w (w'.write p new) p new := by
  refine ⟨fun q hq => (h.spared q hq).trans ?_, h.nextId_eq, h.table, h.lt_brk, Function.update_self _ _ _,
    hid.trans h.importId, h.metadata, h.browses, h.reports⟩
  exact ⟨Function.update_of_ne hq _ _, rfl, rfl, rfl, rfl, fun _ => Iff.rfl, Iff.rfl⟩

lemma courses (h : Held w w' p data) (hw : Courses w) (hspared : ∀ q, q ≠ p → Spared w' w'' q)
    (hheap : w''.heap p = none) (hmeta : w''.metadata p = none) (hbrowse : w''.browses p = none)
    (hid : w''.nextId = w''.brk) (hbrk : w''.brk = w'.brk)
    (htable : ∀ n q, w''.importRequests n = some q → n = q + 1) : Courses w'' := by
  have hgone : Course w'' p := .gone (hbrk.symm ▸ h.lt_brk) hheap hmeta hbrowse
  refine hw.of_spared (fun q hq => (h.spared q hq).trans (hspared q hq)) hgone hid htable fun x hx => ?_
  rw [hgone.session_none hheap] at hx
  cases hx

lemma finish_spared (h : Held w w' p data) (o : ImportRequests.Outcome) :
    ∀ q, q ≠ p → Spared w' (w'.finish p data.importId o) q := by
  intro q hq
  refine ⟨Function.update_of_ne hq _ _, rfl, rfl, rfl, ?_, fun _ => Iff.rfl, Iff.rfl⟩
  have hne : q + 1 ≠ data.importId := by
    rw [h.importId]
    exact fun he => hq (Nat.succ_injective he)
  exact Function.update_of_ne hne _ _

lemma finish_courses (h : Held w w' p data) (hw : Courses w) (o : ImportRequests.Outcome) :
    Courses (w'.finish p data.importId o) := by
  refine h.courses hw (h.finish_spared o) (Function.update_self _ _ _) h.metadata h.browses h.nextId_eq rfl ?_
  intro n q hq
  exact h.table n q (of_update_none hq).2

lemma importDone (h : Held w w' p data) (hw : Courses w) (hrep : w.reports p = []) {err : Option GError}
    (hr : w'.importDone lib p err = .ok (w'', sent)) :
    Moved w w'' p data.sender sent ∧ sent.findSome? replyOf = none ∧ w''.calls = w'.calls ∧ w''.reports p ≠ [] := by
  rw [Wrapper.importDone, Wrapper.deref, h.heap] at hr
  obtain ⟨_, hdata, hr⟩ := bind_ok hr
  cases hdata
  obtain ⟨⟨d, messages⟩, hdone, hr⟩ := bind_ok hr
  obtain ⟨args, result, hparse, hreport, hreports⟩ := importDone_report hdone
  dsimp only at hr
  rw [hreports] at hr
  cases hr
  generalize hend : (if err.isSome = true then ImportRequests.Outcome.failed else .imported) = o
  generalize hnew : { w' with
    daemon := d
    reports := Function.update w'.reports p (w'.reports p ++ [Sent.playlistImported data.sender args]) } = w₁
  have hfreed : (w₁.finish p data.importId o).heap p = none := Function.update_self _ _ _
  have hspared : ∀ q, q ≠ p → Spared w' (w₁.finish p data.importId o) q := by
    intro q hq
    subst hnew
    refine ⟨Function.update_of_ne hq _ _, rfl, rfl, Function.update_of_ne hq _ _, ?_, fun _ => Iff.rfl, Iff.rfl⟩
    exact (h.finish_spared o q hq).table
  have hreported : (w₁.finish p data.importId o).reports p = [.playlistImported data.sender args] := by
    subst hnew
    refine (Function.update_self _ _ _).trans ?_
    rw [h.reports, List.nil_append]
  refine ⟨⟨?_, fun q hq => (h.spared q hq).trans (hspared q hq), hnew ▸ h.lt_brk, fun data' hp => ?_,
    .reported args result (h.importId ▸ hparse) hreport hrep hreported⟩, ?_, ?_, ?_⟩
  · subst hnew
    refine h.courses hw hspared hfreed h.metadata h.browses h.nextId_eq rfl fun n q hq => ?_
    exact h.table n q (of_update_none hq).2
  · rw [hfreed] at hp
    cases hp
  · rw [List.findSome?_map]
    exact List.findSome?_eq_none_iff.mpr fun _ _ => rfl
  · subst hnew
    rfl
  · rw [hreported]
    exact List.cons_ne_nil _ _

lemma importFromFile (h : Held w w' p data) (hw : Courses w) (hrep : w.reports p = []) {parsed : Parsed} {b : Bool}
    (hr : w'.importFromFile lib p parsed = .ok (b, w'', sent)) :
    (b = true ∧ Moved w w'' p data.sender sent ∧ sent.findSome? replyOf = none ∧ w''.calls = w'.calls ∧
        w''.reports p ≠ []) ∨
      b = false ∧ sent = [] ∧ w''.calls = w'.calls ∧
        ∃ new, new.sender = data.sender ∧ Held w w'' p new := by
  rw [Wrapper.importFromFile, Wrapper.deref, h.heap] at hr
  obtain ⟨_, hdata, hr⟩ := bind_ok hr
  cases hdata
  have hread : Held w (w'.write p { data with urilist := data.urilist ++ parsed.uris }) p
    { data with urilist := data.urilist ++ parsed.uris } := h.write rfl
  dsimp only at hr
  split at hr
  · obtain ⟨⟨w₁, sent₁⟩, hdone, hr⟩ := bind_ok hr
    cases hr
    exact .inl ⟨rfl, hread.importDone hw hrep hdone⟩
  · cases hr
    exact .inr ⟨rfl, rfl, rfl, { data with urilist := data.urilist ++ parsed.uris }, rfl, hread⟩

lemma browse (h : Held w w' p data) (hw : Courses w) (hrep : w.reports p = []) {s : Source} {i : Nat}
    (hsource : data.source = some s) (htable : w'.importRequests (p + 1) = some p)
    (hcalls : ∀ j, Call.browse p j ∉ w'.calls) (hfresh : ∀ q, session w q ≠ some (s, i)) :
    Moved w { w' with calls := .browse p i :: w'.calls, browses := Function.update w'.browses p (some (s, i)) } p
      data.sender [] := by
  generalize hnew : { w' with
    calls := Call.browse p i :: w'.calls, browses := Function.update w'.browses p (some (s, i)) } = w''
  have hbrowse : w''.browses p = some (s, i) := by
    rw [← hnew]
    exact Function.update_self _ _ _
  have hspared : ∀ q, q ≠ p → Spared w w'' q := by
    intro q hq
    subst hnew
    refine (h.spared q hq).trans ⟨rfl, rfl, Function.update_of_ne hq _ _, rfl, rfl, fun j => ?_, Iff.rfl⟩
    refine List.mem_cons.trans (or_iff_right fun he => hq ?_)
    cases he
    rfl
  have hcourse : Course w'' p := by
    subst hnew
    refine .browsed data s i h.lt_brk h.heap h.importId hsource h.metadata hbrowse (fun j hj => ?_)
      (.inl List.mem_cons_self) htable h.reports
    rcases List.mem_cons.mp hj with he | hj
    · cases he
      rfl
    · exact absurd hj (hcalls j)
  refine ⟨hw.of_spared hspared hcourse ?_ ?_ fun x hx => ?_, hspared, hnew ▸ h.lt_brk, fun data' hp => ?_,
    .quiet rfl ?_ fun _ => ?_⟩
  · subst hnew
    exact h.nextId_eq
  · subst hnew
    exact h.table
  · rw [session, hbrowse] at hx
    cases hx
    exact .inr fun q _ => hfresh q
  · subst hnew
    rw [h.heap] at hp
    cases hp
    rfl
  · subst hnew
    exact h.reports.trans hrep.symm
  · refine .inl ?_
    rw [hbrowse]
    exact Option.some_ne_none _

lemma register (h : Held w w' p data) (hw : Courses w) (hrep : w.reports p = []) (hunborn : ¬Live w p) (s : Source)
    (hsource : data.source = none) (hcancel : data.cancel = false) (hcalls : w'.calls = []) :
    let w'' := { w' with
      importRequests := Function.update w'.importRequests (p + 1) (some p)
      registered := p :: w'.registered
      calls := .getMetadata data.sender (p + 1) :: w'.calls
      metadata := Function.update w'.metadata p (some s) }
    Moved w w'' p data.sender [] ∧ Live w'' p := by
  intro w''
  have hmeta : w''.metadata p = some s := Function.update_self _ _ _
  have hspared : ∀ q, q ≠ p → Spared w w'' q := by
    intro q hq
    refine (h.spared q hq).trans ⟨rfl, Function.update_of_ne hq _ _, rfl, rfl,
      Function.update_of_ne (fun he => hq (Nat.succ_injective he)) _ _, fun i => ?_, Iff.rfl⟩
    have hne : Call.browse q i ≠ .getMetadata data.sender (p + 1) := nofun
    exact List.mem_cons.trans (or_iff_right hne)
  have hcourse : Course w'' p := by
    refine .asked data s h.lt_brk h.heap h.importId hsource hmeta h.browses (fun i hi => ?_)
      (Function.update_self _ _ _) h.reports
    rcases List.mem_cons.mp hi with he | hi
    · cases he
    · rw [hcalls] at hi
      cases hi
  refine ⟨⟨hw.of_spared hspared hcourse h.nextId_eq (fun n q hq => ?_) fun x hx => ?_, hspared, h.lt_brk,
    fun data' hp => ?_, .quiet rfl (h.reports.trans hrep.symm) fun hlive => absurd hlive hunborn⟩,
    .inr ⟨?_, data, h.heap, hcancel⟩⟩
  · rcases of_update_some hq with ⟨rfl, rfl⟩ | ⟨-, hq⟩
    · rfl
    · exact h.table n q hq
  · rw [session_of_heap (w := w'') h.browses h.heap, hsource] at hx
    cases hx
  · cases h.heap.symm.trans hp
    rfl
  · rw [hmeta]
    exact Option.some_ne_none s

end Held

/-! ### The callbacks -/

lemma Courses.held_metadata (h : Courses w) {s : Source} (hs : w.metadata p = some s) :
    ∃ data, w.heap p = some data ∧ data.source = none ∧ w.reports p = [] ∧ w.importRequests (p + 1) = some p ∧
      (∀ i, Call.browse p i ∉ w.calls) ∧ Held w { w with metadata := Function.update w.metadata p none } p data := by
  cases h.course p with
  | unborn _ _ hmeta | gone _ _ hmeta => cases hmeta.symm.trans hs
  | browsed _ _ _ _ _ _ _ hmeta | stopped _ _ _ _ _ _ hmeta => cases hmeta.symm.trans hs
  | asked data _ hlt hp hid hsource _ hbrowse hcalls htable hrep =>
    refine ⟨data, hp, hsource, hrep, htable, hcalls, fun q hq => ?_, h.nextId_eq, h.table, hlt, hp, hid,
      Function.update_self _ _ _, hbrowse, hrep⟩
    exact ⟨rfl, Function.update_of_ne hq _ _, rfl, rfl, rfl, fun _ => Iff.rfl, Iff.rfl⟩

lemma Courses.held_final (h : Courses w) {x : Source × Nat} (hs : w.browses p = some x) :
    ∃ data, w.heap p = some data ∧ w.reports p = [] ∧
      Held w { w with browses := Function.update w.browses p none } p data := by
  cases h.course p with
  | unborn _ _ _ hbrowse | gone _ _ _ hbrowse => cases hbrowse.symm.trans hs
  | asked _ _ _ _ _ _ _ hbrowse | stopped _ _ _ _ _ _ _ hbrowse => cases hbrowse.symm.trans hs
  | browsed data _ _ hlt hp hid _ hmeta _ _ _ _ hrep =>
    refine ⟨data, hp, hrep, fun q hq => ?_, h.nextId_eq, h.table, hlt, hp, hid, hmeta, Function.update_self _ _ _,
      hrep⟩
    exact ⟨rfl, rfl, Function.update_of_ne hq _ _, rfl, rfl, fun _ => Iff.rfl, Iff.rfl⟩

/-- `mdata_res_cb`, when the source gives out the id of no other session. -/
lemma Courses.metadata (h : Courses w) {reply : Except GError Metadata} {parsed : Parsed} {browseId : Nat}
    (hs : (w.metadata p).isSome) (hfresh : ∀ s q, w.metadata p = some s → session w q ≠ some (s, browseId))
    (hr : w.handle lib (.metadata p reply parsed browseId) = .ok (w', sent)) :
    ∃ data, w.heap p = some data ∧ Moved w w' p data.sender sent ∧ Silent w w' sent := by
  obtain ⟨s, hs⟩ := Option.isSome_iff_exists.mp hs
  obtain ⟨data, hp, hsource, hrep, htable, hcalls, hheld⟩ := h.held_metadata hs
  refine ⟨data, hp, ?_⟩
  dsimp only [Wrapper.handle] at hr
  rw [hs] at hr
  dsimp only at hr
  rw [Wrapper.mdataResCb, Wrapper.deref, hheld.heap] at hr
  obtain ⟨_, hdata, hr⟩ := bind_ok hr
  cases hdata
  dsimp only at hr
  split at hr
  · rename_i hcancel
    cases hr
    refine ⟨⟨hheld.finish_courses h _, fun q hq => (hheld.spared q hq).trans (hheld.finish_spared _ q hq),
      hheld.lt_brk, fun data' hp' => ?_, .quiet rfl rfl fun hlive => ?_⟩, rfl, rfl⟩
    · have hfreed : ({ w with metadata := Function.update w.metadata p none }.finish p data.importId
          .cancelled).heap p = none := Function.update_self _ _ _
      rw [hfreed] at hp'
      cases hp'
    · rcases hlive with hbrowse | ⟨-, data', hp', hcancel'⟩
      · exact absurd hheld.browses hbrowse
      · rw [hp] at hp'
        cases hp'
        rw [hcancel] at hcancel'
        cases hcancel'
  · cases reply with
    | error err =>
      obtain ⟨hmoved, hreply, hcalls', -⟩ := hheld.importDone h hrep hr
      exact ⟨hmoved, hreply, congrArg _ hcalls'⟩
    | ok metadata =>
      dsimp only at hr
      have hbrowse : ∀ new : ImportData, new.importId = data.importId → new.sender = data.sender → new.source = some s →
          ∀ w₁, w₁ = { w with metadata := Function.update w.metadata p none }.write p new →
          Moved w { w₁ with
            calls := .browse p browseId :: w₁.calls
            browses := Function.update w₁.browses p (some (s, browseId)) } p data.sender [] := by
        rintro new hid hsender hnew _ rfl
        rw [← hsender]
        exact (hheld.write hid).browse h hrep hnew htable hcalls fun q => hfresh s q hs
      cases huri : metadata.uri with
      | none =>
        rw [huri, if_pos (Or.inl rfl)] at hr
        cases hr
        exact ⟨hbrowse { data with listFromBrowse := true, source := some s } rfl rfl rfl _ rfl, rfl, rfl⟩
      | some uri =>
        rw [huri] at hr
        split at hr
        · cases hr
          exact ⟨hbrowse { data with plUri := uri, listFromBrowse := true, source := some s } rfl rfl rfl _ rfl, rfl,
            rfl⟩
        · obtain ⟨⟨b, w₁, sent₁⟩, hfile, hr⟩ := bind_ok hr
          have hwrite : Held w ({ w with metadata := Function.update w.metadata p none }.write p
            { data with plUri := uri }) p { data with plUri := uri } := hheld.write rfl
          dsimp only at hr
          rcases hwrite.importFromFile h hrep hfile with
            ⟨rfl, hmoved, hreply, hcalls', -⟩ | ⟨rfl, -, hcalls₁, last, hsender, hlast⟩
          · cases hr
            exact ⟨hmoved, hreply, congrArg _ hcalls'⟩
          · obtain ⟨hmoved, hreply, hcalls', -⟩ := hlast.importDone h hrep hr
            rw [hsender] at hmoved
            exact ⟨hmoved, hreply, congrArg _ (hcalls'.trans hcalls₁)⟩

lemma spared_write (new : ImportData) (hq : q ≠ p) : Spared w (w.write p new) q :=
  ⟨Function.update_of_ne hq _ _, rfl, rfl, rfl, rfl, fun _ => Iff.rfl, Iff.rfl⟩

lemma Courses.write (h : Courses w) (hp : w.heap p = some data) {new : ImportData} (hid : new.importId = data.importId)
    (hsource : new.source = data.source) (hbrowse : new.browseId = data.browseId) : Courses (w.write p new) := by
  have hnew : (w.write p new).heap p = some new := Function.update_self _ _ _
  refine h.of_spared (fun q hq => spared_write new hq) ?_ h.nextId_eq h.table fun x hx => .inl ?_
  · cases h.course p with
    | unborn _ hheap | gone _ hheap => cases hheap.symm.trans hp
    | asked data' s hlt hheap hid' hsource' hmeta hbrowse' hcalls htable hrep =>
      cases hheap.symm.trans hp
      exact .asked new s hlt hnew (hid.trans hid') (hsource.trans hsource') hmeta hbrowse' hcalls htable hrep
    | browsed data' s i hlt hheap hid' hsource' hmeta hbrowse' honly hcall htable hrep =>
      cases hheap.symm.trans hp
      exact .browsed new s i hlt hnew (hid.trans hid') (hsource.trans hsource') hmeta hbrowse' honly
        (hcall.imp_right hbrowse.trans) htable hrep
    | stopped data' s hlt hheap hid' hsource' hmeta hbrowse' hcalls hrep =>
      cases hheap.symm.trans hp
      exact .stopped new s hlt hnew (hid.trans hid') (hsource.trans hsource') hmeta hbrowse' hcalls hrep
  · rw [session, hnew, Option.bind_some, hsource, hbrowse] at hx
    rw [session, hp, Option.bind_some]
    exact hx

lemma Courses.browseResult (h : Courses w) {reply : BrowseReply} (hs : (w.browses p).isSome)
    (hr : w.handle lib (.browseResult p reply) = .ok (w', sent)) :
    ∃ data, w.heap p = some data ∧ Moved w w' p data.sender sent ∧ Silent w w' sent := by
  obtain ⟨x, hs⟩ := Option.isSome_iff_exists.mp hs
  obtain ⟨data, hp, hrep, hheld⟩ := h.held_final hs
  refine ⟨data, hp, ?_⟩
  dsimp only [Wrapper.handle] at hr
  by_cases hfinal : Wrapper.final reply = true
  · rw [if_pos hfinal, Wrapper.browseResCb] at hr
    cases herr : reply.error with
    | some err =>
      rw [herr] at hr
      obtain ⟨hmoved, hreply, hcalls, -⟩ := hheld.importDone h hrep hr
      exact ⟨hmoved, hreply, congrArg _ hcalls⟩
    | none =>
      rw [herr] at hr
      have hlast : ¬reply.remainingCount ≠ 0 := by
        simpa [Wrapper.final, herr] using hfinal
      cases hoid : reply.objectId with
      | none =>
        rw [hoid] at hr
        obtain ⟨_, hw, hr⟩ := bind_ok hr
        cases hw
        dsimp only at hr
        rw [if_neg hlast] at hr
        obtain ⟨hmoved, hreply, hcalls, -⟩ := hheld.importDone h hrep hr
        exact ⟨hmoved, hreply, congrArg _ hcalls⟩
      | some objectId =>
        rw [hoid] at hr
        obtain ⟨_, hdata, hr⟩ := bind_ok hr
        rw [Wrapper.deref, hheld.heap] at hdata
        cases hdata
        obtain ⟨_, hw, hr⟩ := bind_ok hr
        cases hw
        dsimp only at hr
        rw [if_neg hlast] at hr
        have hwrite : Held w ({ w with browses := Function.update w.browses p none }.write p
            { data with urilist := data.urilist ++ [objectId] }) p
            { data with urilist := data.urilist ++ [objectId] } := hheld.write rfl
        obtain ⟨hmoved, hreply, hcalls, -⟩ := hwrite.importDone h hrep hr
        exact ⟨hmoved, hreply, congrArg _ hcalls⟩
  · rw [if_neg hfinal, Wrapper.browseResCb] at hr
    obtain ⟨herr, hmore⟩ : reply.error = none ∧ reply.remainingCount ≠ 0 := by
      simpa [Wrapper.final, not_or] using hfinal
    rw [herr] at hr
    cases hoid : reply.objectId with
    | none =>
      rw [hoid] at hr
      obtain ⟨_, hw, hr⟩ := bind_ok hr
      cases hw
      dsimp only at hr
      rw [if_pos hmore] at hr
      cases hr
      refine ⟨⟨h, fun q _ => ⟨rfl, rfl, rfl, rfl, rfl, fun _ => Iff.rfl, Iff.rfl⟩, hheld.lt_brk, fun data' hp' => ?_,
        .quiet rfl rfl fun hlive => hlive⟩, rfl, rfl⟩
      rw [hp] at hp'
      cases hp'
      rfl
    | some objectId =>
      rw [hoid] at hr
      obtain ⟨_, hdata, hr⟩ := bind_ok hr
      rw [Wrapper.deref, hp] at hdata
      cases hdata
      obtain ⟨_, hw, hr⟩ := bind_ok hr
      cases hw
      dsimp only at hr
      rw [if_pos hmore] at hr
      cases hr
      refine ⟨⟨h.write hp rfl rfl rfl, fun q hq => spared_write _ hq, hheld.lt_brk, fun data' hp' => ?_,
        .quiet rfl rfl fun hlive => .inl ?_⟩, rfl, rfl⟩
      · cases (Function.update_self _ _ _).symm.trans hp'
        rfl
      · have hbrowse : w.browses p ≠ none := by
          rw [hs]
          exact Option.some_ne_none x
        exact hbrowse

/-! ### Calls that return -/

lemma Courses.idle (h : Courses w) (hspared : ∀ q, Spared w w' q) (hid : w'.nextId = w'.brk)
    (htable : ∀ n q, w'.importRequests n = some q → n = q + 1) : Courses w' := by
  refine h.of_spared (p := 0) (fun q _ => hspared q) ((h.course 0).spared (hspared 0)) hid htable fun x hx => .inl ?_
  rw [← (hspared 0).session]
  exact hx

lemma Courses.returns_reply (h : Courses w) {sender : Client} {n : Nat} {calls : List Call}
    (hcalls : w.calls = .getMetadata sender n :: calls) :
    Courses { w with calls } ∧ ∀ q, Spared w { w with calls } q := by
  have hspared : ∀ q, Spared w { w with calls } q := by
    refine fun q => ⟨rfl, rfl, rfl, rfl, rfl, fun i => ?_, Iff.rfl⟩
    have hne : Call.browse q i ≠ .getMetadata sender n := nofun
    rw [hcalls]
    exact (List.mem_cons.trans (or_iff_right hne)).symm
  exact ⟨h.idle hspared h.nextId_eq h.table, hspared⟩

lemma Courses.returns_browse (h : Courses w) {i : Nat} {calls : List Call} (hcalls : w.calls = .browse p i :: calls)
    (hr : w.handle lib .returns = .ok (w', sent)) :
    ∃ data, w.heap p = some data ∧ Moved w w' p data.sender sent ∧ Silent w w' sent := by
  dsimp only [Wrapper.handle] at hr
  rw [Wrapper.callReturns, hcalls] at hr
  obtain ⟨data, hdata, hr⟩ := bind_ok hr
  have hp : w.heap p = some data := by
    unfold Wrapper.deref at hdata
    split at hdata
    · cases hdata
    · cases hdata
      assumption
  cases hr
  have hmem : Call.browse p i ∈ w.calls := by
    rw [hcalls]
    exact List.mem_cons_self
  refine ⟨data, hp, ?_, rfl, ?_⟩
  · cases h.course p with
    | unborn _ hheap | gone _ hheap => cases hheap.symm.trans hp
    | asked _ _ _ _ _ _ _ _ hnone | stopped _ _ _ _ _ _ _ _ hnone => exact absurd hmem (hnone i)
    | browsed data' s j hlt hheap hid hsource hmeta hbrowse honly _ htable hrep =>
      cases hheap.symm.trans hp
      obtain rfl := honly i hmem
      generalize hnew : { w.write p { data with browseId := i } with calls } = w''
      have hheap'' : w''.heap p = some { data with browseId := i } := by
        rw [← hnew]
        exact Function.update_self _ _ _
      have hbrowse'' : w''.browses p = some (s, i) := by
        rw [← hnew]
        exact hbrowse
      have hspared : ∀ q, q ≠ p → Spared w w'' q := by
        intro q hq
        subst hnew
        refine ⟨Function.update_of_ne hq _ _, rfl, rfl, rfl, rfl, fun k => ?_, Iff.rfl⟩
        have hne : Call.browse q k ≠ .browse p i := by
          intro he
          cases he
          exact hq rfl
        rw [hcalls]
        exact (List.mem_cons.trans (or_iff_right hne)).symm
      subst hnew
      refine ⟨h.of_spared hspared ?_ h.nextId_eq h.table fun x hx => .inl ?_, hspared, hlt, fun data' hp' => ?_,
        .quiet rfl rfl fun hlive => .inl ?_⟩
      · refine .browsed _ s i hlt hheap'' hid hsource hmeta hbrowse (fun k hk => honly k ?_) (.inr rfl) htable hrep
        rw [hcalls]
        exact List.mem_cons_of_mem _ hk
      · rw [session_of_browses hbrowse'', ← session_of_browses hbrowse] at hx
        exact hx
      · cases hheap''.symm.trans hp'
        rfl
      · rw [hbrowse'']
        exact Option.some_ne_none _
  · rw [hcalls]
    rfl

/-! ### Requests -/

/-- A cancelled import is not heard of any more. -/
structure Dropped (w w' : Wrapper) (n : Nat) : Prop where
  courses : Courses w'
  spared : ∀ q, q + 1 ≠ n → Spared w w' q
  reports : w'.reports = w.reports
  sent_by : ∀ q data', w'.heap q = some data' → ∃ data, w.heap q = some data ∧ data'.sender = data.sender
  calls : w'.calls = w.calls
  brk : w'.brk = w.brk

lemma Courses.cancelImport (h : Courses w) (hcalls : w.calls = []) {sender : Client} {n : Nat}
    (hr : w.handle lib (.cancelImport sender n) = .ok (w', sent)) :
    Dropped w w' n ∧ sent.filterMap reportIn = [] ∧
      ∃ reply, sent.findSome? replyOf = some reply ∧ ∀ m, reply ≠ .importId m := by
  dsimp only [Wrapper.handle] at hr
  unfold Wrapper.cancelImport at hr
  cases hentry : w.importRequests n with
  | none =>
    rw [hentry] at hr
    cases hr
    exact ⟨⟨h, fun q _ => ⟨rfl, rfl, rfl, rfl, rfl, fun _ => Iff.rfl, Iff.rfl⟩, rfl,
      fun q data hq => ⟨data, hq, rfl⟩, rfl, rfl⟩, rfl, _, rfl, nofun⟩
  | some p =>
    obtain rfl := h.table n p hentry
    have hne : ∀ q, q + 1 ≠ p + 1 → q ≠ p := fun q hq he => hq (congrArg Nat.succ he)
    rw [hentry] at hr
    obtain ⟨data, hdata, hr⟩ := bind_ok hr
    have hp : w.heap p = some data := by
      unfold Wrapper.deref at hdata
      split at hdata
      · cases hdata
      · cases hdata
        assumption
    cases hsource : data.source with
    | none =>
      simp only [hsource] at hr
      cases hr
      refine ⟨⟨h.write hp rfl hsource.symm rfl, fun q hq => spared_write _ (hne q hq), rfl, fun q data' hq => ?_, rfl,
        rfl⟩, rfl, _, rfl, nofun⟩
      rcases of_update_some hq with ⟨rfl, rfl⟩ | ⟨-, hq⟩
      · exact ⟨data, hp, rfl⟩
      · exact ⟨data', hq, rfl⟩
    | some s =>
      simp only [hsource] at hr
      cases hr
      obtain ⟨hlt, hid, hmeta, hbrowse, hrep⟩ : p < w.brk ∧ data.importId = p + 1 ∧ w.metadata p = none ∧
          (w.browses p = none ∨ w.browses p = some (s, data.browseId)) ∧ w.reports p = [] := by
        cases h.course p with
        | unborn _ hheap | gone _ hheap => cases hheap.symm.trans hp
        | asked _ _ _ hheap _ hnone =>
          cases hheap.symm.trans hp
          cases hnone.symm.trans hsource
        | browsed _ s' i hlt hheap hid hsource' hmeta hbrowse _ hcall _ hrep =>
          cases hheap.symm.trans hp
          cases hsource'.symm.trans hsource
          rw [hcalls] at hcall
          have hi : data.browseId = i := hcall.resolve_left List.not_mem_nil
          exact ⟨hlt, hid, hmeta, .inr (hi ▸ hbrowse), hrep⟩
        | stopped _ _ hlt hheap hid _ hmeta hbrowse _ hrep =>
          cases hheap.symm.trans hp
          exact ⟨hlt, hid, hmeta, .inl hbrowse, hrep⟩
      have hsession : session w p = some (s, data.browseId) := by
        rcases hbrowse with hbrowse | hbrowse
        · rw [session_of_heap hbrowse hp, hsource]
          rfl
        · exact session_of_browses hbrowse
      generalize hnew : w.cancelBrowse s data.browseId = w''
      have hbrowse'' : ∀ q, w''.browses q = if w.browses q = some (s, data.browseId) then none else w.browses q := by
        rw [← hnew]
        exact fun _ => rfl
      have hstopped : w''.browses p = none := by
        rw [hbrowse'']
        rcases hbrowse with hbrowse | hbrowse <;> simp [hbrowse]
      have hspared : ∀ q, q ≠ p → Spared w w'' q := by
        intro q hq
        have hother : w.browses q ≠ some (s, data.browseId) := fun he =>
          hq (h.distinct q p _ (session_of_browses he) hsession)
        have hkept : w''.browses q = w.browses q := by rw [hbrowse'', if_neg hother]
        subst hnew
        exact ⟨rfl, rfl, hkept, rfl, rfl, fun _ => Iff.rfl, Iff.rfl⟩
      have hp'' : w''.heap p = some data := by
        rw [← hnew]
        exact hp
      have hsession'' : session w'' p = some (s, data.browseId) := by
        rw [session_of_heap hstopped hp'', hsource]
        rfl
      refine ⟨⟨?_, fun q hq => hspared q (hne q hq), ?_, ?_, ?_, ?_⟩, rfl, _, rfl, nofun⟩
      · subst hnew
        refine h.of_spared hspared ?_ h.nextId_eq h.table fun x hx => .inl ?_
        · refine .stopped data s hlt hp hid hsource hmeta hstopped (fun i hi => ?_) hrep
          have hmem : Call.browse p i ∈ w.calls := hi
          rw [hcalls] at hmem
          cases hmem
        · rw [hsession, ← hsession'']
          exact hx
      · subst hnew
        rfl
      · subst hnew
        exact fun q data' hq => ⟨data', hq, rfl⟩
      · subst hnew
        rfl
      · subst hnew
        rfl

lemma Courses.importPlaylist (h : Courses w) (hcalls : w.calls = []) (hlt : w.nextId + 1 < 2 ^ 32) {sender : Client}
    {pl base : Bytes} {src : Option Source} {parsed : Parsed}
    (hr : w.handle lib (.importPlaylist sender pl base src parsed) = .ok (w', sent)) :
    Moved w w' w.brk sender sent ∧
      (sent.findSome? replyOf = none ∧ w'.calls.filterMap asking = [(sender, w.brk + 1)] ∧ Live w' w.brk ∨
        w'.calls = [] ∧ (sent.findSome? replyOf = some (.importId (w.brk + 1)) ∧ w'.reports w.brk ≠ [] ∨
          ∃ err, sent.findSome? replyOf = some (.error err))) := by
  dsimp only [Wrapper.handle] at hr
  unfold Wrapper.importPlaylist at hr
  dsimp only at hr
  rw [Nat.mod_eq_of_lt hlt, h.nextId_eq] at hr
  generalize hdata : Wrapper.newPlparseData sender pl base (w.brk + 1) = data at hr
  have hnew : data.importId = w.brk + 1 ∧ data.source = none ∧ data.cancel = false ∧ data.sender = sender := by
    rw [← hdata]
    exact ⟨rfl, rfl, rfl, rfl⟩
  obtain ⟨hid, hsource, hcancel, hsender⟩ := hnew
  obtain ⟨hmeta, hbrowse, hrep⟩ : w.metadata w.brk = none ∧ w.browses w.brk = none ∧ w.reports w.brk = [] := by
    cases h.course w.brk with
    | unborn _ _ hmeta hbrowse hrep => exact ⟨hmeta, hbrowse, hrep⟩
    | asked _ _ hlt | browsed _ _ _ hlt | stopped _ _ hlt | gone hlt => exact absurd hlt (Nat.lt_irrefl _)
  have hheld : Held w { w.malloc data with nextId := w.brk + 1 } w.brk data := by
    refine ⟨fun q hq => ?_, rfl, h.table, Nat.lt_succ_self _, Function.update_self _ _ _, hid, hmeta, hbrowse, hrep⟩
    refine ⟨Function.update_of_ne hq _ _, rfl, rfl, rfl, rfl, fun _ => Iff.rfl, ?_⟩
    exact Nat.lt_succ_iff_lt_or_eq.trans (or_iff_left hq)
  have hunborn : ¬Live w w.brk := by
    rintro (hlive | ⟨hlive, -⟩)
    · exact hlive hbrowse
    · exact hlive hmeta
  subst hsender
  -- the data are freed before the import is one
  have hrefused : ∀ w₁ new, Held w w₁ w.brk new → ∀ err : GError,
      Moved w (w₁.freePlparseData w.brk) w.brk data.sender [.error data.sender err] := by
    intro w₁ new hnew err
    have hfreed : (w₁.freePlparseData w.brk).heap w.brk = none := Function.update_self _ _ _
    have hspared : ∀ q, q ≠ w.brk → Spared w₁ (w₁.freePlparseData w.brk) q := fun q hq =>
      ⟨Function.update_of_ne hq _ _, rfl, rfl, rfl, rfl, fun _ => Iff.rfl, Iff.rfl⟩
    refine ⟨hnew.courses h hspared hfreed hnew.metadata hnew.browses hnew.nextId_eq rfl hnew.table,
      fun q hq => (hnew.spared q hq).trans (hspared q hq), hnew.lt_brk, fun data' hp => ?_,
      .quiet rfl (hnew.reports.trans hrep.symm) fun hlive => absurd hlive hunborn⟩
    rw [hfreed] at hp
    cases hp
  cases hsplit : lib.splitObjectid pl with
  | some uuid =>
    rw [hsplit] at hr
    cases src with
    | none =>
      cases hr
      exact ⟨hrefused _ _ hheld _, .inr ⟨hcalls, .inr ⟨_, rfl⟩⟩⟩
    | some s =>
      cases hr
      obtain ⟨hmoved, hlive⟩ := hheld.register h hrep hunborn s hsource hcancel hcalls
      refine ⟨hmoved, .inl ⟨rfl, ?_, hlive⟩⟩
      change (Call.getMetadata data.sender (w.brk + 1) :: w.calls).filterMap asking = _
      rw [hcalls]
      rfl
  | none =>
    rw [hsplit] at hr
    obtain ⟨⟨b, w₁, sent₁⟩, hfile, hr⟩ := bind_ok hr
    dsimp only at hr
    rcases hheld.importFromFile h hrep hfile with
      ⟨rfl, hmoved, hreply, hcalls₁, hreported⟩ | ⟨rfl, rfl, hcalls₁, last, -, hlast⟩
    · cases hr
      refine ⟨hmoved.concat rfl, .inr ⟨hcalls₁.trans hcalls, .inl ⟨?_, hreported⟩⟩⟩
      rw [List.findSome?_append, hreply]
      rfl
    · cases hr
      exact ⟨hrefused _ _ hlast _, .inr ⟨hcalls₁.trans hcalls, .inr ⟨_, rfl⟩⟩⟩

end MafwShared.ImportCalls
