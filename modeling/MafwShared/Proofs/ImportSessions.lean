import MafwShared.ImportRequests
import MafwShared.Lib.Runs
import MafwShared.Proofs.DaemonTurn
import MafwShared.Proofs.WellFormed

/-!
# Import sessions end once

`Tracked` says of every address whether the data there were never those of a session, belong
to a session that its source is still to call back for, or were those of a session that has
ended. A browse that ends before its call has returned, or that is cancelled, breaks this, so
that the runs considered are those without such events.
-/

namespace MafwShared
open CLib

/-! ### The end of an import returns -/

lemma importName_inj (plUri : Bytes) {m n : Nat} (h : importName plUri m = importName plUri n) : m = n := by
  unfold importName at h
  have hlong : ∀ k, plUri ≠ plUri ++ [32, 40] ++ decimal k ++ [41] := by
    intro k heq
    have hlen := congrArg List.length heq
    simp only [List.length_append, List.length_cons, List.length_nil] at hlen
    omega
  by_cases hm : m = 0
  · by_cases hn : n = 0
    · rw [hm, hn]
    · rw [if_pos hm, if_neg hn] at h
      exact absurd h (hlong n)
  · by_cases hn : n = 0
    · rw [if_neg hm, if_pos hn] at h
      exact absurd h.symm (hlong m)
    · rw [if_neg hm, if_neg hn] at h
      exact decimal_inj (List.append_cancel_left (List.append_cancel_right h))

lemma freeName_none {d : Daemon} {plUri : Bytes} {fuel count : Nat} (h : d.freeName plUri fuel count = none) :
    ∀ c, count ≤ c → c < count + fuel → importName plUri c ∈ d.playlistsByName.keys := by
  induction fuel generalizing count with
  | zero => exact fun c h1 h2 => absurd h2 (by omega)
  | succ fuel ih =>
    intro c h1 h2
    rw [Daemon.freeName] at h
    by_cases hl : (d.playlistsByName.lookup (importName plUri count)).isSome
    · rw [if_pos hl] at h
      by_cases hc : c = count
      · rw [hc, ← AList.mem_keys]
        exact AList.lookup_isSome.mp hl
      · exact ih h c (by omega) (by omega)
    · rw [if_neg hl] at h
      cases h

/-- One of the candidates is no playlist's name, as there are more of them than playlists. -/
lemma freeName_isSome (d : Daemon) (plUri : Bytes) :
    ∃ name, d.freeName plUri (d.playlistsByName.entries.length + 1) 0 = some name := by
  cases h : d.freeName plUri (d.playlistsByName.entries.length + 1) 0 with
  | some name => exact ⟨name, rfl⟩
  | none =>
    have htaken := freeName_none h
    have hnodup : ((List.range (d.playlistsByName.entries.length + 1)).map (importName plUri)).Nodup :=
      List.nodup_range.map fun _ _ he => importName_inj plUri he
    have hsubset : (List.range (d.playlistsByName.entries.length + 1)).map (importName plUri) ⊆
        d.playlistsByName.keys := by
      intro name hmem
      obtain ⟨c, hc, rfl⟩ := List.mem_map.mp hmem
      exact htaken c (Nat.zero_le c) (by rw [Nat.zero_add]; exact List.mem_range.mp hc)
    have hle := (List.subperm_of_subset hnodup hsubset).length_le
    rw [List.length_map, List.length_range, AList.keys, List.keys, List.length_map] at hle
    exact absurd hle (Nat.not_succ_le_self _)

lemma appendAll_isSome {oids : List Bytes} {p : Pls} (hl : p.len ≤ p.alloc)
    (hsize : p.len + oids.length ≤ 2 ^ 31) : ∃ q, appendAll oids p = some q := by
  induction oids generalizing p with
  | nil => exact ⟨p, rfl⟩
  | cons oid oids ih =>
    rw [List.length_cons] at hsize
    obtain ⟨q, hq, -, hins⟩ := plsInserts_accepted (List.cons_ne_nil oid []) le_rfl hl
      (by rw [List.length_singleton]; omega)
    have hlen : q.len = p.len + 1 := hins.len_eq
    obtain ⟨r, hr⟩ := ih hins.len_le (by omega)
    refine ⟨r, ?_⟩
    rw [appendAll, plsAppend, hq]
    exact hr

lemma importDone_returns (createObjectid : Bytes → Bytes) (d : Daemon) {data : PlparseData}
    (huri : data.plUri ≠ []) (hsize : data.urilist.length ≤ 2 ^ 31) :
    ∃ d' plid, d.importDone createObjectid data none =
      .ok (d', [.playlistImported data.sender [.uint32 data.importId, .uint32 plid],
        signalPlaylistCreated plid]) := by
  obtain ⟨name, hname⟩ := freeName_isSome d data.plUri
  obtain ⟨-, count, hcount⟩ := freeName_eq hname
  obtain ⟨new, hnew⟩ := plsNew_isSome d.lastId (hcount ▸ importName_ne huri count)
  obtain ⟨pls, hpls⟩ : ∃ pls,
      appendAll (if data.listFromBrowse then data.urilist else data.urilist.map createObjectid) new = some pls := by
    have hzero := (plsNew_fields hnew).2.1
    apply appendAll_isSome
    · rw [hzero]
      exact Nat.zero_le _
    · rw [hzero, Nat.zero_add]
      split
      · exact hsize
      · rw [List.length_map]
        exact hsize
  have hadd : ∃ p d', d.addPlaylist name = .ok (new, p, d') := by
    have hnext : plsNew false d.nextId.1 name = some new := hnew
    rw [Daemon.addPlaylist]
    simp only [hnext]
    exact ⟨_, _, rfl⟩
  obtain ⟨p, d', hd'⟩ := hadd
  rw [Daemon.importDone, hname]
  simp only [hd', bind, Except.bind, hpls]
  exact ⟨_, _, rfl⟩

end MafwShared

namespace MafwShared.ImportRequests
open CLib

variable {lib : Libmafw} {w w' : Wrapper} {p q : Ptr} {data : ImportData}

/-- The message that a session with this outcome was reported with. -/
def Outcome.Reported : Outcome → List MafwShared.Sent → Prop
  | .imported, reports =>
    ∃ dest importId plid, reports = [.playlistImported dest [.uint32 importId, .uint32 plid]]
  | .failed, reports => ∃ dest importId, ∃ err : GError, reports =
      [.playlistImported dest [.uint32 importId, .string err.domain, .int32 err.code, .string err.message]]
  | .cancelled, reports => reports = []

/-- The session goes on. -/
def Wrapper.Going (w : Wrapper) (p : Ptr) : Prop :=
  w.heap p ≠ none ∧ w.outcomes p = [] ∧ w.reports p = []

/-- The session has ended in one way, and was reported accordingly. -/
def Wrapper.Over (w : Wrapper) (p : Ptr) : Prop :=
  w.heap p = none ∧ (∀ i, w.importRequests i ≠ some p) ∧ ∃ o, w.outcomes p = [o] ∧ o.Reported (w.reports p)

/-- A source is to call back with the data. -/
def Wrapper.Awaited (w : Wrapper) (p : Ptr) : Prop := w.metadata p ≠ none ∨ w.browses p ≠ none

/-- No browse ends before its call has returned, no import is cancelled while its browse goes
on, and an import that completes has a name and fits a playlist. -/
def Keeps (lib : Libmafw) (w : Wrapper) : Event → Prop
  | .importPlaylist _ pl _ _ parsed =>
    lib.splitObjectid pl = none → parsed.success = true → pl ≠ [] ∧ parsed.uris.length ≤ 2 ^ 31
  | .cancelImport _ importId =>
    ∀ p data, w.importRequests importId = some p → w.heap p = some data → data.source = none
  | .metadata p (.ok metadata) parsed _ => ∀ data uri, w.heap p = some data → data.cancel = false →
      metadata.uri = some uri → metadata.mime ≠ some lib.mimeContainer → parsed.success = true →
        uri ≠ [] ∧ (data.urilist ++ parsed.uris).length ≤ 2 ^ 31
  | .browseResult p reply => Wrapper.final reply = true →
      (∀ i, Call.browse p i ∉ w.calls) ∧ (reply.error = none → ∀ data, w.heap p = some data →
        data.plUri ≠ [] ∧ (data.urilist ++ reply.objectId.toList).length ≤ 2 ^ 31)
  | _ => True

/-! ### What an address is used for -/

/-- What the table says of the data at an address. -/
def Wrapper.EnteredAs (w : Wrapper) (p : Ptr) (importId : Nat) : Prop :=
  ∀ i, w.importRequests i = some p → i = importId

inductive Status (w : Wrapper) (p : Ptr) : Prop
  | unused : p ∉ w.registered → w.metadata p = none → w.browses p = none → (∀ i, w.importRequests i ≠ some p) →
      (∀ i, Call.browse p i ∉ w.calls) →
      (w.brk ≤ p → w.heap p = none ∧ w.outcomes p = [] ∧ w.reports p = []) → Status w p
  | asked (data : ImportData) (s : Source) : p ∈ w.registered → p < w.brk → w.heap p = some data →
      w.metadata p = some s → w.browses p = none → (∀ i, Call.browse p i ∉ w.calls) →
      w.EnteredAs p data.importId → w.outcomes p = [] → w.reports p = [] → Status w p
  | browsed (data : ImportData) (session : Source × Nat) : p ∈ w.registered → p < w.brk →
      w.heap p = some data → w.metadata p = none → w.browses p = some session →
      w.EnteredAs p data.importId → w.outcomes p = [] → w.reports p = [] → Status w p
  | ended : p ∈ w.registered → p < w.brk → w.metadata p = none → w.browses p = none →
      (∀ i, Call.browse p i ∉ w.calls) → w.Over p → Status w p

def Tracked (w : Wrapper) : Prop := ∀ p, Status w p

/-- A step that has not touched the data at an address, nor what the sources know of them. -/
structure SameAt (w w' : Wrapper) (p : Ptr) : Prop where
  heap : w'.heap p = w.heap p
  metadata : w'.metadata p = w.metadata p
  browses : w'.browses p = w.browses p
  registered : p ∈ w'.registered ↔ p ∈ w.registered
  outcomes : w'.outcomes p = w.outcomes p
  reports : w'.reports p = w.reports p
  table : ∀ i, w'.importRequests i = some p → w.importRequests i = some p
  calls : ∀ i, Call.browse p i ∈ w'.calls → Call.browse p i ∈ w.calls
  brk : w.brk ≤ w'.brk

lemma Status.frame (h : Status w p) (hs : SameAt w w' p) : Status w' p := by
  have hcalls : (∀ i, Call.browse p i ∉ w.calls) → ∀ i, Call.browse p i ∉ w'.calls := fun hc i hi =>
    hc i (hs.calls i hi)
  cases h with
  | unused hreg hmeta hbrowse htable hcall hfresh =>
    refine .unused (hs.registered.not.mpr hreg) (hs.metadata.trans hmeta) (hs.browses.trans hbrowse)
      (fun i hi => htable i (hs.table i hi)) (hcalls hcall) fun hle => ?_
    obtain ⟨hheap, hout, hrep⟩ := hfresh (hs.brk.trans hle)
    exact ⟨hs.heap.trans hheap, hs.outcomes.trans hout, hs.reports.trans hrep⟩
  | asked data s hreg hlt hheap hmeta hbrowse hcall hentered hout hrep =>
    exact .asked data s (hs.registered.mpr hreg) (hlt.trans_le hs.brk) (hs.heap.trans hheap)
      (hs.metadata.trans hmeta) (hs.browses.trans hbrowse) (hcalls hcall)
      (fun i hi => hentered i (hs.table i hi)) (hs.outcomes.trans hout) (hs.reports.trans hrep)
  | browsed data session hreg hlt hheap hmeta hbrowse hentered hout hrep =>
    exact .browsed data session (hs.registered.mpr hreg) (hlt.trans_le hs.brk) (hs.heap.trans hheap)
      (hs.metadata.trans hmeta) (hs.browses.trans hbrowse)
      (fun i hi => hentered i (hs.table i hi)) (hs.outcomes.trans hout) (hs.reports.trans hrep)
  | ended hreg hlt hmeta hbrowse hcall hover =>
    obtain ⟨hheap, htable, o, hout, hrep⟩ := hover
    refine .ended (hs.registered.mpr hreg) (hlt.trans_le hs.brk) (hs.metadata.trans hmeta)
      (hs.browses.trans hbrowse) (hcalls hcall) ⟨hs.heap.trans hheap, fun i hi => htable i (hs.table i hi), o,
        hs.outcomes.trans hout, ?_⟩
    rw [hs.reports]
    exact hrep

lemma Tracked.of_others (h : Tracked w) (hothers : ∀ q, q ≠ p → SameAt w w' q) (hp : Status w' p) :
    Tracked w' := by
  intro q
  by_cases hq : q = p
  · rw [hq]
    exact hp
  · exact (h q).frame (hothers q hq)

lemma tracked_init (d : Daemon) : Tracked (Wrapper.init d) := fun _ =>
  .unused List.not_mem_nil rfl rfl (fun _ h => by cases h) (fun _ => List.not_mem_nil)
    fun _ => ⟨rfl, rfl, rfl⟩

/-! ### Writing, allocating and freeing -/

lemma sameAt_write (w : Wrapper) (data : ImportData) (hq : q ≠ p) : SameAt w (w.write p data) q :=
  ⟨Function.update_of_ne hq _ _, rfl, rfl, Iff.rfl, rfl, rfl, fun _ h => h, fun _ h => h, le_rfl⟩

lemma sameAt_free (w : Wrapper) (hq : q ≠ p) : SameAt w (w.freePlparseData p) q :=
  ⟨Function.update_of_ne hq _ _, rfl, rfl, Iff.rfl, rfl, rfl, fun _ h => h, fun _ h => h, le_rfl⟩

lemma Status.write (h : Status w p) (hp : w.heap p = some data) {new : ImportData}
    (hid : new.importId = data.importId) : Status (w.write p new) p := by
  have hnew : (w.write p new).heap p = some new := Function.update_self _ _ _
  cases h with
  | unused hreg hmeta hbrowse htable hcall hfresh =>
    refine .unused hreg hmeta hbrowse htable hcall fun hle => ?_
    cases (hfresh hle).1.symm.trans hp
  | asked data' s hreg hlt hheap hmeta hbrowse hcall hentered hout hrep =>
    cases hheap.symm.trans hp
    exact .asked new s hreg hlt hnew hmeta hbrowse hcall (fun i hi => (hentered i hi).trans hid.symm) hout hrep
  | browsed data' session hreg hlt hheap hmeta hbrowse hentered hout hrep =>
    cases hheap.symm.trans hp
    exact .browsed new session hreg hlt hnew hmeta hbrowse (fun i hi => (hentered i hi).trans hid.symm) hout hrep
  | ended hreg hlt hmeta hbrowse hcall hover => cases hover.1.symm.trans hp

lemma Tracked.write (h : Tracked w) (hp : w.heap p = some data) {new : ImportData}
    (hid : new.importId = data.importId) : Tracked (w.write p new) :=
  h.of_others (fun _ hq => sameAt_write w new hq) ((h p).write hp hid)

/-! ### The end of a session -/

/-- The data are in the hands of a callback: no source is to call back with them. -/
structure Handled (w : Wrapper) (p : Ptr) (data : ImportData) (reports : List MafwShared.Sent) : Prop where
  others : ∀ q, q ≠ p → Status w q
  lt_brk : p < w.brk
  heap : w.heap p = some data
  metadata : w.metadata p = none
  browses : w.browses p = none
  calls : ∀ i, Call.browse p i ∉ w.calls
  entered : w.EnteredAs p data.importId
  outcomes : p ∈ w.registered → w.outcomes p = []
  reports : p ∈ w.registered → w.reports p = reports

namespace Handled
variable {reports : List MafwShared.Sent}

lemma write (h : Handled w p data reports) (new : ImportData) (hid : new.importId = data.importId) :
    Handled (w.write p new) p new reports :=
  ⟨fun q hq => (h.others q hq).frame (sameAt_write w new hq), h.lt_brk, Function.update_self _ _ _, h.metadata,
    h.browses, h.calls, fun i hi => (h.entered i hi).trans hid.symm, h.outcomes, h.reports⟩

lemma report (h : Handled w p data []) (d : Daemon) (reports : List MafwShared.Sent) :
    Handled { w with daemon := d, reports := Function.update w.reports p (w.reports p ++ reports) } p data
      reports := by
  refine ⟨fun q hq => (h.others q hq).frame ?_, h.lt_brk, h.heap, h.metadata, h.browses, h.calls, h.entered,
    h.outcomes, fun hreg => ?_⟩
  · exact ⟨rfl, rfl, rfl, Iff.rfl, rfl, Function.update_of_ne hq _ _, fun _ h => h, fun _ h => h, le_rfl⟩
  · dsimp only
    rw [Function.update_self, h.reports hreg, List.nil_append]

lemma finish (h : Handled w p data reports) {o : Outcome} (hrep : o.Reported reports) :
    Tracked (w.finish p data.importId o) := by
  have hentry : ∀ q i, (w.finish p data.importId o).importRequests i = some q →
      w.importRequests i = some q ∧ i ≠ data.importId := by
    intro q i hi
    have hremoved : Function.update w.importRequests data.importId none i = some q := hi
    exact (of_update_none hremoved).symm
  have hgone : ∀ i, (w.finish p data.importId o).importRequests i ≠ some p := fun i hi =>
    (hentry p i hi).2 (h.entered i (hentry p i hi).1)
  have hfreed : (w.finish p data.importId o).heap p = none := Function.update_self _ _ _
  intro q
  by_cases hq : q = p
  · subst hq
    by_cases hreg : q ∈ w.registered
    · have hout : (w.finish q data.importId o).outcomes q = [o] := by
        refine (Function.update_self _ _ _).trans ?_
        rw [h.outcomes hreg, List.nil_append]
      refine .ended hreg h.lt_brk h.metadata h.browses h.calls ⟨hfreed, hgone, o, hout, ?_⟩
      exact (h.reports hreg).symm ▸ hrep
    · exact .unused hreg h.metadata h.browses hgone h.calls fun hle => absurd h.lt_brk (Nat.not_lt.mpr hle)
  · apply (h.others q hq).frame
    exact ⟨Function.update_of_ne hq _ _, rfl, rfl, Iff.rfl, Function.update_of_ne hq _ _, rfl,
      fun i hi => (hentry q i hi).1, fun _ hi => hi, le_rfl⟩

lemma importDone (h : Handled w p data []) (lib : Libmafw) (err : Option GError)
    (hfits : err = none → data.plUri ≠ [] ∧ data.urilist.length ≤ 2 ^ 31) :
    ∃ r, w.importDone lib p err = .ok r ∧ Tracked r.1 := by
  obtain ⟨d, sent, o, hdone, ho, hrep⟩ : ∃ d sent o,
      w.daemon.importDone lib.createObjectid data.toPlparseData err = .ok (d, sent) ∧
        (if err.isSome then Outcome.failed else .imported) = o ∧ o.Reported (sent.filter isReport) := by
    cases err with
    | some err => exact ⟨_, _, _, rfl, rfl, _, _, err, rfl⟩
    | none =>
      obtain ⟨huri, hsize⟩ := hfits rfl
      obtain ⟨d, plid, hd⟩ := importDone_returns lib.createObjectid w.daemon huri hsize
      exact ⟨d, _, _, hd, rfl, _, _, plid, rfl⟩
  rw [Wrapper.importDone, Wrapper.deref, h.heap]
  simp only [bind, Except.bind, hdone, ho]
  exact ⟨_, rfl, (h.report d (sent.filter isReport)).finish hrep⟩

lemma importFromFile (h : Handled w p data []) (lib : Libmafw) (parsed : Parsed)
    (hfits : parsed.success = true → data.plUri ≠ [] ∧ (data.urilist ++ parsed.uris).length ≤ 2 ^ 31) :
    (∃ r, w.importFromFile lib p parsed = .ok (true, r) ∧ Tracked r.1) ∨
      ∃ w' new, w.importFromFile lib p parsed = .ok (false, w', []) ∧ Handled w' p new [] ∧
        w'.registered = w.registered ∧ w'.importRequests = w.importRequests := by
  have hread : Handled (w.write p { data with urilist := data.urilist ++ parsed.uris }) p
      { data with urilist := data.urilist ++ parsed.uris } [] := h.write _ rfl
  rw [Wrapper.importFromFile, Wrapper.deref, h.heap]
  simp only [bind, Except.bind]
  cases hs : parsed.success with
  | false => exact .inr ⟨_, _, rfl, hread, rfl, rfl⟩
  | true =>
    obtain ⟨r, hr, htracked⟩ := hread.importDone lib none fun _ => hfits hs
    rw [if_pos rfl, hr]
    exact .inl ⟨r, rfl, htracked⟩

lemma free (h : Handled w p data reports) (hreg : p ∉ w.registered) (htable : ∀ i, w.importRequests i ≠ some p) :
    Tracked (w.freePlparseData p) := by
  intro q
  by_cases hq : q = p
  · subst hq
    exact .unused hreg h.metadata h.browses htable h.calls fun hle => absurd h.lt_brk (Nat.not_lt.mpr hle)
  · exact (h.others q hq).frame (sameAt_free w hq)

end Handled

/-! ### The callbacks -/

lemma Tracked.handled_metadata (h : Tracked w) {s : Source} (hs : w.metadata p = some s) :
    ∃ data, w.heap p = some data ∧
      Handled { w with metadata := Function.update w.metadata p none } p data [] := by
  cases h p with
  | unused _ hmeta _ _ _ _ => cases hmeta.symm.trans hs
  | browsed _ _ _ _ _ hmeta _ _ _ _ => cases hmeta.symm.trans hs
  | ended _ _ hmeta _ _ _ => cases hmeta.symm.trans hs
  | asked data _ hreg hlt hp _ hbrowse hcall hentered hout hrep =>
    refine ⟨data, hp, fun q hq => (h q).frame ?_, hlt, hp, Function.update_self _ _ _, hbrowse, hcall, hentered,
      fun _ => hout, fun _ => hrep⟩
    exact ⟨rfl, Function.update_of_ne hq _ _, rfl, Iff.rfl, rfl, rfl, fun _ h => h, fun _ h => h, le_rfl⟩

lemma Tracked.handled_final (h : Tracked w) {session : Source × Nat} (hs : w.browses p = some session)
    (hcall : ∀ i, Call.browse p i ∉ w.calls) :
    ∃ data, w.heap p = some data ∧
      Handled { w with browses := Function.update w.browses p none } p data [] := by
  cases h p with
  | unused _ _ hbrowse _ _ _ => cases hbrowse.symm.trans hs
  | asked _ _ _ _ _ _ hbrowse _ _ _ _ => cases hbrowse.symm.trans hs
  | ended _ _ _ hbrowse _ _ => cases hbrowse.symm.trans hs
  | browsed data _ hreg hlt hp hmeta _ hentered hout hrep =>
    refine ⟨data, hp, fun q hq => (h q).frame ?_, hlt, hp, hmeta, Function.update_self _ _ _, hcall, hentered,
      fun _ => hout, fun _ => hrep⟩
    exact ⟨rfl, rfl, Function.update_of_ne hq _ _, Iff.rfl, rfl, rfl, fun _ h => h, fun _ h => h, le_rfl⟩

lemma Handled.browse (h : Handled w p data []) (hreg : p ∈ w.registered) (session : Source × Nat) :
    Tracked { w with
      calls := .browse p session.2 :: w.calls
      browses := Function.update w.browses p (some session) } := by
  intro q
  by_cases hq : q = p
  · subst hq
    exact .browsed data session hreg h.lt_brk h.heap h.metadata (Function.update_self _ _ _) h.entered
      (h.outcomes hreg) (h.reports hreg)
  · refine (h.others q hq).frame ⟨rfl, rfl, Function.update_of_ne hq _ _, Iff.rfl, rfl, rfl, fun _ h => h,
      fun i hi => ?_, le_rfl⟩
    rcases List.mem_cons.mp hi with heq | hi
    · cases heq
      exact absurd rfl hq
    · exact hi

lemma Tracked.metadata (h : Tracked w) {s : Source} (hs : w.metadata p = some s)
    {reply : Except GError Metadata} {parsed : Parsed} {browseId : Nat}
    (hk : Keeps lib w (.metadata p reply parsed browseId)) :
    ∃ r, { w with metadata := Function.update w.metadata p none }.mdataResCb lib s p reply parsed browseId =
      .ok r ∧ Tracked r.1 := by
  obtain ⟨data, hp, hhand⟩ := h.handled_metadata hs
  have hreg : p ∈ w.registered := by
    cases h p with
    | unused _ hmeta _ _ _ _ => cases hmeta.symm.trans hs
    | asked _ _ hreg _ _ _ _ _ _ _ _ => exact hreg
    | browsed _ _ hreg _ _ _ _ _ _ _ => exact hreg
    | ended hreg _ _ _ _ _ => exact hreg
  rw [Wrapper.mdataResCb, Wrapper.deref, hhand.heap]
  simp only [bind, Except.bind]
  by_cases hcancel : data.cancel = true
  · rw [if_pos hcancel]
    exact ⟨_, rfl, hhand.finish rfl⟩
  · rw [if_neg hcancel]
    cases reply with
    | error err => exact hhand.importDone lib (some err) fun h => by cases h
    | ok metadata =>
      dsimp only
      by_cases hcontainer : metadata.uri = none ∨ metadata.mime = some lib.mimeContainer
      · rw [if_pos hcontainer]
        refine ⟨_, rfl, Handled.browse (hhand.write _ ?_) hreg (s, browseId)⟩
        cases metadata.uri <;> rfl
      · rw [if_neg hcontainer]
        rw [not_or] at hcontainer
        obtain ⟨uri, huri⟩ := Option.ne_none_iff_exists'.mp hcontainer.1
        have hwrite := hhand.write { data with plUri := uri } rfl
        rw [huri]
        dsimp only
        have hfits := hk data uri hp (Bool.eq_false_of_not_eq_true hcancel) huri hcontainer.2
        rcases hwrite.importFromFile lib parsed hfits with
          ⟨r, hr, htracked⟩ | ⟨w', new, hfile, hhand', -⟩
        · rw [hr]
          exact ⟨r, rfl, htracked⟩
        · rw [hfile]
          exact hhand'.importDone lib _ fun h => by cases h

lemma Tracked.browseResult (h : Tracked w) {session : Source × Nat} (hs : w.browses p = some session)
    {reply : BrowseReply} (hk : Keeps lib w (.browseResult p reply)) :
    ∃ r, w.handle lib (.browseResult p reply) = .ok r ∧ Tracked r.1 := by
  rw [Wrapper.handle]
  by_cases hfinal : Wrapper.final reply = true
  · obtain ⟨hcall, hfits⟩ := hk hfinal
    obtain ⟨data, hp, hhand⟩ := h.handled_final hs hcall
    rw [if_pos hfinal, Wrapper.browseResCb]
    cases herr : reply.error with
    | some err => exact hhand.importDone lib (some err) fun h => by cases h
    | none =>
      have hlast : ¬reply.remainingCount ≠ 0 := by
        simpa [Wrapper.final, herr] using hfinal
      have hfit := hfits herr data hp
      cases hoid : reply.objectId with
      | none =>
        rw [hoid] at hfit
        simp only [bind, Except.bind, if_neg hlast]
        refine hhand.importDone lib none fun _ => ?_
        simpa using hfit
      | some objectId =>
        rw [hoid] at hfit
        have hwrite := hhand.write { data with urilist := data.urilist ++ [objectId] } rfl
        simp only [bind, Except.bind, Wrapper.deref, hp, if_neg hlast]
        exact hwrite.importDone lib none fun _ => hfit
  · rw [if_neg hfinal, Wrapper.browseResCb]
    have hmore : reply.error = none ∧ reply.remainingCount ≠ 0 := by
      simpa [Wrapper.final, not_or] using hfinal
    rw [hmore.1]
    obtain ⟨data, hp⟩ : ∃ data, w.heap p = some data := by
      cases h p with
      | unused _ _ hbrowse _ _ _ => cases hbrowse.symm.trans hs
      | asked _ _ _ _ _ _ hbrowse _ _ _ _ => cases hbrowse.symm.trans hs
      | ended _ _ _ hbrowse _ _ => cases hbrowse.symm.trans hs
      | browsed data _ _ _ hp _ _ _ _ _ => exact ⟨data, hp⟩
    cases reply.objectId with
    | none =>
      simp only [bind, Except.bind, if_pos hmore.2]
      exact ⟨_, rfl, h⟩
    | some objectId =>
      simp only [bind, Except.bind, Wrapper.deref, hp, if_pos hmore.2]
      exact ⟨_, rfl, h.write hp rfl⟩

/-! ### Requests -/

lemma Tracked.cancelImport (h : Tracked w) {sender : Client} {importId : Nat}
    (hk : Keeps lib w (.cancelImport sender importId)) :
    ∃ r, w.cancelImport lib sender importId = .ok r ∧ Tracked r.1 := by
  rw [Wrapper.cancelImport]
  cases hentry : w.importRequests importId with
  | none => exact ⟨_, rfl, h⟩
  | some p =>
    obtain ⟨data, hp⟩ : ∃ data, w.heap p = some data := by
      cases h p with
      | unused _ _ _ htable _ _ => exact absurd hentry (htable importId)
      | asked data _ _ _ hp _ _ _ _ _ _ => exact ⟨data, hp⟩
      | browsed data _ _ _ hp _ _ _ _ _ => exact ⟨data, hp⟩
      | ended _ _ _ _ _ hover => exact absurd hentry (hover.2.1 importId)
    simp only [bind, Except.bind, Wrapper.deref, hp, hk p data hentry hp]
    exact ⟨_, rfl, h.write hp rfl⟩

lemma Tracked.handled_malloc (h : Tracked w) (data : ImportData) (nextId : Nat) :
    Handled { w.malloc data with nextId } w.brk data [] ∧ w.brk ∉ w.registered ∧
      (∀ i, w.importRequests i ≠ some w.brk) ∧ w.outcomes w.brk = [] ∧ w.reports w.brk = [] := by
  have hothers : ∀ q, q ≠ w.brk → Status { w.malloc data with nextId } q := by
    intro q hq
    refine (h q).frame ⟨Function.update_of_ne hq _ _, rfl, rfl, Iff.rfl, rfl, rfl, fun _ h => h, fun _ h => h,
      Nat.le_succ _⟩
  cases h w.brk with
  | unused hreg hmeta hbrowse htable hcall hfresh =>
    refine ⟨⟨hothers, Nat.lt_succ_self _, Function.update_self _ _ _, hmeta, hbrowse, hcall,
      fun i hi => absurd hi (htable i), fun hmem => absurd hmem hreg, fun hmem => absurd hmem hreg⟩, hreg, htable,
      (hfresh le_rfl).2⟩
  | asked _ _ _ hlt _ _ _ _ _ _ _ => exact absurd hlt (Nat.lt_irrefl _)
  | browsed _ _ _ hlt _ _ _ _ _ _ => exact absurd hlt (Nat.lt_irrefl _)
  | ended _ hlt _ _ _ _ => exact absurd hlt (Nat.lt_irrefl _)

lemma Tracked.importPlaylist (h : Tracked w) {sender : Client} {pl base : Bytes} {src : Option Source}
    {parsed : Parsed} (hk : Keeps lib w (.importPlaylist sender pl base src parsed)) :
    ∃ r, w.importPlaylist lib sender pl base src parsed = .ok r ∧ Tracked r.1 := by
  unfold Wrapper.importPlaylist
  dsimp only
  generalize (w.nextId + 1) % 2 ^ 32 = importId
  generalize hdata : Wrapper.newPlparseData sender pl base importId = data
  obtain ⟨hhand, hreg, htable, hout, hrep⟩ := h.handled_malloc data importId
  cases hsplit : lib.splitObjectid pl with
  | none =>
    have hfits : parsed.success = true → data.plUri ≠ [] ∧ (data.urilist ++ parsed.uris).length ≤ 2 ^ 31 := by
      intro hs
      rw [← hdata]
      exact hk hsplit hs
    rcases hhand.importFromFile lib parsed hfits with ⟨r, hr, htracked⟩ | ⟨w', new, hfile, hhand', hsame⟩
    · simp only [hr, bind, Except.bind]
      exact ⟨_, rfl, htracked⟩
    · simp only [hfile, bind, Except.bind]
      refine ⟨_, rfl, hhand'.free ?_ ?_⟩
      · rw [hsame.1]
        exact hreg
      · rw [hsame.2]
        exact htable
  | some uuid =>
    cases src with
    | none => exact ⟨_, rfl, hhand.free hreg htable⟩
    | some s =>
      refine ⟨_, rfl, fun q => ?_⟩
      by_cases hq : q = w.brk
      · subst hq
        refine .asked data s List.mem_cons_self (Nat.lt_succ_self _) hhand.heap (Function.update_self _ _ _)
          hhand.browses (fun i hi => ?_) (fun i hi => ?_) hout hrep
        · rcases List.mem_cons.mp hi with heq | hi
          · cases heq
          · exact hhand.calls i hi
        · rcases of_update_some hi with ⟨hid, -⟩ | ⟨-, hi⟩
          · rw [hid, ← hdata]
            rfl
          · exact absurd hi (htable i)
      · apply (hhand.others q hq).frame
        refine ⟨rfl, Function.update_of_ne hq _ _, rfl, ?_, rfl, rfl, fun i hi => ?_, fun i hi => ?_, le_rfl⟩
        · exact List.mem_cons.trans (or_iff_right hq)
        · rcases of_update_some hi with ⟨-, heq⟩ | ⟨-, hi⟩
          · exact absurd heq.symm hq
          · exact hi
        · rcases List.mem_cons.mp hi with heq | hi
          · cases heq
          · exact hi

lemma Tracked.returns (h : Tracked w) : ∃ r, w.callReturns = .ok r ∧ Tracked r.1 := by
  have hpop : ∀ call calls, w.calls = call :: calls → Tracked { w with calls } := by
    intro call calls hcalls q
    apply (h q).frame
    refine ⟨rfl, rfl, rfl, Iff.rfl, rfl, rfl, fun _ h => h, fun i hi => ?_, le_rfl⟩
    rw [hcalls]
    exact List.mem_cons_of_mem _ hi
  cases hcalls : w.calls with
  | nil =>
    rw [Wrapper.callReturns, hcalls]
    exact ⟨_, rfl, h⟩
  | cons call calls =>
    have hrest := hpop call calls hcalls
    cases call with
    | getMetadata sender importId =>
      rw [Wrapper.callReturns, hcalls]
      exact ⟨_, rfl, hrest⟩
    | browse p browseId =>
      have hmem : Call.browse p browseId ∈ w.calls := by
        rw [hcalls]
        exact List.mem_cons_self
      -- the browse has not ended, so that its data are there
      obtain ⟨data, hp⟩ : ∃ data, w.heap p = some data := by
        cases h p with
        | unused _ _ _ _ hcall _ => exact absurd hmem (hcall browseId)
        | asked _ _ _ _ _ _ _ hcall _ _ _ => exact absurd hmem (hcall browseId)
        | browsed data _ _ _ hp _ _ _ _ _ => exact ⟨data, hp⟩
        | ended _ _ _ _ hcall _ => exact absurd hmem (hcall browseId)
      rw [Wrapper.callReturns, hcalls]
      simp only [bind, Except.bind, Wrapper.deref, hp]
      exact ⟨_, rfl, hrest.write hp rfl⟩

/-! ### Runs -/

lemma Tracked.handle (h : Tracked w) {e : Event} (hp : w.Possible e) (hk : Keeps lib w e) :
    ∃ r, w.handle lib e = .ok r ∧ Tracked r.1 := by
  cases e with
  | importPlaylist sender pl base src parsed => exact h.importPlaylist hk
  | cancelImport sender importId => exact h.cancelImport hk
  | metadata p reply parsed browseId =>
    obtain ⟨s, hs⟩ := Option.ne_none_iff_exists'.mp hp
    rw [Wrapper.handle, hs]
    exact h.metadata hs hk
  | browseResult p reply =>
    obtain ⟨session, hs⟩ := Option.ne_none_iff_exists'.mp hp
    exact h.browseResult hs hk
  | returns => exact h.returns
  | playlists d =>
    refine ⟨_, rfl, fun q => (h q).frame ?_⟩
    exact ⟨rfl, rfl, rfl, Iff.rfl, rfl, rfl, fun _ h => h, fun _ h => h, le_rfl⟩

/-- The steps of the wrapper. -/
def Step (lib : Libmafw) (w : Wrapper) (e : Event) (w' : Wrapper) : Prop :=
  ∃ sent, w.handle lib e = .ok (w', sent)

/-- In every run whose events meet the condition, every session either goes on, and a source is
to call back for it, or has ended in one way, was reported accordingly and is in the table no
more; and the next event that meets it is handled without reading or writing freed data. -/
theorem sessions_end (d : Daemon)
    (hr : Reach (Step lib) (fun w e => w.Possible e ∧ Keeps lib w e) (Wrapper.init d) w) :
    (∀ p ∈ w.registered, w.Going p ∧ w.Awaited p ∨ w.Over p ∧ ¬w.Awaited p) ∧
      ∀ e, w.Possible e → Keeps lib w e → ∃ r, w.handle lib e = .ok r := by
  have hinv : Tracked w := by
    apply hr.invariant Tracked (tracked_init d)
    rintro w₀ e w₁ h ⟨hp, hk⟩ ⟨sent, hsent⟩
    obtain ⟨r, hr, htracked⟩ := h.handle hp hk
    cases hsent.symm.trans hr
    exact htracked
  refine ⟨fun p hp => ?_, fun e he hk => ?_⟩
  · cases hinv p with
    | unused hreg _ _ _ _ _ => exact absurd hp hreg
    | asked data s _ _ hheap hmeta _ _ _ hout hrep =>
      refine .inl ⟨⟨?_, hout, hrep⟩, .inl ?_⟩
      · rw [hheap]
        exact Option.some_ne_none data
      · rw [hmeta]
        exact Option.some_ne_none s
    | browsed data session _ _ hheap _ hbrowse _ hout hrep =>
      refine .inl ⟨⟨?_, hout, hrep⟩, .inr ?_⟩
      · rw [hheap]
        exact Option.some_ne_none data
      · rw [hbrowse]
        exact Option.some_ne_none session
    | ended _ _ hmeta hbrowse _ hover =>
      exact .inr ⟨hover, fun hawaited => hawaited.elim (fun h => h hmeta) fun h => h hbrowse⟩
  · obtain ⟨r, hr, -⟩ := hinv.handle he hk
    exact ⟨r, hr⟩

/-- A library for which every string is an object id. -/
def sourcesOnly : Libmafw :=
  { splitObjectid := some, createObjectid := id, playlistError := fun _ _ => ⟨[], 0, []⟩, mimeContainer := [0] }

def noFile : Parsed := ⟨[], false⟩

/-- A container is imported, another import is cancelled before there are metadata. -/
theorem sessions_end_twoImports : ∃ w : Wrapper,
    Reach (Step sourcesOnly) (fun w e => w.Possible e ∧ Keeps sourcesOnly w e) (Wrapper.init Daemon.init) w ∧
      0 ∈ w.registered ∧ w.Over 0 ∧ w.outcomes 0 = [.imported] ∧ w.outcomes 1 = [.cancelled] := by
  obtain ⟨w, hreach, hreg, hheap, hout⟩ : ∃ w : Wrapper,
      Reach (Step sourcesOnly) (fun w e => w.Possible e ∧ Keeps sourcesOnly w e) (Wrapper.init Daemon.init) w ∧
        w.registered = [1, 0] ∧ w.heap 0 = none ∧ w.outcomes 0 = [.imported] ∧ w.outcomes 1 = [.cancelled] := by
    refine ⟨_, .next (e := .metadata 1 (.ok ⟨none, none⟩) noFile 0)
      (.next (e := .cancelImport [] 2)
        (.next (e := .returns)
          (.next (e := .importPlaylist [] [1] [] (some 0) noFile)
            (.next (e := .browseResult 0 ⟨0, some [2], none⟩)
              (.next (e := .returns)
                (.next (e := .returns)
                  (.next (e := .metadata 0 (.ok ⟨none, none⟩) noFile 7)
                    (.next (e := .importPlaylist [] [1] [] (some 0) noFile) .refl ⟨rfl, ?_⟩ ⟨_, rfl⟩)
                    ⟨Option.some_ne_none _, ?_⟩ ⟨_, rfl⟩)
                  ⟨List.cons_ne_nil _ _, trivial⟩ ⟨_, rfl⟩)
                ⟨List.cons_ne_nil _ _, trivial⟩ ⟨_, rfl⟩)
              ⟨Option.some_ne_none _, ?_⟩ ⟨_, rfl⟩)
            ⟨rfl, ?_⟩ ⟨_, rfl⟩)
          ⟨List.cons_ne_nil _ _, trivial⟩ ⟨_, rfl⟩)
        ⟨rfl, ?_⟩ ⟨_, rfl⟩)
      ⟨Option.some_ne_none _, ?_⟩ ⟨_, rfl⟩, rfl, rfl, rfl, rfl⟩
    · exact fun h => by cases h
    · exact fun _ _ _ _ h => by cases h
    · refine fun _ => ⟨fun i => List.not_mem_nil, fun _ data h => ?_⟩
      cases h
      decide
    · exact fun h => by cases h
    · intro p data hp hdata
      cases hp
      cases hdata
      rfl
    · exact fun _ _ _ _ h => by cases h
  have hmem : 0 ∈ w.registered := by
    rw [hreg]
    decide
  obtain ⟨hsessions, -⟩ := sessions_end Daemon.init hreach
  rcases hsessions 0 hmem with ⟨⟨hgoing, -⟩, -⟩ | ⟨hover, -⟩
  · exact absurd hheap hgoing
  · exact ⟨w, hreach, hmem, hover, hout⟩

/-- A source that fails to browse a container before `mafw_source_browse` returns: the session
ends, and then its freed data are written. An import that is cancelled while its browse goes on:
no source calls back for it, and it has not ended. A container with an empty URI: the daemon
has no name for the playlist and crashes. -/
theorem sessions_break :
    (∃ w : Wrapper, Reach (Step sourcesOnly) (fun w e => w.Possible e) (Wrapper.init Daemon.init) w ∧
      w.Over 0 ∧ w.Possible .returns ∧ w.handle sourcesOnly .returns = .error .useAfterFree) ∧
    (∃ w : Wrapper, Reach (Step sourcesOnly) (fun w e => w.Possible e) (Wrapper.init Daemon.init) w ∧
      0 ∈ w.registered ∧ w.calls = [] ∧ ¬w.Awaited 0 ∧ ¬w.Over 0 ∧ w.importRequests 1 = some 0 ∧
      w.outcomes 0 = []) ∧
    ∃ w : Wrapper, Reach (Step sourcesOnly) (fun w e => w.Possible e) (Wrapper.init Daemon.init) w ∧
      w.Possible (.browseResult 0 ⟨0, none, none⟩) ∧
      w.handle sourcesOnly (.browseResult 0 ⟨0, none, none⟩) = .error .nullDeref := by
  refine ⟨?_, ?_, ?_⟩
  · refine ⟨_, .next (e := .browseResult 0 ⟨0, none, some ⟨[], 0, []⟩⟩)
      (.next (e := .metadata 0 (.ok ⟨none, none⟩) noFile 7)
        (.next (e := .importPlaylist [] [1] [] (some 0) noFile) .refl rfl ⟨_, rfl⟩)
        (Option.some_ne_none _) ⟨_, rfl⟩)
      (Option.some_ne_none _) ⟨_, rfl⟩, ⟨rfl, fun i h => ?_, .failed, rfl, [], 1, ⟨[], 0, []⟩, rfl⟩,
      List.cons_ne_nil _ _, rfl⟩
    have hremoved : Function.update (Function.update (fun _ => none) 1 (some 0)) 1 none i = some 0 := h
    obtain ⟨hi, hentered⟩ := of_update_none hremoved
    exact hi (of_update_some hentered |>.elim (fun h => h.1) fun h => by cases h.2)
  · refine ⟨_, .next (e := .cancelImport [] 1)
      (.next (e := .returns)
        (.next (e := .returns)
          (.next (e := .metadata 0 (.ok ⟨none, none⟩) noFile 7)
            (.next (e := .importPlaylist [] [1] [] (some 0) noFile) .refl rfl ⟨_, rfl⟩)
            (Option.some_ne_none _) ⟨_, rfl⟩)
          (List.cons_ne_nil _ _) ⟨_, rfl⟩)
        (List.cons_ne_nil _ _) ⟨_, rfl⟩)
      rfl ⟨_, rfl⟩, List.mem_cons_self, rfl, fun h => h.elim (fun h => h rfl) fun h => h rfl, ?_, rfl, rfl⟩
    rintro ⟨hheap, -⟩
    cases hheap
  · refine ⟨_, .next (e := .returns)
      (.next (e := .returns)
        (.next (e := .metadata 0 (.ok ⟨some [], some [0]⟩) noFile 7)
          (.next (e := .importPlaylist [] [1] [] (some 0) noFile) .refl rfl ⟨_, rfl⟩)
          (Option.some_ne_none _) ⟨_, rfl⟩)
        (List.cons_ne_nil _ _) ⟨_, rfl⟩)
      (List.cons_ne_nil _ _) ⟨_, rfl⟩, Option.some_ne_none _, rfl⟩

end MafwShared.ImportRequests
