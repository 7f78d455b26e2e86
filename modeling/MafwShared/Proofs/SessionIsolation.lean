import MafwShared.BrowseRequests
import MafwShared.Lib.Runs

/-!
# Isolation of browse sessions

`Isolated` says that every session whose browse call has returned has its data in the table,
under its own id. Ids of different sources may collide, and a source may refuse a cancel that takes
the entry away all the same, so that the runs considered are those in which no entry is filled or
removed under the id of a session of another source, or of one that goes on.
-/

namespace MafwShared.BrowseRequests
open CLib

variable {μ : Type*} {freeze : μ → Bytes} {w w' : Wrapper} {s s' : Source} {i j : Nat} {p q : Ptr}

/-- A session that goes on, and whose browse call has returned. -/
def Wrapper.Live (w : Wrapper) (s : Source) (i : Nat) (p : Ptr) : Prop :=
  w.sessions s i = some p ∧ w.browsing ≠ some (s, i, p)

/-- The data of a session are in the table under its id and were not freed. -/
def Wrapper.Kept (w : Wrapper) (s : Source) (i : Nat) (p : Ptr) : Prop :=
  w.browseRequests i = some p ∧ ∃ req, w.heap p = some req ∧ req.ecomp = s

/-- The events by which a session completes, fails or is cancelled on its source. -/
def Event.Ends (e : Event μ) (s : Source) (i : Nat) : Prop :=
  (∃ r, e = .emit s i r ∧ Wrapper.final r = true) ∨ e = .cancelBrowse s i false

/-- When a browse call returns an id, no other source runs a session with that id, and no
removal of the id is pending unless the session is already over. When an id is cancelled on a
source, no other source runs a session with it, and neither does this source if it refuses. -/
def Keeps (w : Wrapper) : Event μ → Prop
  | .browseReturns => ∀ s i p, w.browsing = some (s, i, p) →
      (∀ s', s' ≠ s → w.sessions s' i = none) ∧ (w.sessions s i ≠ none → i ∉ w.idle)
  | .cancelBrowse s i error =>
      (∀ s', s' ≠ s → w.sessions s' i = none) ∧ (error = true → w.sessions s i = none)
  | _ => True

structure Isolated (w : Wrapper) : Prop where
  owned : ∀ s i p, w.sessions s i = some p → ∃ req, w.heap p = some req ∧ req.ecomp = s
  entered : ∀ s i p, w.Live s i p → w.browseRequests i = some p
  calling : ∀ s i p, w.browsing = some (s, i, p) →
    (∀ j, w.browseRequests j ≠ some p) ∧ (∀ q, w.sessions s i = some q → q = p) ∧ p < w.brk
  inj : ∀ i j p, w.browseRequests i = some p → w.browseRequests j = some p → i = j
  pending : ∀ s i p, w.Live s i p → i ∈ w.idle → ∃ s₀ p₀, w.browsing = some (s₀, i, p₀)
  bound : ∀ i p, w.browseRequests i = some p → p < w.brk
  running : ∀ s i p, w.sessions s i = some p → p < w.brk
  issued : ∀ s i p, w.sessions s i = some p → (s, i) ∈ w.issued

lemma freeAt_heap (w : Wrapper) (entry : Option Ptr) (q : Ptr) :
    (w.freeAt entry).heap q = if entry = some q then none else w.heap q := by
  cases entry with
  | none => rw [if_neg (by simp), Wrapper.freeAt]
  | some p =>
    by_cases hq : p = q
    · subst hq
      rw [if_pos rfl]
      exact Function.update_self _ _ _
    · rw [if_neg (by simpa using hq)]
      exact Function.update_of_ne (Ne.symm hq) _ _

lemma endSession_sessions (w : Wrapper) (s : Source) (i : Nat) (s' : Source) (j : Nat) :
    (w.endSession s i).sessions s' j = if s' = s ∧ j = i then none else w.sessions s' j := by
  unfold Wrapper.endSession
  by_cases hs : s' = s
  · subst hs
    by_cases hj : j = i
    · subst hj
      simp
    · simp [hj]
  · simp [hs]

/-- Two sessions never have the same data. -/
lemma Isolated.data_inj (h : Isolated w) (hs : w.sessions s i = some p) (hs' : w.sessions s' j = some p) :
    s = s' ∧ i = j := by
  obtain ⟨req, hreq, rfl⟩ := h.owned s i p hs
  obtain ⟨req', hreq', rfl⟩ := h.owned s' j p hs'
  have heq : req = req' := Option.some.inj (hreq.symm.trans hreq')
  subst heq
  refine ⟨rfl, ?_⟩
  by_cases hb : w.browsing = some (req.ecomp, i, p)
  · by_cases hb' : w.browsing = some (req.ecomp, j, p)
    · have hpair := Option.some.inj (hb.symm.trans hb')
      exact (Prod.mk.inj (Prod.mk.inj hpair).2).1
    · exact absurd (h.entered _ j p ⟨hs', hb'⟩) ((h.calling _ i p hb).1 j)
  · by_cases hb' : w.browsing = some (req.ecomp, j, p)
    · exact absurd (h.entered _ i p ⟨hs, hb⟩) ((h.calling _ j p hb').1 i)
    · exact h.inj i j p (h.entered _ i p ⟨hs, hb⟩) (h.entered _ j p ⟨hs', hb'⟩)

lemma isolated_init : Isolated Wrapper.init := by
  refine ⟨?_, ?_, ?_, ?_, ?_, ?_, ?_, ?_⟩
  · intro s i p h
    cases h
  · rintro s i p ⟨h, -⟩
    cases h
  · intro s i p h
    cases h
  · intro i j p h
    cases h
  · rintro s i p ⟨h, -⟩
    cases h
  · intro i p h
    cases h
  · intro s i p h
    cases h
  · intro s i p h
    cases h

/-! ### A browse call -/

lemma browse_sessions (w : Wrapper) (s : Source) (i : Nat) (s' : Source) (j : Nat) :
    (w.browse s i).sessions s' j = if s' = s ∧ j = i then some w.brk else w.sessions s' j := by
  unfold Wrapper.browse
  by_cases hs : s' = s
  · subst hs
    by_cases hj : j = i
    · subst hj
      simp
    · simp [hj]
  · simp [hs]

lemma malloc_heap_ne (w : Wrapper) (req : Request) (h : p ≠ w.brk) :
    (w.malloc req).heap p = w.heap p := Function.update_of_ne h _ _

lemma live_of_idle (h : w.browsing = none) : w.Live s i p ↔ w.sessions s i = some p := by
  rw [Wrapper.Live, h]
  simp

lemma Isolated.browse_live (h : Isolated w) (hnew : (s, i) ∉ w.issued) :
    (w.browse s i).Live s' j q ↔ w.sessions s' j = some q := by
  rw [Wrapper.Live, browse_sessions]
  by_cases hsame : s' = s ∧ j = i
  · obtain ⟨rfl, rfl⟩ := hsame
    rw [if_pos ⟨rfl, rfl⟩]
    constructor
    · rintro ⟨hq, hne⟩
      exact absurd (congrArg (fun o => o.map fun p => (s', j, p)) hq) hne
    · intro hq
      exact absurd (h.issued s' j q hq) hnew
  · rw [if_neg hsame]
    refine and_iff_left ?_
    intro heq
    have hpair := Prod.mk.inj (Option.some.inj heq)
    exact hsame ⟨hpair.1.symm, (Prod.mk.inj hpair.2).1.symm⟩

lemma Isolated.browse (h : Isolated w) (hcall : w.browsing = none) (hnew : (s, i) ∉ w.issued) :
    Isolated (w.browse s i) := by
  have hold : ∀ s' j q, w.sessions s' j = some q → q ≠ w.brk := fun s' j q hq =>
    Nat.ne_of_lt (h.running s' j q hq)
  refine ⟨?_, ?_, ?_, h.inj, ?_, ?_, ?_, ?_⟩
  · intro s' j q hq
    rw [browse_sessions] at hq
    by_cases hsame : s' = s ∧ j = i
    · rw [if_pos hsame] at hq
      cases hq
      exact ⟨⟨s, BrowseData.init⟩, Function.update_self _ _ _, hsame.1.symm⟩
    · rw [if_neg hsame] at hq
      obtain ⟨req, hreq, hs'⟩ := h.owned s' j q hq
      exact ⟨req, (malloc_heap_ne w _ (hold s' j q hq)).trans hreq, hs'⟩
  · intro s' j q hlive
    rw [h.browse_live hnew] at hlive
    exact h.entered s' j q ((live_of_idle hcall).mpr hlive)
  · intro s' j q hq
    cases hq
    refine ⟨fun k hk => Nat.lt_irrefl _ (h.bound k w.brk hk), fun q hq => ?_, Nat.lt_succ_self _⟩
    rw [browse_sessions, if_pos ⟨rfl, rfl⟩] at hq
    exact (Option.some.inj hq).symm
  · intro s' j q hlive hidle
    rw [h.browse_live hnew] at hlive
    obtain ⟨s₀, p₀, hb⟩ := h.pending s' j q ((live_of_idle hcall).mpr hlive) hidle
    cases hcall.symm.trans hb
  · intro k q hq
    exact Nat.lt_succ_of_lt (h.bound k q hq)
  · intro s' j q hq
    rw [browse_sessions] at hq
    by_cases hsame : s' = s ∧ j = i
    · rw [if_pos hsame] at hq
      cases hq
      exact Nat.lt_succ_self _
    · rw [if_neg hsame] at hq
      exact Nat.lt_succ_of_lt (h.running s' j q hq)
  · intro s' j q hq
    rw [browse_sessions] at hq
    by_cases hsame : s' = s ∧ j = i
    · obtain ⟨rfl, rfl⟩ := hsame
      exact List.mem_cons_self
    · rw [if_neg hsame] at hq
      exact List.mem_cons_of_mem _ (h.issued s' j q hq)

lemma Isolated.of_fields (h : Isolated w) (hsessions : w'.sessions = w.sessions)
    (hbrowsing : w'.browsing = w.browsing) (htable : w'.browseRequests = w.browseRequests)
    (hidle : w'.idle = w.idle) (hissued : w'.issued = w.issued) (hbrk : w.brk ≤ w'.brk)
    (hheap : ∀ s i p, w.sessions s i = some p →
      (w'.heap p).map Request.ecomp = (w.heap p).map Request.ecomp) : Isolated w' := by
  have hlive : ∀ s i p, w'.Live s i p ↔ w.Live s i p := fun s i p => by
    rw [Wrapper.Live, Wrapper.Live, hsessions, hbrowsing]
  refine ⟨fun s i p hp => ?_, fun s i p hp => ?_, ?_, ?_, fun s i p hp hi => ?_, fun i p hp => ?_,
    fun s i p hp => ?_, fun s i p hp => ?_⟩
  · rw [hsessions] at hp
    obtain ⟨req, hreq, hs⟩ := h.owned s i p hp
    have hmap := hheap s i p hp
    rw [hreq, Option.map_some] at hmap
    obtain ⟨req', hreq', heq⟩ := Option.map_eq_some_iff.mp hmap
    exact ⟨req', hreq', heq.trans hs⟩
  · rw [htable]
    exact h.entered s i p ((hlive s i p).mp hp)
  · intro s i p hp
    rw [hbrowsing] at hp
    rw [htable, hsessions]
    obtain ⟨hfree, hown, hlt⟩ := h.calling s i p hp
    exact ⟨hfree, hown, hlt.trans_le hbrk⟩
  · rw [htable]
    exact h.inj
  · rw [hidle] at hi
    rw [hbrowsing]
    exact h.pending s i p ((hlive s i p).mp hp) hi
  · rw [htable] at hp
    exact (h.bound i p hp).trans_le hbrk
  · rw [hsessions] at hp
    exact (h.running s i p hp).trans_le hbrk
  · rw [hsessions] at hp
    rw [hissued]
    exact h.issued s i p hp

lemma Isolated.browseFails (h : Isolated w) (s : Source) : Isolated (w.browseFails s) := by
  refine h.of_fields rfl rfl rfl rfl rfl (Nat.le_succ _) fun s' i p hp => ?_
  have hne : p ≠ w.brk := Nat.ne_of_lt (h.running s' i p hp)
  have hheap : (w.browseFails s).heap p = w.heap p :=
    (Function.update_of_ne hne _ _).trans (malloc_heap_ne w _ hne)
  rw [hheap]

/-! ### Entries that come and go -/

lemma freeAt_fields (w : Wrapper) (entry : Option Ptr) :
    (w.freeAt entry).sessions = w.sessions ∧ (w.freeAt entry).browsing = w.browsing ∧
      (w.freeAt entry).idle = w.idle ∧ (w.freeAt entry).issued = w.issued ∧
      (w.freeAt entry).brk = w.brk := by
  cases entry <;> exact ⟨rfl, rfl, rfl, rfl, rfl⟩

/-- The table and the heap after the entry of an id was changed. -/
structure EntryChanged (w : Wrapper) (i : Nat) (entry : Option Ptr) (w' : Wrapper) : Prop where
  table : ∀ j, w'.browseRequests j = if j = i then entry else w.browseRequests j
  heap : ∀ q, w'.heap q = if w.browseRequests i = some q then none else w.heap q
  sessions : w'.sessions = w.sessions
  idle : w'.idle = w.idle
  issued : w'.issued = w.issued
  brk : w'.brk = w.brk

lemma hashReplace_changed (w : Wrapper) (i : Nat) (p : Ptr) :
    EntryChanged w i (some p) { w.hashReplace i p with browsing := none } := by
  obtain ⟨hsessions, -, hidle, hissued, hbrk⟩ := freeAt_fields w (w.browseRequests i)
  exact ⟨Function.update_apply w.browseRequests i (some p), freeAt_heap w (w.browseRequests i), hsessions, hidle,
    hissued, hbrk⟩

lemma hashRemove_changed (w : Wrapper) (i : Nat) : EntryChanged w i none (w.hashRemove i) := by
  obtain ⟨hsessions, -, hidle, hissued, hbrk⟩ := freeAt_fields w (w.browseRequests i)
  exact ⟨Function.update_apply w.browseRequests i none, freeAt_heap w (w.browseRequests i), hsessions, hidle, hissued,
    hbrk⟩

lemma EntryChanged.inj {entry : Option Ptr} (hc : EntryChanged w i entry w')
    (h : ∀ j k q, w.browseRequests j = some q → w.browseRequests k = some q → j = k)
    (hfree : ∀ q, entry = some q → ∀ j, w.browseRequests j ≠ some q) (j k : Nat) (q : Ptr)
    (hj : w'.browseRequests j = some q) (hk : w'.browseRequests k = some q) : j = k := by
  rw [hc.table] at hj hk
  by_cases hji : j = i
  · rw [if_pos hji] at hj
    by_cases hki : k = i
    · exact hji.trans hki.symm
    · rw [if_neg hki] at hk
      exact absurd hk (hfree q hj k)
  · rw [if_neg hji] at hj
    by_cases hki : k = i
    · rw [if_pos hki] at hk
      exact absurd hj (hfree q hk j)
    · rw [if_neg hki] at hk
      exact h j k q hj hk

lemma EntryChanged.bound {entry : Option Ptr} (hc : EntryChanged w i entry w')
    (h : ∀ j q, w.browseRequests j = some q → q < w.brk) (hlt : ∀ q, entry = some q → q < w.brk)
    (j : Nat) (q : Ptr) (hq : w'.browseRequests j = some q) : q < w'.brk := by
  rw [hc.table] at hq
  rw [hc.brk]
  by_cases hji : j = i
  · rw [if_pos hji] at hq
    exact hlt q hq
  · rw [if_neg hji] at hq
    exact h j q hq

/-- The session whose call returns gets its entry; the entry that it replaces is not one of a
session that goes on. -/
lemma Isolated.returns (h : Isolated w) (hb : w.browsing = some (s, i, p))
    (hothers : ∀ s', s' ≠ s → w.sessions s' i = none)
    (hpending : w.sessions s i ≠ none → i ∉ w.idle)
    (hc : EntryChanged w i (some p) w') (hb' : w'.browsing = none) : Isolated w' := by
  obtain ⟨hfree, hown, hlt⟩ := h.calling s i p hb
  have hlive : ∀ s' j q, w.sessions s' j = some q → ¬(s' = s ∧ j = i) → w.Live s' j q := by
    intro s' j q hq hne
    refine ⟨hq, ?_⟩
    rw [hb]
    intro heq
    have hpair := Prod.mk.inj (Option.some.inj heq)
    exact hne ⟨hpair.1.symm, (Prod.mk.inj hpair.2).1.symm⟩
  have helse : ∀ s' j q, w.sessions s' j = some q → ¬(s' = s ∧ j = i) → j ≠ i := by
    rintro s' j q hq hne rfl
    have hs' : s' ≠ s := fun heq => hne ⟨heq, rfl⟩
    cases (hothers s' hs').symm.trans hq
  have hkept : ∀ s' j q, w.sessions s' j = some q → w.browseRequests i ≠ some q := by
    intro s' j q hq hentry
    by_cases hsame : s' = s ∧ j = i
    · obtain ⟨rfl, rfl⟩ := hsame
      rw [hown q hq] at hentry
      exact hfree j hentry
    · have hj := h.entered s' j q (hlive s' j q hq hsame)
      exact helse s' j q hq hsame (h.inj j i q hj hentry)
  refine ⟨?_, ?_, ?_, ?_, ?_, ?_, ?_, ?_⟩
  · intro s' j q hq
    rw [hc.sessions] at hq
    rw [hc.heap, if_neg (hkept s' j q hq)]
    exact h.owned s' j q hq
  · rintro s' j q ⟨hq, -⟩
    rw [hc.sessions] at hq
    rw [hc.table]
    by_cases hsame : s' = s ∧ j = i
    · obtain ⟨rfl, rfl⟩ := hsame
      rw [if_pos rfl, hown q hq]
    · rw [if_neg (helse s' j q hq hsame)]
      exact h.entered s' j q (hlive s' j q hq hsame)
  · intro s' j q hq
    cases hb'.symm.trans hq
  · refine hc.inj h.inj fun q hq => ?_
    cases hq
    exact hfree
  · rintro s' j q ⟨hq, -⟩ hj
    rw [hc.sessions] at hq
    rw [hc.idle] at hj
    by_cases hsame : s' = s ∧ j = i
    · obtain ⟨rfl, rfl⟩ := hsame
      have hsome : w.sessions s' j ≠ none := by
        rw [hq]
        exact Option.some_ne_none q
      exact absurd hj (hpending hsome)
    · obtain ⟨s₀, p₀, hb₀⟩ := h.pending s' j q (hlive s' j q hq hsame) hj
      have hpair := Prod.mk.inj (Option.some.inj (hb.symm.trans hb₀))
      exact absurd (Prod.mk.inj hpair.2).1.symm (helse s' j q hq hsame)
  · refine hc.bound h.bound fun q hq => ?_
    cases hq
    exact hlt
  · rw [hc.sessions, hc.brk]
    exact h.running
  · rw [hc.sessions, hc.issued]
    exact h.issued

lemma Isolated.removes (h : Isolated w) (hb : w.browsing = none) (hid : ∀ s, w.sessions s i = none)
    (hc : EntryChanged w i none w') (hb' : w'.browsing = none) : Isolated w' := by
  have helse : ∀ s j q, w.sessions s j = some q → j ≠ i := by
    rintro s j q hq rfl
    cases (hid s).symm.trans hq
  have hentered : ∀ s j q, w.sessions s j = some q → w.browseRequests j = some q := fun s j q hq =>
    h.entered s j q ((live_of_idle hb).mpr hq)
  refine ⟨?_, ?_, ?_, ?_, ?_, ?_, ?_, ?_⟩
  · intro s j q hq
    rw [hc.sessions] at hq
    have hkept : w.browseRequests i ≠ some q := fun hentry =>
      helse s j q hq (h.inj j i q (hentered s j q hq) hentry)
    rw [hc.heap, if_neg hkept]
    exact h.owned s j q hq
  · rintro s j q ⟨hq, -⟩
    rw [hc.sessions] at hq
    rw [hc.table, if_neg (helse s j q hq)]
    exact hentered s j q hq
  · intro s j q hq
    cases hb'.symm.trans hq
  · refine hc.inj h.inj fun q hq => ?_
    cases hq
  · rintro s j q ⟨hq, -⟩ hj
    rw [hc.sessions] at hq
    rw [hc.idle] at hj
    obtain ⟨s₀, p₀, hb₀⟩ := h.pending s j q ((live_of_idle hb).mpr hq) hj
    cases hb.symm.trans hb₀
  · refine hc.bound h.bound fun q hq => ?_
    cases hq
  · rw [hc.sessions, hc.brk]
    exact h.running
  · rw [hc.sessions, hc.issued]
    exact h.issued

/-! ### Sessions that end -/

lemma endSession_of_some (h : (w.endSession s i).sessions s' j = some q) :
    w.sessions s' j = some q ∧ ¬(s' = s ∧ j = i) := by
  rw [endSession_sessions] at h
  split at h
  · cases h
  · rename_i hne
    exact ⟨h, hne⟩

lemma Isolated.ends (h : Isolated w) (s : Source) (i : Nat) (idle : List Nat)
    (hidle : ∀ s' j q, w.Live s' j q → ¬(s' = s ∧ j = i) → j ∈ idle →
      ∃ s₀ p₀, w.browsing = some (s₀, j, p₀)) : Isolated { w.endSession s i with idle } := by
  refine ⟨?_, ?_, ?_, h.inj, ?_, h.bound, ?_, ?_⟩
  · intro s' j q hq
    exact h.owned s' j q (endSession_of_some hq).1
  · rintro s' j q ⟨hq, hne⟩
    exact h.entered s' j q ⟨(endSession_of_some hq).1, hne⟩
  · intro s' j q hq
    obtain ⟨hfree, hown, hlt⟩ := h.calling s' j q hq
    exact ⟨hfree, fun q' hq' => hown q' (endSession_of_some hq').1, hlt⟩
  · rintro s' j q ⟨hq, hne⟩ hj
    obtain ⟨hq, hother⟩ := endSession_of_some hq
    exact hidle s' j q ⟨hq, hne⟩ hother hj
  · intro s' j q hq
    exact h.running s' j q (endSession_of_some hq).1
  · intro s' j q hq
    exact h.issued s' j q (endSession_of_some hq).1

lemma Isolated.completes (h : Isolated w) (hs : w.sessions s i = some p) :
    Isolated { w.endSession s i with idle := w.idle ++ [i] } := by
  refine h.ends s i _ ?_
  rintro s' j q hlive hother hj
  rcases List.mem_append.mp hj with hj | hj
  · exact h.pending s' j q hlive hj
  · rw [List.mem_singleton] at hj
    subst hj
    by_cases hb : w.browsing = some (s, j, p)
    · exact ⟨s, p, hb⟩
    · have hp := h.entered s j p ⟨hs, hb⟩
      have hq := h.entered s' j q hlive
      have hpq : p = q := Option.some.inj (hp.symm.trans hq)
      subst hpq
      exact absurd ⟨(h.data_inj hs hlive.1).1.symm, rfl⟩ hother

lemma Isolated.idle_subset (h : Isolated w) {idle : List Nat} (hsub : idle ⊆ w.idle) :
    Isolated { w with idle } := by
  refine ⟨h.owned, h.entered, h.calling, h.inj, ?_, h.bound, h.running, h.issued⟩
  intro s j q hlive hj
  exact h.pending s j q hlive (hsub hj)

lemma Isolated.write (h : Isolated w) {req : Request} (hreq : w.heap p = some req) (data : BrowseData) :
    Isolated { w with heap := Function.update w.heap p (some { req with data }) } := by
  refine h.of_fields rfl rfl rfl rfl rfl le_rfl fun s j q _ => ?_
  change (Function.update w.heap p (some { req with data }) q).map Request.ecomp = _
  by_cases hq : q = p
  · rw [hq, Function.update_self, hreq]
    rfl
  · rw [Function.update_of_ne hq]

/-! ### Runs -/

lemma Isolated.emits (h : Isolated w) (freeze : μ → Bytes) (hs : w.sessions s i = some p) (r : BrowseResult μ) :
    ∃ r', w.emit freeze s i p r = some r' ∧ Isolated r'.1 := by
  obtain ⟨req, hreq, -⟩ := h.owned s i p hs
  rw [Wrapper.emit, hreq]
  refine ⟨_, rfl, ?_⟩
  have hwritten := h.write hreq (emitBrowseResult freeze req.data i r).1
  dsimp only
  split
  · exact hwritten.completes hs
  · exact hwritten

lemma Isolated.handle (h : Isolated w) (freeze : μ → Bytes) {e : Event μ} (hp : w.Possible e)
    (hk : Keeps w e) :
    ∃ r, w.handle freeze e = some r ∧ Isolated r.1 := by
  cases e with
  | browse s i => exact ⟨_, rfl, h.browse hp.1 hp.2⟩
  | browseFails s => exact ⟨_, rfl, h.browseFails s⟩
  | browseReturns =>
    obtain ⟨⟨s, i, p⟩, hb⟩ := Option.ne_none_iff_exists'.mp hp
    obtain ⟨hothers, hpending⟩ := hk s i p hb
    have hreturns := h.returns hb hothers hpending (hashReplace_changed w i p) rfl
    refine ⟨_, rfl, ?_⟩
    rw [Wrapper.browseReturns, hb]
    exact hreturns
  | emit s i r =>
    obtain ⟨p, hs⟩ := Option.ne_none_iff_exists'.mp hp
    obtain ⟨r', hr', hisolated⟩ := h.emits freeze hs r
    refine ⟨r', ?_, hisolated⟩
    rw [Wrapper.handle, hs]
    exact hr'
  | timeout p =>
    obtain ⟨-, req, hreq, -⟩ := hp
    refine ⟨w.timeout p req, ?_, h.write hreq _⟩
    rw [Wrapper.handle, hreq]
  | idle i =>
    obtain ⟨hb, hi⟩ := hp
    refine ⟨_, rfl, ?_⟩
    have hid : ∀ s, w.sessions s i = none := by
      intro s
      cases hs : w.sessions s i with
      | none => rfl
      | some p =>
        obtain ⟨s₀, p₀, hb₀⟩ := h.pending s i p ((live_of_idle hb).mpr hs) hi
        cases hb.symm.trans hb₀
    have herased := h.idle_subset (List.erase_subset (a := i) (l := w.idle))
    exact herased.removes hb hid (hashRemove_changed _ i)
      ((freeAt_fields { w with idle := w.idle.erase i } (w.browseRequests i)).2.1.trans hb)
  | cancelBrowse s i error =>
    obtain ⟨hothers, hown⟩ := hk
    refine ⟨_, rfl, ?_⟩
    cases error with
    | true =>
      have hid : ∀ s', w.sessions s' i = none := by
        intro s'
        by_cases hs' : s' = s
        · rw [hs', hown rfl]
        · exact hothers s' hs'
      exact h.removes hp hid (hashRemove_changed w i) ((freeAt_fields w (w.browseRequests i)).2.1.trans hp)
    | false =>
      have hended := h.ends s i w.idle fun s' j q hlive _ hj => h.pending s' j q hlive hj
      have hid : ∀ s', (w.endSession s i).sessions s' i = none := by
        intro s'
        rw [endSession_sessions]
        by_cases hs' : s' = s
        · rw [if_pos ⟨hs', rfl⟩]
        · rw [if_neg fun hsame => hs' hsame.1]
          exact hothers s' hs'
      exact hended.removes hp hid (hashRemove_changed _ i)
        ((freeAt_fields (w.endSession s i) (w.browseRequests i)).2.1.trans hp)

lemma Isolated.live_stays (h : Isolated w) {e : Event μ} {r : Wrapper × List Sent} (hp : w.Possible e)
    (hr : w.handle freeze e = some r) (hlive : w.Live s i p) (hends : ¬e.Ends s i) : r.1.Live s i p := by
  cases e with
  | browse s' j =>
    cases hr
    exact (h.browse_live hp.2).mpr hlive.1
  | browseFails s' =>
    cases hr
    exact hlive
  | browseReturns =>
    obtain ⟨⟨s', j, q⟩, hb⟩ := Option.ne_none_iff_exists'.mp hp
    rw [Wrapper.handle, Wrapper.browseReturns, hb] at hr
    cases hr
    have hsessions := (hashReplace_changed w j q).sessions
    exact (live_of_idle rfl).mpr ((congrFun (congrFun hsessions s) i).trans hlive.1)
  | emit s' j r' =>
    obtain ⟨q, hs⟩ := Option.ne_none_iff_exists'.mp hp
    obtain ⟨req, hreq, -⟩ := h.owned s' j q hs
    rw [Wrapper.handle, hs] at hr
    simp only [Wrapper.emit, hreq] at hr
    cases hr
    dsimp only
    split
    · rename_i hfinal
      refine ⟨(endSession_sessions _ s' j s i).trans ?_, hlive.2⟩
      refine (if_neg ?_).trans hlive.1
      rintro ⟨rfl, rfl⟩
      exact hends (.inl ⟨r', rfl, hfinal⟩)
    · exact hlive
  | timeout q =>
    obtain ⟨-, req, hreq, -⟩ := hp
    rw [Wrapper.handle, hreq] at hr
    cases hr
    exact hlive
  | idle j =>
    cases hr
    have hsessions := (hashRemove_changed { w with idle := w.idle.erase j } j).sessions
    refine (live_of_idle ?_).mpr ((congrFun (congrFun hsessions s) i).trans hlive.1)
    exact (freeAt_fields { w with idle := w.idle.erase j } (w.browseRequests j)).2.1.trans hp.1
  | cancelBrowse s' j error =>
    cases hr
    cases error with
    | true =>
      have hsessions := (hashRemove_changed w j).sessions
      refine (live_of_idle ?_).mpr ((congrFun (congrFun hsessions s) i).trans hlive.1)
      exact (freeAt_fields w (w.browseRequests j)).2.1.trans hp
    | false =>
      have hsessions := (hashRemove_changed (w.endSession s' j) j).sessions
      refine (live_of_idle ?_).mpr ((congrFun (congrFun hsessions s) i).trans ?_)
      · exact (freeAt_fields (w.endSession s' j) (w.browseRequests j)).2.1.trans hp
      · rw [endSession_sessions, if_neg]
        · exact hlive.1
        · rintro ⟨rfl, rfl⟩
          exact hends (.inr rfl)

lemma Isolated.kept (h : Isolated w) (hlive : w.Live s i p) : w.Kept s i p :=
  ⟨h.entered s i p hlive, h.owned s i p hlive.1⟩

/-- The steps of the wrapper. -/
def Step (freeze : μ → Bytes) (w : Wrapper) (e : Event μ) (w' : Wrapper) : Prop :=
  ∃ sent, w.handle freeze e = some (w', sent)

/-- In every run whose events meet the condition, a session that goes on has its own data in
the table, and the next event that meets it reads no freed data and takes the data of no
session away, except of the one that it ends. -/
theorem sessions_isolated
    (hr : Reach (Step freeze) (fun w e => w.Possible e ∧ Keeps w e) Wrapper.init w) :
    (∀ s i p, w.Live s i p → w.Kept s i p) ∧
      (∀ s i s' j p, w.Live s i p → w.Live s' j p → s = s' ∧ i = j) ∧
      ∀ e, w.Possible e → Keeps w e → ∃ r, w.handle freeze e = some r ∧
        ∀ s i p, w.Live s i p → ¬e.Ends s i → r.1.Live s i p ∧ r.1.Kept s i p := by
  have hinv : Isolated w := by
    apply hr.invariant Isolated isolated_init
    rintro w₀ e w₁ h ⟨hp, hk⟩ ⟨sent, hsent⟩
    obtain ⟨r, hr, hisolated⟩ := h.handle freeze hp hk
    cases hsent.symm.trans hr
    exact hisolated
  refine ⟨fun s i p => hinv.kept, fun s i s' j p hl hl' => hinv.data_inj hl.1 hl'.1, fun e hp hk => ?_⟩
  obtain ⟨r, hr, hisolated⟩ := hinv.handle freeze hp hk
  refine ⟨r, hr, fun s i p hlive hends => ?_⟩
  have hstays := hinv.live_stays hp hr hlive hends
  exact ⟨hstays, hisolated.kept hstays⟩

/-- Two sources run a session each, with different ids, and one of them is cancelled. -/
theorem sessions_isolated_twoSources : ∃ w : Wrapper,
    Reach (Step fun _ : Unit => []) (fun w e => w.Possible e ∧ Keeps w e) Wrapper.init w ∧
      w.Live 0 1 0 ∧ w.Kept 0 1 0 := by
  obtain ⟨w, hreach, hlive⟩ : ∃ w : Wrapper,
      Reach (Step fun _ : Unit => []) (fun w e => w.Possible e ∧ Keeps w e) Wrapper.init w ∧
        w.Live 0 1 0 := by
    refine ⟨_, .next (e := .cancelBrowse 1 2 false)
      (.next (e := .browseReturns)
        (.next (e := .browse 1 2)
          (.next (e := .browseReturns)
            (.next (e := .browse 0 1) .refl ⟨⟨rfl, by decide⟩, trivial⟩ ⟨_, rfl⟩)
            ⟨Option.some_ne_none _, ?_⟩ ⟨_, rfl⟩)
          ⟨⟨rfl, by decide⟩, trivial⟩ ⟨_, rfl⟩)
        ⟨Option.some_ne_none _, ?_⟩ ⟨_, rfl⟩)
      ⟨rfl, ?_, fun herror => by cases herror⟩ ⟨_, rfl⟩, (live_of_idle rfl).mpr rfl⟩
    · rintro s i p h
      cases h
      exact ⟨fun s' hs' => (browse_sessions _ 0 1 s' 1).trans (if_neg fun h => hs' h.1),
        fun _ => List.not_mem_nil⟩
    · rintro s i p h
      cases h
      refine ⟨fun s' hs' => (browse_sessions _ 1 2 s' 2).trans ?_, fun _ => List.not_mem_nil⟩
      rw [if_neg fun h => hs' h.1]
      exact (browse_sessions _ 0 1 s' 2).trans (if_neg fun h => by cases h.2)
    · intro s' hs'
      refine (browse_sessions _ 1 2 s' 2).trans ?_
      rw [if_neg fun h => hs' h.1]
      exact (browse_sessions _ 0 1 s' 2).trans (if_neg fun h => by cases h.2)
  obtain ⟨hkept, -⟩ := sessions_isolated hreach
  exact ⟨w, hreach, hlive, hkept 0 1 0 hlive⟩

/-- Two sources that both run a session with id 1: when the call of the second one returns,
the data of the first session are freed, and the next result of that session reads them. One
source runs a session with id 1 while that id is cancelled on another one. And a source refuses
to cancel its session. -/
theorem sessions_collide :
    (∃ w : Wrapper, Reach (Step fun _ : Unit => []) (fun w e => w.Possible e) Wrapper.init w ∧
      w.Live 0 1 0 ∧ ¬w.Kept 0 1 0 ∧
      ∀ r, w.Possible (.emit 0 1 r) ∧ w.handle (fun _ : Unit => []) (.emit 0 1 r) = none) ∧
    (∃ w : Wrapper, Reach (Step fun _ : Unit => []) (fun w e => w.Possible e) Wrapper.init w ∧
      w.Live 0 1 0 ∧ ¬w.Kept 0 1 0) ∧
    ∃ w : Wrapper, Reach (Step fun _ : Unit => []) (fun w e => w.Possible e) Wrapper.init w ∧
      w.Live 0 1 0 ∧ ¬w.Kept 0 1 0 ∧
      ∀ r, w.Possible (.emit 0 1 r) ∧ w.handle (fun _ : Unit => []) (.emit 0 1 r) = none := by
  refine ⟨?_, ?_, ?_⟩
  · refine ⟨_, .next (e := .browseReturns)
      (.next (e := .browse 1 1)
        (.next (e := .browseReturns)
          (.next (e := .browse 0 1) .refl ⟨rfl, by decide⟩ ⟨_, rfl⟩)
          (Option.some_ne_none _) ⟨_, rfl⟩)
        ⟨rfl, by decide⟩ ⟨_, rfl⟩)
      (Option.some_ne_none _) ⟨_, rfl⟩, (live_of_idle rfl).mpr rfl, ?_, fun r => ⟨Option.some_ne_none _, rfl⟩⟩
    rintro ⟨hentry, -⟩
    cases hentry
  · refine ⟨_, .next (e := .cancelBrowse 1 1 false)
      (.next (e := .browseReturns)
        (.next (e := .browse 0 1) .refl ⟨rfl, by decide⟩ ⟨_, rfl⟩)
        (Option.some_ne_none _) ⟨_, rfl⟩)
      rfl ⟨_, rfl⟩, (live_of_idle rfl).mpr rfl, ?_⟩
    rintro ⟨hentry, -⟩
    cases hentry
  · refine ⟨_, .next (e := .cancelBrowse 0 1 true)
      (.next (e := .browseReturns)
        (.next (e := .browse 0 1) .refl ⟨rfl, by decide⟩ ⟨_, rfl⟩)
        (Option.some_ne_none _) ⟨_, rfl⟩)
      rfl ⟨_, rfl⟩, (live_of_idle rfl).mpr rfl, ?_, fun r => ⟨Option.some_ne_none _, rfl⟩⟩
    rintro ⟨hentry, -⟩
    cases hentry

end MafwShared.BrowseRequests
