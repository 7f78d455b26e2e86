import MafwShared.Proofs.ImportLinks

/-!
# Imports call back once

However the applications' calls, the timeouts, the messages, the sources' callbacks and the cancellations
follow on each other, the callback of an import runs at most once, never after the import was cancelled,
and with what the daemon has reported of this very import. An application that has looked at all its
messages waits for no import that the daemon is not still at work on.
-/

namespace MafwShared.ImportCalls
open CLib ImportRequests Side

/-- The daemon is at work on an import: a source is to call back for it. -/
def GoesOn (w : Wrapper) (n : Nat) : Prop :=
  ∃ p data, w.importRequests n = some p ∧ w.heap p = some data ∧ data.importId = n ∧ w.Awaited p

/-- There are less than `2 ^ 32` imports, and a source gives out no browse id twice. -/
def Fair {ι : Type*} (s : Imports ι) : Event ι → Prop
  | .serve _ _ _ => s.wrapper.nextId + 1 < 2 ^ 32
  | .metadata p _ _ browseId =>
    ∀ src ∈ s.wrapper.metadata p, ∀ q < s.wrapper.brk, session s.wrapper q ≠ some (src, browseId)
  | _ => True

instance {ι : Type*} (s : Imports ι) : (e : Event ι) → Decidable (Fair s e)
  | .serve _ _ _ => inferInstanceAs (Decidable (_ < _))
  | .metadata p _ _ browseId => inferInstanceAs (Decidable (∀ src ∈ s.wrapper.metadata p, ∀ q < s.wrapper.brk,
      session s.wrapper q ≠ some (src, browseId)))
  | .app _ _ | .browseResult _ _ | .returns | .other _ => inferInstanceAs (Decidable True)

section
variable {ι : Type*} {lib : Libmafw} {busName : ι → Client} {s t : Imports ι} {w' : Wrapper}
  {sent : List ImportRequests.Sent} {e : ImportRequests.Event} {i : ι} {serial : Nat}

/-! ### The daemon and the applications -/

namespace Imports

def side (s : Imports ι) (i : ι) : Side ι := ⟨s.wrapper, s.callOf, s.current, s.apps i⟩

variable (busName) in
structure Sound (s : Imports ι) : Prop where
  courses : Courses s.wrapper
  sent_by : ∀ p data, s.wrapper.heap p = some data →
    ∃ i serial, s.callOf (p + 1) = some (i, serial) ∧ data.sender = busName i
  started : ∀ p x, s.callOf (p + 1) = some x → p < s.wrapper.brk
  asks : s.wrapper.calls.filterMap asking = [] ∨ ∃ i serial n, s.current = some (i, serial) ∧
    s.wrapper.calls.filterMap asking = [(busName i, n)]
  side : ∀ i, (s.side i).Sound busName i

lemma sound_init (d : Daemon) : Sound busName (init d : Imports ι) where
  courses := .init d
  sent_by := nofun
  started := nofun
  asks := .inl rfl
  side i := by
    refine ⟨fun serial hs => ?_, fun n => ?_, fun _ => Nat.zero_le 1, nofun, nofun⟩
    · rcases hs with hs | ⟨r, hr⟩
      · cases hs
      · cases hr
    · exact .foreign nofun rfl rfl List.not_mem_nil nofun (not_coming_of_idle rfl) rfl

lemma Sound.other (h : s.Sound busName) {d : Daemon} {signals : List Signal} :
    Sound busName ({ s with wrapper := { s.wrapper with daemon := d } }.hear fun _ => signals.map .signal) := by
  have hspared : ∀ q, Spared s.wrapper { s.wrapper with daemon := d } q := fun q =>
    ⟨rfl, rfl, rfl, rfl, rfl, fun _ => Iff.rfl, Iff.rfl⟩
  refine ⟨h.courses.idle hspared h.courses.nextId_eq h.courses.table, h.sent_by, h.started, h.asks, fun j => ?_⟩
  refine (h.side j).of_idle (hears_hear _ _) hspared (fun serial hs => (h.side j).serials serial (.inl hs))
    (coming_hear rfl) fun m hm args he => ?_
  obtain ⟨signal, -, hsignal⟩ := List.mem_map.mp hm
  cases hsignal.trans he

variable [DecidableEq ι]

lemma turn_ok (ht : s.turn lib busName e = some t) : ∃ w' sent, s.wrapper.handle lib e = .ok (w', sent) := by
  unfold turn at ht
  split at ht
  · cases ht
  · exact ⟨_, _, by assumption⟩

lemma turn_silent (hr : s.wrapper.handle lib e = .ok (w', sent)) (hsilent : sent.findSome? replyOf = none) :
    s.turn lib busName e = some ({ s with wrapper := w' }.hear fun i => sent.filterMap (incomingOf (busName i))) := by
  rw [turn, hr]
  dsimp only
  rw [hsilent]
  rfl

lemma turn_replies (hr : s.wrapper.handle lib e = .ok (w', sent)) {r : Reply} (hreply : sent.findSome? replyOf = some r)
    (hcurrent : s.current = some (i, serial)) :
    s.turn lib busName e = some { s with
      wrapper := w'
      apps := Function.update (fun j => (s.apps j).hear (sent.filterMap (incomingOf (busName j)))) i
        (((s.apps i).hear (sent.filterMap (incomingOf (busName i)))).answer serial r)
      current := none } := by
  rw [turn, hr]
  dsimp only
  rw [hreply]
  dsimp only [Option.elim, reply, hear]
  rw [hcurrent]
  rfl

variable {p : Ptr} {data : ImportData}

lemma Sound.of_moved (h : s.Sound busName) (hinj : Function.Injective busName)
    (hr : s.wrapper.handle lib e = .ok (w', sent))
    (hm : ∃ data, s.wrapper.heap p = some data ∧ Moved s.wrapper w' p data.sender sent ∧ Silent s.wrapper w' sent)
    (ht : s.turn lib busName e = some t) : t.Sound busName := by
  obtain ⟨data, hp, hm, hsilent⟩ := hm
  rw [turn_silent hr hsilent.reply] at ht
  cases ht
  obtain ⟨i₀, serial₀, howner, hsender⟩ := h.sent_by p data hp
  rw [hsender] at hm
  refine ⟨hm.courses, fun q data' hq => ?_, fun q x hx => ?_, ?_, fun i => ?_⟩
  · by_cases hqp : q = p
    · subst hqp
      exact ⟨i₀, serial₀, howner, hm.sent_by data' hq⟩
    · exact h.sent_by q data' ((hm.spared q hqp).heap.symm.trans hq)
  · by_cases hqp : q = p
    · rw [hqp]
      exact hm.lt_brk
    · exact (hm.spared q hqp).brk.mpr (h.started q x hx)
  · dsimp only [hear]
    rw [hsilent.asks]
    exact h.asks
  · exact (h.side i).of_moved hinj howner hm hsilent.asks

/-! ### Replies -/

/-- The daemon is at work on a request. -/
structure Taken (s t : Imports ι) (i : ι) (serial : Nat) : Prop where
  wrapper : t.wrapper = s.wrapper
  current : t.current = some (i, serial)
  hears : ∀ j, Hears (s.apps j) (t.apps j) []
  progress : ∀ j, (t.apps j).progress = (s.apps j).progress

lemma taken {rest : List (Nat × Request)} {request : Request} (hout : (s.apps i).outbox = (serial, request) :: rest)
    (callOf : Nat → Option (ι × Nat)) :
    s.Taken { s.setApp i { s.apps i with outbox := rest } with current := some (i, serial), callOf } i serial := by
  have happs : ∀ j, Hears (s.apps j) (Function.update s.apps i { s.apps i with outbox := rest } j) [] ∧
      (Function.update s.apps i { s.apps i with outbox := rest } j).progress = (s.apps j).progress := by
    intro j
    by_cases hj : j = i
    · subst hj
      rw [Function.update_self]
      refine ⟨⟨rfl, rfl, rfl, rfl, fun e he => ?_, (List.append_nil _).symm⟩, rfl⟩
      rw [hout]
      exact List.mem_cons_of_mem _ he
    · rw [Function.update_of_ne hj]
      exact ⟨⟨rfl, rfl, rfl, rfl, fun _ he => he, (List.append_nil _).symm⟩, rfl⟩
  exact ⟨rfl, rfl, fun j => (happs j).1, fun j => (happs j).2⟩

lemma Taken.turn {u : Imports ι} (hk : s.Taken u i serial) (hr : s.wrapper.handle lib e = .ok (w', sent))
    (ht : u.turn lib busName e = some t) :
    t.wrapper = w' ∧ t.callOf = u.callOf ∧
      t.current = (if (sent.findSome? replyOf).isSome then none else some (i, serial)) ∧
      (∀ j, Hears (s.apps j) (t.apps j) (sent.filterMap (incomingOf (busName j)))) ∧
      (sent.findSome? replyOf = none → ∀ j, (t.apps j).progress = (s.apps j).progress) ∧
      ∀ j n serial', Answered (t.apps j) n serial' ↔ Answered (s.apps j) n serial' ∨
        sent.findSome? replyOf = some (.importId n) ∧ j = i ∧ serial' = serial ∧
          ∃ pl base, (s.apps j).progress = .waiting serial (.importPlaylist pl base) := by
  rw [← hk.wrapper] at hr
  have hhears : ∀ j, Hears (s.apps j) ((u.apps j).hear (sent.filterMap (incomingOf (busName j))))
      (sent.filterMap (incomingOf (busName j))) := fun j => (hk.hears j).hear _
  cases hreply : sent.findSome? replyOf with
  | none =>
    rw [turn_silent hr hreply] at ht
    cases ht
    refine ⟨rfl, rfl, hk.current, hhears, fun _ => hk.progress, fun j n serial' => ?_⟩
    exact (answered_congr (hk.progress j) n serial').trans (or_iff_left nofun).symm
  | some r =>
    rw [turn_replies hr hreply hk.current] at ht
    cases ht
    refine ⟨rfl, rfl, rfl, fun j => ?_, nofun, fun j n serial' => ?_⟩
    · dsimp only
      by_cases hj : j = i
      · subst hj
        rw [Function.update_self]
        exact hears_answer _ _ _ (hhears j)
      · rw [Function.update_of_ne hj]
        exact hhears j
    · dsimp only
      by_cases hj : j = i
      · subst hj
        rw [Function.update_self, answered_answer]
        refine or_congr (answered_congr (hk.progress j) n serial') ?_
        have hp : ((u.apps j).hear (sent.filterMap (incomingOf (busName j)))).progress = (s.apps j).progress :=
          hk.progress j
        rw [hp, Option.some.injEq]
        exact and_congr_right fun _ => (and_iff_right rfl).symm
      · rw [Function.update_of_ne hj]
        exact (answered_congr (hk.progress j) n serial').trans (or_iff_left fun hreply => hj hreply.2.1).symm

lemma Sound.returns (h : s.Sound busName) (hinj : Function.Injective busName) (hne : s.wrapper.calls ≠ [])
    (ht : s.turn lib busName .returns = some t) : t.Sound busName := by
  cases hcalls : s.wrapper.calls with
  | nil => exact absurd hcalls hne
  | cons call calls =>
    cases call with
    | browse p browseId =>
      obtain ⟨w', sent, hr⟩ := turn_ok ht
      exact h.of_moved hinj hr (h.courses.returns_browse hcalls hr) ht
    | getMetadata sender n =>
      have hasking : s.wrapper.calls.filterMap asking = (sender, n) :: calls.filterMap asking := by
        rw [hcalls]
        exact List.filterMap_cons_some rfl
      obtain ⟨i, serial, hcurrent, hasks, hlast⟩ : ∃ i serial, s.current = some (i, serial) ∧
          s.wrapper.calls.filterMap asking = [(busName i, n)] ∧ calls.filterMap asking = [] := by
        rcases h.asks with hnone | ⟨i, serial, n', hcurrent, hone⟩
        · rw [hasking] at hnone
          cases hnone
        · rw [hasking] at hone ⊢
          obtain ⟨hhead, hlast⟩ := List.cons.inj hone
          cases hhead
          exact ⟨i, serial, hcurrent, by rw [hlast], hlast⟩
      have hr : s.wrapper.handle lib .returns = .ok ({ s.wrapper with calls }, [.importId sender n]) := by
        dsimp only [Wrapper.handle]
        rw [Wrapper.callReturns, hcalls]
      have hk : s.Taken s i serial :=
        ⟨rfl, hcurrent, fun j => ⟨rfl, rfl, rfl, rfl, fun _ he => he, (List.append_nil _).symm⟩, fun _ => rfl⟩
      obtain ⟨hw, hcallOf, hcurrent', hhears, -, hanswered⟩ := hk.turn hr ht
      obtain ⟨hcourses, hspared⟩ := h.courses.returns_reply hcalls
      refine ⟨hw ▸ hcourses, ?_, ?_, .inl ?_, fun j => ?_⟩
      · rw [hw, hcallOf]
        exact h.sent_by
      · rw [hw, hcallOf]
        exact h.started
      · rw [hw]
        exact hlast
      · have hside := h.side j
        rw [Imports.side, hcurrent] at hside
        rw [Imports.side, hw, hcallOf, hcurrent']
        refine hside.of_idle (hhears j) hspared (fun _ he => by cases he)
          (coming_returns hasks fun n' serial' => ?_) fun m hm => ?_
        · rw [hanswered]
          refine or_congr_right (and_congr_left' ?_)
          exact ⟨fun he => by cases he; rfl, fun he => by rw [he]; rfl⟩
        · cases hm

/-! ### Requests -/

lemma Sound.serve_cancel (h : s.Sound busName) (hcalls : s.wrapper.calls = []) {importId : Nat}
    {rest : List (Nat × Request)} (hout : (s.apps i).outbox = (serial, .cancelImport importId) :: rest)
    {src : Option Source} {parsed : Parsed}
    (ht : s.serve lib busName i serial rest src parsed (.cancelImport importId) = some t) : t.Sound busName := by
  have hk := taken hout s.callOf
  obtain ⟨w', sent, hr⟩ := turn_ok ht
  obtain ⟨hd, hreports, reply, hreply, hno⟩ := h.courses.cancelImport hcalls hr
  obtain ⟨hw, hcallOf, hcurrent, hhears, -, hanswered⟩ := hk.turn hr ht
  rw [hreply] at hcurrent hanswered
  have hmem : ∃ e ∈ (s.apps i).outbox, e.2 = .cancelImport importId := by
    rw [hout]
    exact ⟨_, List.mem_cons_self, rfl⟩
  -- an application cancels what it was given the id of
  obtain ⟨serial', howner⟩ : ∃ serial', s.callOf importId = some (i, serial') := by
    obtain ⟨e, he, hrequest⟩ := hmem
    cases (h.side i).link importId with
    | ended serial' st hcall => exact ⟨serial', hcall⟩
    | foreign _ _ _ _ hcancel | coming _ _ _ _ _ hcancel | waiting _ _ _ _ _ hcancel | calling _ _ _ _ _ hcancel =>
      exact absurd hrequest (hcancel e he)
  refine ⟨hw ▸ hd.courses, fun q data hq => ?_, fun q x hx => ?_, .inl ?_, fun j => ?_⟩
  · rw [hw] at hq
    obtain ⟨data', hq', hsender⟩ := hd.sent_by q data hq
    obtain ⟨j, serial₁, hcall, hsender'⟩ := h.sent_by q data' hq'
    exact ⟨j, serial₁, hcallOf.symm ▸ hcall, hsender.trans hsender'⟩
  · rw [hw, hd.brk]
    exact h.started q x (hcallOf ▸ hx)
  · rw [hw, hd.calls, hcalls]
    rfl
  · have hside := h.side j
    rw [Imports.side] at hside ⊢
    rw [hw, hcallOf, hcurrent]
    have hwhose : j = i ∧ (∃ e ∈ (s.apps j).outbox, e.2 = .cancelImport importId) ∨
        j ≠ i ∧ ∃ serial, s.callOf importId = some (i, serial) := by
      by_cases hj : j = i
      · subst hj
        exact .inl ⟨rfl, hmem⟩
      · exact .inr ⟨hj, serial', howner⟩
    refine hside.of_cancel hcalls hd hwhose hreports (hhears j) fun n serial₁ => ?_
    rw [hanswered]
    refine or_iff_left fun he => ?_
    cases he.1
    exact hno n rfl

lemma Sound.serve_import (h : s.Sound busName) (hinj : Function.Injective busName) (hcalls : s.wrapper.calls = [])
    (hlt : s.wrapper.nextId + 1 < 2 ^ 32) {playlist base : Bytes} {rest : List (Nat × Request)}
    (hout : (s.apps i).outbox = (serial, .importPlaylist playlist base) :: rest) {src : Option Source} {parsed : Parsed}
    (ht : s.serve lib busName i serial rest src parsed (.importPlaylist playlist base) = some t) : t.Sound busName := by
  have hk := taken hout (Function.update s.callOf ((s.wrapper.nextId + 1) % 2 ^ 32) (some (i, serial)))
  obtain ⟨w', sent, hr⟩ := turn_ok ht
  obtain ⟨hm, hreplies⟩ := h.courses.importPlaylist hcalls hlt hr
  obtain ⟨hw, hcallOf, hcurrent, hhears, hprogress, hanswered⟩ := hk.turn hr ht
  dsimp only at hcallOf
  rw [Nat.mod_eq_of_lt hlt, h.courses.nextId_eq] at hcallOf
  have hnew : s.callOf (s.wrapper.brk + 1) = none := by
    by_contra hne
    obtain ⟨x, hx⟩ := Option.ne_none_iff_exists'.mp hne
    exact Nat.lt_irrefl _ (h.started _ x hx)
  have hunborn : s.wrapper.reports s.wrapper.brk = [] := by
    cases h.courses.course s.wrapper.brk with
    | unborn _ _ _ _ hrep => exact hrep
    | asked _ _ hlt | browsed _ _ _ hlt | stopped _ _ hlt | gone hlt => exact absurd hlt (Nat.lt_irrefl _)
  have hother : ∀ n, n ≠ s.wrapper.brk + 1 → t.callOf n = s.callOf n := fun n hn => by
    rw [hcallOf, Function.update_of_ne hn]
  have howner : t.callOf (s.wrapper.brk + 1) = some (i, serial) := by rw [hcallOf, Function.update_self]
  have hasks : s.wrapper.calls.filterMap asking = [] := by rw [hcalls]; rfl
  have hbefore : ∀ j n serial', Coming busName (s.side j) j n serial' ↔ Answered (s.apps j) n serial' := by
    refine fun j n serial' => coming_iff_answered (fun _ _ => ?_) serial'
    rw [hasks]
    exact (List.cons_ne_nil _ _).symm
  have hasks' : t.wrapper.calls.filterMap asking = [] ∨ ∃ i serial n, t.current = some (i, serial) ∧
      t.wrapper.calls.filterMap asking = [(busName i, n)] := by
    rw [hw]
    rcases hreplies with ⟨hreply, hone, -⟩ | ⟨hnil, -⟩
    · rw [hreply] at hcurrent
      exact .inr ⟨i, serial, _, hcurrent, hone⟩
    · rw [hnil]
      exact .inl rfl
  refine ⟨hw ▸ hm.courses, fun q data hq => ?_, fun q x hx => ?_, hasks', fun j => ?_⟩
  · rw [hw] at hq
    by_cases hqp : q = s.wrapper.brk
    · subst hqp
      exact ⟨i, serial, howner, hm.sent_by data hq⟩
    · rw [hother _ fun he => hqp (Nat.succ_injective he)]
      exact h.sent_by q data ((hm.spared q hqp).heap.symm.trans hq)
  · rw [hw]
    by_cases hqp : q = s.wrapper.brk
    · rw [hqp]
      exact hm.lt_brk
    · rw [hother _ fun he => hqp (Nat.succ_injective he)] at hx
      exact (hm.spared q hqp).brk.mpr (h.started q x hx)
  · have hserials : ∀ serial', t.current = some (j, serial') → serial' < (s.apps j).nextSerial := by
      intro serial' he
      rw [hcurrent] at he
      split at he
      · cases he
      · cases he
        refine (h.side i).serials serial (.inr ⟨.importPlaylist playlist base, ?_⟩)
        rw [Imports.side, hout]
        exact List.mem_cons_self
    have hfinish : ∀ Replies : Prop, (Replies → j = i ∧ (Live w' s.wrapper.brk ∨ w'.reports s.wrapper.brk ≠ [])) →
        (∀ n serial', Coming busName ⟨w', t.callOf, t.current, t.apps j⟩ j n serial' ↔
          Answered (s.apps j) n serial' ∨ Replies ∧ n = s.wrapper.brk + 1 ∧ serial' = serial) →
        (t.side j).Sound busName j := by
      intro Replies hrep hcoming
      rw [Imports.side, hw]
      refine (h.side j).of_import hinj hm hnew hunborn hother howner (hhears j) hserials hrep fun n serial' => ?_
      exact (hcoming n serial').trans (or_congr_left (hbefore j n serial').symm)
    rcases hreplies with ⟨hreply, hone, hlive⟩ | ⟨hnil, ⟨hreply, hreported⟩ | ⟨err, hreply⟩⟩
    · -- the source is asked, and the reply comes when its call returns
      refine hfinish (j = i ∧ ∃ pl base, (s.apps j).progress = .waiting serial (.importPlaylist pl base))
        (fun hrep => ⟨hrep.1, .inl hlive⟩) fun n serial' => ?_
      rw [hcurrent, hreply]
      exact coming_asks hone (hprogress hreply j) n serial'
    · refine hfinish (j = i ∧ ∃ pl base, (s.apps j).progress = .waiting serial (.importPlaylist pl base))
        (fun hrep => ⟨hrep.1, .inr hreported⟩) fun n serial' => ?_
      rw [hcurrent, hreply]
      refine (coming_iff_answered (fun _ he => by cases he) serial').trans ((hanswered j n serial').trans ?_)
      rw [hreply]
      refine or_congr_right ⟨?_, ?_⟩
      · rintro ⟨he, hi, hserial, hwait⟩
        cases he
        exact ⟨⟨hi, hwait⟩, rfl, hserial⟩
      · rintro ⟨⟨hi, hwait⟩, rfl, hserial⟩
        exact ⟨rfl, hi, hserial, hwait⟩
    · refine hfinish False False.elim fun n serial' => ?_
      rw [hcurrent, hreply]
      refine (coming_iff_answered (fun _ he => by cases he) serial').trans ((hanswered j n serial').trans ?_)
      rw [hreply]
      exact or_congr_right (iff_of_false nofun nofun)

/-! ### Runs -/

lemma Sound.app (h : s.Sound busName) {e : AppEvent} {a : App} (ha : (s.apps i).step e = some a) :
    (s.setApp i a).Sound busName := by
  refine ⟨h.courses, h.sent_by, h.started, h.asks, fun j => ?_⟩
  have hside := h.side j
  rw [Imports.side] at hside ⊢
  dsimp only [setApp]
  by_cases hj : j = i
  · subst hj
    rw [Function.update_self]
    exact hside.step ha
  · rw [Function.update_of_ne hj]
    exact hside

lemma Sound.step (h : s.Sound busName) (hinj : Function.Injective busName) {e : Event ι} (hfair : Fair s e)
    (ht : s.step lib busName e = some t) : t.Sound busName := by
  cases e with
  | app i e =>
    obtain ⟨a, ha, rfl⟩ := Option.map_eq_some_iff.mp ht
    exact h.app ha
  | serve i src parsed =>
    dsimp only [Imports.step] at ht
    split at ht
    · rename_i serial request rest hcalls hout
      cases request with
      | importPlaylist playlist base => exact h.serve_import hinj hcalls hfair hout ht
      | cancelImport importId => exact h.serve_cancel hcalls hout ht
    · cases ht
  | metadata p reply parsed browseId =>
    dsimp only [Imports.step] at ht
    split at ht
    · rename_i hsome
      obtain ⟨w', sent, hr⟩ := turn_ok ht
      refine h.of_moved hinj hr (h.courses.metadata hsome (fun src q hsrc hq => ?_) hr) ht
      by_cases hlt : q < s.wrapper.brk
      · exact hfair src hsrc q hlt hq
      · cases h.courses.course q with
        | unborn hle hheap hmeta hbrowse hrep =>
          rw [Course.session_none (.unborn hle hheap hmeta hbrowse hrep) hheap] at hq
          cases hq
        | asked _ _ hq' | browsed _ _ _ hq' | stopped _ _ hq' | gone hq' => exact hlt hq'
    · cases ht
  | browseResult p reply =>
    dsimp only [Imports.step] at ht
    split at ht
    · rename_i hsome
      obtain ⟨w', sent, hr⟩ := turn_ok ht
      exact h.of_moved hinj hr (h.courses.browseResult hsome hr) ht
    · cases ht
  | returns =>
    dsimp only [Imports.step] at ht
    split at ht
    · cases ht
    · rename_i hne
      exact h.returns hinj hne ht
  | other e =>
    dsimp only [Imports.step] at ht
    split at ht
    · cases ht
    · split at ht
      · cases ht
      · cases ht
        exact h.other

end Imports

abbrev ImportsReach [DecidableEq ι] (lib : Libmafw) (busName : ι → Client) (d : Daemon) : Imports ι → Prop :=
  Reach (fun s e t => s.step lib busName e = some t) Fair (.init d)

variable [DecidableEq ι] {d : Daemon}

lemma Imports.Sound.of_reach (hinj : Function.Injective busName) (h : ImportsReach lib busName d s) : s.Sound busName :=
  h.invariant _ (sound_init d) fun _ _ _ h hfair ht => h.step hinj hfair ht

lemma GoesOn.of_live {w : Wrapper} {p : Ptr} (h : Courses w) (hlive : Live w p) : GoesOn w (p + 1) := by
  cases h.course p with
  | unborn _ _ hmeta hbrowse | stopped _ _ _ _ _ _ hmeta hbrowse | gone _ _ hmeta hbrowse =>
    rcases hlive with hne | ⟨hne, -⟩
    · exact absurd hbrowse hne
    · exact absurd hmeta hne
  | asked data src _ hheap hid _ hmeta _ _ htable _ =>
    refine ⟨p, data, htable, hheap, hid, .inl ?_⟩
    rw [hmeta]
    exact Option.some_ne_none src
  | browsed data src n _ hheap hid _ _ hbrowse _ _ htable _ =>
    refine ⟨p, data, htable, hheap, hid, .inr ?_⟩
    rw [hbrowse]
    exact Option.some_ne_none (src, n)

/-- In every run each application sees its imports come back in order: the callback of an import is called at
most once, after the id was returned, with the `user_data` of the call that the import was started for and
with what the daemon has reported of it, and not after the import was cancelled. An application that has
looked at all its messages waits only for imports that the daemon is still at work on. -/
theorem imports_call_back_once (hinj : Function.Injective busName) (h : ImportsReach lib busName d s) (i : ι) :
    (∀ n, (stage (s.apps i).seen n).isSome) ∧
      (∀ n serial result, .called n serial result ∈ (s.apps i).seen → s.callOf n = some (i, serial) ∧
        ∃ p args, n = p + 1 ∧ parseImported args = some (n, result) ∧
          .playlistImported (busName i) args ∈ s.wrapper.reports p) ∧
      ((s.apps i).inbox = [] → ∀ n serial, stage (s.apps i).seen n = some (.waiting serial) → GoesOn s.wrapper n) := by
  have hs := Imports.Sound.of_reach hinj h
  have hside := hs.side i
  refine ⟨fun n => ?_, hside.heard, fun hinbox n serial hstage => ?_⟩
  · cases hside.link n with
    | foreign _ hstage | coming _ _ hstage | waiting _ _ hstage | calling _ _ hstage | ended _ _ _ hstage =>
      exact Option.isSome_iff_exists.mpr ⟨_, hstage⟩
  · cases hside.link n with
    | foreign _ hstage' | coming _ _ hstage' | calling _ _ hstage' => cases hstage'.symm.trans hstage
    | ended _ st _ hstage' hst =>
      cases hstage'.symm.trans hstage
      exact absurd rfl (hst serial)
    | waiting serial' _ _ _ _ _ _ halive =>
      have hnil : (s.side i).mail n = [] := by
        rw [mail, Imports.side, hinbox]
        rfl
      rcases halive with hne | ⟨p, rfl, hlive⟩
      · exact absurd hnil hne
      · exact .of_live hs.courses hlive

end

/-- Playlists with a colon are in a source. -/
def byColon : Libmafw :=
  { splitObjectid := fun pl => if 58 ∈ pl then some pl else none, createObjectid := id
    playlistError := fun _ _ => ⟨[], 0, []⟩, mimeContainer := [0] }

def flagName : Bool → Client
  | true => [1]
  | false => [0]

/-- A container and a file are imported by two applications at the same time. The first one starts another
import, and the second one cancels one. -/
def crossedImports : List (Event Bool) :=
  [.app true (.importPlaylist [58] none), .serve true (some 0) noFile, .returns, .app true .receiveReply,
    .app false (.importPlaylist [97] none), .metadata 0 (.ok ⟨none, none⟩) noFile 7, .returns,
    .serve false none ⟨[[98]], true⟩, .app false .receiveReply, .browseResult 0 ⟨0, some [99], none⟩,
    .app true (.importPlaylist [58, 97] none), .serve true (some 0) noFile, .returns, .app true .receiveReply,
    .app true .deliver, .app true .deliver, .app true .deliver, .app true .callbackReturns,
    .app false .deliver, .app false .deliver, .app false (.importPlaylist [58, 98] none),
    .serve false (some 0) noFile, .returns, .app false .receiveReply, .app false (.cancelImport 4)]

/-- What the first application has not looked at, and where the imports are. -/
def Imports.snapshot (s : Imports Bool) : Nat × List (Option Stage) :=
  ((s.apps true).inbox.length,
    [stage (s.apps true).seen 1, stage (s.apps false).seen 2, stage (s.apps true).seen 3, stage (s.apps false).seen 4])

theorem imports_call_back_once_crossed : ∃ s : Imports Bool, ImportsReach byColon flagName Daemon.init s ∧
    stage (s.apps true).seen 1 = some .called ∧ stage (s.apps false).seen 2 = some .called ∧
    stage (s.apps false).seen 4 = some .cancelled ∧ stage (s.apps true).seen 3 = some (.waiting 1) ∧
    GoesOn s.wrapper 3 := by
  have hrun : (runEvents (Imports.step byColon flagName) Fair (.init Daemon.init) crossedImports).map Imports.snapshot =
      some (0, [some .called, some .called, some (.waiting 1), some .cancelled]) := by decide
  obtain ⟨s, hs, hsnap⟩ := Option.map_eq_some_iff.mp hrun
  simp only [Imports.snapshot, Prod.mk.injEq, List.cons.injEq, and_true] at hsnap
  obtain ⟨hinbox, hfirst, hfile, hlast, hcancelled⟩ := hsnap
  have hreach : ImportsReach byColon flagName Daemon.init s := reach_of_runEvents hs
  obtain ⟨-, -, hwaits⟩ := imports_call_back_once (by decide) hreach true
  exact ⟨s, hreach, hfirst, hfile, hcancelled, hlast, hwaits (List.eq_nil_of_length_eq_zero hinbox) 3 1 hlast⟩

end MafwShared.ImportCalls
