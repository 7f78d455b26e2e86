import MafwShared.Proofs.ImportCourses

/-!
# An application and its imports

What an application sees of each import, beside what the daemon is doing with it. An import belongs to
the call that it was started for. Between the reply to this call and the callback's return its request is
in the table, and until the callback is called the import either goes on or was reported.
-/

namespace MafwShared.ImportCalls
open CLib ImportRequests

/-! ### What an application sees -/

/-- Where an application is with an import. -/
inductive Stage
  | unknown
  | waiting (serial : Nat)
  | called
  | cancelled
  deriving DecidableEq

/-- The order in which an application sees something of one import. It can be cancelled in its callback. -/
def Stage.next : Stage → Seen → Option Stage
  | .unknown, .returned _ serial => some (.waiting serial)
  | .waiting serial, .called _ serial' _ => if serial' = serial then some .called else none
  | .waiting _, .cancelled _ | .called, .cancelled _ => some .cancelled
  | _, _ => none

/-- The stage of an import, when everything that was seen of it came in this order. -/
def stage (seen : List Seen) (n : Nat) : Option Stage :=
  (seen.filter fun e => e.importId = n).foldlM Stage.next .unknown

lemma stage_concat {seen : List Seen} {n : Nat} {e : Seen} :
    stage (seen ++ [e]) n = if e.importId = n then (stage seen n).bind fun st => st.next e else stage seen n := by
  unfold stage
  by_cases he : e.importId = n
  · rw [if_pos he, List.filter_append, List.foldlM_append, List.filter_cons_of_pos (by simpa using he)]
    simp
  · rw [if_neg he, List.filter_append, List.filter_cons_of_neg (by simpa using he), List.filter_nil, List.append_nil]

lemma stage_of_ne {seen : List Seen} {n : Nat} {e : Seen} (h : e.importId ≠ n) :
    stage (seen ++ [e]) n = stage seen n := by
  rw [stage_concat, if_neg h]

lemma stage_next {seen : List Seen} {n : Nat} {e : Seen} {st : Stage} (h : e.importId = n)
    (hst : stage seen n = some st) : stage (seen ++ [e]) n = st.next e := by
  rw [stage_concat, if_pos h, hst]
  rfl

/-! ### One application and one import -/

/-- What concerns one application. -/
structure Side (ι : Type*) where
  wrapper : Wrapper
  callOf : Nat → Option (ι × Nat)
  current : Option (ι × Nat)
  app : App

namespace Side
variable {ι : Type*} (busName : ι → Client) (v : Side ι) (i : ι) (n : Nat)

/-- The reply with the id of an import is on its way to the call that waits for it. -/
def Coming (serial : Nat) : Prop :=
  ∃ pl base, v.app.progress = .waiting serial (.importPlaylist pl base) ∧ v.current = some (i, serial) ∧
      v.wrapper.calls.filterMap asking = [(busName i, n)] ∨
    v.app.progress = .answered serial (.importPlaylist pl base) (.importId n)

/-- What the application will be told of an import. -/
def mail : List ImportResult := v.app.inbox.filterMap (resultIn n)

/-- The import was reported. -/
def Told : Prop := ∃ p, n = p + 1 ∧ v.wrapper.reports p ≠ []

def Alive : Prop := v.mail n ≠ [] ∨ ∃ p, n = p + 1 ∧ Live v.wrapper p

def Uncancelled : Prop := ∀ e ∈ v.app.outbox, e.2 ≠ .cancelImport n

/-- An application with an import. -/
inductive Link : Prop
  /-- It is another one's, or nobody's. -/
  | foreign : (∀ serial, v.callOf n ≠ some (i, serial)) → stage v.app.seen n = some .unknown →
      v.app.importRequests n = none → n ∉ v.app.callbacks → v.Uncancelled n →
      (∀ serial, ¬v.Coming busName i n serial) → v.mail n = [] → Link
  | coming (serial : Nat) : v.callOf n = some (i, serial) → stage v.app.seen n = some .unknown →
      v.app.importRequests n = none → n ∉ v.app.callbacks → v.Uncancelled n → v.Coming busName i n serial →
      v.Alive n → Link
  | waiting (serial : Nat) : v.callOf n = some (i, serial) → stage v.app.seen n = some (.waiting serial) →
      v.app.importRequests n = some serial → n ∉ v.app.callbacks → v.Uncancelled n →
      (∀ serial', ¬v.Coming busName i n serial') → v.Alive n → Link
  /-- The callback runs. -/
  | calling (serial : Nat) : v.callOf n = some (i, serial) → stage v.app.seen n = some .called →
      v.app.importRequests n = some serial → n ∈ v.app.callbacks → v.Uncancelled n →
      (∀ serial', ¬v.Coming busName i n serial') → v.mail n = [] → v.Told n → Link
  /-- It is called, cancelled, or was never returned. -/
  | ended (serial : Nat) (st : Stage) : v.callOf n = some (i, serial) → stage v.app.seen n = some st →
      (∀ serial', st ≠ .waiting serial') → v.app.importRequests n = none →
      (∀ serial', ¬v.Coming busName i n serial') → Link

structure Sound : Prop where
  serials : ∀ serial, v.current = some (i, serial) ∨ (∃ r, (serial, r) ∈ v.app.outbox) → serial < v.app.nextSerial
  link : ∀ n, v.Link busName i n
  once : ∀ n, (v.mail n).length ≤ 1
  arrived : ∀ args, .playlistImported args ∈ v.app.inbox → ∃ p result,
    parseImported args = some (p + 1, result) ∧ .playlistImported (busName i) args ∈ v.wrapper.reports p
  heard : ∀ n serial result, .called n serial result ∈ v.app.seen → v.callOf n = some (i, serial) ∧
    ∃ p args, n = p + 1 ∧ parseImported args = some (n, result) ∧
      .playlistImported (busName i) args ∈ v.wrapper.reports p

variable {busName : ι → Client} {v v' : Side ι} {i : ι} {n : Nat}

/-- Nothing has happened to an import. -/
structure Unmoved (busName : ι → Client) (v v' : Side ι) (i : ι) (n : Nat) : Prop where
  callOf : v'.callOf n = v.callOf n
  stage : stage v'.app.seen n = stage v.app.seen n
  entry : v'.app.importRequests n = v.app.importRequests n
  running : n ∈ v'.app.callbacks ↔ n ∈ v.app.callbacks
  cancels : v.Uncancelled n → v'.Uncancelled n
  coming : ∀ serial, v'.Coming busName i n serial ↔ v.Coming busName i n serial
  mail : v'.mail n = v.mail n
  live : ∀ p, n = p + 1 → Live v.wrapper p → Live v'.wrapper p
  told : v.Told n → v'.Told n

lemma Unmoved.alive (hu : Unmoved busName v v' i n) (h : v.Alive n) : v'.Alive n := by
  rcases h with hmail | ⟨p, hp, hlive⟩
  · exact .inl (hu.mail.symm ▸ hmail)
  · exact .inr ⟨p, hp, hu.live p hp hlive⟩

lemma Link.unmoved (h : v.Link busName i n) (hu : Unmoved busName v v' i n) : v'.Link busName i n := by
  have hcoming : (∀ serial, ¬v.Coming busName i n serial) → ∀ serial, ¬v'.Coming busName i n serial :=
    fun hnone serial hc => hnone serial ((hu.coming serial).mp hc)
  cases h with
  | foreign hcall hstage hentry hrun hcancel hnone hmail =>
    exact .foreign (fun serial => hu.callOf ▸ hcall serial) (hu.stage.trans hstage) (hu.entry.trans hentry)
      (hu.running.not.mpr hrun) (hu.cancels hcancel) (hcoming hnone) (hu.mail.trans hmail)
  | coming serial hcall hstage hentry hrun hcancel hc halive =>
    exact .coming serial (hu.callOf.trans hcall) (hu.stage.trans hstage) (hu.entry.trans hentry)
      (hu.running.not.mpr hrun) (hu.cancels hcancel) ((hu.coming serial).mpr hc) (hu.alive halive)
  | waiting serial hcall hstage hentry hrun hcancel hnone halive =>
    exact .waiting serial (hu.callOf.trans hcall) (hu.stage.trans hstage) (hu.entry.trans hentry)
      (hu.running.not.mpr hrun) (hu.cancels hcancel) (hcoming hnone) (hu.alive halive)
  | calling serial hcall hstage hentry hrun hcancel hnone hmail htold =>
    exact .calling serial (hu.callOf.trans hcall) (hu.stage.trans hstage) (hu.entry.trans hentry) (hu.running.mpr hrun)
      (hu.cancels hcancel) (hcoming hnone) (hu.mail.trans hmail) (hu.told htold)
  | ended serial st hcall hstage hst hentry hnone =>
    exact .ended serial st (hu.callOf.trans hcall) (hu.stage.trans hstage) hst (hu.entry.trans hentry) (hcoming hnone)

lemma Link.of_entry (h : v.Link busName i n) {serial : Nat} (he : v.app.importRequests n = some serial) :
    v.callOf n = some (i, serial) ∧ v.Uncancelled n ∧ (∀ serial', ¬v.Coming busName i n serial') ∧
      (stage v.app.seen n = some (.waiting serial) ∧ n ∉ v.app.callbacks ∧ v.Alive n ∨
        stage v.app.seen n = some .called ∧ n ∈ v.app.callbacks ∧ v.mail n = [] ∧ v.Told n) := by
  cases h with
  | foreign _ _ hentry | coming _ _ _ hentry | ended _ _ _ _ _ hentry => cases hentry.symm.trans he
  | waiting serial' hcall hstage hentry hrun hcancel hnone halive =>
    cases hentry.symm.trans he
    exact ⟨hcall, hcancel, hnone, .inl ⟨hstage, hrun, halive⟩⟩
  | calling serial' hcall hstage hentry hrun hcancel hnone hmail htold =>
    cases hentry.symm.trans he
    exact ⟨hcall, hcancel, hnone, .inr ⟨hstage, hrun, hmail, htold⟩⟩

lemma mem_mail {r : ImportResult} : r ∈ v.mail n ↔
    ∃ args, .playlistImported args ∈ v.app.inbox ∧ parseImported args = some (n, r) := by
  rw [mail, List.mem_filterMap]
  constructor
  · rintro ⟨m, hm, hr⟩
    cases m with
    | signal s => cases hr
    | playlistImported args =>
      obtain ⟨⟨k, r'⟩, hparse, hr⟩ := Option.bind_eq_some_iff.mp hr
      dsimp only at hr
      split at hr
      · rename_i hk
        cases hr
        exact ⟨args, hm, hk ▸ hparse⟩
      · cases hr
  · rintro ⟨args, hm, hparse⟩
    refine ⟨_, hm, ?_⟩
    rw [resultIn, hparse, Option.bind_some]
    exact if_pos rfl

lemma Sound.told (h : v.Sound busName i) (hmail : v.mail n ≠ []) : v.Told n := by
  obtain ⟨r, hr⟩ := List.exists_mem_of_ne_nil _ hmail
  obtain ⟨args, hmem, hparse⟩ := mem_mail.mp hr
  obtain ⟨p, result, hparse', hrep⟩ := h.arrived args hmem
  cases hparse.symm.trans hparse'
  exact ⟨p, rfl, List.ne_nil_of_mem hrep⟩

lemma not_coming_of_idle (h : v.app.progress = .idle) (serial : Nat) : ¬v.Coming busName i n serial := by
  rintro ⟨pl, base, ⟨hp, -⟩ | hp⟩
  · cases hp.symm.trans h
  · cases hp.symm.trans h

/-! ### Calls -/

section
variable {w : Wrapper} {callOf : Nat → Option (ι × Nat)} {current : Option (ι × Nat)} {a a' : App}

lemma Sound.mafwDbusCall (h : Sound busName ⟨w, callOf, current, a⟩ i) (hidle : a.progress = .idle) {request : Request}
    (hended : ∀ m, request = .cancelImport m → (∃ serial, callOf m = some (i, serial)) ∧ a.importRequests m = none ∧
      ∃ st, stage a.seen m = some st ∧ ∀ serial, st ≠ .waiting serial) :
    Sound busName ⟨w, callOf, current, a.mafwDbusCall request⟩ i := by
  have hnone : ∀ n serial, ¬Coming busName ⟨w, callOf, current, a.mafwDbusCall request⟩ i n serial := by
    rintro n serial ⟨pl, base, ⟨hp, hcurrent, -⟩ | hp⟩
    · -- the serial is a new one
      cases hp
      exact absurd (h.serials _ (.inl hcurrent)) (Nat.lt_irrefl _)
    · cases hp
  refine ⟨fun serial hs => ?_, fun n => ?_, h.once, h.arrived, h.heard⟩
  · refine Nat.lt_succ_iff_lt_or_eq.mpr ?_
    rcases hs with hcurrent | ⟨r, hr⟩
    · exact .inl (h.serials serial (.inl hcurrent))
    · rcases List.mem_append.mp hr with hr | hr
      · exact .inl (h.serials serial (.inr ⟨r, hr⟩))
      · cases List.mem_singleton.mp hr
        exact .inr rfl
  · by_cases hn : request = .cancelImport n
    · obtain ⟨⟨serial, hcall⟩, hentry, st, hstage, hst⟩ := hended n hn
      exact .ended serial st hcall hstage hst hentry (hnone n)
    · refine (h.link n).unmoved ⟨rfl, rfl, rfl, Iff.rfl, fun hcancel e he => ?_, fun serial => ?_, rfl,
        fun _ _ hlive => hlive, fun htold => htold⟩
      · rcases List.mem_append.mp he with he | he
        · exact hcancel e he
        · rw [List.mem_singleton.mp he]
          exact hn
      · exact iff_of_false (hnone n serial) (not_coming_of_idle hidle serial)

lemma Sound.cancelImport (h : Sound busName ⟨w, callOf, current, a⟩ i) (hidle : a.progress = .idle) (m : Nat) :
    Sound busName ⟨w, callOf, current, a.cancelImport m⟩ i := by
  unfold App.cancelImport
  split
  · exact h
  · rename_i serial hentry
    obtain ⟨hcall, -, -, hstage⟩ := (h.link m).of_entry hentry
    have hst : stage (a.seen ++ [.cancelled m]) m = some .cancelled := by
      rcases hstage with ⟨hstage, -⟩ | ⟨hstage, -⟩ <;> exact stage_next (e := .cancelled m) rfl hstage
    have hgone : Function.update a.importRequests m none m = none := Function.update_self _ _ _
    refine Sound.mafwDbusCall (a := { a with
      importRequests := Function.update a.importRequests m none
      seen := a.seen ++ [.cancelled m] }) ?_ hidle fun m' hm => ?_
    · refine ⟨h.serials, fun n => ?_, h.once, h.arrived, fun n serial result hmem => ?_⟩
      · by_cases hn : n = m
        · subst hn
          exact .ended serial _ hcall hst nofun hgone (not_coming_of_idle hidle)
        · exact (h.link n).unmoved ⟨rfl, stage_of_ne (Ne.symm hn), Function.update_of_ne hn _ _, Iff.rfl, fun hc => hc,
            fun _ => Iff.rfl, rfl, fun _ _ hlive => hlive, fun htold => htold⟩
      · rcases List.mem_append.mp hmem with hmem | hmem
        · exact h.heard n serial result hmem
        · cases List.mem_singleton.mp hmem
    · cases hm
      exact ⟨⟨serial, hcall⟩, hgone, _, hst, nofun⟩

lemma Sound.lapse (h : Sound busName ⟨w, callOf, current, a⟩ i) :
    Sound busName ⟨w, callOf, current, { a with progress := .idle }⟩ i := by
  have hnone : ∀ n serial, ¬Coming busName ⟨w, callOf, current, { a with progress := .idle }⟩ i n serial :=
    fun n => not_coming_of_idle rfl
  refine ⟨h.serials, fun n => ?_, h.once, h.arrived, h.heard⟩
  by_cases hc : ∃ serial, Coming busName ⟨w, callOf, current, a⟩ i n serial
  · obtain ⟨serial, hc⟩ := hc
    cases h.link n with
    | coming serial' hcall hstage hentry => exact .ended serial' _ hcall hstage nofun hentry (hnone n)
    | foreign _ _ _ _ _ hnone' | waiting _ _ _ _ _ _ hnone' | calling _ _ _ _ _ _ hnone' | ended _ _ _ _ _ _ hnone' =>
      exact absurd hc (hnone' serial)
  · refine (h.link n).unmoved ⟨rfl, rfl, rfl, Iff.rfl, fun hcancel => hcancel, fun serial => ?_, rfl,
      fun _ _ hlive => hlive, fun htold => htold⟩
    exact iff_of_false (hnone n serial) fun h => hc ⟨serial, h⟩

lemma Sound.finish (h : Sound busName ⟨w, callOf, current, a⟩ i) {serial : Nat} {request : Request} {reply : Reply}
    (hp : a.progress = .answered serial request reply) :
    Sound busName ⟨w, callOf, current, a.finish serial request reply⟩ i := by
  cases request with
  | cancelImport m => exact h.lapse
  | importPlaylist pl base =>
    cases reply with
    | error err | ack => exact h.lapse
    | importId m =>
      have hnone : ∀ n serial', ¬Coming busName ⟨w, callOf, current, a.finish serial (.importPlaylist pl base)
          (.importId m)⟩ i n serial' := fun n => not_coming_of_idle rfl
      have hc : Coming busName ⟨w, callOf, current, a⟩ i m serial := ⟨pl, base, .inr hp⟩
      refine ⟨h.serials, fun n => ?_, h.once, h.arrived, fun n serial' result hmem => ?_⟩
      · by_cases hn : n = m
        · subst hn
          cases h.link n with
          | coming serial' hcall hstage hentry hrun hcancel hc' halive =>
            obtain rfl : serial' = serial := by
              obtain ⟨pl', base', ⟨hp', -⟩ | hp'⟩ := hc'
              · cases hp'.symm.trans hp
              · cases hp'.symm.trans hp
                rfl
            exact .waiting serial' hcall (stage_next (e := .returned n serial') rfl hstage) (Function.update_self _ _ _)
              hrun hcancel (hnone n) halive
          | foreign _ _ _ _ _ hnone' | waiting _ _ _ _ _ _ hnone' | calling _ _ _ _ _ _ hnone'
          | ended _ _ _ _ _ _ hnone' =>
            exact absurd hc (hnone' serial)
        · refine (h.link n).unmoved ⟨rfl, stage_of_ne (Ne.symm hn), Function.update_of_ne hn _ _, Iff.rfl, fun hc => hc,
            fun serial' => iff_of_false (hnone n serial') ?_, rfl, fun _ _ hlive => hlive, fun htold => htold⟩
          rintro ⟨pl', base', ⟨hp', -⟩ | hp'⟩
          · cases hp'.symm.trans hp
          · cases hp'.symm.trans hp
            exact hn rfl
      · rcases List.mem_append.mp hmem with hmem | hmem
        · exact h.heard n serial' result hmem
        · cases List.mem_singleton.mp hmem

/-! ### Messages -/

lemma Sound.dropMessage (h : Sound busName ⟨w, callOf, current, a⟩ i) {m : Incoming} {rest : List Incoming}
    (hinbox : a.inbox = m :: rest) (hm : ∀ n r, resultIn n m = some r → a.importRequests n = none)
    (hidle : a.progress = .idle) (manager : PlaylistManager) :
    Sound busName ⟨w, callOf, current, { a with inbox := rest, manager }⟩ i := by
  have hmail : ∀ n, mail ⟨w, callOf, current, a⟩ n = (resultIn n m).toList ++ rest.filterMap (resultIn n) := by
    intro n
    rw [mail, hinbox, List.filterMap_cons]
    cases resultIn n m <;> rfl
  refine ⟨h.serials, fun n => ?_, fun n => ?_, fun args hargs => h.arrived args ?_, h.heard⟩
  · cases hr : resultIn n m with
    | none =>
      refine (h.link n).unmoved ⟨rfl, rfl, rfl, Iff.rfl, fun hc => hc, fun _ => Iff.rfl, ?_, fun _ _ hlive => hlive,
        fun htold => htold⟩
      rw [hmail, hr]
      rfl
    | some r =>
      have hne : mail ⟨w, callOf, current, a⟩ n ≠ [] := by
        rw [hmail, hr]
        exact List.cons_ne_nil _ _
      cases h.link n with
      | foreign _ _ _ _ _ _ hnil => exact absurd hnil hne
      | coming serial _ _ _ _ _ hc => exact absurd hc (not_coming_of_idle hidle serial)
      | waiting _ _ _ hentry | calling _ _ _ hentry => cases hentry.symm.trans (hm n r hr)
      | ended serial st hcall hstage hst hentry hnone => exact .ended serial st hcall hstage hst hentry hnone
  · have honce := h.once n
    rw [hmail, List.length_append] at honce
    exact (Nat.le_add_left _ _).trans honce
  · have hmem : Incoming.playlistImported args ∈ rest := hargs
    dsimp only
    rw [hinbox]
    exact List.mem_cons_of_mem m hmem

lemma Sound.call (h : Sound busName ⟨w, callOf, current, a⟩ i) {args : List Arg} {rest : List Incoming} {m serial : Nat}
    {r : ImportResult} (hinbox : a.inbox = .playlistImported args :: rest) (hparse : parseImported args = some (m, r))
    (hentry : a.importRequests m = some serial) (manager : PlaylistManager) :
    Sound busName ⟨w, callOf, current, { a with
      inbox := rest, manager, callbacks := m :: a.callbacks, seen := a.seen ++ [.called m serial r] }⟩ i := by
  have hresult : ∀ n, resultIn n (.playlistImported args) = if m = n then some r else none := by
    intro n
    rw [resultIn, hparse]
    rfl
  have hmail : ∀ n, n ≠ m → mail ⟨w, callOf, current, a⟩ n = rest.filterMap (resultIn n) := by
    intro n hn
    rw [mail, hinbox, List.filterMap_cons_none ((hresult n).trans (if_neg (Ne.symm hn)))]
  have hfirst : mail ⟨w, callOf, current, a⟩ m = r :: rest.filterMap (resultIn m) := by
    rw [mail, hinbox, List.filterMap_cons_some ((hresult m).trans (if_pos rfl))]
  have hlast : rest.filterMap (resultIn m) = [] := by
    have honce := h.once m
    rw [hfirst, List.length_cons] at honce
    exact List.eq_nil_of_length_eq_zero (by omega)
  obtain ⟨hcall, hcancel, hnone, hstage⟩ := (h.link m).of_entry hentry
  refine ⟨h.serials, fun n => ?_, fun n => ?_, fun args' hargs => h.arrived args' ?_, fun n serial' result hmem => ?_⟩
  · by_cases hn : n = m
    · subst hn
      rcases hstage with ⟨hstage, -, -⟩ | ⟨-, -, hnil, -⟩
      · have hcalled : stage (a.seen ++ [.called n serial r]) n = some .called :=
          (stage_next (e := .called n serial r) rfl hstage).trans (if_pos rfl)
        have htold : Told ⟨w, callOf, current, a⟩ n := h.told (hfirst ▸ List.cons_ne_nil _ _)
        exact .calling serial hcall hcalled hentry List.mem_cons_self hcancel hnone hlast htold
      · rw [hfirst] at hnil
        cases hnil
    · refine (h.link n).unmoved ⟨rfl, stage_of_ne (Ne.symm hn), rfl, ?_, fun hc => hc, fun _ => Iff.rfl,
        (hmail n hn).symm, fun _ _ hlive => hlive, fun htold => htold⟩
      exact List.mem_cons.trans (or_iff_right hn)
  · by_cases hn : n = m
    · rw [hn]
      exact (congrArg List.length hlast).trans_le (Nat.zero_le 1)
    · exact (congrArg List.length (hmail n hn)).symm.trans_le (h.once n)
  · dsimp only
    rw [hinbox]
    exact List.mem_cons_of_mem _ hargs
  · rcases List.mem_append.mp hmem with hmem | hmem
    · exact h.heard n serial' result hmem
    · cases List.mem_singleton.mp hmem
      have hin : Incoming.playlistImported args ∈ a.inbox := by
        rw [hinbox]
        exact List.mem_cons_self
      obtain ⟨p, result', hparse', hrep⟩ := h.arrived args hin
      cases hparse.symm.trans hparse'
      exact ⟨hcall, p, args, rfl, hparse, hrep⟩

lemma Sound.callbackReturns (h : Sound busName ⟨w, callOf, current, a⟩ i) {m : Nat} {callbacks : List Nat}
    (hrun : a.callbacks = m :: callbacks) : Sound busName ⟨w, callOf, current, a.callbackReturns m callbacks⟩ i := by
  have hmem : m ∈ a.callbacks := by
    rw [hrun]
    exact List.mem_cons_self
  have hgone : Function.update a.importRequests m none m = none := Function.update_self _ _ _
  refine ⟨h.serials, fun n => ?_, h.once, h.arrived, h.heard⟩
  by_cases hn : n = m
  · subst hn
    cases h.link n with
    | foreign _ _ _ hnot | coming _ _ _ _ hnot | waiting _ _ _ _ hnot => exact absurd hmem hnot
    | calling serial hcall hstage _ _ _ hnone => exact .ended serial _ hcall hstage nofun hgone hnone
    | ended serial st hcall hstage hst _ hnone => exact .ended serial st hcall hstage hst hgone hnone
  · refine (h.link n).unmoved ⟨rfl, rfl, Function.update_of_ne hn _ _, ?_, fun hc => hc, fun _ => Iff.rfl, rfl,
      fun _ _ hlive => hlive, fun htold => htold⟩
    dsimp only
    rw [hrun]
    exact (List.mem_cons.trans (or_iff_right hn)).symm

lemma Sound.step (h : Sound busName ⟨w, callOf, current, a⟩ i) {e : AppEvent} (ha : a.step e = some a') :
    Sound busName ⟨w, callOf, current, a'⟩ i := by
  obtain ⟨manager, importRequests, progress, callbacks, inbox, outbox, nextSerial, seen⟩ := a
  cases progress with
  | idle =>
    cases e with
    | importPlaylist playlist base =>
      dsimp only [App.step, App.importPlaylist] at ha
      split at ha
      · cases ha
      · cases ha
        exact h.mafwDbusCall rfl nofun
    | cancelImport m =>
      cases ha
      exact h.cancelImport rfl m
    | deliver =>
      cases inbox with
      | nil => cases ha
      | cons m rest =>
        cases m with
        | signal s =>
          cases ha
          exact h.dropMessage rfl nofun rfl _
        | playlistImported args =>
          obtain ⟨⟨m, r⟩, hparse, hr⟩ := Option.map_eq_some_iff.mp ha
          subst hr
          dsimp only [App.playlistImported]
          cases hentry : importRequests m with
          | none =>
            refine h.dropMessage rfl (fun n r' hr' => ?_) rfl manager
            rw [resultIn, hparse, Option.bind_some] at hr'
            dsimp only at hr'
            split at hr'
            · rename_i hn
              exact hn ▸ hentry
            · cases hr'
          | some serial => exact h.call rfl hparse hentry _
    | callbackReturns =>
      cases callbacks with
      | nil => cases ha
      | cons m callbacks =>
        cases ha
        exact h.callbackReturns rfl
    | receiveReply | timeout => cases ha
  | waiting serial request =>
    cases e with
    | timeout =>
      cases ha
      exact h.lapse
    | importPlaylist | cancelImport | receiveReply | deliver | callbackReturns => cases ha
  | answered serial request reply =>
    cases e with
    | receiveReply =>
      cases ha
      exact h.finish rfl
    | timeout =>
      cases ha
      exact h.lapse
    | importPlaylist | cancelImport | deliver | callbackReturns => cases ha

/-! ### Turns of the daemon -/

/-- The daemon's messages have arrived, and some of the requests are taken up. -/
structure Hears (a a' : App) (messages : List Incoming) : Prop where
  seen : a'.seen = a.seen
  entries : a'.importRequests = a.importRequests
  callbacks : a'.callbacks = a.callbacks
  nextSerial : a'.nextSerial = a.nextSerial
  outbox : ∀ e ∈ a'.outbox, e ∈ a.outbox
  inbox : a'.inbox = a.inbox ++ messages

variable {w' : Wrapper} {callOf' : Nat → Option (ι × Nat)} {current' : Option (ι × Nat)} {messages : List Incoming}
  {m : Nat}

lemma Hears.mail (hh : Hears a a' messages) (n : Nat) :
    Side.mail ⟨w', callOf', current', a'⟩ n =
      Side.mail ⟨w, callOf, current, a⟩ n ++ messages.filterMap (resultIn n) := by
  rw [Side.mail, Side.mail, hh.inbox, List.filterMap_append]

lemma Sound.of_turn (h : Sound busName ⟨w, callOf, current, a⟩ i) (hh : Hears a a' messages)
    (hspared : ∀ q, q + 1 ≠ m → Spared w w' q) (hreports : ∀ q x, x ∈ w.reports q → x ∈ w'.reports q)
    (hcallOf : ∀ n, n ≠ m → callOf' n = callOf n) (hkept : ∀ x, callOf m = some x → callOf' m = some x)
    (hserials : ∀ serial, current' = some (i, serial) → serial < a.nextSerial)
    (hcoming : ∀ n, n ≠ m → ∀ serial, Coming busName ⟨w', callOf', current', a'⟩ i n serial ↔
      Coming busName ⟨w, callOf, current, a⟩ i n serial)
    (hmessages : ∀ n, n ≠ m → messages.filterMap (resultIn n) = [])
    (hlink : Link busName ⟨w', callOf', current', a'⟩ i m) (honce : (mail ⟨w', callOf', current', a'⟩ m).length ≤ 1)
    (harrived : ∀ args, .playlistImported args ∈ messages → ∃ p result,
      parseImported args = some (p + 1, result) ∧ .playlistImported (busName i) args ∈ w'.reports p) :
    Sound busName ⟨w', callOf', current', a'⟩ i := by
  have hmail : ∀ n, n ≠ m → mail ⟨w', callOf', current', a'⟩ n = mail ⟨w, callOf, current, a⟩ n := by
    intro n hn
    rw [hh.mail, hmessages n hn, List.append_nil]
  refine ⟨fun serial hs => ?_, fun n => ?_, fun n => ?_, fun args hargs => ?_, fun n serial result hmem => ?_⟩
  · dsimp only at hs ⊢
    rw [hh.nextSerial]
    rcases hs with hs | ⟨r, hr⟩
    · exact hserials serial hs
    · exact h.serials serial (.inr ⟨r, hh.outbox _ hr⟩)
  · by_cases hn : n = m
    · rw [hn]
      exact hlink
    · refine (h.link n).unmoved ⟨hcallOf n hn, congrArg (stage · n) hh.seen, congrFun hh.entries n,
        iff_of_eq (congrArg (n ∈ ·) hh.callbacks), fun hc e he => hc e (hh.outbox e he), hcoming n hn, hmail n hn,
        fun p hp hlive => ?_, fun htold => ?_⟩
      · exact (hspared p (hp ▸ hn)).live.mpr hlive
      · obtain ⟨p, hp, hrep⟩ := htold
        exact ⟨p, hp, (hspared p (hp ▸ hn)).reports.symm ▸ hrep⟩
  · by_cases hn : n = m
    · rw [hn]
      exact honce
    · rw [hmail n hn]
      exact h.once n
  · dsimp only at hargs
    rw [hh.inbox] at hargs
    rcases List.mem_append.mp hargs with hargs | hargs
    · obtain ⟨p, result, hparse, hrep⟩ := h.arrived args hargs
      exact ⟨p, result, hparse, hreports p _ hrep⟩
    · exact harrived args hargs
  · dsimp only at hmem
    rw [hh.seen] at hmem
    obtain ⟨hcall, p, args, hp, hparse, hrep⟩ := h.heard n serial result hmem
    refine ⟨?_, p, args, hp, hparse, hreports p _ hrep⟩
    by_cases hn : n = m
    · subst hn
      exact hkept _ hcall
    · exact (hcallOf n hn).trans hcall

lemma Sound.of_idle (h : Sound busName ⟨w, callOf, current, a⟩ i) (hh : Hears a a' messages)
    (hspared : ∀ q, Spared w w' q) (hserials : ∀ serial, current' = some (i, serial) → serial < a.nextSerial)
    (hcoming : ∀ n serial, Coming busName ⟨w', callOf, current', a'⟩ i n serial ↔
      Coming busName ⟨w, callOf, current, a⟩ i n serial)
    (hmessages : ∀ x ∈ messages, ∀ args, x ≠ .playlistImported args) :
    Sound busName ⟨w', callOf, current', a'⟩ i := by
  have hnone : ∀ n, messages.filterMap (resultIn n) = [] := by
    intro n
    rw [List.filterMap_eq_nil_iff]
    intro x hx
    cases x with
    | signal s => rfl
    | playlistImported args => exact absurd rfl (hmessages _ hx args)
  have hmail : ∀ n, mail ⟨w', callOf, current', a'⟩ n = mail ⟨w, callOf, current, a⟩ n := by
    intro n
    rw [hh.mail, hnone, List.append_nil]
  refine h.of_turn (m := 0) hh (fun q _ => hspared q) (fun q x hx => (hspared q).reports.symm ▸ hx) (fun _ _ => rfl)
    (fun _ hx => hx) hserials (fun n _ => hcoming n) (fun n _ => hnone n) ?_ ?_ fun args hargs => ?_
  · exact (h.link 0).unmoved ⟨rfl, congrArg (stage · 0) hh.seen, congrFun hh.entries 0,
      iff_of_eq (congrArg (0 ∈ ·) hh.callbacks), fun hc e he => hc e (hh.outbox e he), hcoming 0, hmail 0,
      fun p hp => (Nat.succ_ne_zero p hp.symm).elim, fun ⟨p, hp, _⟩ => (Nat.succ_ne_zero p hp.symm).elim⟩
  · rw [hmail]
    exact h.once 0
  · exact absurd rfl (hmessages _ hargs args)

variable {sent : List ImportRequests.Sent} {p : Ptr} {i₀ : ι} {serial₀ : Nat}

lemma hears_hear (a : App) (messages : List Incoming) : Hears a (a.hear messages) messages :=
  ⟨rfl, rfl, rfl, rfl, fun _ he => he, rfl⟩

lemma Hears.hear (hh : Hears a a' []) (messages : List Incoming) : Hears a (a'.hear messages) messages := by
  refine ⟨hh.seen, hh.entries, hh.callbacks, hh.nextSerial, hh.outbox, ?_⟩
  rw [← List.append_nil a.inbox, ← hh.inbox]
  rfl

lemma coming_hear (hasks : w'.calls.filterMap asking = w.calls.filterMap asking) (n serial : Nat) :
    Coming busName ⟨w', callOf', current, a.hear messages⟩ i n serial ↔
      Coming busName ⟨w, callOf, current, a⟩ i n serial := by
  unfold Coming
  dsimp only [App.hear]
  rw [hasks]

lemma Sound.of_moved (h : Sound busName ⟨w, callOf, current, a⟩ i) (hinj : Function.Injective busName)
    (howner : callOf (p + 1) = some (i₀, serial₀)) (hm : Moved w w' p (busName i₀) sent)
    (hasks : w'.calls.filterMap asking = w.calls.filterMap asking) :
    Sound busName ⟨w', callOf, current, a.hear (sent.filterMap (incomingOf (busName i)))⟩ i := by
  obtain ⟨hresults, hargs⟩ := hm.results (busName i)
  generalize hmessages : sent.filterMap (incomingOf (busName i)) = messages at hresults hargs ⊢
  have hh := hears_hear a messages
  have hcoming : ∀ n serial, Coming busName ⟨w', callOf, current, a.hear messages⟩ i n serial ↔
      Coming busName ⟨w, callOf, current, a⟩ i n serial := coming_hear hasks
  have hmail : ∀ n, mail ⟨w', callOf, current, a.hear messages⟩ n =
      mail ⟨w, callOf, current, a⟩ n ++ messages.filterMap (resultIn n) := hh.mail
  obtain ⟨hlink, honce⟩ : Link busName ⟨w', callOf, current, a.hear messages⟩ i (p + 1) ∧
      (mail ⟨w', callOf, current, a.hear messages⟩ (p + 1)).length ≤ 1 := by
    by_cases hi : i = i₀
    · subst hi
      have hnone' : (∀ serial, ¬Coming busName ⟨w, callOf, current, a⟩ i (p + 1) serial) →
          ∀ serial, ¬Coming busName ⟨w', callOf, current, a.hear messages⟩ i (p + 1) serial :=
        fun hnone serial hc => hnone serial ((hcoming _ _).mp hc)
      rcases hm.own with ⟨hnil, hrep, hlive⟩ | ⟨result, hresult, hrep⟩
      · rw [hmessages] at hnil
        have hsame := hmail (p + 1)
        rw [hnil, List.append_nil] at hsame
        refine ⟨(h.link (p + 1)).unmoved ⟨rfl, rfl, rfl, Iff.rfl, fun hc => hc, hcoming (p + 1), hsame, ?_, ?_⟩, ?_⟩
        · intro q hq hl
          cases hq
          exact hlive hl
        · rintro ⟨q, hq, hne⟩
          cases hq
          exact ⟨p, rfl, hrep.symm ▸ hne⟩
        · rw [hsame]
          exact h.once (p + 1)
      · rw [hmessages] at hresult
        have huntold : ¬Told ⟨w, callOf, current, a⟩ (p + 1) := by
          rintro ⟨q, hq, hne⟩
          cases hq
          exact hne hrep
        -- the report is the first one
        have hbefore : mail ⟨w, callOf, current, a⟩ (p + 1) = [] := by
          by_contra hne
          exact huntold (h.told hne)
        have hafter := hmail (p + 1)
        rw [hbefore, hresult, List.nil_append] at hafter
        have halive : Alive ⟨w', callOf, current, a.hear messages⟩ (p + 1) := by
          refine .inl ?_
          rw [hafter]
          exact List.cons_ne_nil _ _
        refine ⟨?_, by rw [hafter]; exact le_rfl⟩
        cases h.link (p + 1) with
        | foreign hforeign => exact absurd howner (hforeign serial₀)
        | coming serial hcall hstage hentry hrun hcancel hc _ =>
          exact .coming serial hcall hstage hentry hrun hcancel ((hcoming _ _).mpr hc) halive
        | waiting serial hcall hstage hentry hrun hcancel hnone _ =>
          exact .waiting serial hcall hstage hentry hrun hcancel (hnone' hnone) halive
        | calling _ _ _ _ _ _ _ _ htold => exact absurd htold huntold
        | ended serial st hcall hstage hst hentry hnone =>
          exact .ended serial st hcall hstage hst hentry (hnone' hnone)
    · -- it is no import of this application
      have hne : busName i ≠ busName i₀ := fun he => hi (hinj he)
      have hsame := hmail (p + 1)
      rw [hresults (p + 1) (.inr hne), List.append_nil] at hsame
      have hforeign : ∀ serial, callOf (p + 1) ≠ some (i, serial) := by
        intro serial he
        cases howner.symm.trans he
        exact hi rfl
      cases h.link (p + 1) with
      | foreign _ hstage hentry hrun hcancel hnone hnil =>
        refine ⟨.foreign hforeign hstage hentry hrun hcancel (fun serial hc => hnone serial ((hcoming _ _).mp hc))
          (hsame.trans hnil), ?_⟩
        rw [hsame]
        exact h.once (p + 1)
      | coming serial hcall | waiting serial hcall | calling serial hcall | ended serial _ hcall =>
        exact absurd hcall (hforeign serial)
  refine h.of_turn hh (fun q hq => hm.spared q fun he => hq (congrArg Nat.succ he)) (fun q x hx => hm.reports_mono hx)
    (fun _ _ => rfl) (fun _ hx => hx) (fun serial hs => h.serials serial (.inl hs)) (fun n _ => hcoming n)
    (fun n hn => hresults n (.inl hn)) hlink honce fun args hmem => ?_
  obtain ⟨result, hparse, hrep⟩ := hargs args hmem
  exact ⟨p, result, hparse, hrep⟩

/-! ### Replies -/

lemma hears_answer (a : App) (serial : Nat) (reply : Reply) (hh : Hears a a' messages) :
    Hears a (a'.answer serial reply) messages := by
  unfold App.answer
  split
  · split
    · exact ⟨hh.seen, hh.entries, hh.callbacks, hh.nextSerial, hh.outbox, hh.inbox⟩
    · exact hh
  · exact hh

/-- The reply with the id of an import has arrived. -/
def Answered (a : App) (n serial : Nat) : Prop :=
  ∃ pl base, a.progress = .answered serial (.importPlaylist pl base) (.importId n)

lemma answered_congr (h : a'.progress = a.progress) (n serial : Nat) : Answered a' n serial ↔ Answered a n serial := by
  rw [Answered, Answered, h]

lemma answered_answer {reply : Reply} {n serial : Nat} : Answered (a.answer serial₀ reply) n serial ↔
    Answered a n serial ∨
      reply = .importId n ∧ serial = serial₀ ∧ ∃ pl base, a.progress = .waiting serial₀ (.importPlaylist pl base) := by
  unfold Answered App.answer
  cases hp : a.progress with
  | idle | answered => simp [hp]
  | waiting serial' request =>
    dsimp only
    split
    · rename_i hs
      subst hs
      constructor
      · rintro ⟨pl, base, he⟩
        cases he
        exact .inr ⟨rfl, rfl, pl, base, rfl⟩
      · rintro (⟨pl, base, he⟩ | ⟨rfl, rfl, pl, base, he⟩)
        · cases he
        · cases he
          exact ⟨pl, base, rfl⟩
    · rename_i hs
      refine iff_of_false (fun ⟨pl, base, he⟩ => ?_) ?_
      · cases hp.symm.trans he
      · rintro (⟨pl, base, he⟩ | ⟨-, -, pl, base, he⟩)
        · cases he
        · cases he
          exact hs rfl

/-- When the daemon is not at work on the import of a call, its reply has arrived or does not come. -/
lemma coming_iff_answered (hno : ∀ serial, current = some (i, serial) → w.calls.filterMap asking ≠ [(busName i, n)])
    (serial : Nat) : Coming busName ⟨w, callOf, current, a⟩ i n serial ↔ Answered a n serial := by
  constructor
  · rintro ⟨pl, base, ⟨-, hcurrent, hasks⟩ | hp⟩
    · exact absurd hasks (hno serial hcurrent)
    · exact ⟨pl, base, hp⟩
  · rintro ⟨pl, base, hp⟩
    exact ⟨pl, base, .inr hp⟩

lemma coming_returns (hasks : w.calls.filterMap asking = [(busName i₀, m)])
    (hanswered : ∀ n serial, Answered a' n serial ↔ Answered a n serial ∨ n = m ∧ i = i₀ ∧ serial = serial₀ ∧
      ∃ pl base, a.progress = .waiting serial₀ (.importPlaylist pl base)) (n serial : Nat) :
    Coming busName ⟨w', callOf', none, a'⟩ i n serial ↔
      Coming busName ⟨w, callOf, some (i₀, serial₀), a⟩ i n serial := by
  rw [coming_iff_answered (fun _ h => by cases h), hanswered]
  constructor
  · rintro (⟨pl, base, hp⟩ | ⟨rfl, rfl, rfl, pl, base, hp⟩)
    · exact ⟨pl, base, .inr hp⟩
    · exact ⟨pl, base, .inl ⟨hp, rfl, hasks⟩⟩
  · rintro ⟨pl, base, ⟨hp, hcurrent, hone⟩ | hp⟩
    · cases hcurrent
      cases hasks.symm.trans hone
      exact .inr ⟨rfl, rfl, rfl, pl, base, hp⟩
    · exact .inl ⟨pl, base, hp⟩

lemma coming_asks (hasks : w.calls.filterMap asking = [(busName i₀, m)]) (hp : a'.progress = a.progress)
    (n serial : Nat) :
    Coming busName ⟨w, callOf, some (i₀, serial₀), a'⟩ i n serial ↔ Answered a n serial ∨
      (i = i₀ ∧ ∃ pl base, a.progress = .waiting serial₀ (.importPlaylist pl base)) ∧ n = m ∧ serial = serial₀ := by
  unfold Coming Answered
  dsimp only
  rw [hp, hasks]
  constructor
  · rintro ⟨pl, base, ⟨hwait, hcurrent, hone⟩ | hans⟩
    · cases hcurrent
      cases hone
      exact .inr ⟨⟨rfl, pl, base, hwait⟩, rfl, rfl⟩
    · exact .inl ⟨pl, base, hans⟩
  · rintro (⟨pl, base, hans⟩ | ⟨⟨rfl, pl, base, hwait⟩, rfl, rfl⟩)
    · exact ⟨pl, base, .inr hans⟩
    · exact ⟨pl, base, .inl ⟨hwait, rfl, rfl⟩⟩

/-! ### Requests -/

lemma Sound.of_cancel (h : Sound busName ⟨w, callOf, current, a⟩ i) (hcalls : w.calls = []) (hd : Dropped w w' m)
    (howner : i = i₀ ∧ (∃ e ∈ a.outbox, e.2 = .cancelImport m) ∨ i ≠ i₀ ∧ ∃ serial, callOf m = some (i₀, serial))
    (hreports : sent.filterMap reportIn = []) (hh : Hears a a' (sent.filterMap (incomingOf (busName i))))
    (hanswered : ∀ n serial, Answered a' n serial ↔ Answered a n serial) :
    Sound busName ⟨w', callOf, none, a'⟩ i := by
  have hasks : w.calls.filterMap asking = [] := by rw [hcalls]; rfl
  have hcoming : ∀ n serial, Coming busName ⟨w', callOf, none, a'⟩ i n serial ↔
      Coming busName ⟨w, callOf, current, a⟩ i n serial := by
    intro n serial
    rw [coming_iff_answered (fun _ h => by cases h), coming_iff_answered, hanswered]
    intro serial' _
    rw [hasks]
    exact (List.cons_ne_nil _ _).symm
  have hresults : ∀ n, (sent.filterMap (incomingOf (busName i))).filterMap (resultIn n) = [] := by
    intro n
    rw [results_incomingOf, hreports]
    rfl
  have hmail : ∀ n, mail ⟨w', callOf, none, a'⟩ n = mail ⟨w, callOf, current, a⟩ n := by
    intro n
    exact (hh.mail n).trans (by rw [hresults, List.append_nil])
  have hnone : (∀ serial, ¬Coming busName ⟨w, callOf, current, a⟩ i m serial) →
      ∀ serial, ¬Coming busName ⟨w', callOf, none, a'⟩ i m serial :=
    fun hnone serial hc => hnone serial ((hcoming _ _).mp hc)
  refine h.of_turn (m := m) hh hd.spared (fun q x hx => ?_) (fun _ _ => rfl) (fun _ hx => hx) (fun _ hs => by cases hs)
    (fun n _ => hcoming n) (fun n _ => hresults n) ?_ ?_ fun args hargs => ?_
  · rw [hd.reports]
    exact hx
  · cases h.link m with
    | ended serial st hcall hstage hst hentry hno =>
      exact .ended serial st hcall ((congrArg (stage · m) hh.seen).trans hstage) hst
        ((congrFun hh.entries m).trans hentry) (hnone hno)
    | foreign hforeign hstage hentry hrun hcancel hno hnil =>
      exact .foreign hforeign ((congrArg (stage · m) hh.seen).trans hstage) ((congrFun hh.entries m).trans hentry)
        ((iff_of_eq (congrArg (m ∈ ·) hh.callbacks)).not.mpr hrun) (fun e he => hcancel e (hh.outbox e he)) (hnone hno)
        ((hmail m).trans hnil)
    | coming serial hcall _ _ _ hcancel | waiting serial hcall _ _ _ hcancel | calling serial hcall _ _ _ hcancel =>
      rcases howner with ⟨-, e, he, hrequest⟩ | ⟨hi, serial', hother⟩
      · exact absurd hrequest (hcancel e he)
      · cases hcall.symm.trans hother
        exact absurd rfl hi
  · rw [hmail]
    exact h.once m
  · rw [mem_incomingOf, hreports] at hargs
    cases hargs

/-- The daemon has taken up a request to import: the id that nobody has heard of is given to the call, and when
the reply is not an error the call waits for it. -/
lemma Sound.of_import (h : Sound busName ⟨w, callOf, current, a⟩ i) (hinj : Function.Injective busName)
    (hm : Moved w w' w.brk (busName i₀) sent) (hnew : callOf (w.brk + 1) = none) (hunborn : w.reports w.brk = [])
    (hcallOf : ∀ n, n ≠ w.brk + 1 → callOf' n = callOf n) (howner : callOf' (w.brk + 1) = some (i₀, serial₀))
    (hh : Hears a a' (sent.filterMap (incomingOf (busName i))))
    (hserials : ∀ serial, current' = some (i, serial) → serial < a.nextSerial) {Replies : Prop}
    (hreplies : Replies → i = i₀ ∧ (Live w' w.brk ∨ w'.reports w.brk ≠ []))
    (hcoming : ∀ n serial, Coming busName ⟨w', callOf', current', a'⟩ i n serial ↔
      Coming busName ⟨w, callOf, current, a⟩ i n serial ∨ Replies ∧ n = w.brk + 1 ∧ serial = serial₀) :
    Sound busName ⟨w', callOf', current', a'⟩ i := by
  obtain ⟨hresults, hargs⟩ := hm.results (busName i)
  generalize hmessages : sent.filterMap (incomingOf (busName i)) = messages at hresults hargs hh
  -- nothing was seen of the import so far
  obtain ⟨hstage, hentry, hrun, hcancel, hnone, hnil⟩ : stage a.seen (w.brk + 1) = some .unknown ∧
      a.importRequests (w.brk + 1) = none ∧ w.brk + 1 ∉ a.callbacks ∧
      Uncancelled ⟨w, callOf, current, a⟩ (w.brk + 1) ∧
      (∀ serial, ¬Coming busName ⟨w, callOf, current, a⟩ i (w.brk + 1) serial) ∧
      mail ⟨w, callOf, current, a⟩ (w.brk + 1) = [] := by
    cases h.link (w.brk + 1) with
    | foreign _ hstage hentry hrun hcancel hnone hnil => exact ⟨hstage, hentry, hrun, hcancel, hnone, hnil⟩
    | coming _ hcall | waiting _ hcall | calling _ hcall | ended _ _ hcall => cases hnew.symm.trans hcall
  have hmail : mail ⟨w', callOf', current', a'⟩ (w.brk + 1) = messages.filterMap (resultIn (w.brk + 1)) := by
    exact (hh.mail _).trans (by rw [hnil, List.nil_append])
  have hstage' : stage a'.seen (w.brk + 1) = some .unknown := by rw [hh.seen, hstage]
  have hentry' : a'.importRequests (w.brk + 1) = none := by rw [hh.entries, hentry]
  have hrun' : w.brk + 1 ∉ a'.callbacks := by rwa [hh.callbacks]
  have hcancel' : Uncancelled ⟨w', callOf', current', a'⟩ (w.brk + 1) := fun e he => hcancel e (hh.outbox e he)
  have hsilent : ¬Replies → ∀ serial, ¬Coming busName ⟨w', callOf', current', a'⟩ i (w.brk + 1) serial := by
    intro hno serial hc
    rcases (hcoming _ _).mp hc with hc | ⟨hreply, -⟩
    · exact hnone serial hc
    · exact hno hreply
  obtain ⟨hlink, honce⟩ : Link busName ⟨w', callOf', current', a'⟩ i (w.brk + 1) ∧
      (mail ⟨w', callOf', current', a'⟩ (w.brk + 1)).length ≤ 1 := by
    by_cases hi : i = i₀
    · subst hi
      have hown : (mail ⟨w', callOf', current', a'⟩ (w.brk + 1)).length ≤ 1 ∧
          (Replies → Alive ⟨w', callOf', current', a'⟩ (w.brk + 1)) := by
        rw [Alive, hmail, ← hmessages]
        rcases hm.own with ⟨hnone, hrep, -⟩ | ⟨result, hone, -⟩
        · rw [hnone]
          refine ⟨Nat.zero_le 1, fun hreply => .inr ⟨w.brk, rfl, (hreplies hreply).2.resolve_right ?_⟩⟩
          exact not_not.mpr (hrep.trans hunborn)
        · rw [hone]
          exact ⟨le_rfl, fun _ => .inl (List.cons_ne_nil _ _)⟩
      refine ⟨?_, hown.1⟩
      by_cases hreply : Replies
      · exact .coming serial₀ howner hstage' hentry' hrun' hcancel' ((hcoming _ _).mpr (.inr ⟨hreply, rfl, rfl⟩))
          (hown.2 hreply)
      · exact .ended serial₀ _ howner hstage' nofun hentry' (hsilent hreply)
    · have hnone' : mail ⟨w', callOf', current', a'⟩ (w.brk + 1) = [] := by
        rw [hmail]
        exact hresults _ (.inr fun he => hi (hinj he))
      refine ⟨.foreign (fun serial he => ?_) hstage' hentry' hrun' hcancel'
        (hsilent fun hreply => hi (hreplies hreply).1) hnone', ?_⟩
      · cases howner.symm.trans he
        exact hi rfl
      · rw [hnone']
        exact Nat.zero_le 1
  refine h.of_turn hh (fun q hq => hm.spared q fun he => hq (congrArg Nat.succ he)) (fun q x hx => hm.reports_mono hx)
    hcallOf (fun x hx => by cases hnew.symm.trans hx) hserials (fun n hn serial => ?_)
    (fun n hn => hresults n (.inl hn)) hlink honce fun args hmem => ?_
  · rw [hcoming]
    exact or_iff_left fun hreply => hn hreply.2.1
  · obtain ⟨result, hparse, hrep⟩ := hargs args hmem
    exact ⟨w.brk, result, hparse, hrep⟩

end

end Side

end MafwShared.ImportCalls
