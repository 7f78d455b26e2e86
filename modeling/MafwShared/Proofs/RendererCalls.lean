import MafwShared.Proofs.SourceReplies
import MafwShared.RendererCalls

/-!
# Every call of a renderer is called back once

However the clients' calls, the renderer's callbacks and the timeouts follow on each other, the
callback of a call runs at most once, with what the renderer passed to the wrapper for this very
call or with the error of a timeout. When nothing is outstanding it has run.
-/

namespace MafwShared.MafwDbus.RendererCalls
open CLib SourceReplies

/-- The callback on an error. -/
def CallbackType.failed {μ : Type} (error : GError) : CallbackType → Callback μ
  | .playback => .playback (some error)
  | .status => .status none 0 0 none (some error)
  | .position => .position 0 (some error)
  | .metadata => .metadata none none (some error)
  | .property => .property none none (some error)

/-- The playlist that an application is given for the renderer's. -/
def ProxyEnv.playlist {μ : Type} (env : ProxyEnv μ) : Option MafwPlaylist → Option UInt32
  | some (.proxy id) => if id ≠ 0 ∧ env.getPlaylist id = true then some id else none
  | _ => none

/-- The callback that a result of the renderer should lead to. -/
def Result.delivered {μ : Type} (env : ProxyEnv μ) (result : Result μ) : Option GError → Callback μ
  | some error => result.type.failed error
  | none =>
    match result with
    | .playback => .playback none
    | .status pls index state objectId =>
      .status (env.playlist pls) index state (objectId.filter fun oid => oid ≠ []) none
    | .position seconds => .position seconds none
    | .metadata objectId mdata => .metadata (objectId.filter fun oid => oid ≠ []) mdata none
    | .property prop val => .property (some prop) (some val) none

/-- The error of a call that was not answered in time. -/
def RendererCall.timeoutError {μ : Type} (env : ProxyEnv μ) (c : RendererCall) : GError where
  domain := if c.callbackType = .property then env.extensionError else env.rendererError
  code := env.notAvailable
  message := env.noReply.message.getD env.noReply.name

section
variable {μ : Type} {env : ProxyEnv μ} {freeze : Option μ → Bytes}

/-! ### One call -/

lemma handleRendererMsg_message (c : RendererCall) : Wrapper.handleRendererMsg c.message = some c := by
  cases c <;> rfl

/-- Only the playback calls may go without a callback. -/
lemma playback_of_optional {c : RendererCall} (hproperty : c.callbackType ≠ .property)
    (hneeds : ¬c.needsCallback = true) : c.callbackType = .playback := by
  cases c with
  | getProperty name => exact absurd rfl hproperty
  | getStatus => exact absurd rfl hneeds
  | setPosition mode seconds => exact absurd rfl hneeds
  | getPosition => exact absurd rfl hneeds
  | getCurrentMetadata => exact absurd rfl hneeds
  | _ => rfl

lemma objectIdOf_getD (objectId : Option Bytes) :
    Proxy.objectIdOf (objectId.getD []) = objectId.filter fun oid => oid ≠ [] := by
  cases objectId with
  | none => rfl
  | some oid => by_cases h : oid = [] <;> simp [Proxy.objectIdOf, Option.filter, h]

lemma playlist_playlistId (pls : Option MafwPlaylist) :
    (if Wrapper.playlistId pls ≠ 0 ∧ env.getPlaylist (Wrapper.playlistId pls) = true then
      some (Wrapper.playlistId pls) else none) = env.playlist pls := by
  cases pls with
  | none => simp [Wrapper.playlistId, ProxyEnv.playlist]
  | some pls =>
    cases pls with
    | proxy id => rfl
    | inCore => simp [Wrapper.playlistId, ProxyEnv.playlist]

lemma notify_failed {c : RendererCall} {callback : Bool} {reply : Reply} {error : GError}
    (hrenderer : c.callbackType ≠ .property →
      SourceReplies.Proxy.mafwDbusIsError env.notAvailable env.rendererError reply = some (some error))
    (hextension : c.callbackType = .property →
      SourceReplies.Proxy.mafwDbusIsError env.notAvailable env.extensionError reply = some (some error))
    (hcb : callback = false → c.callbackType = .playback) :
    Proxy.notify env callback c reply = some (if callback then [c.callbackType.failed error] else []) := by
  unfold Proxy.notify
  cases hc : c.callbackType with
  | playback =>
    simp only [Proxy.playbackCb, hrenderer (by simp [hc])]
    rfl
  | status =>
    simp only [Proxy.getStatusCb, hrenderer (by simp [hc])]
    rfl
  | position =>
    simp only [Proxy.setGetPositionCb, hrenderer (by simp [hc])]
    rfl
  | metadata =>
    simp only [Proxy.getCurrentMetadataCb, hrenderer (by simp [hc])]
    rfl
  | property =>
    have hcallback : callback = true := by
      cases callback with
      | true => rfl
      | false => simp [hc] at hcb
    simp only [Proxy.gotExtensionProperty, hextension hc, hcallback]
    rfl

lemma notify_reply (hthaw : ∀ m, env.thaw (freeze m) = m) {c : RendererCall} {callback : Bool} {result : Result μ}
    (htype : c.callbackType = result.type) (hcb : callback = false → c.callbackType = .playback)
    {error : Option GError} (herror : ∀ e ∈ error, 58 ∉ e.domain) :
    Proxy.notify env callback c (result.reply freeze error) =
      some (if callback then [result.delivered env error] else []) := by
  cases error with
  | some error =>
    have hreply : result.reply freeze (some error) = .error (mafwDbusGerror error) := by cases result <;> rfl
    have hdomain := herror error rfl
    rw [hreply, notify_failed (fun _ => isError_gerror hdomain) (fun _ => isError_gerror hdomain) hcb, htype]
    rfl
  | none =>
    unfold Proxy.notify
    rw [htype]
    have hcallback : result.type ≠ .playback → callback = true := by
      intro hne
      cases callback with
      | true => rfl
      | false => exact absurd (htype ▸ hcb rfl) hne
    cases result with
    | playback => rfl
    | status pls index state objectId =>
      rw [hcallback (by simp [Result.type])]
      refine Eq.trans (b := some [.status _ index state (Proxy.objectIdOf (objectId.getD [])) none]) rfl ?_
      rw [playlist_playlistId, objectIdOf_getD]
      rfl
    | position seconds =>
      refine Eq.trans (b := some (if callback then [.position seconds.toUInt32.toInt32 none] else [])) rfl ?_
      rw [Int32.toInt32_toUInt32]
      rfl
    | metadata objectId mdata =>
      refine Eq.trans (b := some (if callback then
        [.metadata (Proxy.objectIdOf (objectId.getD [])) (env.thaw (freeze mdata)) none] else [])) rfl ?_
      rw [hthaw, objectIdOf_getD]
      rfl
    | property prop val =>
      rw [hcallback (by simp [Result.type])]
      cases val <;> rfl

/-! ### The calls of a client -/

structure LinkSound (freeze : Option μ → Bytes) (l : Link μ) : Prop where
  sound : l.calls.Sound
  answered : l.calls.answered = l.results.map fun r => (r.1, r.2.1.reply freeze r.2.2)
  typed : ∀ r ∈ l.results, ∃ c, l.calls.made[r.1]? = some c ∧ c.1.callbackType = r.2.1.type
  plain : ∀ r ∈ l.results, ∀ e ∈ r.2.2, 58 ∉ e.domain
  callable : ∀ c ∈ l.calls.made, c.2 = false → c.1.callbackType = .playback

lemma linkSound_init : LinkSound freeze (.init : Link μ) where
  sound := Calls.sound_init
  answered := rfl
  typed := fun _ hr => nomatch hr
  plain := fun _ hr => nomatch hr
  callable := fun _ hc => nomatch hc

namespace LinkSound
variable {l m : Link μ}

lemma call (h : LinkSound freeze l) {c : RendererCall} {callback : Bool} (hs : l.call c callback = some m) :
    LinkSound freeze m := by
  unfold Link.call at hs
  split at hs
  · cases hs
  split at hs
  · cases hs
    exact h
  rename_i hproperty hneeds
  obtain ⟨calls, hcalls, rfl⟩ := Option.map_eq_some_iff.mp hs
  have hsound := h.sound.call hcalls
  cases hcalls
  refine ⟨hsound, h.answered, fun r hr => ?_, h.plain, fun c' hc' => ?_⟩
  · obtain ⟨c', hc', htype⟩ := h.typed r hr
    refine ⟨c', ?_, htype⟩
    rw [List.getElem?_append_left (List.getElem?_eq_some_iff.mp hc').1]
    exact hc'
  · rcases List.mem_append.mp hc' with hc' | hc'
    · exact h.callable c' hc'
    · rw [List.mem_singleton.mp hc']
      rintro (rfl : callback = false)
      exact playback_of_optional (fun hp => hproperty ⟨rfl, hp⟩) fun hn => hneeds ⟨rfl, hn⟩

lemma quiet (h : LinkSound freeze l) {e : CallEvent AsyncCall Reply} {calls : Calls AsyncCall Reply}
    (hs : l.calls.step e = some calls) (hmade : calls.made = l.calls.made)
    (hanswered : calls.answered = l.calls.answered) : LinkSound freeze { l with calls } where
  sound := h.sound.step hs
  answered := hanswered.trans h.answered
  typed := hmade ▸ h.typed
  plain := h.plain
  callable := hmade ▸ h.callable

lemma callBack (h : LinkSound freeze l) {n : Nat} {result : Result μ} {error : Option GError}
    (herror : ∀ e ∈ error, 58 ∉ e.domain) (hs : l.callBack freeze n result error = some m) :
    LinkSound freeze m := by
  unfold Link.callBack at hs
  split at hs
  · cases hs
  rename_i c k hn
  rw [handleRendererMsg_message] at hs
  dsimp only at hs
  split at hs
  · rename_i htype
    obtain ⟨calls, hcalls, rfl⟩ := Option.map_eq_some_iff.mp hs
    have hsound := h.sound.answer hcalls
    have hmade := h.sound.request _ (List.mem_of_getElem? hn)
    dsimp only [Calls.step] at hcalls
    rw [hn] at hcalls
    cases hcalls
    refine ⟨hsound, ?_, fun r hr => ?_, fun r hr => ?_, h.callable⟩
    · rw [h.answered, List.map_append]
      rfl
    · rcases List.mem_append.mp hr with hr | hr
      · exact h.typed r hr
      · rw [List.mem_singleton.mp hr]
        exact ⟨c, hmade, htype⟩
    · rcases List.mem_append.mp hr with hr | hr
      · exact h.plain r hr
      · rw [List.mem_singleton.mp hr]
        exact herror
  · cases hs

lemma called (hthaw : ∀ m, env.thaw (freeze m) = m) (hbus : dbusErrorPrefix.isPrefixOf env.noReply.name = true)
    (h : LinkSound freeze l) {k : Nat} {outcome : Option Reply} (hk : (k, outcome) ∈ l.calls.ended) :
    ∃ c callback called, l.calls.made[k]? = some (c, callback) ∧
      l.callbacks env (k, outcome) = some (if callback then [called] else []) ∧
      (outcome = none ∧ called = c.callbackType.failed (c.timeoutError env) ∨
        ∃ result error, (k, result, error) ∈ l.results ∧ called = result.delivered env error) := by
  have hlt := h.sound.ended_once.2 k (List.mem_map_of_mem hk)
  obtain ⟨⟨c, callback⟩, hc⟩ : ∃ c, l.calls.made[k]? = some c := ⟨_, List.getElem?_eq_getElem hlt⟩
  have hcb : callback = false → c.callbackType = .playback := h.callable (c, callback) (List.mem_of_getElem? hc)
  cases outcome with
  | none =>
    refine ⟨c, callback, _, hc, ?_, .inl ⟨rfl, rfl⟩⟩
    rw [Link.callbacks, hc]
    refine notify_failed (fun hp => ?_) (fun hp => ?_) hcb
    · simp [SourceReplies.Proxy.mafwDbusIsError, mafwDbusErrorToGerror, RendererCall.timeoutError, hbus, hp]
    · simp [SourceReplies.Proxy.mafwDbusIsError, mafwDbusErrorToGerror, RendererCall.timeoutError, hbus, hp]
  | some reply =>
    have hanswered := h.sound.answered_of_ended hk
    rw [h.answered, List.mem_map] at hanswered
    obtain ⟨⟨k', result, error⟩, hr, heq⟩ := hanswered
    obtain ⟨rfl, rfl⟩ := Prod.mk.inj heq
    obtain ⟨c', hc', htype⟩ := h.typed _ hr
    rw [hc] at hc'
    cases hc'
    refine ⟨c, callback, _, hc, ?_, .inr ⟨result, error, hr, rfl⟩⟩
    rw [Link.callbacks, hc]
    exact notify_reply hthaw htype hcb (h.plain _ hr)

end LinkSound

/-! ### All clients -/

variable {ι : Type*} [DecidableEq ι] {w v : World ι μ}

/-- The domains of errors have no colons. -/
def Event.Plain : Event ι μ → Prop
  | .callBack _ _ _ error => ∀ e ∈ error, 58 ∉ e.domain
  | _ => True

instance : (e : Event ι μ) → Decidable e.Plain
  | .callBack _ _ _ error => inferInstanceAs (Decidable (∀ e ∈ error, 58 ∉ e.domain))
  | .call _ _ _ | .handle _ | .receive _ | .timeout _ _ => inferInstanceAs (Decidable True)

lemma linkSound_update (h : ∀ i, LinkSound freeze (w i)) {i : ι} {l : Link μ} (hl : LinkSound freeze l) :
    ∀ j, LinkSound freeze (Function.update w i l j) := by
  intro j
  by_cases hj : j = i
  · rw [hj, Function.update_self]
    exact hl
  · rw [Function.update_of_ne hj]
    exact h j

lemma linkSound_step (h : ∀ i, LinkSound freeze (w i)) {e : Event ι μ} (he : e.Plain)
    (hs : w.step freeze e = some v) : ∀ i, LinkSound freeze (v i) := by
  cases e with
  | call i c callback =>
    obtain ⟨l, hl, rfl⟩ := Option.map_eq_some_iff.mp hs
    exact linkSound_update h ((h i).call hl)
  | callBack i n result error =>
    obtain ⟨l, hl, rfl⟩ := Option.map_eq_some_iff.mp hs
    exact linkSound_update h ((h i).callBack he hl)
  | handle i =>
    obtain ⟨calls, hcalls, rfl⟩ := Option.map_eq_some_iff.mp hs
    refine linkSound_update h ((h i).quiet hcalls ?_ ?_)
    all_goals
      dsimp only [Calls.step] at hcalls
      split at hcalls <;> cases hcalls
      rfl
  | receive i =>
    obtain ⟨calls, hcalls, rfl⟩ := Option.map_eq_some_iff.mp hs
    refine linkSound_update h ((h i).quiet hcalls ?_ ?_)
    all_goals
      dsimp only [Calls.step] at hcalls
      split at hcalls
      · cases hcalls
      · split at hcalls <;> cases hcalls <;> rfl
  | timeout i k =>
    obtain ⟨calls, hcalls, rfl⟩ := Option.map_eq_some_iff.mp hs
    refine linkSound_update h ((h i).quiet hcalls ?_ ?_)
    all_goals
      dsimp only [Calls.step] at hcalls
      split at hcalls <;> cases hcalls
      rfl

abbrev RendererReach (freeze : Option μ → Bytes) : World ι μ → Prop :=
  Reach (fun w e v => World.step freeze w e = some v) (fun _ e => e.Plain) fun _ => .init

/-- In every run the callback of each call runs at most once, with the renderer's own answer to the
call or with the error of a timeout; the renderer answers each call at most once, and is asked for
what was called. When nothing is on its way and the renderer works on nothing, all of the client's
calls have ended. -/
theorem calls_end_once (hthaw : ∀ m, env.thaw (freeze m) = m)
    (hbus : dbusErrorPrefix.isPrefixOf env.noReply.name = true) (h : RendererReach freeze w) (i : ι) :
    ((w i).calls.ended.map Prod.fst).Nodup ∧ ((w i).results.map Prod.fst).Nodup ∧
      (∀ k outcome, (k, outcome) ∈ (w i).calls.ended →
        ∃ c callback called, (w i).calls.made[k]? = some (c, callback) ∧
          (w i).callbacks env (k, outcome) = some (if callback then [called] else []) ∧
          (outcome = none ∧ called = c.callbackType.failed (c.timeoutError env) ∨
            ∃ result error, (k, result, error) ∈ (w i).results ∧ called = result.delivered env error)) ∧
      (∀ c k, (c, k) ∈ (w i).calls.accepted →
        (w i).calls.made[k]? = some c ∧ Wrapper.handleRendererMsg c.1.message = some c.1) ∧
      ((w i).calls.requests = [] → (w i).calls.accepted = [] → (w i).calls.replies = [] →
        ((w i).calls.ended.map Prod.fst).Perm (List.range (w i).calls.made.length)) := by
  have hlink := h.invariant (fun w : World ι μ => ∀ i, LinkSound freeze (w i)) (fun _ => linkSound_init)
    (fun _ _ _ hw he hs => linkSound_step hw he hs) i
  have hkeys : (w i).results.map Prod.fst = (w i).calls.answered.map Prod.fst := by
    rw [hlink.answered, List.map_map]
    rfl
  exact ⟨hlink.sound.ended_once.1, hkeys ▸ hlink.sound.answered_once, fun k outcome hk => hlink.called hthaw hbus hk,
    fun c k hc => ⟨hlink.sound.request (c, k) hc, handleRendererMsg_message c.1⟩, hlink.sound.quiet_ended⟩

end

/-- The error of the bus library, without a text. -/
def noReplyEnv : ProxyEnv Bytes where
  thaw := unmarkBytes
  notAvailable := 3
  rendererError := [114]
  extensionError := [101]
  getPlaylist := fun id => id = 7
  noReply := ⟨dbusErrorPrefix ++ [78], none⟩

/-- Two clients ask for the status; the second one is too late to hear of it. -/
def statusEvents : List (Event Bool Bytes) :=
  [.call true .getStatus true, .call false .getStatus true, .handle false, .handle true, .timeout false 0,
    .callBack false 0 (.status none 0 1 none) none, .callBack true 0 (.status (some (.proxy 7)) 2 1 (some [])) none,
    .receive true, .receive false]

/-- The numbers of the calls that have ended. -/
def World.endedCalls (w : World Bool Bytes) : List Nat × List Nat :=
  ((w true).calls.ended.map Prod.fst, (w false).calls.ended.map Prod.fst)

theorem calls_end_once_status : ∃ w : World Bool Bytes, RendererReach markBytes w ∧
    w.endedCalls = ([0], [0]) ∧ ((w true).calls.ended.map Prod.fst).Nodup ∧
    (∀ outcome, (0, outcome) ∈ (w false).calls.ended →
      ∃ c callback called, (w false).calls.made[0]? = some (c, callback) ∧
        (w false).callbacks noReplyEnv (0, outcome) = some (if callback then [called] else []) ∧
        (outcome = none ∧ called = c.callbackType.failed (c.timeoutError noReplyEnv) ∨
          ∃ result error, (0, result, error) ∈ (w false).results ∧ called = result.delivered noReplyEnv error)) := by
  have hrun : (runEvents (World.step markBytes) (fun _ e => e.Plain) (fun _ => .init) statusEvents).map
      World.endedCalls = some ([0], [0]) := by decide
  obtain ⟨w, hw, hended⟩ := Option.map_eq_some_iff.mp hrun
  have hreach : RendererReach markBytes w := reach_of_runEvents hw
  have hthaw : ∀ m, noReplyEnv.thaw (markBytes m) = m := fun m => by cases m <;> rfl
  refine ⟨w, hreach, hended, (calls_end_once hthaw rfl hreach true).1, fun outcome hk => ?_⟩
  exact (calls_end_once hthaw rfl hreach false).2.2.1 0 outcome hk

end MafwShared.MafwDbus.RendererCalls
