import MafwShared.PlaylistManager

/-!
# A client after a restart of the daemon

When the daemon comes back, the manager of a client drops the objects whose playlists are
gone. The loop that does so compares the id of object `i` with `ids[i]` only, and passes over
the object behind one that it has dropped, so that it does its work when the ids come in step
with the objects. `IdsInStep` says when.
-/

namespace MafwShared
open CLib

/-- The signals for the objects that are gone and that the client has a reference to. -/
def destroyedSignals (ids : List Nat) (objects : List ProxyPlaylist) : List Signal :=
  (objects.filter fun o => o.id ∉ ids ∧ 1 < o.refCount).map fun o => .playlistDestroyed o.id

/-- What a restart should leave of a manager: the objects whose ids are still there. -/
def PlaylistManager.reconciled (m : PlaylistManager) (ids : List Nat) : PlaylistManager :=
  { playlists := m.playlists.filter fun o => o.id ∈ ids
    emitted := m.emitted ++ destroyedSignals ids m.playlists }

/-- How many of the objects are still there. -/
def survivors (ids : List Nat) (objects : List ProxyPlaylist) : Nat := objects.countP fun o => o.id ∈ ids

/-- The objects come in step with the ids, when `start` objects stay in front of them: no two
neighbours are gone, each object that is there, if it is not right behind one that is gone, has its
id at the place where it will stand, and the ids reach up to each object that is gone. -/
structure IdsInStep (ids : List Nat) (start : Nat) (objects : List ProxyPlaylist) : Prop where
  apart : ∀ k o o', objects[k]? = some o → objects[k + 1]? = some o' → o.id ∉ ids → o'.id ∈ ids
  placed : ∀ k o, objects[k]? = some o → o.id ∈ ids →
    (∀ j o', k = j + 1 → objects[j]? = some o' → o'.id ∈ ids) →
    ids[start + survivors ids (objects.take k)]? = some o.id
  inRange : ids ≠ [] → ∀ k o, objects[k]? = some o → o.id ∉ ids →
    start + survivors ids (objects.take k) < ids.length

variable {ids : List Nat} {start : Nat} {o o' : ProxyPlaylist} {objects rest : List ProxyPlaylist}

/-! ### Objects in step -/

lemma survivors_cons (o : ProxyPlaylist) (objects : List ProxyPlaylist) :
    survivors ids (o :: objects) = survivors ids objects + if o.id ∈ ids then 1 else 0 := by
  simp [survivors, List.countP_cons]

lemma survivors_append (a b : List ProxyPlaylist) : survivors ids (a ++ b) = survivors ids a + survivors ids b :=
  List.countP_append

lemma survivors_filter (objects : List ProxyPlaylist) :
    survivors ids (objects.filter fun o => o.id ∈ ids) = survivors ids objects := by
  simp [survivors, List.countP_filter]

lemma idsInStep_nil : IdsInStep ids start [] := by
  refine ⟨fun k o o' h => ?_, fun k o h => ?_, fun _ k o h => ?_⟩
  all_goals simp at h

lemma idsInStep_there (ho : o.id ∈ ids) :
    IdsInStep ids start (o :: rest) ↔ ids[start]? = some o.id ∧ IdsInStep ids (start + 1) rest := by
  have hshift : ∀ k, start + survivors ids ((o :: rest).take (k + 1)) =
      start + 1 + survivors ids (rest.take k) := by
    intro k
    rw [List.take_succ_cons, survivors_cons, if_pos ho]
    omega
  constructor
  · intro h
    refine ⟨?_, fun k a b ha hb => h.apart (k + 1) a b ha hb, fun k a ha hmem hprev => ?_, fun hne k a ha hmem => ?_⟩
    · exact h.placed 0 o rfl ho fun j o' hj => absurd hj (Nat.succ_ne_zero j).symm
    · rw [← hshift]
      refine h.placed (k + 1) a ha hmem fun j b hj hb => ?_
      cases Nat.succ.inj hj
      cases k with
      | zero =>
        cases hb
        exact ho
      | succ k => exact hprev k b rfl hb
    · rw [← hshift]
      exact h.inRange hne (k + 1) a ha hmem
  · rintro ⟨hfirst, h⟩
    refine ⟨fun k a b ha hb hmem => ?_, fun k a ha hmem hprev => ?_, fun hne k a ha hmem => ?_⟩
    · cases k with
      | zero =>
        cases ha
        exact absurd ho hmem
      | succ k => exact h.apart k a b ha hb hmem
    · cases k with
      | zero =>
        cases ha
        exact hfirst
      | succ k =>
        rw [hshift]
        refine h.placed k a ha hmem fun j b hj hb => ?_
        exact hprev (j + 1) b (by omega) hb
    · cases k with
      | zero =>
        cases ha
        exact absurd ho hmem
      | succ k =>
        rw [hshift]
        exact h.inRange hne k a ha hmem

lemma idsInStep_gone_last (ho : o.id ∉ ids) : IdsInStep ids start [o] ↔ (ids ≠ [] → start < ids.length) := by
  constructor
  · exact fun h hne => h.inRange hne 0 o rfl ho
  · intro h
    refine ⟨fun k a b ha hb => ?_, fun k a ha hmem => ?_, fun hne k a ha hmem => ?_⟩
    · simp at hb
    · cases k with
      | zero =>
        cases ha
        exact absurd hmem ho
      | succ k => simp at ha
    · cases k with
      | zero => exact h hne
      | succ k => simp at ha

lemma idsInStep_gone (ho : o.id ∉ ids) (ho' : o'.id ∈ ids) :
    IdsInStep ids start (o :: o' :: rest) ↔ (ids ≠ [] → start < ids.length) ∧ IdsInStep ids (start + 1) rest := by
  have hshift : ∀ k, start + survivors ids ((o :: o' :: rest).take (k + 2)) =
      start + 1 + survivors ids (rest.take k) := by
    intro k
    rw [List.take_succ_cons, List.take_succ_cons, survivors_cons, survivors_cons, if_neg ho, if_pos ho']
    omega
  constructor
  · intro h
    refine ⟨fun hne => h.inRange hne 0 o rfl ho, fun k a b ha hb => h.apart (k + 2) a b ha hb,
      fun k a ha hmem hprev => ?_, fun hne k a ha hmem => ?_⟩
    · rw [← hshift]
      refine h.placed (k + 2) a ha hmem fun j b hj hb => ?_
      cases Nat.succ.inj hj
      cases k with
      | zero =>
        cases hb
        exact ho'
      | succ k => exact hprev k b rfl hb
    · rw [← hshift]
      exact h.inRange hne (k + 2) a ha hmem
  · rintro ⟨hfirst, h⟩
    refine ⟨fun k a b ha hb hmem => ?_, fun k a ha hmem hprev => ?_, fun hne k a ha hmem => ?_⟩
    · rcases k with _ | _ | k
      · cases hb
        exact ho'
      · cases ha
        exact absurd ho' hmem
      · exact h.apart k a b ha hb hmem
    · rcases k with _ | _ | k
      · cases ha
        exact absurd hmem ho
      · exact absurd (hprev 0 o rfl rfl) ho
      · rw [hshift]
        refine h.placed k a ha hmem fun j b hj hb => ?_
        exact hprev (j + 2) b (by omega) hb
    · rcases k with _ | _ | k
      · exact hfirst hne
      · cases ha
        exact absurd ho' hmem
      · rw [hshift]
        exact h.inRange hne k a ha hmem

/-! ### The loops -/

lemma idListed_none {i : Nat} (h : ids[i]? = none) (id : Nat) {js : Nat} (hjs : 0 < js) :
    PlaylistManager.idListed ids i id js = none := by
  obtain ⟨js, rfl⟩ := Nat.exists_eq_succ_of_ne_zero hjs.ne'
  rw [PlaylistManager.idListed, h]

lemma idListed_some {i x : Nat} (h : ids[i]? = some x) (id : Nat) {js : Nat} (hjs : 0 < js) :
    PlaylistManager.idListed ids i id js = some (decide (x = id)) := by
  induction js with
  | zero => exact absurd hjs (Nat.lt_irrefl 0)
  | succ js ih =>
    rw [PlaylistManager.idListed, h]
    dsimp only
    by_cases hx : x = id
    · rw [if_pos hx, decide_eq_true hx]
    · rw [if_neg hx]
      cases js with
      | zero => rw [PlaylistManager.idListed, decide_eq_false hx]
      | succ js => exact ih (Nat.succ_pos js)

section
variable {rounds i : Nat} {m m' : PlaylistManager}

lemma dropMissing_end (h : m.playlists[i]? = none) :
    PlaylistManager.dropMissing ids rounds i m = some m := by
  cases rounds with
  | zero => rfl
  | succ rounds => rw [PlaylistManager.dropMissing, h]

lemma dropMissing_stop (h : m.playlists[i]? = some o)
    (hl : PlaylistManager.idListed ids i o.id ids.length = none) :
    PlaylistManager.dropMissing ids (rounds + 1) i m = none := by
  rw [PlaylistManager.dropMissing, h]
  dsimp only
  rw [hl]

lemma dropMissing_keep (h : m.playlists[i]? = some o)
    (hl : PlaylistManager.idListed ids i o.id ids.length = some true) :
    PlaylistManager.dropMissing ids (rounds + 1) i m = PlaylistManager.dropMissing ids rounds (i + 1) m := by
  rw [PlaylistManager.dropMissing, h]
  dsimp only
  rw [hl]

lemma dropMissing_drop (h : m.playlists[i]? = some o)
    (hl : PlaylistManager.idListed ids i o.id ids.length = some false) :
    PlaylistManager.dropMissing ids (rounds + 1) i m =
      PlaylistManager.dropMissing ids rounds (i + 1) (m.removeIndex i o) := by
  rw [PlaylistManager.dropMissing, h]
  dsimp only
  rw [hl]

lemma removeIndex_playlists (m : PlaylistManager) (i : Nat) (o : ProxyPlaylist) :
    (m.removeIndex i o).playlists = m.playlists.eraseIdx i := by
  unfold PlaylistManager.removeIndex PlaylistManager.emit
  split <;> rfl

lemma dropMissing_kept (h : PlaylistManager.dropMissing ids rounds i m = some m') :
    m'.playlists.Sublist m.playlists ∧ ∀ k < i, m'.playlists[k]? = m.playlists[k]? := by
  induction rounds generalizing i m with
  | zero =>
    cases h
    exact ⟨List.Sublist.refl _, fun _ _ => rfl⟩
  | succ rounds ih =>
    cases hget : m.playlists[i]? with
    | none =>
      rw [dropMissing_end hget] at h
      cases h
      exact ⟨List.Sublist.refl _, fun _ _ => rfl⟩
    | some o =>
      cases hl : PlaylistManager.idListed ids i o.id ids.length with
      | none =>
        rw [dropMissing_stop hget hl] at h
        cases h
      | some found =>
        cases found with
        | true =>
          rw [dropMissing_keep hget hl] at h
          obtain ⟨hsub, hkept⟩ := ih h
          exact ⟨hsub, fun k hk => hkept k (hk.trans (Nat.lt_succ_self i))⟩
        | false =>
          rw [dropMissing_drop hget hl] at h
          obtain ⟨hsub, hkept⟩ := ih h
          rw [removeIndex_playlists] at hsub hkept
          refine ⟨hsub.trans (List.eraseIdx_sublist _ _), fun k hk => ?_⟩
          rw [hkept k (hk.trans (Nat.lt_succ_self i)), List.getElem?_eraseIdx_of_lt hk]

/-- The loop has ended when there were as many rounds as objects. -/
theorem dropMissing_rounds (h : m.playlists.length ≤ i + rounds) :
    PlaylistManager.dropMissing ids (rounds + 1) i m = PlaylistManager.dropMissing ids rounds i m := by
  induction rounds generalizing i m with
  | zero =>
    have hnone : m.playlists[i]? = none := List.getElem?_eq_none h
    rw [dropMissing_end hnone, dropMissing_end hnone]
  | succ rounds ih =>
    cases hget : m.playlists[i]? with
    | none => rw [dropMissing_end hget, dropMissing_end hget]
    | some o =>
      cases hl : PlaylistManager.idListed ids i o.id ids.length with
      | none => rw [dropMissing_stop hget hl, dropMissing_stop hget hl]
      | some found =>
        cases found with
        | true =>
          rw [dropMissing_keep hget hl, dropMissing_keep hget hl]
          exact ih (by omega)
        | false =>
          rw [dropMissing_drop hget hl, dropMissing_drop hget hl]
          apply ih
          have hlen : (m.playlists.eraseIdx i).length ≤ m.playlists.length := List.length_eraseIdx_le _ _
          rw [removeIndex_playlists]
          omega

end

/-! ### The handler -/

lemma destroyedSignals_there (ho : o.id ∈ ids) (rest : List ProxyPlaylist) :
    destroyedSignals ids (o :: rest) = destroyedSignals ids rest := by
  simp [destroyedSignals, ho]

lemma destroyedSignals_gone (ho : o.id ∉ ids) (rest : List ProxyPlaylist) :
    destroyedSignals ids (o :: rest) =
      (if 1 < o.refCount then [.playlistDestroyed o.id] else []) ++ destroyedSignals ids rest := by
  by_cases hr : 1 < o.refCount <;> simp [destroyedSignals, ho, hr]

lemma removeIndex_front (done rest : List ProxyPlaylist) (o : ProxyPlaylist) (emitted : List Signal) :
    PlaylistManager.removeIndex ⟨done ++ o :: rest, emitted⟩ done.length o =
      ⟨done ++ rest, emitted ++ if 1 < o.refCount then [.playlistDestroyed o.id] else []⟩ := by
  have herase : (done ++ o :: rest).eraseIdx done.length = done ++ rest := by
    rw [List.eraseIdx_append_of_length_le le_rfl, Nat.sub_self, List.eraseIdx_cons_zero]
  unfold PlaylistManager.removeIndex PlaylistManager.emit
  dsimp only
  rw [herase]
  split
  · rfl
  · rw [List.append_nil]

/-- What one call of the loop should end with, behind the objects that stay. -/
def LeavesExactly (ids : List Nat) (rounds : Nat) (done rest : List ProxyPlaylist) (emitted : List Signal) : Prop :=
  PlaylistManager.dropMissing ids rounds done.length ⟨done ++ rest, emitted⟩ =
    some ⟨done ++ rest.filter (fun o => o.id ∈ ids), emitted ++ destroyedSignals ids rest⟩

/-- A round that drops an object, the rounds behind it being right exactly when what is left is in step. -/
lemma leavesExactly_drop {rounds : Nat} {done rest : List ProxyPlaylist} {emitted : List Signal}
    (ih : ∀ done rest' emitted, rest'.length ≤ rounds →
      (LeavesExactly ids rounds done rest' emitted ↔ IdsInStep ids done.length rest'))
    (hlen : rest.length ≤ rounds) (hl : PlaylistManager.idListed ids done.length o.id ids.length = some false)
    (hfirst : ids[done.length]? ≠ some o.id) (hrange : ids ≠ [] → done.length < ids.length) :
    LeavesExactly ids (rounds + 1) done (o :: rest) emitted ↔ IdsInStep ids done.length (o :: rest) := by
  have hget : (done ++ o :: rest)[done.length]? = some o := by simp
  unfold LeavesExactly
  rw [dropMissing_drop hget hl, removeIndex_front]
  by_cases ho : o.id ∈ ids
  · -- an object that is still there was dropped, and what is left is too short
    constructor
    · intro h
      have hsub : survivors ids (done ++ (o :: rest).filter fun o => o.id ∈ ids) ≤ survivors ids (done ++ rest) :=
        (dropMissing_kept h).1.countP_le
      rw [List.filter_cons_of_pos (by simpa using ho), survivors_append, survivors_append, survivors_cons, if_pos ho,
        survivors_filter] at hsub
      omega
    · exact fun h => absurd ((idsInStep_there ho).mp h).1 hfirst
  · rw [destroyedSignals_gone ho, List.filter_cons_of_neg (by simpa using ho), ← List.append_assoc emitted]
    cases rest with
    | nil =>
      have hend : (done ++ [] : List ProxyPlaylist)[done.length + 1]? = none := by simp
      rw [dropMissing_end hend, idsInStep_gone_last ho]
      exact ⟨fun _ => hrange, fun _ => by simp [destroyedSignals]⟩
    | cons o' rest =>
      by_cases ho' : o'.id ∈ ids
      · have hnext := ih (done ++ [o']) rest
          (emitted ++ if 1 < o.refCount then [.playlistDestroyed o.id] else []) (Nat.le_of_succ_le hlen)
        unfold LeavesExactly at hnext
        rw [List.length_append, List.length_singleton, List.append_assoc, List.append_assoc] at hnext
        rw [destroyedSignals_there ho', List.filter_cons_of_pos (by simpa using ho'), idsInStep_gone ho ho']
        exact hnext.trans ⟨fun h => ⟨hrange, h⟩, fun h => h.2⟩
      · -- the object behind it is passed over although it is gone as well
        constructor
        · intro h
          have hkept := (dropMissing_kept h).2 done.length (Nat.lt_succ_self _)
          dsimp only at hkept
          rw [List.getElem?_append_right le_rfl, List.getElem?_append_right le_rfl, Nat.sub_self,
            List.getElem?_cons_zero] at hkept
          have hmem := (List.mem_filter.mp (List.mem_of_getElem? hkept)).2
          exact absurd (by simpa using hmem) ho'
        · exact fun h => absurd (h.apart 0 o o' rfl rfl ho) ho'

lemma leavesExactly_keep {rounds : Nat} {done rest : List ProxyPlaylist} {emitted : List Signal}
    (ih : ∀ done rest' emitted, rest'.length ≤ rounds →
      (LeavesExactly ids rounds done rest' emitted ↔ IdsInStep ids done.length rest'))
    (hlen : rest.length ≤ rounds) (hx : ids[done.length]? = some o.id) :
    LeavesExactly ids (rounds + 1) done (o :: rest) emitted ↔ IdsInStep ids done.length (o :: rest) := by
  have hget : (done ++ o :: rest)[done.length]? = some o := by simp
  have ho : o.id ∈ ids := List.mem_of_getElem? hx
  have hl := idListed_some hx o.id (List.length_pos_of_mem ho)
  have hnext := ih (done ++ [o]) rest emitted hlen
  unfold LeavesExactly at hnext ⊢
  rw [List.length_append, List.length_singleton, List.append_assoc, List.append_assoc] at hnext
  rw [decide_eq_true rfl] at hl
  rw [dropMissing_keep hget hl, destroyedSignals_there ho, List.filter_cons_of_pos (by simpa using ho),
    idsInStep_there ho]
  exact hnext.trans ⟨fun h => ⟨hx, h⟩, fun h => h.2⟩

lemma leavesExactly_stop {rounds : Nat} {done rest : List ProxyPlaylist} {emitted : List Signal}
    (hne : ids ≠ []) (hx : ids[done.length]? = none) :
    LeavesExactly ids (rounds + 1) done (o :: rest) emitted ↔ IdsInStep ids done.length (o :: rest) := by
  have hget : (done ++ o :: rest)[done.length]? = some o := by simp
  constructor
  · intro h
    unfold LeavesExactly at h
    rw [dropMissing_stop hget (idListed_none hx o.id (List.length_pos_of_ne_nil hne))] at h
    cases h
  · intro h
    by_cases ho : o.id ∈ ids
    · rw [((idsInStep_there ho).mp h).1] at hx
      cases hx
    · have hrange := h.inRange hne 0 o rfl ho
      rw [List.getElem?_eq_none_iff] at hx
      omega

lemma leavesExactly_iff {rounds : Nat} (done rest : List ProxyPlaylist) (emitted : List Signal)
    (hlen : rest.length ≤ rounds) :
    LeavesExactly ids rounds done rest emitted ↔ IdsInStep ids done.length rest := by
  induction rounds generalizing done rest emitted with
  | zero =>
    obtain rfl : rest = [] := List.eq_nil_of_length_eq_zero (Nat.le_zero.mp hlen)
    exact ⟨fun _ => idsInStep_nil, fun _ => by simp [LeavesExactly, PlaylistManager.dropMissing, destroyedSignals]⟩
  | succ rounds ih =>
    cases rest with
    | nil =>
      have hend : (done ++ [] : List ProxyPlaylist)[done.length]? = none := by simp
      refine ⟨fun _ => idsInStep_nil, fun _ => ?_⟩
      unfold LeavesExactly
      rw [dropMissing_end hend]
      simp [destroyedSignals]
    | cons o rest =>
      have hle : rest.length ≤ rounds := Nat.le_of_succ_le_succ hlen
      by_cases hids : ids = []
      · subst hids
        exact leavesExactly_drop ih hle rfl (by simp) fun hne => absurd rfl hne
      · cases hx : ids[done.length]? with
        | none => exact leavesExactly_stop hids hx
        | some x =>
          by_cases hxo : x = o.id
          · exact leavesExactly_keep ih hle (hxo ▸ hx)
          · have hl := idListed_some hx o.id (List.length_pos_of_ne_nil hids)
            rw [decide_eq_false hxo] at hl
            refine leavesExactly_drop ih hle hl ?_ fun _ => ?_
            · rw [hx]
              exact fun he => hxo (Option.some.inj he)
            · exact (List.getElem?_eq_some_iff.mp hx).1

/-- After a restart of the daemon the manager keeps exactly the objects whose ids are still there, tells the
client about the others, and reads nothing outside the array of ids, if and only if its objects come in
step with the ids. Other signals of this name, and a failed query, change nothing. -/
theorem restart_reconciles (m : PlaylistManager) (ids : List Nat) (name newname : Bytes) :
    (name = playlistService → newname ≠ [] →
      (m.nameOwnerChanged name newname (some ids) = some (m.reconciled ids) ↔ IdsInStep ids 0 m.playlists)) ∧
    m.nameOwnerChanged name newname none = some m ∧
    (name ≠ playlistService ∨ newname = [] → m.nameOwnerChanged name newname (some ids) = some m) := by
  refine ⟨fun hname hnew => ?_, ?_, fun h => ?_⟩
  · have hloop : m.nameOwnerChanged name newname (some ids) =
        PlaylistManager.dropMissing ids (m.playlists.length + 1) 0 m := by
      unfold PlaylistManager.nameOwnerChanged
      rw [if_neg (by rw [not_or, not_not]; exact ⟨hname, hnew⟩)]
    rw [hloop]
    exact leavesExactly_iff [] m.playlists m.emitted (Nat.le_succ _)
  · unfold PlaylistManager.nameOwnerChanged
    split <;> rfl
  · unfold PlaylistManager.nameOwnerChanged
    rw [if_pos h]

/-- Of two playlists in use the first one is gone after the restart. -/
theorem restart_reconciles_firstGone :
    PlaylistManager.nameOwnerChanged ⟨[⟨404, 2⟩, ⟨101, 2⟩], []⟩ playlistService [58] (some [101, 303]) =
      some ⟨[⟨101, 2⟩], [.playlistDestroyed 404]⟩ := by
  have hstep : IdsInStep [101, 303] 0 [⟨404, 2⟩, ⟨101, 2⟩] :=
    (idsInStep_gone (by decide) (by decide)).mpr ⟨fun _ => by decide, idsInStep_nil⟩
  exact ((restart_reconciles ⟨[⟨404, 2⟩, ⟨101, 2⟩], []⟩ [101, 303] playlistService [58]).1 rfl (by decide)).mpr hstep

/-- Two playlists that are both still there, in the other order: the first one is dropped. Two that are both
gone: the second one stays. Three of which only the last one is there: the loop reads behind the ids. -/
theorem restart_out_of_step :
    PlaylistManager.nameOwnerChanged ⟨[⟨1, 2⟩, ⟨2, 2⟩], []⟩ playlistService [58] (some [2, 1]) =
      some ⟨[⟨2, 2⟩], [.playlistDestroyed 1]⟩ ∧
    PlaylistManager.nameOwnerChanged ⟨[⟨1, 2⟩, ⟨2, 2⟩], []⟩ playlistService [58] (some []) =
      some ⟨[⟨2, 2⟩], [.playlistDestroyed 1]⟩ ∧
    PlaylistManager.nameOwnerChanged ⟨[⟨1, 2⟩, ⟨2, 2⟩, ⟨3, 2⟩], []⟩ playlistService [58] (some [3]) = none ∧
    PlaylistManager.nameOwnerChanged ⟨[⟨1, 2⟩, ⟨2, 2⟩], []⟩ playlistService [58] (some [2, 1]) ≠
      some (PlaylistManager.reconciled ⟨[⟨1, 2⟩, ⟨2, 2⟩], []⟩ [2, 1]) := by
  refine ⟨rfl, rfl, rfl, fun h => ?_⟩
  exact absurd (congrArg (Option.map PlaylistManager.playlists) h) (by decide)

end MafwShared
