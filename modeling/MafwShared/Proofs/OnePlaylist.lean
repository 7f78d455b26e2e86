import MafwShared.Proofs.Duplicates

/-!
# One playlist among many

What a turn of the daemon's main loop keeps of one playlist, whatever happens to the others. Its
name, its use count and its dirty flag may change in any turn that is not about its items.
-/

namespace MafwShared
open CLib

instance : (e : DaemonEvent) → Decidable e.Creates
  | .create _ _ | .duplicate _ _ _ | .imported _ none => .isTrue trivial
  | .destroy _ _ | .list _ _ | .imported _ (some _) | .playlist _ _ _ | .disconnected _ => .isFalse fun h => h

/-- The daemon has a playlist with this id, and `P` is true of it. -/
def Daemon.Holds (d : Daemon) (id : Nat) (P : Pls → Prop) : Prop := ∃ pls, d.playlistOf id = some pls ∧ P pls

/-- A property that the name, the use count and the dirty flag have no part in. -/
def Intrinsic (P : Pls → Prop) : Prop :=
  ∀ p q : Pls, P p → { q with name := p.name, useCount := p.useCount, dirty := p.dirty } = p → P q

/-- The events that neither edit a playlist nor destroy it, and set no property of it but one that
keeps `P`. -/
structure DaemonEvent.Spares (e : DaemonEvent) (id : Nat) (P : Pls → Prop) : Prop where
  destroy : ∀ sender, e ≠ .destroy sender id
  edit : ∀ sender path m, e = .playlist sender path (.edit m) → atoi path ≠ id
  play : ∀ sender path m, e = .playlist sender path (.play m) → atoi path = id → ∀ p r, P p →
    P (handlePlay sender id p r m).1

section
variable {createObjectid : Bytes → Bytes} {d d' : Daemon} {id : Nat} {P : Pls → Prop}

lemma Daemon.Holds.congr (h : d.Holds id P) (hof : d'.playlistOf id = d.playlistOf id) : d'.Holds id P := by
  obtain ⟨pls, hpls, hP⟩ := h
  exact ⟨pls, hof.trans hpls, hP⟩

lemma Daemon.Holds.write (h : d.Holds id P) {ptr : Ptr} {old new : Pls} (hold : d.heap ptr = some old)
    (hheap : d'.heap = Function.update d.heap ptr (some new)) (hids : d'.playlists = d.playlists)
    (hnew : P old → P new) : d'.Holds id P := by
  obtain ⟨cur, hcur, hP⟩ := h
  obtain ⟨ptr', hl, hcell⟩ := Option.bind_eq_some_iff.mp hcur
  have hof : d'.playlistOf id = Function.update d.heap ptr (some new) ptr' := by
    rw [Daemon.playlistOf, hids, hl, hheap]
    rfl
  by_cases heq : ptr' = ptr
  · subst heq
    rw [hcell] at hold
    cases hold
    rw [Function.update_self] at hof
    exact ⟨new, hof, hnew hP⟩
  · rw [Function.update_of_ne heq, hcell] at hof
    exact ⟨cur, hof, hP⟩

lemma Turned.holds {e : DaemonEvent} {sent : List Sent} (hP : Intrinsic P) (h : d.Holds id P) (hreg : Registry d)
    (hfresh : e.Creates → d.playlists.lookup d.lastId = none) (he : e.Spares id P)
    (ht : Turned createObjectid d e d' sent) : d'.Holds id P := by
  cases ht with
  | kept => exact h
  | @edited sender path m _ _ _ _ hl =>
    exact h.congr (playlistOf_update hreg (he.edit sender path m rfl) hl rfl rfl)
  | @played sender path m ptr old new r _ hl hold hplay =>
    by_cases hid : atoi path = id
    · refine h.write hold rfl rfl fun hold => ?_
      have hafter := he.play sender path m rfl hid old d.draws hold
      rw [← hid, hplay] at hafter
      exact hafter
    · exact h.congr (playlistOf_update hreg hid hl rfl rfl)
  | renamed _ hold => exact h.write hold rfl rfl fun hp => hP _ _ hp rfl
  | incremented _ hold => exact h.write hold rfl rfl fun hp => hP _ _ hp rfl
  | @decremented sender _ ptr old _ hold =>
    obtain ⟨hheap, -, hids, -⟩ := removeUsecountHolder_frame (d.write ptr (plsDecrement old)) sender ptr
    exact h.write hold hheap hids fun hp => hP _ _ hp rfl
  | released hr =>
    apply handleUsecountHolderMsgs_invariant (fun d => d.Holds id P) ?_ ?_ h hr
    · intro d1 ptr old h1 hold
      exact h1.write hold rfl rfl fun hp => hP _ _ hp rfl
    · intro d1 client h1
      exact h1
  | @added _ new _ hf =>
    have hnew : d.playlists.lookup new.id = none := by
      rw [hf.identity.1]
      exact hfresh hf.creates
    obtain ⟨cur, hcur, hP⟩ := h
    exact ⟨cur, (playlistOf_added hreg hnew).2 id cur hcur, hP⟩
  | @removed sender ptr old hold =>
    have hne : old.id ≠ id := fun hid => he.destroy sender (congrArg (DaemonEvent.destroy sender) hid)
    have hl : d.playlists.lookup old.id = some ptr := hreg.byId.lookup hold
    have hfreed : { d with heap := Function.update d.heap ptr none }.playlistOf id = d.playlistOf id :=
      playlistOf_update hreg hne hl rfl rfl
    refine h.congr ?_
    rw [← hfreed]
    unfold Daemon.playlistOf Daemon.removed
    rw [AList.lookup_erase_ne hne.symm]

end

end MafwShared
