import MafwShared.Lib.Timeouts

/-!
# Buffering signals of an exported renderer

The part of `renderer-wrapper.c` that forwards `buffering-info` and `state-changed`. The
first update is sent at once and starts a timer; while it runs, updates are only remembered,
and the last of them is sent when it expires. A status is a `gfloat` in the source; all that is
asked about one is whether it is `1.0` or `100.0`.
-/

namespace MafwShared.RendererWrapper
open CLib

/-- The constants of the source. -/
structure Statuses (σ : Type) where
  /-- `0.0` -/
  zero : σ
  /-- `1.0` -/
  complete : σ
  /-- `100.0` -/
  hundred : σ
  hundred_ne_zero : hundred ≠ zero
  hundred_ne_complete : hundred ≠ complete

structure BufferingData (σ : Type) where
  bufferingInfoId : Nat
  lastState : σ

/-- What goes to the bus. -/
inductive RendererSignal (σ : Type)
  | stateChanged (state : Int32)
  | bufferingInfo (status : σ)

structure Renderer (σ : Type) where
  bufdata : BufferingData σ
  timeouts : Timeouts Unit

namespace Renderer
variable {σ : Type} [DecidableEq σ] (c : Statuses σ) (ids : IdSupply)

/-- `connect_to_renderer_signals`. -/
def connect : Renderer σ := { bufdata := ⟨0, c.zero⟩, timeouts := .empty }

/-- `_remove_buffering_tout`. -/
def removeBufferingTout (r : Renderer σ) : Renderer σ :=
  if r.bufdata.bufferingInfoId ≠ 0 then
    { bufdata := ⟨0, c.zero⟩, timeouts := (r.timeouts.remove r.bufdata.bufferingInfoId).2 }
  else r

def stateChanged (r : Renderer σ) (state : Int32) : Renderer σ × List (RendererSignal σ) :=
  (r.removeBufferingTout c, [.stateChanged state])

/-- `emit_buffering_info_tout`. -/
def emitBufferingInfoTout (r : Renderer σ) : Renderer σ × List (RendererSignal σ) :=
  ({ r with bufdata := { r.bufdata with bufferingInfoId := 0 } }, [.bufferingInfo r.bufdata.lastState])

def bufferingInfo (r : Renderer σ) (status : σ) : Renderer σ × List (RendererSignal σ) :=
  let (r, sent) :=
    if status ≠ c.hundred ∧ r.bufdata.bufferingInfoId = 0 then
      let (id, timeouts) := r.timeouts.add ids ()
      ({ bufdata := { r.bufdata with bufferingInfoId := id }, timeouts := timeouts }, [.bufferingInfo status])
    else if status = c.complete then (r.removeBufferingTout c, [.bufferingInfo status])
    else (r, [])
  ({ r with bufdata := { r.bufdata with lastState := status } }, sent)

end Renderer

inductive RendererEvent (σ : Type)
  | update (status : σ)
  /-- The main loop dispatches the source with the given id, when it is pending. -/
  | expire (id : Nat)
  | stateChanged (state : Int32)

/-- One event. The callback of a timer returns `FALSE`, which destroys its source. -/
def Renderer.handle {σ : Type} [DecidableEq σ] (c : Statuses σ) (ids : IdSupply) (r : Renderer σ) :
    RendererEvent σ → Renderer σ × List (RendererSignal σ)
  | .update status => r.bufferingInfo c ids status
  | .expire id =>
    match r.timeouts.pending id with
    | none => (r, [])
    | some () =>
      let (r, sent) := r.emitBufferingInfoTout
      ({ r with timeouts := (r.timeouts.remove id).2 }, sent)
  | .stateChanged state => r.stateChanged c state

end MafwShared.RendererWrapper
