import MafwShared.Lib.ListTable
import MafwShared.Lib.Stdio
import MafwShared.Messages
import Mathlib.Logic.Function.Basic

/-!
# Exported extensions and their activation

`wrapper.c` keeps the list of exported components, `extension-wrapper.c` a counter on each
extension object and, for each client, the list of the extensions that it has activated.
A handler that returns `none` has read an entry of the list after it was freed.
-/

namespace MafwShared.ExtensionWrapper
open CLib

/-- An extension object. Two objects are different even if they live at the same address
one after the other. -/
abbrev Extension := Nat

/-- What `wrapper.c` reads of an `ExportedComponent` again. -/
structure ExportedComponent where
  comp : Extension
  freed : Bool
  deriving DecidableEq

structure Wrapper where
  /-- `Exports`, the front first. -/
  exports : List ExportedComponent
  /-- The data `mafw-refcount` of each object. -/
  mafwRefcount : Extension → Nat
  sourceActivators : AList (fun _ : Client => List Extension)

def Wrapper.init : Wrapper := { exports := [], mafwRefcount := fun _ => 0, sourceActivators := ∅ }

/-- A property and the value that it is set to. -/
inductive Setting
  | activate (value : Bool)
  /-- Another property, or a value that is no boolean. -/
  | other
  deriving DecidableEq

/-- What the wrapper asks of the bus and of the extensions. -/
inductive Call
  | hello (comp : Extension)
  | unregisterObjectPath (comp : Extension)
  | releaseName (comp : Extension)
  | addMatch (name : Client)
  | removeMatch (name : Client)
  | setProperty (comp : Extension) (s : Setting)
  deriving DecidableEq

/-- How far `wrapper_export` gets with a component that is not in `Exports`. -/
inductive ExportResult
  | exported
  /-- Neither source nor renderer, or the bus name is not to be had. -/
  | refused
  /-- The object path is not to be had, after the HELLO signal was sent. -/
  | pathTaken
  deriving DecidableEq

inductive Event
  | added (ext : Extension) (isProxy : Bool) (result : ExportResult)
  | removed (ext : Extension) (isProxy : Bool)
  /-- `accepted` is what `mafw_extension_set_property` returns. -/
  | setProperty (client : Client) (comp : Extension) (s : Setting) (accepted : Bool)
  | nameOwnerChanged (name oldname newname : Bytes)
  deriving DecidableEq

namespace Wrapper

/-- The extensions that a client has activated. -/
def activated (w : Wrapper) (client : Client) : List Extension := listAt w.sourceActivators client

/-- Requests reach the component by its object path. -/
def Exported (w : Wrapper) (comp : Extension) : Prop := ⟨comp, false⟩ ∈ w.exports

instance (w : Wrapper) (comp : Extension) : Decidable (w.Exported comp) :=
  inferInstanceAs (Decidable (⟨comp, false⟩ ∈ w.exports))

/-! ### extension-wrapper.c -/

def increaseMafwcount (w : Wrapper) (object : Extension) : Wrapper :=
  { w with mafwRefcount := Function.update w.mafwRefcount object (w.mafwRefcount object + 1) }

def decreaseMafwcount (w : Wrapper) (object : Extension) : Wrapper × List Call :=
  if w.mafwRefcount object = 0 then (w, [])
  else
    ({ w with mafwRefcount := Function.update w.mafwRefcount object (w.mafwRefcount object - 1) },
      if w.mafwRefcount object - 1 = 0 then [.setProperty object (.activate false)] else [])

/-- The client is watched while it has a list. The first component says whether the request
is a new one. -/
def registerClient (w : Wrapper) (object : Extension) (name : Client) :
    Bool × Wrapper × List Call :=
  if object ∈ w.activated name then (false, w, [])
  else
    (true,
      { w with sourceActivators := w.sourceActivators.insert name (object :: w.activated name) },
      if w.activated name = [] then [.addMatch name] else [])

def removeObjectFromList (w : Wrapper) (objectList : List Extension) (object : Extension)
    (name : Client) : Wrapper × List Call :=
  ({ w with sourceActivators := putList w.sourceActivators name (objectList.erase object) },
    if objectList.erase object = [] then [.removeMatch name] else [])

def unregisterClient (w : Wrapper) (object : Extension) (name : Client) : Wrapper × List Call :=
  if object ∈ w.activated name then
    let r := w.removeObjectFromList (w.activated name) object name
    let r' := r.1.decreaseMafwcount object
    (r'.1, r.2 ++ r'.2)
  else (w, [])

/-- The loop of `_handle_client_exits`, which looks the list up in each round. -/
def unregisterAll (name : Client) : (rounds : Nat) → Wrapper → Wrapper × List Call
  | 0, w => (w, [])
  | rounds + 1, w =>
    match w.activated name with
    | [] => (w, [])
    | object :: _ =>
      let r := w.unregisterClient object name
      let r' := unregisterAll name rounds r.1
      (r'.1, r.2 ++ r'.2)

/-- Each round takes the head off the list, so that there are as many rounds as it is long. -/
def handleClientExits (w : Wrapper) (name oldname newname : Bytes) : Wrapper × List Call :=
  if newname ≠ [] ∨ oldname = [] then (w, [])
  else unregisterAll name (w.activated name).length w

def handleSetProperty (w : Wrapper) (client : Client) (comp : Extension) (s : Setting)
    (accepted : Bool) : Wrapper × List Call :=
  match s with
  | .activate true =>
    if accepted then
      let (isNew, w', calls) := w.registerClient comp client
      (if isNew then w'.increaseMafwcount comp else w', .setProperty comp s :: calls)
    else (w, [.setProperty comp s])
  | .activate false => w.unregisterClient comp client
  | .other => (w, [.setProperty comp s])

/-- `_ext_remover` for each client that `_find_ext` has collected. -/
def removeExtension (comp : Extension) : List Client → Wrapper → Wrapper × List Call
  | [], w => (w, [])
  | uiId :: uiIds, w =>
    let r := w.removeObjectFromList (w.activated uiId) comp uiId
    let r' := removeExtension comp uiIds r.1
    (r'.1, r.2 ++ r'.2)

def extensionDeregister (w : Wrapper) (comp : Extension) : Wrapper × List Call :=
  removeExtension comp (w.sourceActivators.keys.filter fun uiId => comp ∈ w.activated uiId) w

/-! ### wrapper.c -/

/-- A walk along `Exports` that stops at the entry of `comp`. -/
def findExport (comp : Extension) : List ExportedComponent → Option Bool
  | [] => some false
  | ecomp :: rest =>
    if ecomp.freed then none
    else if ecomp.comp = comp then some true
    else findExport comp rest

def wrapperExport (w : Wrapper) (comp : Extension) (result : ExportResult) :
    Option (Wrapper × List Call) :=
  match findExport comp w.exports with
  | none => none
  | some true => some (w, [])
  | some false =>
    match result with
    | .exported => some ({ w with exports := ⟨comp, false⟩ :: w.exports }, [.hello comp])
    | .refused => some (w, [])
    | .pathTaken => some (w, [.hello comp])

/-- Without an entry for `comp` the walk ends on the last one, which is freed and stays in
the list. -/
def wrapperUnexport (w : Wrapper) (comp : Extension) : Option (Wrapper × List Call) :=
  match findExport comp w.exports with
  | none => none
  | some true =>
    let r := { w with exports := w.exports.eraseP fun ecomp => ecomp.comp = comp }.extensionDeregister comp
    some (r.1, .unregisterObjectPath comp :: .releaseName comp :: r.2)
  | some false =>
    match w.exports.getLast? with
    | none => some (w, [])
    | some ecomp =>
      let exports := w.exports.dropLast ++ [{ ecomp with freed := true }]
      let r := { w with exports }.extensionDeregister comp
      some (r.1, .unregisterObjectPath ecomp.comp :: .releaseName ecomp.comp :: r.2)

/-- The added and removed signals of the registry end up in `registry_action`. A request to a
component that is not exported is not delivered. -/
def handle (w : Wrapper) : Event → Option (Wrapper × List Call)
  | .added ext isProxy result => if isProxy then some (w, []) else w.wrapperExport ext result
  | .removed ext isProxy => if isProxy then some (w, []) else w.wrapperUnexport ext
  | .setProperty client comp s accepted =>
    some (if w.Exported comp then w.handleSetProperty client comp s accepted else (w, []))
  | .nameOwnerChanged name oldname newname => some (w.handleClientExits name oldname newname)

end Wrapper
end MafwShared.ExtensionWrapper
