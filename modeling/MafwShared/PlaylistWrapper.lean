import MafwShared.Daemon

/-!
# Requests on one playlist

`playlist-wrapper.c`: the methods that a client calls on a playlist's object path, and
the clients' use counts, which the daemon gives back when a client leaves the bus. The
methods that edit the item list and those that look at a playlist or play it touch
nothing but the playlist; the others are written over the whole daemon.
-/

namespace MafwShared
open CLib

/-- The methods that edit the item list. -/
inductive EditMember
  | insertItem (index : Nat) (objectids : List Bytes)
  | appendItem (objectids : List Bytes)
  | removeItem (index : Nat)
  | move (src dst : Nat)
  | clear
  deriving DecidableEq

/-- The methods that look at a playlist, set its modes or play it. `index` of
`get_starting` and `get_last` is what the handler's uninitialised variable holds. -/
inductive PlayMember
  | getName
  | setRepeat (repeatMode : Bool)
  | getRepeat
  | shuffle
  | isShuffled
  | unshuffle
  | getItem (index : Nat)
  | getItems (startIndex endIndex : Nat)
  | getStarting (index : Nat)
  | getLast (index : Nat)
  | getNext (index : Nat)
  | getPrev (index : Nat)
  | getSize

inductive Member
  | edit (m : EditMember)
  | play (m : PlayMember)
  | setName (name : Bytes)
  | incrementUseCount
  | decrementUseCount

/-! ### Signals -/

def sendItemMoved (plid src dst : Nat) : Sent := .signal (.itemMoved plid src dst)

def sendContentsChanged (plid start nremove nreplace : Nat) : Sent :=
  .signal (.contentsChanged plid start nremove nreplace)

def sendPropertyChanged (plid : Nat) (property : Property) : Sent :=
  .signal (.propertyChanged plid property)

/-! ### Methods that need the playlist only -/

/-- `none` when the insertion does not return. -/
def handleEdit (sender : Client) (plid : Nat) (pls : Pls) : EditMember → Option (Pls × List Sent)
  | .insertItem index objectids =>
    (plsInserts pls index objectids).map fun (ok, pls) =>
      let err := if ok then none else some (.invalidIndex, "Wrong index")
      (pls, [ackOrError sender err, sendContentsChanged plid index 0 objectids.length])
  | .appendItem objectids =>
    (plsAppends pls objectids).map fun (ok, pls) =>
      let len := objectids.length
      let err := if ok then none else some (.invalidIndex, "and what now")
      (pls, [ackOrError sender err, sendContentsChanged plid ((2 ^ 32 + pls.len - len) % 2 ^ 32) 0 len])
  | .removeItem index =>
    let (ok, pls) := plsRemove pls index
    if ok then some (pls, [.reply sender [.boolean true], sendContentsChanged plid index 1 0])
    else some (pls, [.error sender .invalidIndex "Wrong index"])
  | .move src dst =>
    let (ok, pls) := plsMove pls src dst
    if ok then some (pls, [.reply sender [.boolean true], sendItemMoved plid src dst])
    else some (pls, [.reply sender [.boolean false]])
  | .clear =>
    let oldlen := pls.len
    some (plsClear pls, [ackOrError sender none, sendContentsChanged plid 0 oldlen 0])

/-- The reply to the four navigation methods. -/
def replyNav (sender : Client) (s : Nav) : Sent :=
  .reply sender [.uint32 s.index, .string (s.oid.getD [])]

def handlePlay (sender : Client) (plid : Nat) (pls : Pls) (r : Draws) :
    PlayMember → Pls × Draws × List Sent
  | .getName => (pls, r, [.reply sender [.string pls.name]])
  | .setRepeat repeatMode =>
    (plsSetRepeat pls (if repeatMode then 1 else 0), r, [sendPropertyChanged plid .repeatMode])
  | .getRepeat => (pls, r, [.reply sender [.boolean (pls.repeatMode ≠ 0)]])
  | .shuffle => (plsShuffle pls, r, [sendPropertyChanged plid .isShuffled, ackOrError sender none])
  | .isShuffled => (pls, r, [.reply sender [.boolean (plsIsShuffled pls ≠ 0)]])
  | .unshuffle => (plsUnshuffle pls, r, [sendPropertyChanged plid .isShuffled, ackOrError sender none])
  | .getItem index => (pls, r, [.reply sender [.string ((plsGetItem pls index).getD [])]])
  | .getItems startIndex endIndex =>
    match plsGetItems pls startIndex endIndex with
    | some oids => (pls, r, [.reply sender [.strings oids]])
    | none => (pls, r, [.error sender .invalidIndex "Wrong index"])
  | .getStarting index =>
    let s := plsGetStarting ⟨pls, r, index, none⟩
    (s.pls, s.draws, [replyNav sender s])
  | .getLast index =>
    let s := plsGetLast ⟨pls, r, index, none⟩
    (s.pls, s.draws, [replyNav sender s])
  | .getNext index =>
    let s := (plsGetNext ⟨pls, r, index, none⟩).2
    (s.pls, s.draws, [replyNav sender s])
  | .getPrev index =>
    let s := (plsGetPrev ⟨pls, r, index, none⟩).2
    (s.pls, s.draws, [replyNav sender s])
  | .getSize => (pls, r, [.reply sender [.uint32 pls.len]])

/-! ### Use counts -/

/-- `_unregister_requestor`. -/
def Daemon.unregisterRequestor (d : Daemon) (requestor : Client) : Daemon :=
  { d with usecountHolders := d.usecountHolders.erase requestor }

/-- `_remove_usecount_holder`. -/
def Daemon.removeUsecountHolder (d : Daemon) (requestor : Client) (p : Ptr) : Daemon :=
  let pllist := ((d.usecountHolders.lookup requestor).getD []).erase p
  if pllist = [] then d.unregisterRequestor requestor
  else { d with usecountHolders := d.usecountHolders.insert requestor pllist }

/-- `_store_usecount_holder`. -/
def Daemon.storeUsecountHolder (d : Daemon) (requestor : Client) (p : Ptr) : Daemon :=
  { d with
    usecountHolders :=
      d.usecountHolders.insert requestor (p :: (d.usecountHolders.lookup requestor).getD []) }

/-- `pls->use_count++` and `pls_set_use_count`. -/
def plsIncrement (pls : Pls) : Pls := plsSetUseCount pls ((pls.useCount + 1) % 2 ^ 32)

/-- `pls->use_count--`, which wraps below zero, and `pls_set_use_count`. -/
def plsDecrement (pls : Pls) : Pls :=
  plsSetUseCount pls (if pls.useCount = 0 then 2 ^ 32 - 1 else pls.useCount - 1)

/-- The loop over the list of a client that has left the bus. -/
def Daemon.releaseAll : List Ptr → Daemon → Except Crash Daemon
  | [], d => .ok d
  | p :: pllist, d => do
    let pls ← d.deref p
    releaseAll pllist (d.write p (plsDecrement pls))

/-- `handle_usecount_holder_msgs` on `NameOwnerChanged`. -/
def Daemon.handleUsecountHolderMsgs (d : Daemon) (oldname newname : Client) : Except Crash Daemon :=
  if newname ≠ [] then .ok d
  else if oldname ≠ [] then
    match d.usecountHolders.lookup oldname with
    | none => .ok d
    | some [] => .ok d
    | some (p :: pllist) => do
      let d ← d.releaseAll (p :: pllist)
      .ok (d.unregisterRequestor oldname)
  else .ok d

/-! ### Dispatch -/

/-- `atoi`, stored in a `guint`. -/
def atoi (s : Bytes) : Nat :=
  match scanInt s with
  | none => 0
  | some (x, _) => (x % 2 ^ 32).toNat

/-- `handle_playlist_request`; `path` is what stands behind the common object path. -/
def handlePlaylistRequest (d : Daemon) (sender : Client) (path : Bytes) (member : Member) :
    Except Crash (Daemon × List Sent) :=
  let plid := atoi path
  if plid = 0 then .ok (d, [])
  else
    match d.playlists.lookup plid with
    | none => .ok (d, [.error sender .playlistNotFound "No such playlist"])
    | some p => do
      let pls ← d.deref p
      match member with
      | .setName name =>
        if (d.playlistsByName.lookup name).isSome then .ok (d, [])
        else
          let oldname := pls.name
          let (ok, pls) := plsSetName false pls name
          if ok then
            let (removed, d) := (d.write p pls).removeName oldname
            if removed then .ok (d.insertName pls.name p, [sendPropertyChanged plid .name])
            else .error .assertion
          else .ok (d, [])
      | .incrementUseCount =>
        let d := d.write p (plsIncrement pls)
        .ok (d.storeUsecountHolder sender p, [ackOrError sender none])
      | .decrementUseCount =>
        let d := d.write p (plsDecrement pls)
        .ok (d.removeUsecountHolder sender p, [ackOrError sender none])
      | .edit m =>
        match handleEdit sender plid pls m with
        | none => .error .noReturn
        | some (pls, sent) => .ok (d.write p pls, sent)
      | .play m =>
        let (pls, r, sent) := handlePlay sender plid pls d.draws m
        .ok ({ d.write p pls with draws := r }, sent)

end MafwShared
