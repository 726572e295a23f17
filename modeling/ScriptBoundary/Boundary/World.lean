import ScriptBoundary.Boundary.CallbackTable
import ScriptBoundary.Boundary.Event
import ScriptBoundary.Boundary.Ledger
import ScriptBoundary.Boundary.Value
import ScriptBoundary.Script.Reachable
import ScriptBoundary.Script.Realm

/-!
# The world

All that the operations of the boundary read and change: the script heap, the instances with their
ledgers and callback tables, the handles, the invocations of host callbacks that are in progress,
and what was dropped and logged so far. The state of the host itself is not in it.

Two things deserve a word.

A handle is a number, and the world remembers what it refers to. Giving it back clears the entry
and the number is never used again, so a handle that was given back refers to nothing: it reads as
undefined, and giving it back once more does nothing.

An operation needs a context. While a callback that was registered on an instance runs, the
instance lends out the context the callback was called in (`lent`); otherwise an operation borrows
the instance's own context (`borrowed`), and nobody else can borrow it meanwhile. A lent context is
not frozen while it is lent: it is used in the state that the calls in progress have left it in
(`current`), with the realm and at the depth of the innermost call that was made in it.
-/

namespace ScriptBoundary.Boundary

open Script (Activation Anchor Heap Limits Ref)

structure Instance where
  /-- The number the platform gave it. -/
  number : Nat
  limits : Limits
  realm : Ref
  ledger : Ledger
  table : CallbackTable
  /-- Data the host attached, by slot. -/
  slots : List (UInt32 × UInt64)
  isLive : Bool
  /-- Where the innermost running callback of this instance was called, if one is running. -/
  lent : Option Activation
  /-- Whether an operation is using the instance's own context. -/
  borrowed : Bool
deriving Inhabited

namespace Instance

/-- The activation in which an operation starts on the instance's own context. -/
def root (i : Instance) (id : InstanceId) (converting : List Ref) : Activation :=
  { context := id, limits := i.limits, realm := i.realm, frames := 0, slots := 0, held := []
    converting }

end Instance

/-- What a handle refers to, and the instance that made it. -/
structure HandleCell where
  value : Script.Value
  owner : InstanceId
deriving Inhabited

/-- A pair of host functions: one is told of the calls of foreign callbacks and one of their end. -/
structure LifecyclePair where
  name : String
deriving DecidableEq, Repr, Inhabited

/-- A host callback that was dropped, the registration it was made in, and the pair that was
told. -/
structure Dropped where
  anchor : Anchor
  callback : Callback
  through : Option LifecyclePair
deriving DecidableEq, Repr

/-- A call of a host callback that has not returned. -/
structure Invocation where
  anchor : Anchor
  activation : Activation
deriving Inhabited

structure World where
  heap : Heap
  platform : Platform
  instances : Array Instance
  handles : Array (Option HandleCell)
  /-- The invocations in progress, innermost first. -/
  inFlight : List Invocation
  /-- Callbacks that were retired while they were running. They are dropped when they return. -/
  orphans : List (Anchor × Callback)
  lifecycle : Option LifecyclePair
  dropped : Array Dropped
  log : Array Event
deriving Inhabited

namespace World

/-- A process in which no instance was ever made. -/
def blank : World := ⟨.empty, .absent, #[], #[], [], [], none, #[], #[]⟩

/-- A process whose platform is up. -/
def started : World := { blank with platform := .ready }

def note (w : World) (e : Event) : World := { w with log := w.log.push e }

/-! ## Instances -/

def instance? (w : World) (i : InstanceId) : Option Instance := w.instances[i]?

/-- An instance, as long as it has not been destroyed. -/
def live? (w : World) (i : InstanceId) : Option Instance := (w.instance? i).filter (·.isLive)

def updateInstance (w : World) (i : InstanceId) (f : Instance → Instance) : World :=
  { w with instances := w.instances.modify i f }

def updateLedger (w : World) (i : InstanceId) (f : Ledger → Ledger) : World :=
  w.updateInstance i fun x => { x with ledger := f x.ledger }

def updateTable (w : World) (i : InstanceId) (f : CallbackTable → CallbackTable) : World :=
  w.updateInstance i fun x => { x with table := f x.table }

/-- Makes an instance. The first one sets the platform up. -/
def newInstance (w : World) (limits : Limits) : InstanceId × World :=
  let fresh := w.platform.gate != .opened
  let (platform, number) := w.platform.enrol
  let w := if fresh then w.note .bootstrapping else w
  let id := w.instances.size
  let (heap, realm) := w.heap.addRealm
  let made : Instance :=
    { number, limits, realm, ledger := .empty, table := .empty, slots := [], isLive := true
      lent := none, borrowed := false }
  let w := { w with heap, platform, instances := w.instances.push made }
  (id, w.note (.created number limits))

/-- An operation begins to use an instance's own context. -/
def borrow (w : World) (i : InstanceId) : World :=
  w.updateInstance i fun x => { x with borrowed := true }

/-- The operation that used an instance's own context has ended. -/
def giveBack (w : World) (i : InstanceId) : World :=
  w.updateInstance i fun x => { x with borrowed := false }

/-- The objects that the innermost call in progress is converting to a primitive. -/
def converting (w : World) : List Ref :=
  ((w.inFlight.head?).map (·.activation.converting)).getD []

/-- The present state of a context. A call in progress has left it where the call was made, in the
realm of the function that was called; without one it is as it was. -/
def current (w : World) (act : Activation) : Activation :=
  match w.inFlight.find? (·.activation.context == act.context) with
  | some v => { v.activation with converting := w.converting }
  | none => act

/-- Whether an operation or a callback of an instance is in progress. -/
def isBusy (w : World) (i : InstanceId) : Bool :=
  (w.instance? i).any (fun x => x.borrowed || x.lent.isSome)
    || w.inFlight.any fun v => v.anchor.owner == i

def slot (w : World) (i : InstanceId) (slot : UInt32) : UInt64 :=
  (((w.instance? i).bind fun x => x.slots.lookup slot)).getD 0

def setSlot (w : World) (i : InstanceId) (slot : UInt32) (data : UInt64) : World :=
  w.updateInstance i fun x =>
    { x with slots := (slot, data) :: x.slots.filter fun s => s.1 != slot }

/-! ## Handles -/

/-- What a handle refers to. -/
def cell? (w : World) (h : Handle) : Option HandleCell := (w.handles[h.id]?).join

/-- The script value behind a handle; undefined if it was given back. -/
def referent (w : World) (h : Handle) : Script.Value :=
  ((w.cell? h).map (·.value)).getD .undefined

/-- Makes a handle to a script value, at the expense of an instance. -/
def newHandle (w : World) (owner : InstanceId) (v : Script.Value) : Handle × World :=
  let h : Handle := ⟨w.handles.size⟩
  let w := { w with handles := w.handles.push (some ⟨v, owner⟩) }
  (h, w.updateLedger owner Ledger.create)

/-- Copies a handle, at the expense of the instance that made it. -/
def cloneHandle (w : World) (h : Handle) : Handle × World :=
  match w.cell? h with
  | none => (h, w)
  | some c =>
    let copy : Handle := ⟨w.handles.size⟩
    let w := { w with handles := w.handles.push (some c) }
    (copy, w.updateLedger c.owner Ledger.clone)

/-- Gives a handle back to the instance that made it. -/
def releaseHandle (w : World) (h : Handle) : World :=
  match w.cell? h with
  | none => w
  | some c =>
    let w := { w with handles := w.handles.setIfInBounds h.id none }
    w.updateLedger c.owner Ledger.release

/-- Gives back the handle a value has. -/
def releaseValue (w : World) (v : Value) : World :=
  match v.handle? with
  | some h => w.releaseHandle h
  | none => w

/-! ## Callbacks -/

/-- The host callback behind an anchor, unless it was retired. -/
def callbackOf (w : World) (a : Anchor) : Option Callback :=
  ((w.live? a.owner).bind fun x => x.table.lookup a.id).map (·.callback)

/-- Tells the host that the callback of a registration is gone. -/
def dropCallback (w : World) (a : Anchor) (c : Callback) : World :=
  match c with
  | .native _ => { w with dropped := w.dropped.push ⟨a, c, none⟩ }
  | .foreign _ context =>
    let w := { w with dropped := w.dropped.push ⟨a, c, w.lifecycle⟩ }
    if w.lifecycle.isNone then w.note (.unclaimed context) else w

/-- Whether a callback is running. -/
def isRunning (w : World) (a : Anchor) : Bool := w.inFlight.any fun v => v.anchor == a

/-- Retires a registration. A callback that is running is dropped when it returns. -/
def retire (w : World) (a : Anchor) (c : Callback) : World :=
  let w := w.updateTable a.owner fun t => t.retire a.id
  if w.isRunning a then { w with orphans := (a, c) :: w.orphans } else w.dropCallback a c

/-- What the collector does about an anchor it found unreachable. -/
def finalize (w : World) (a : Anchor) : World :=
  match w.callbackOf a with
  | none => w
  | some c => (w.note (.finalizing a.id)).retire a c

/-- Retires all registrations of an instance in the order of their numbers. -/
def finalizeAll (w : World) (i : InstanceId) : World :=
  match w.instance? i with
  | none => w
  | some x => x.table.entries.foldl (fun w e => w.retire ⟨i, e.1⟩ e.2.callback) w

/-- A callback begins: the context it was called in is lent to its instance. -/
def enter (w : World) (v : Invocation) : World :=
  { w with inFlight := v :: w.inFlight }.updateInstance v.anchor.owner fun x =>
    { x with lent := some v.activation }

/-- Drops the callback registered as `a` if it waits for that and no invocation of it is left. -/
def dropOrphan (w : World) (a : Anchor) : World :=
  if w.isRunning a then w
  else
    match w.orphans.lookup a with
    | none => w
    | some c => { w with orphans := w.orphans.filter fun o => o.1 != a }.dropCallback a c

/-- A callback returns: its instance gets back what it had lent out before. If the callback was
retired meanwhile and no other invocation of it is left, it is dropped. -/
def leave (w : World) (a : Anchor) (before : Option Activation) : World :=
  ({ w with inFlight := w.inFlight.tail }.updateInstance a.owner fun x =>
    { x with lent := before }).dropOrphan a

/-! ## Collection -/

/-- What the collector starts from: the handles that are out, the realms of the instances that are
alive, and whatever the calls in progress hold. -/
def roots (w : World) : List Ref :=
  (w.handles.toList.flatMap fun c => match c with
    | some c => c.value.links
    | none => [])
  ++ ((w.instances.toList.filter (·.isLive)).map (·.realm))
  ++ w.inFlight.flatMap (·.activation.held)

/-- The anchors of all registrations whose function is not marked. -/
def unmarked (w : World) (met : Array Bool) : List Anchor :=
  w.instances.toList.zipIdx.flatMap fun (x, i) =>
    (x.table.entries.filter fun e => met[e.2.function]? != some true).map fun e => ⟨i, e.1⟩

/-- A pass of the collector, which finalizes every callback whose function is unreachable. -/
def collect (w : World) : World :=
  (w.unmarked (w.heap.mark w.roots)).foldl finalize w

/-- A pass of the collector on behalf of an instance. -/
def collectFor (w : World) (i : InstanceId) : World :=
  match w.instance? i with
  | none => w
  | some before =>
    let w := w.collect
    let after := ((w.instance? i).map (·.table.finalized)).getD 0
    w.note (.collected before.number (after - before.table.finalized))

/-- Settles the account of an instance and lets its realm go. -/
def close (w : World) (i : InstanceId) : World :=
  w.updateInstance i fun x => { x with table := x.table.dispose.1, isLive := false }

/-- Retires the callbacks of an instance and closes it. -/
def shut (w : World) (i : InstanceId) : World := (w.finalizeAll i).close i

/-- Destroys an instance: its callbacks are retired first, then its realm is let go, then the
collector runs. -/
def destroy (w : World) (i : InstanceId) : World :=
  match w.live? i with
  | none => w
  | some x =>
    let count := x.table.live
    let leaked := (((w.finalizeAll i).instance? i).map (·.table.externalBytes)).getD 0
    let w := w.shut i
    let w := if leaked = 0 then w else w.note (.outstanding x.number leaked)
    let w := w.collect
    let live := ((w.instance? i).map (·.ledger.live)).getD 0
    w.note (.destroyed x.number count leaked live)

end World

end ScriptBoundary.Boundary
