import Mathlib.Logic.Function.Basic
import ScriptBoundary.Proofs.Registry

/-!
# The methods of a callback table, statement by statement

The functions on worlds say what a method of a callback table has done when it is over. While it is
going on, other things may come in between. A pass of the collector may start wherever the script
heap is allocated on, and finalizes registrations of any table. A callback that is dropped runs a
destructor of the host, and that may ask any instance how many callbacks it has. Both come back to
the tables, perhaps to the one whose method has not come to its end.

The entries of a table are therefore guarded. A method that reads them borrows them, one that
changes them borrows them exclusively, and a borrow that conflicts with one that was not given back
is refused. A refusal is no result that a method could deal with, it is the end of the process.

A `Procedure` is a method as the statements that are left of it. The five methods there are follow,
and a `Bench` is a scene with the tasks that are on top of its calls and the guards of all tables.
A `Tick` is what happens next. Who decides about it is free to do what no run does: passes report
any anchors and start between any two moves of a scene, and destructors run there too. He is not
free to have a method do anything but its next statement.

## What is left out

The table of a scene has its entries in the order of their numbers, and the methods keep them so.
Of the counting only the borrow is there: what comes of it is `CallbackTable.live`.
-/

namespace ScriptBoundary.Boundary

open Script (Anchor Ref)

/-! ## Guards -/

/-- Who has borrowed the entries of a table. -/
inductive Guard where
  | free
  /-- So many readers and one more. -/
  | shared (others : Nat)
  | exclusive
deriving DecidableEq, Repr

namespace Guard

/-- One more reader, unless the entries are borrowed exclusively. -/
def borrow : Guard → Option Guard
  | .free => some (.shared 0)
  | .shared n => some (.shared (n + 1))
  | .exclusive => none

/-- An exclusive borrow, unless there is another one. -/
def borrowMut : Guard → Option Guard
  | .free => some .exclusive
  | _ => none

def giveBack : Guard → Guard
  | .shared (n + 1) => .shared n
  | _ => .free

end Guard

/-! ## Procedures -/

/-- What is left of a method of a callback table, statement by statement. -/
inductive Procedure where
  | done
  /-- Takes the next number of the table. -/
  | number (next : Nat → Procedure)
  /-- Allocates on the script heap. A pass of the collector may come before it. -/
  | allocate (next : Procedure)
  /-- Makes the function object of a registration. -/
  | function (realm : Ref) (id : Nat) (next : Ref → Procedure)
  /-- Borrows the entries. -/
  | borrow (next : List (Nat × Registration) → Procedure)
  /-- Borrows the entries exclusively and changes them. It goes on with what they were before. -/
  | borrowMut (change : List (Nat × Registration) → List (Nat × Registration))
      (next : List (Nat × Registration) → Procedure)
  /-- Gives back what it has borrowed. -/
  | giveBack (next : Procedure)
  /-- Puts a registration on the account. -/
  | reserve (next : Procedure)
  /-- Takes a registration off the account and counts it as finalized. -/
  | settle (next : Procedure)
  /-- Looks whether the instance is alive. -/
  | isAlive (next : Bool → Procedure)
  | note (e : Event) (next : Procedure)
  /-- Lets go of the callback of a registration, and its destructor runs if nobody holds it. -/
  | letGo (a : Anchor) (c : Callback) (next : Procedure)
  /-- Calls the host. What follows is up to the host. -/
  | enter (v : Invocation)
  /-- Settles the account of the instance and lets its realm go. -/
  | close (next : Procedure)

namespace Procedure

/-- A callback is registered: its anchor, the weak reference to that and the function object are
allocated before the entries are borrowed. -/
def registering (realm : Ref) (c : Callback) : Procedure :=
  .number fun id =>
  .allocate <| .allocate <| .allocate <|
  .function realm id fun f =>
  .borrowMut (· ++ [(id, ⟨c, f⟩)]) fun _ =>
  .giveBack <|
  .reserve <| .note (.registered id) .done

/-- A script calls a function: its callback is looked up, the arguments are handed over, and the
host is called. Nothing happens if there is no registration any more or its instance is gone. -/
def lookingUp (v : Invocation) : Procedure :=
  .borrow fun es =>
  match es.find? fun e => e.1 == v.anchor.id with
  | none => .giveBack .done
  | some _ => .isAlive fun alive => .giveBack <| if alive then .allocate (.enter v) else .done

/-- The collector reports an anchor. The callback is let go of after the entries were given back. -/
def finalizing (a : Anchor) : Procedure :=
  .borrowMut (·.filter fun e => e.1 != a.id) fun es =>
  .giveBack <|
  match es.find? fun e => e.1 == a.id with
  | none => .done
  | some e => .note (.finalizing a.id) <| .settle <| .letGo a e.2.callback .done

/-- Registrations that were taken out of the table of an instance are settled in their order. -/
def settlingAll (i : InstanceId) : List (Nat × Registration) → Procedure → Procedure
  | [], next => next
  | e :: es, next => .settle <| .letGo ⟨i, e.1⟩ e.2.callback <| settlingAll i es next

/-- An instance ends: all entries are taken out at once, and settled one after the other. The
collector runs when all is over. -/
def tearingDown (i : InstanceId) : Procedure :=
  .borrowMut (fun _ => []) fun es =>
  .giveBack <| settlingAll i es <| .close <| .allocate .done

/-- The live registrations are counted. -/
def counting : Procedure := .borrow fun _ => .giveBack .done

end Procedure

/-! ## The bench -/

namespace World

/-- Lets go of the callback of a registration. One that is running is dropped when it returns. -/
def letGo (w : World) (a : Anchor) (c : Callback) : World :=
  if w.isRunning a then { w with orphans := (a, c) :: w.orphans } else w.dropCallback a c

/-- Makes the function object of a registration. -/
def makeFunction (w : World) (i : InstanceId) (realm : Ref) (id : Nat) : Ref × World :=
  let proto := (w.heap.realm realm).base + Script.Intrinsic.functionPrototype.ctorIdx
  let (heap, function) := w.heap.addHostFunction realm proto hostFunctionProps ⟨i, id⟩
  (function, { w with heap })

end World

/-- What goes on above the calls in progress. -/
inductive Task where
  /-- A method of the table of an instance. -/
  | method (i : InstanceId) (rest : Procedure)
  /-- A pass of the collector, with the anchors that it has still to report. -/
  | pass (left : List Anchor)
  /-- The destructor of a callback. -/
  | destructor

/-- A scene, what goes on above its calls, innermost first, and who has borrowed from which
table. -/
structure Bench where
  scene : Scene
  tasks : List Task
  guards : InstanceId → Guard

/-- Why something does not happen. -/
inductive Mishap where
  /-- It cannot happen now. -/
  | impossible
  /-- The entries of a table were to be borrowed while they were borrowed exclusively. -/
  | borrowed (i : InstanceId)
  /-- The entries of a table were to be borrowed exclusively while they were borrowed. -/
  | borrowedMut (i : InstanceId)
deriving DecidableEq, Repr

/-- What happens next. -/
inductive Tick where
  /-- A move of the scene that is none of the methods'. -/
  | move (m : Move)
  | register (i : InstanceId) (realm : Ref) (c : Callback)
  /-- A script calls a host function. -/
  | call (v : Invocation)
  | shut (i : InstanceId)
  /-- A pass of the collector starts, and will report these anchors. -/
  | collect (as : List Anchor)
  /-- A destructor starts: the last to hold a callback has let go of it. -/
  | destruct
  /-- Somebody asks for the live registrations of an instance. -/
  | query (i : InstanceId)
  /-- What is on top goes on. -/
  | go

/-- Whether a move is made without a method of a table. -/
def Move.isPlain : Move → Bool
  | .enter _ | .change (.register ..) | .change (.finalize _) | .change (.shut _) => false
  | _ => true

namespace Bench

/-- A process in which no instance was ever made. -/
def start (p : Platform) : Bench := ⟨Scene.start p, [], fun _ => .free⟩

def change (b : Bench) (f : World → World) : Bench :=
  { b with scene := { b.scene with world := f b.scene.world } }

def push (b : Bench) (t : Task) : Bench := { b with tasks := t :: b.tasks }

def guard (b : Bench) (i : InstanceId) (g : Guard) : Bench :=
  { b with guards := Function.update b.guards i g }

/-- Carries out the next statement of a method, which is not among the tasks meanwhile. -/
def carryOut (b : Bench) (i : InstanceId) : Procedure → Except Mishap Bench
  | .done => .ok b
  | .number next =>
    let taken := b.change fun w => w.updateTable i fun t => { t with nextId := t.nextId + 1 }
    .ok (taken.push (.method i (next (b.scene.world.table i).nextId)))
  | .allocate next => .ok (b.push (.method i next))
  | .function realm id next =>
    let (f, w) := b.scene.world.makeFunction i realm id
    .ok ((b.change fun _ => w).push (.method i (next f)))
  | .borrow next =>
    match (b.guards i).borrow with
    | none => .error (.borrowed i)
    | some g => .ok ((b.guard i g).push (.method i (next (b.scene.world.table i).entries)))
  | .borrowMut f next =>
    match (b.guards i).borrowMut with
    | none => .error (.borrowedMut i)
    | some g =>
      let changed := b.change fun w => w.updateTable i fun t => { t with entries := f t.entries }
      .ok ((changed.guard i g).push (.method i (next (b.scene.world.table i).entries)))
  | .giveBack next => .ok ((b.guard i (b.guards i).giveBack).push (.method i next))
  | .reserve next =>
    let reserved := b.change fun w => w.updateTable i fun t =>
      { t with externalBytes := t.externalBytes + registrationBytes }
    .ok (reserved.push (.method i next))
  | .settle next =>
    let settled := b.change fun w => w.updateTable i fun t =>
      { t with
        finalized := t.finalized + 1
        externalBytes := t.externalBytes - registrationBytes }
    .ok (settled.push (.method i next))
  | .isAlive next => .ok (b.push (.method i (next (b.scene.world.isAlive i))))
  | .note e next => .ok ((b.change (·.note e)).push (.method i next))
  | .letGo a c next =>
    let gone := (b.change (·.letGo a c)).push (.method i next)
    .ok (if b.scene.world.isRunning a then gone else gone.push .destructor)
  | .enter v =>
    let before := b.scene.world.lentBy v.anchor.owner
    .ok { b with scene := ⟨b.scene.world.enter v, .callback v before :: b.scene.stack⟩ }
  | .close next => .ok ((b.change (·.close i)).push (.method i next))

/-- Whether a pass of the collector can start: not while another one is going on, and of a method
only where it allocates. -/
def mayCollect (b : Bench) : Bool :=
  match b.tasks with
  | [] | .method _ (.allocate _) :: _ => true
  | _ => false

/-- Whether code of the host is running, or code that the host may be behind. -/
def mayQuery (b : Bench) : Bool :=
  match b.tasks with
  | [] | .destructor :: _ => true
  | _ => false

/-- What is on top goes on. -/
def go (b : Bench) : Except Mishap Bench :=
  match b.tasks with
  | [] => .error .impossible
  | .method i r :: rest => { b with tasks := rest }.carryOut i r
  | .pass [] :: rest => .ok { b with tasks := rest }
  | .pass (a :: as) :: rest =>
    .ok { b with tasks := .method a.owner (.finalizing a) :: .pass as :: rest }
  | .destructor :: rest => .ok { b with tasks := rest }

/-- What happens next, if it can happen. -/
def step (b : Bench) : Tick → Except Mishap Bench
  | .move m =>
    if b.tasks.isEmpty && m.isPlain then
      match b.scene.step m with
      | none => .error .impossible
      | some c => .ok { b with scene := c }
    else .error .impossible
  | .register i realm c =>
    if b.tasks.isEmpty && b.scene.world.isAlive i then
      .ok (b.push (.method i (.registering realm c)))
    else .error .impossible
  | .call v =>
    if b.tasks.isEmpty && !isHostTurn b.scene.stack then
      .ok (b.push (.method v.anchor.owner (.lookingUp v)))
    else .error .impossible
  | .shut i =>
    if b.tasks.isEmpty && b.scene.world.isAlive i then .ok (b.push (.method i (.tearingDown i)))
    else .error .impossible
  | .collect as => if b.mayCollect then .ok (b.push (.pass as)) else .error .impossible
  | .destruct => if b.tasks.isEmpty then .ok (b.push .destructor) else .error .impossible
  | .query i => if b.mayQuery then .ok (b.push (.method i .counting)) else .error .impossible
  | .go => b.go

/-- One thing after the other. -/
def run (b : Bench) : List Tick → Except Mishap Bench
  | [] => .ok b
  | t :: ts => match b.step t with
    | .ok b' => b'.run ts
    | .error e => .error e

end Bench

end ScriptBoundary.Boundary
