import ScriptBoundary.Boundary.World

/-!
# Running scripts in a world

Everything that runs can read and change a `State`: the world and the host's own state. A `Run`
ends with a result, or fails where the boundary was misused (`Fault`): a context borrowed twice, an
instance used after its end or destroyed in the middle of an operation.

`runProgram` runs a script to its end and passes its host calls on to an `Invoke`. `inContext`
finds the context an operation runs in.
-/

namespace ScriptBoundary.Boundary

open Script (Activation Comp Completion HostCall Program)

/-- What all that runs can read and change: the world and the host's own state. -/
structure State (σ : Type) where
  world : World
  host : σ

instance {σ : Type} [Inhabited σ] : Inhabited (State σ) := ⟨⟨default, default⟩⟩

inductive Fault where
  /-- An operation wanted the context of an instance while another one was using it. -/
  | contextInUse (i : InstanceId)
  /-- An instance was to be destroyed in the middle of an operation. -/
  | instanceInUse (i : InstanceId)
  /-- There is no such instance, or no longer. -/
  | noInstance (i : InstanceId)
  /-- There were too few levels of nesting. -/
  | exhausted
deriving DecidableEq, Repr

namespace Fault

def message : Fault → String
  | .contextInUse _ => "already borrowed: BorrowMutError"
  | .instanceInUse _ => "instance destroyed while in use"
  | .noInstance _ => "instance used after it was destroyed"
  | .exhausted => "too many nested calls"

end Fault

abbrev Run (σ : Type) := StateT (State σ) (Except Fault)

/-- Whatever answers the host calls of a script. -/
abbrev Invoke (σ : Type) := HostCall → Run σ (Completion Script.Value)

variable {σ α : Type}

namespace Run

/-- Looks something up in the world. -/
def view (f : World → α) : Run σ α := fun s => .ok (f s.world, s)

/-- Changes the world. -/
def update (f : World → World) : Run σ Unit := fun s => .ok ((), { s with world := f s.world })

/-- Changes the world and gives something. -/
def alter (f : World → α × World) : Run σ α := fun s =>
  let (a, world) := f s.world
  .ok (a, { s with world })

end Run

/-- Runs a script to its end. -/
def runProgram (invoke : Invoke σ) : Program → Run σ (Completion Script.Value)
  | .done result, s => .ok (result, s)
  | .look next, s => runProgram invoke (next s.world.heap) s
  | .edit e next, s =>
    let ⟨world, host⟩ := s
    let ⟨heap, platform, instances, handles, inFlight, orphans, lifecycle, dropped, log⟩ := world
    let (heap, n) := heap.apply e
    runProgram invoke (next n)
      ⟨⟨heap, platform, instances, handles, inFlight, orphans, lifecycle, dropped, log⟩, host⟩
  | .call c next, s =>
    match invoke c s with
    | .ok (result, s) => runProgram invoke (next result) s
    | .error e => .error e
  | .exhausted, _ => .error .exhausted

/-- Runs a script computation in an activation. -/
def runIn (invoke : Invoke σ) (act : Activation) (m : Comp Script.Value) :
    Run σ (Completion Script.Value) :=
  runProgram invoke (m.start act)

/-- Does something in the context of an instance: the one a running callback was called in, as it
is now, or else the instance's own, which nobody else may be using. -/
def inContext (i : InstanceId) (body : Activation → Run σ α) : Run σ α := do
  match ← Run.view (·.live? i) with
  | none => throw (.noInstance i)
  | some x =>
    match x.lent with
    | some act => body (← Run.view (·.current act))
    | none =>
      if x.borrowed then throw (.contextInUse i)
      let converting ← Run.view (·.converting)
      Run.update (·.borrow i)
      let a ← body (x.root i converting)
      Run.update (·.giveBack i)
      return a

end ScriptBoundary.Boundary
