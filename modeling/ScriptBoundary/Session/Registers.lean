import ScriptBoundary.Boundary.Surface
import ScriptBoundary.Session.Data

/-!
# Registers

A scripted host keeps its values in named registers. A register owns its value: when it is
overwritten or dropped the handle is given back.

An operation may use a register for as long as it takes, and meanwhile a callback may run that
overwrites the register. So names refer to cells, and a cell counts its users. A cell that has lost
its name lives until its last user is done; a cell in use cannot be taken.

A running callback has registers of its own. Reading looks there first and then among the registers
of the session; writing goes there, except under a name that begins with `g_`.
-/

namespace ScriptBoundary.Session

open Boundary

/-- Through which surface a session works. -/
inductive Api where
  | engine | foreign
deriving DecidableEq, Repr, Inhabited

structure Cell where
  content : Descriptor
  thrown : Bool
  users : Nat
  named : Bool
deriving Inhabited

/-- The registers of a running callback, and the instance it runs on. -/
structure Frame where
  registers : List (String × Nat)
  target : InstanceId
deriving Inhabited

/-- What a host callback does when it is called. -/
structure Body where
  steps : List Data
  result : Data
deriving Inhabited

structure State where
  api : Api
  instances : List (String × InstanceId)
  cells : List (Nat × Cell)
  nextCell : Nat
  registers : List (String × Nat)
  /-- The callbacks that are running, innermost first. -/
  frames : List Frame
  bodies : List (Nat × Body)
  /-- The calls seen during each step in progress, innermost step first, latest call first. -/
  calls : List (List Data)
  /-- How many drops have been told. -/
  toldDrops : Nat
  /-- How many log records have been told. -/
  toldEvents : Nat
  showsLog : Bool
deriving Inhabited

namespace State

/-- A session without instances. -/
def initial (api : Api) (showsLog : Bool) : State :=
  ⟨api, [], [], 0, [], [], [], [], 0, 0, showsLog⟩

def cell? (s : State) (id : Nat) : Option Cell := s.cells.lookup id

def updateCell (s : State) (id : Nat) (f : Cell → Cell) : State :=
  { s with cells := s.cells.map fun c => if c.1 == id then (c.1, f c.2) else c }

def removeCell (s : State) (id : Nat) : State :=
  { s with cells := s.cells.filter fun c => c.1 != id }

/-- The cell a name refers to where it is read. -/
def find? (s : State) (name : String) : Option Nat :=
  match (s.frames.head?).bind fun f => f.registers.lookup name with
  | some id => some id
  | none => s.registers.lookup name

/-- Whether writing a name goes to the registers of the running callback. -/
def writesToFrame (s : State) (name : String) : Bool :=
  !s.frames.isEmpty && !name.startsWith "g_"

/-- The cell a name refers to where it is written. -/
def target? (s : State) (name : String) : Option Nat :=
  if s.writesToFrame name then (s.frames.head?).bind fun f => f.registers.lookup name
  else s.registers.lookup name

/-- Makes a name refer to a cell where it is written. -/
def bind (s : State) (name : String) (id : Nat) : State :=
  let put (rs : List (String × Nat)) := (name, id) :: rs.filter fun r => r.1 != name
  if s.writesToFrame name then
    match s.frames with
    | f :: rest => { s with frames := { f with registers := put f.registers } :: rest }
    | [] => s
  else { s with registers := put s.registers }

/-- Makes no name refer to a cell. -/
def unbind (s : State) (id : Nat) : State :=
  let keep (rs : List (String × Nat)) := rs.filter fun r => r.2 != id
  { s with
    registers := keep s.registers
    frames := s.frames.map fun f => { f with registers := keep f.registers } }

end State

/-- What a scripted host does. -/
abbrev Play := Act State

/-- What a scripted host does in a step, which may turn out to be ill formed. -/
abbrev Doing := ExceptT Problem Play

namespace Play

/-- Gives back the handle in a raw value. -/
def release (d : Descriptor) : Play Unit := Act.releaseValue d.toValue

/-- A raw value of the same content, with a handle of its own. -/
def clone (d : Descriptor) : Play Descriptor := do
  match d.toValue with
  | .composite kind h => return .ofValue (← Act.cloneValue (.composite kind h))
  | _ => return d

/-- Lets go of the cell that a name referred to. -/
def abandon (id : Nat) : Play Unit := do
  let s ← Act.state
  match s.cell? id with
  | none => pure ()
  | some c =>
    if c.users = 0 then
      Act.modify (·.removeCell id)
      release c.content
    else Act.modify (·.updateCell id fun c => { c with named := false })

/-- Puts a value into a register. -/
def store (name : String) (content : Descriptor) (thrown : Bool) : Play Unit := do
  let s ← Act.state
  let old := s.target? name
  let id := s.nextCell
  Act.modify fun s =>
    { s with cells := (id, ⟨content, thrown, 0, true⟩) :: s.cells, nextCell := id + 1 }.bind name id
  match old with
  | some id => abandon id
  | none => pure ()

/-- Puts a value into a register if there is a name for it, and gives it back otherwise. -/
def keep (name : Option String) (content : Descriptor) (thrown : Bool) : Play Unit :=
  match name with
  | some name => store name content thrown
  | none => release content

/-- Ends the use of a cell. -/
def finishUse (id : Nat) : Play Unit := do
  Act.modify (·.updateCell id fun c => { c with users := c.users - 1 })
  match (← Act.state).cell? id with
  | some c => if c.users = 0 && !c.named then abandon id else pure ()
  | none => pure ()

/-- Opens the registers of a callback. -/
def pushFrame (target : InstanceId) : Play Unit :=
  Act.modify fun s => { s with frames := ⟨[], target⟩ :: s.frames }

/-- Closes the registers of a callback and gives back what is in them. -/
def popFrame : Play Unit := do
  match (← Act.state).frames with
  | [] => pure ()
  | f :: rest =>
    Act.modify fun s => { s with frames := rest }
    Act.forEach (fun r => abandon r.2) f.registers

end Play

namespace Doing

/-- What cannot be ill formed. -/
def play {α : Type} (m : Play α) : Doing α := ExceptT.lift m

def state : Doing State := play Act.state

def modify (f : State → State) : Doing Unit := play (Act.modify f)

/-- Asks the boundary for something. -/
def ask (r : Request) : Doing r.Answer := play (Act.request r)

/-- What comes of something that may be ill formed. -/
def attempt {α : Type} (m : Doing α) : Doing (Except Problem α) := play m.run

/-- What is in a register. -/
def look (name : String) : Doing Cell := do
  let s ← state
  match (s.find? name).bind s.cell? with
  | some c => return c
  | none => throw (.noRegister name)

/-- Takes the value out of a register that nobody is using. -/
def take (name : String) : Doing Cell := do
  let s ← state
  match s.find? name with
  | none => throw (.noRegister name)
  | some id =>
    match s.cell? id with
    | none => throw (.noRegister name)
    | some c =>
      if c.users ≠ 0 then throw (.busy name)
      modify fun s => (s.unbind id).removeCell id
      return c

/-- Uses a register while something is done. -/
def withRegister {α : Type} (name : String) (m : Cell → Doing α) : Doing α := do
  let s ← state
  match (s.find? name).bind fun id => (s.cell? id).map fun c => (id, c) with
  | none => throw (.noRegister name)
  | some (id, c) =>
    modify (·.updateCell id fun c => { c with users := c.users + 1 })
    let r ← attempt (m c)
    play (Play.finishUse id)
    match r with
    | .ok a => return a
    | .error p => throw p

/-- Does something, and gives a raw value back if that fails. -/
def orRelease {α : Type} (d : Descriptor) (m : Doing α) : Doing α := do
  match ← attempt m with
  | .ok a => return a
  | .error p =>
    play (Play.release d)
    throw p

end Doing

end ScriptBoundary.Session
