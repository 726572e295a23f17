import ScriptBoundary.Script.Property

/-!
# Iteration

The iterator protocol and the walk over property names. An iterator is an object with a `next`
method, looked up once; closing one asks it for a `return` method.
-/

namespace ScriptBoundary.Script

open Script.Comp

/-- An iterator with its `next` method. -/
structure Iteration where
  iterator : Value
  next : Value

namespace Machine

variable (m : Machine)

/-- The iterator of a value. -/
def iterate (v : Value) : Comp Iteration := do
  match ← m.getMethod v (.symbol Symbol.iterator) with
  | none => throwType "value is not iterable"
  | some f =>
    let iterator ← m.call f v []
    match iterator with
    | .object _ => return ⟨iterator, ← m.getOf iterator (Key.ofString "next")⟩
    | _ => throwType "returned iterator is not an object"

/-- The next value, or nothing at the end. -/
def draw (i : Iteration) : Comp (Option Value) := do
  let answer ← keeping [i.iterator, i.next] (m.call i.next i.iterator [])
  match answer with
  | .object r =>
    if (← m.get r (Key.ofString "done")).truthy then return none
    else return some (← m.get r (Key.ofString "value"))
  | _ => throwType "next value should be an object"

/-- Tells an iterator that no more is wanted. -/
def close (i : Iteration) : Comp Unit := do
  match ← m.getMethod i.iterator (Key.ofString "return") with
  | none => return
  | some f =>
    match ← m.call f i.iterator [] with
    | .object _ => return
    | _ => throwType "inner result was not an object"

/-- Closes an iterator because of a throw, which wins over whatever closing throws. -/
def closeAndThrow {α : Type} (i : Iteration) (v : Value) : Comp α := do
  keeping [v] (catchThrow (m.close i) fun _ => pure ())
  throwValue v

def gatherTask (iterator next : Value) (drawn : List Value) : Comp (List Value) := do
  match ← keeping drawn (m.draw ⟨iterator, next⟩) with
  | none => return drawn.reverse
  | some v => m.gather iterator next (v :: drawn)

/-- All values of an iterable value. -/
def listOfIterable (v : Value) : Comp (List Value) := do
  let i ← m.iterate v
  m.gather i.iterator i.next []

/-- One step of a walk over names: an own name that is still there and enumerable, unless a nearer
object has the name too; then the prototype's. -/
def walkTask (w : NameWalk) : Comp (Option (Text × NameWalk)) := do
  match w.remaining, w.object with
  | k :: rest, some r =>
    let skip : Comp (Option (Text × NameWalk)) := m.walk { w with remaining := rest }
    match k.text? with
    | none => skip
    | some name =>
      if w.visited.contains k then skip
      else
        match ← m.getOwn r k with
        | none => skip
        | some s =>
          let w := { w with remaining := rest, visited := k :: w.visited }
          if s.enumerable then return some (name, w) else m.walk w
  | [], some r =>
    match ← m.protoOf r with
    | none => return none
    | some p => m.walk { w with object := some p, remaining := ← m.ownKeys p }
  | _, none => return none

/-- The walk over the names of a value. -/
def startWalk (v : Value) : Comp NameWalk := do
  if v.isNullish then return ⟨none, [], []⟩
  else
    let r ← toObject v
    return ⟨some r, ← m.ownKeys r, []⟩

end Machine

end ScriptBoundary.Script
