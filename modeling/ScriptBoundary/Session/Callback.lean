import ScriptBoundary.Session.Step

/-!
# Callbacks

What a scripted host does when it is called: it opens registers for `this` and the arguments, does
the steps of the body, decides on the outcome, and closes the registers again. The call is told to
the step in which it happened.
-/

namespace ScriptBoundary.Session

open Boundary

/-- How deeply calls may nest for their bodies to be carried out. -/
def maxDepth : Nat := 40

/-- The register in which an argument is found. -/
def argumentName (position : Nat) : String := "a" ++ toString position

/-- The sum of the numbers and dates among some values. -/
def sum (values : List Value) : Float :=
  values.foldl (fun total v => match v with
    | .number x | .date x => total + x
    | _ => total) 0.0

/-- How the outcome of a call is decided. -/
inductive Verdict where
  | give (thrown : Bool) (e : Data)
  /-- What a register holds, thrown if that was. -/
  | forward (register : String)
  /-- The sum of what the registers of the arguments hold by then. -/
  | sum
  | fail (message : String)
  /-- Twice the number in a register, or else the error of reading it. -/
  | double (register : String)
  | nothing

namespace Verdict

/-- The verdict that fields describe. The errors of the host exist in engine sessions only. -/
def ofData (api : Api) (d : Data) : Verdict :=
  let host? (field : String) : Option String :=
    if api = .engine then d.textField? field else none
  let choices : List (Option Verdict) := [
    (d.field? "return").map (give false), (d.field? "throw").map (give true),
    (d.textField? "forward").map forward, (d.field? "sum").map fun _ => sum,
    (host? "fail").map fail, (host? "strict").map double]
  (choices.findSome? id).getD nothing

end Verdict

namespace Doing

/-- What is in some registers. -/
def lookAll (names : List String) : Doing (List Value) :=
  names.mapM fun name => do return (← look name).content.toValue

/-- The outcome of a call with so many arguments. -/
def decide (i : InstanceId) (arity : Nat) : Verdict → Doing OutcomeDescriptor
  | .give thrown e => do
    let d ← evaluate (some i) (some e)
    return if thrown then .exception d else .ok d
  | .forward r => do
    let c ← take r
    return ⟨c.content, if c.thrown then 1 else 0⟩
  | .sum => do
    let values ← lookAll ((List.range arity).map argumentName)
    return .ok (.number (Session.sum values))
  | .fail message => do return .exception (.ofValue (← ask (.errorValue i (.external message))))
  | .double r => do
    let content := match ← attempt (take r) with
      | .ok c => c.content
      | .error _ => .undefined
    match content.toValue.asNumber with
    | .ok x => return .ok (.number (x * 2.0))
    | .error e =>
      let v ← ask (.errorValue i e)
      play (Play.release content)
      return .exception (.ofValue v)
  | .nothing => return .okEmpty

end Doing

/-- Carries out a body. Gives the answers of its steps and the outcome, or what was wrong with it. -/
def carryOut (i : InstanceId) (body : Body) (arity : Nat) :
    Play (List Data × Except Problem OutcomeDescriptor) := do
  let steps ← Act.gather Play.answerStep body.steps
  let verdict := Verdict.ofData (← Act.state).api body.result
  return (steps, ← (Doing.decide i arity verdict).run)

/-- Answers a call. -/
def respond (label : String) (id : Nat) (i : InstanceId) (this : Descriptor)
    (args : List Descriptor) : Play OutcomeDescriptor := do
  let shownThis ← Play.render (some i) false this
  let shownArgs ← Act.gather (Play.render (some i) false) args
  let depth := (← Act.state).frames.length
  Play.pushFrame i
  Play.store "this" this false
  Act.forEach (fun (d, n) => Play.store (argumentName n) d false) args.zipIdx
  let body := ((← Act.state).bodies.lookup id).getD ⟨[], .null⟩
  let (steps, outcome) ←
    if depth < maxDepth then carryOut i body args.length else pure ([], .ok .okEmpty)
  let (d, failure) : OutcomeDescriptor × List (String × Data) := match outcome with
    | .ok d => (d, [])
    | .error p => (.okEmpty, [("ret_error", p.toData)])
  let shown ← Play.renderOutcome (some i) d
  Play.popFrame
  let told : Data := .record ([("call", .text label), ("this", shownThis),
    ("args", .list shownArgs), ("ret", shown)] ++ Data.listField "steps" steps ++ failure)
  Act.modify fun s =>
    match s.calls with
    | seen :: rest => { s with calls := (told :: seen) :: rest }
    | [] => s
  return d

/-- The host that answers calls by the bodies of its session. -/
def host : Host State where
  native id i this args := do
    Act.consumeOutcome (← respond (toString id) id i (.ofValue this) (args.map .ofValue))
  wrapper pair target context this args :=
    respond (pair.name ++ toString context.toNat) context.toNat target this args

end ScriptBoundary.Session
