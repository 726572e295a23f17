import ScriptBoundary.Script.Call
import ScriptBoundary.Script.Code.Parser
import ScriptBoundary.Script.Realm

/-!
# Evaluating scripts

`Machine.step` does any task with a machine for the tasks it leads to, and `Machine.ofDepth` ties
the knot with a number of levels. The depth is far beyond what the limits of a context let a
script reach; a task that needs more levels is `exhausted`, which no script can observe.

`evalScript` runs a script in the current realm: it declares the global names and gives the
completion value.
-/

namespace ScriptBoundary.Script

open Script.Comp

namespace Machine

/-- Does a task. -/
def step (library : Builtins) (m : Machine) : Machine
  | .eval f e => m.evalTask f e
  | .chain f e => m.chainTask f e
  | .exec f labels s => m.execTask f labels s
  | .whileStep f labels test body v => m.whileTask f labels test body v
  | .doStep f labels body test v => m.doTask f labels body test v
  | .forStep f labels names first test update body v =>
    m.forTask f labels names first test update body v
  | .ofStep f labels head body iterator next v => m.ofTask f labels head body iterator next v
  | .inStep f labels head body walk v => m.inTask f labels head body walk v
  | .bind f sort target v => m.bindTask f sort target v
  | .walk w => m.walkTask w
  | .gather iterator next drawn => m.gatherTask iterator next drawn
  | .call callee this args => m.callTask library callee this args
  | .construct callee args newTarget => m.constructTask library callee args newTarget
  | .getOwn r k => m.getOwnTask r k
  | .define r k d => m.defineTask r k d
  | .has r k => m.hasTask r k
  | .get r k receiver => m.getTask r k receiver
  | .set r k v receiver => m.setTask r k v receiver
  | .delete r k => m.deleteTask r k
  | .ownKeys r => m.ownKeysTask r
  | .protoOf r => m.protoOfTask r
  | .setProtoOf r p => m.setProtoOfTask r p
  | .isExtensible r => m.isExtensibleTask r
  | .preventExtensions r => m.preventExtensionsTask r

/-- The machine with so many levels of nesting. -/
def ofDepth (library : Builtins) : Nat → (t : Task) → Comp t.Result
  | 0, _ => exhausted
  | depth + 1, t => step library (ofDepth library depth) t

end Machine

/-- The levels of nesting a script gets. -/
def machineDepth : Nat := 1000000000

/-- The machine that runs scripts. -/
def machine : Machine := Machine.ofDepth Builtin.find? machineDepth

/-- Declares the global names of a script. A `let` or `const` name must be new, and a `var` name
must not be one of those. -/
def declareGlobals (code : ScriptCode) (realm : Ref) : Comp Unit := do
  let scope := (← inspect (·.realm realm)).scope
  let g ← globalObjectOf realm
  let taken (name : String) : Comp Bool := do
    return ((← readScope scope).find? name).isSome
  let clash (name : String) : Comp Unit :=
    raise .syntaxError ("Redeclaration of variable '" ++ name ++ "'")
  forList (fun (name, _) => do
    if ← taken name then clash name
    match ← ownSlot g (Key.ofString name) with
    | some s => unless s.configurable do clash name
    | none => pure ()) code.lexicals
  let functionNames := code.functions.map Code.functionName
  forList (fun name => do if ← taken name then clash name) (functionNames ++ code.varNames)
  forList (fun name => do
    match ← ownSlot g (Key.ofString name) with
    | none =>
      unless (← readObject g).extensible do throwType "cannot declare global function"
    | some s =>
      unless s.configurable || (!s.isAccessor && s.isWritable && s.enumerable) do
        throwType "cannot declare global function") functionNames
  forList (fun name => performOnly (.bind scope name)) (code.lexicals.map Lexical.binding)
  forList (fun fn => do
    let k := Key.ofString fn.functionName
    let r ← newNamedClosure scope fn
    let fresh ← (do
      match ← ownSlot g k with
      | none => return true
      | some s => return s.configurable : Comp Bool)
    if fresh then performOnly (.putSlot g k ⟨.data (.object r) true, true, false⟩)
    else
      let _ ← defineOrdinary g k { value := some (.object r) }) code.functions
  forList (fun name => do
    let k := Key.ofString name
    if (← ownSlot g k).isNone && (← readObject g).extensible then
      performOnly (.putSlot g k ⟨.data .undefined true, true, false⟩)) code.varNames

/-- Runs a script. -/
def evalScript (code : ScriptCode) : Comp Value := do
  let realm := (← activation).realm
  let scope := (← inspect (·.realm realm)).scope
  declareGlobals code realm
  within (fun act => { act with frames := act.frames + 1, slots := act.slots + 2 }) do
    let f : Frame := ⟨scope, ← perform .newTally, code.strict⟩
    return ((← machine.execList f none code.stmts).value?).getD .undefined

/-- Runs a source text. A text that is no script is a `SyntaxError`. -/
def evalSource (source : String) : Comp Value :=
  match ScriptCode.parse? source with
  | some code => evalScript code
  | none => raise .syntaxError "the source text is not a script"

end ScriptBoundary.Script
