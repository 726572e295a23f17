import ScriptBoundary.Script.Variable

/-!
# Making functions

A function object is its code with the scope, the realm and the home it was made in. Ordinary
functions come with a prototype object for what they construct; methods, accessors and arrows do
not.
-/

namespace ScriptBoundary.Script

open Script.Comp

/-- The own properties every function has. -/
def functionProps (name : Text) (length : Nat) : List (Key × Slot) :=
  [(Key.length, Slot.readOnly (Value.ofNat length)),
   (Key.ofString "name", Slot.readOnly (.text name))]

/-- The name a method has under a key. -/
def Key.functionName (sort : FunctionSort) (k : Key) : Text :=
  let base : Text := match k with
    | .symbol s =>
      match s.description with
      | some d => "[" ++ d ++ "]"
      | none => .empty
    | k => k.text?.getD .empty
  match sort with
  | .getter => "get " ++ base
  | .setter => "set " ++ base
  | _ => base

/-- A new function object for code in a scope. -/
def newClosure (scope : Ref) (code : Code) (name : Text) (home : Option Ref) : Comp Ref := do
  match code with
  | .function info params functions body =>
    let realm := (← activation).realm
    let closure : Closure :=
      { info, params, functions, body, scope, realm, home, fields := [] }
    let proto ← intrinsic .functionPrototype
    let props := functionProps name info.length
    if info.sort == .normal then
      let made ← newPlain
      let prototype : Slot := ⟨.data (.object made) true, false, false⟩
      let f ← newObject (.closure closure) (some proto)
        (.ofList (props ++ [(Key.ofString "prototype", prototype)]))
      performOnly (.putSlot made (Key.ofString "constructor") (Slot.hidden (.object f)))
      return f
    else newObject (.closure closure) (some proto) (.ofList props)
  | _ => newPlain

/-- A new function object under the name in its code. -/
def newNamedClosure (scope : Ref) (code : Code) : Comp Ref :=
  newClosure scope code (Text.ofString code.functionName) none

/-- The prototype a new object gets: what `newTarget` says, or else the built-in one of the realm
`newTarget` belongs to. -/
def protoFor (m : Machine) (newTarget : Ref) (i : Intrinsic) : Comp Ref := do
  match ← m.get newTarget (Key.ofString "prototype") with
  | .object p => return p
  | _ =>
    let own := (← activation).realm
    let realm := match (← readObject newTarget).nature with
      | .closure c => c.realm
      | .builtin _ realm _ => realm
      | .hostFunction realm => realm
      | _ => own
    let base ← inspect fun h => (h.realm realm).base
    return base + i.ctorIdx

end ScriptBoundary.Script
