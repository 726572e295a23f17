import ScriptBoundary.Script.Property

/-!
# Variables

A name is looked for in the scopes from the innermost outward. The outermost scope of a realm
holds the global `let`, `const` and `class` names; a name that is not among them is a property of
the global object, or unresolved.
-/

namespace ScriptBoundary.Script

open Script.Comp

/-- Where a name was found. -/
inductive Place where
  | binding (scope : Ref) (b : Binding)
  /-- Not in any scope; the realm whose global object comes next. -/
  | global (realm : Ref)

/-- The call a scope belongs to, by the scope that knows it. -/
structure EnclosingCall where
  scope : Ref
  info : CallInfo

namespace Heap

/-- Looks for a name from a scope outward. -/
def placeOf (h : Heap) (name : String) : Nat → Ref → Place
  | 0, _ => .global 0
  | fuel + 1, r =>
    let s := h.scope r
    match s.find? name with
    | some b => .binding r b
    | none =>
      match s.global, s.outer with
      | some realm, _ => .global realm
      | none, some o => placeOf h name fuel o
      | none, none => .global 0

/-- The call with a `this` of its own that encloses a scope. -/
def enclosingCall? (h : Heap) : Nat → Ref → Option EnclosingCall
  | 0, _ => none
  | fuel + 1, r =>
    let s := h.scope r
    match s.call, s.outer with
    | some info, _ => some ⟨r, info⟩
    | none, some o => enclosingCall? h fuel o
    | none, none => none

/-- The realm a scope belongs to. -/
def realmOfScope (h : Heap) : Nat → Ref → Ref
  | 0, _ => 0
  | fuel + 1, r =>
    let s := h.scope r
    match s.global, s.outer with
    | some realm, _ => realm
    | none, some o => realmOfScope h fuel o
    | none, none => 0

end Heap

/-- The global object of a realm. -/
def globalObjectOf (realm : Ref) : Comp Ref := do
  let r ← inspect (·.realm realm)
  return r.base + Intrinsic.globalObject.ctorIdx

def placeOf (f : Frame) (name : String) : Comp Place :=
  inspect fun h => h.placeOf name (h.cells.size + 1) f.scope

/-- What a script is told about a name that stands nowhere. -/
def throwUnresolved {α : Type} (name : String) : Comp α :=
  raise .referenceError (name ++ " is not defined")

/-- What a script is told about a name before its declaration ran. -/
def throwUninitialised {α : Type} : Comp α :=
  raise .referenceError "access of uninitialized binding"

/-- A new scope inside another. -/
def newScope (outer : Ref) (bindings : List Binding) : Comp Ref :=
  perform (.newScope ⟨bindings.toArray, some outer, none, none⟩)

/-- A declared name that has no value yet. -/
def Lexical.binding (l : Lexical) : Binding := ⟨l.1, none, !l.2, true⟩

namespace Machine

variable (m : Machine)

/-- The value of a variable; nothing if the name stands nowhere. -/
def readName? (f : Frame) (name : String) : Comp (Option Value) := do
  match ← placeOf f name with
  | .binding _ b =>
    match b.value with
    | some v => return some v
    | none => throwUninitialised
  | .global realm =>
    let g ← globalObjectOf realm
    if ← m.has g (Key.ofString name) then return some (← m.get g (Key.ofString name))
    else return none

def readName (f : Frame) (name : String) : Comp Value := do
  match ← m.readName? f name with
  | some v => return v
  | none => throwUnresolved name

/-- Assigns to a variable. Sloppy code makes a global out of a name that stands nowhere. -/
def writeName (f : Frame) (name : String) (v : Value) : Comp Unit := do
  match ← placeOf f name with
  | .binding scope b =>
    if b.value.isNone then throwUninitialised
    else if b.mutable then performOnly (.store scope name v)
    else if b.strict || f.strict then
      throwType ("cannot mutate an immutable binding '" ++ name ++ "'")
    else return
  | .global realm =>
    let g ← globalObjectOf realm
    let k := Key.ofString name
    if f.strict then
      if ← m.has g k then m.put g k v
      else
        raise .referenceError
          ("cannot assign to uninitialized global property \x60" ++ name ++ "\x60")
    else
      let _ ← m.set g k v

/-- Deletes a name: only a global can go. -/
def deleteName (f : Frame) (name : String) : Comp Bool := do
  match ← placeOf f name with
  | .binding .. => return false
  | .global realm => m.delete (← globalObjectOf realm) (Key.ofString name)

end Machine

/-- Gives a declared name of the current scope its first value. -/
def initialiseName (f : Frame) (name : String) (v : Value) : Comp Unit := do
  match ← placeOf f name with
  | .binding scope _ => performOnly (.store scope name v)
  | .global _ => pure ()

/-- The call whose `this` code in a frame sees. -/
def enclosingCall? (f : Frame) : Comp (Option EnclosingCall) :=
  inspect fun h => h.enclosingCall? (h.cells.size + 1) f.scope

/-- The value of `this`. -/
def readThis (f : Frame) : Comp Value := do
  match ← enclosingCall? f with
  | some c =>
    match c.info.this with
    | some v => return v
    | none =>
      raise .referenceError "Must call super constructor in derived class before accessing 'this' or returning from derived constructor"
  | none =>
    let realm ← inspect fun h => h.realmOfScope (h.cells.size + 1) f.scope
    return .object (← globalObjectOf realm)

end ScriptBoundary.Script
