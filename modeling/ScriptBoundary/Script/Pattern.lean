import ScriptBoundary.Script.Iteration
import ScriptBoundary.Script.Variable

/-!
# Patterns

A pattern takes a value apart and gives names to the parts. What a name is given to depends on
the binding sort: an assignment stores into whatever the name or member expression denotes, an
initialisation gives a declared name its first value.
-/

namespace ScriptBoundary.Script

open Script.Comp

namespace Machine

variable (m : Machine)

/-- Assigns a property of any value. In strict code a refusal is an error. -/
def putOf (f : Frame) (base : Value) (k : Key) (v : Value) : Comp Unit := do
  let r ← toObject base
  unless ← m.setFor r k v base do
    if f.strict then throwType ("cannot set non-writable property: " ++ k.show')

/-- The key of a member name. -/
def keyOfName (f : Frame) (name : Code) : Comp Key := do
  match name with
  | .fixedName k => return k
  | .computedName e => m.toKey (← m.eval f e)
  | _ => return .ofText .empty

/-- The home object of the running method. -/
def homeOf (f : Frame) : Comp (Option Ref) := do
  match ← enclosingCall? f with
  | none => return none
  | some c =>
    match (← readObject c.info.callee).nature with
    | .closure k => return k.home
    | _ => return none

/-- The object whose properties `super` reads. -/
def superBase (f : Frame) : Comp Value := do
  match ← homeOf f with
  | some home =>
    match ← m.protoOf home with
    | some p => return .object p
    | none => return .null
  | none => return .undefined

/-- Assigns a property of the parent's prototype on behalf of `this`. -/
def putSuper (f : Frame) (k : Key) (v : Value) : Comp Unit := do
  let this ← readThis f
  match ← m.superBase f with
  | .object p =>
    unless ← m.setFor p k v this do
      if f.strict then throwType ("cannot set non-writable property: " ++ k.show')
  | _ => throwType "cannot convert 'null' or 'undefined' to object"

/-- Gives the items of an array pattern the values of an iterator; says whether it is used up. -/
def bindItems (f : Frame) (sort : BindingSort) (i : Iteration) (rest : Pattern) :
    Bool → List Pattern → Comp Bool
  | done, [] => do
    match rest with
    | .absent => return done
    | target =>
      let vs ← (if done then pure [] else m.gather i.iterator i.next [] : Comp (List Value))
      m.bindTo f sort target (.object (← newArray vs))
      return true
  | done, p :: ps => do
    let drawn ← (if done then pure none else m.draw i : Comp (Option Value))
    match p with
    | .absent => pure ()
    | target => m.bindTo f sort target (drawn.getD .undefined)
    bindItems f sort i rest (done || drawn.isNone) ps

/-- Gives the fields of an object pattern the properties of a value. Gives the keys used. -/
def bindFields (f : Frame) (sort : BindingSort) (v : Value) (used : List Key) :
    List Pattern → Comp (List Key)
  | [] => pure used
  | .patternField name target :: rest => do
    let k ← m.keyOfName f name
    m.bindTo f sort target (← m.getOf v k)
    bindFields f sort v (k :: used) rest
  | _ :: rest => bindFields f sort v used rest

/-- Copies the enumerable own properties of an object, but for some keys. -/
def copyProps (target source : Ref) (except : List Key) : Comp Unit := do
  let ks ← m.ownKeys source
  forList (fun k => do
    if except.contains k then return
    match ← m.getOwn source k with
    | some s =>
      if s.enumerable then performOnly (.putSlot target k (Slot.plain (← m.get source k)))
    | none => return) ks

def bindTask (f : Frame) (sort : BindingSort) (target : Pattern) (v : Value) : Comp Unit := do
  match target with
  | .ident name =>
    match sort with
    | .assign => m.writeName f name v
    | .initialise => initialiseName f name v
  | .withDefault target value =>
    let v ← (if v.isUndefined then m.eval f value else pure v : Comp Value)
    m.bindTo f sort target v
  | .member o k _ =>
    let base ← keeping [v] (m.eval f o)
    m.putOf f base k v
  | .element o k _ =>
    let base ← keeping [v] (m.eval f o)
    let key ← keeping [v, base] (do m.toKey (← m.eval f k))
    m.putOf f base key v
  | .superMember k => m.putSuper f k v
  | .superElement k => m.putSuper f (← m.toKey (← m.eval f k)) v
  | .grouped e => m.bindTo f sort e v
  | .arrayPattern items rest =>
    let i ← m.iterate v
    match ← attempt (m.bindItems f sort i rest false items) with
    | .value done => unless done do m.close i
    | .thrown e => m.closeAndThrow i e
    | .limit l => exceed l
  | .objectPattern fields rest =>
    if v.isNullish then throwType "cannot convert 'null' or 'undefined' to object"
    else
      let used ← keeping [v] (m.bindFields f sort v [] fields)
      match rest with
      | .absent => return
      | target =>
        let r ← newPlain
        m.copyProps r (← toObject v) used
        m.bindTo f sort target (.object r)
  | _ => return

end Machine

end ScriptBoundary.Script
