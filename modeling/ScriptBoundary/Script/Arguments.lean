import ScriptBoundary.Script.Machine

/-!
# Arguments objects

A call makes an object of its arguments if the body of the function mentions it. In sloppy code the
elements of this object are tied to the parameters, as far as these are names: what is written to
the one is read from the other. Of several parameters of one name the last is the one that counts. A
tie goes when the element is deleted, turned into an accessor or made read-only, and never comes
back.
-/

namespace ScriptBoundary.Script

open Script.Comp

/-- The parameter an element of an arguments object is tied to. -/
def Object.tiedTo? (o : Object) (k : Key) : Option (Ref × String) :=
  match o.nature, k with
  | .arguments tied, .index i => (tied.find? fun t => t.1 == i).map (·.2)
  | _, _ => none

/-- Unties an element of an arguments object from its parameter. -/
def untie (r : Ref) (k : Key) : Comp Unit := do
  match (← readObject r).nature, k with
  | .arguments tied, .index i =>
    performOnly (.setNature r (.arguments (tied.filter fun t => t.1 != i)))
  | _, _ => pure ()

/-- The elements of an arguments object that share a parameter: the last of each name. -/
def tiedParams (scope : Ref) (count : Nat) (names : List String) :
    List (ArrayIndex × Ref × String) :=
  let indexed := names.zipIdx
  let last := indexed.filter fun (n, i) =>
    i < count && !(indexed.any fun (n', j) => n' == n && i < j)
  last.filterMap fun (n, i) => (ArrayIndex.ofNat? i).map (·, scope, n)

namespace Closure

/-- Whether the arguments object of a call shares its elements with the parameters. -/
def sharesParams (c : Closure) : Bool := !c.info.strict && c.info.simpleParams

/-- What the arguments object of a call shares with the scope of the call. -/
def tied (c : Closure) (scope : Ref) (args : List Value) : List (ArrayIndex × Ref × String) :=
  if c.sharesParams then tiedParams scope args.length (c.params.flatMap (Code.boundNames 64))
  else []

/-- The properties of the arguments object of a call. -/
def argumentProps (c : Closure) (callee values : Ref) (args : List Value) : Props :=
  let listed := Props.listing (Slot.hidden (Value.ofNat args.length)) (args.map Slot.plain)
  let own := listed.insert (.symbol Symbol.iterator) (Slot.hidden (.object values))
  if c.sharesParams then own.insert (Key.ofString "callee") (Slot.hidden (.object callee)) else own

end Closure

/-- The arguments object of a call. -/
def newArguments (c : Closure) (callee scope : Ref) (args : List Value) : Comp Ref := do
  let values ← intrinsic .arrayValues
  let proto ← intrinsic .objectPrototype
  newObject (.arguments (c.tied scope args)) (some proto) (c.argumentProps callee values args)

end ScriptBoundary.Script
