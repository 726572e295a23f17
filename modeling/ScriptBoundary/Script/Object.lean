import ScriptBoundary.Script.Code
import ScriptBoundary.Script.Time

/-!
# Objects, scopes and realms

What a heap cell can hold. An object is an ordered table of properties, a prototype, a flag that
says whether properties may be added, and a `Nature`: whatever it has beyond properties. A scope
holds variables and points outward. A realm is a global object with the built-in objects that
belong to it.

An object may carry an `Anchor`, the identity of a host callback. No operation of a script puts
one on an object or takes one off; only registering a callback makes an object that has one.
-/

namespace ScriptBoundary.Script

/-- The content of a property. -/
inductive Content where
  | data (value : Value) (writable : Bool)
  /-- The functions are objects or `undefined`. -/
  | accessor (get set : Value)
deriving Repr, Inhabited

/-- A property as it is stored. -/
structure Slot where
  content : Content
  enumerable : Bool
  configurable : Bool
deriving Repr, Inhabited

namespace Slot

/-- A property an assignment creates. -/
def plain (v : Value) : Slot := ⟨.data v true, true, true⟩

/-- A property like those of built-in objects: hidden from enumeration, otherwise free. -/
def hidden (v : Value) : Slot := ⟨.data v true, false, true⟩

/-- A property that never changes. -/
def fixed (v : Value) : Slot := ⟨.data v false, false, false⟩

/-- A property that cannot be written but can be redefined, as function names are. -/
def readOnly (v : Value) : Slot := ⟨.data v false, false, true⟩

def isAccessor (s : Slot) : Bool := match s.content with
  | .accessor .. => true
  | .data .. => false

def isWritable (s : Slot) : Bool := match s.content with
  | .data _ w => w
  | .accessor .. => false

def value? (s : Slot) : Option Value := match s.content with
  | .data v _ => some v
  | .accessor .. => none

end Slot

/-- A property as it is asked for: every part may be left out. -/
structure Descriptor where
  value : Option Value := none
  get : Option Value := none
  set : Option Value := none
  writable : Option Bool := none
  enumerable : Option Bool := none
  configurable : Option Bool := none
deriving Inhabited

namespace Descriptor

def isAccessor (d : Descriptor) : Bool := d.get.isSome || d.set.isSome

def isData (d : Descriptor) : Bool := d.value.isSome || d.writable.isSome

def isEmpty (d : Descriptor) : Bool :=
  !d.isAccessor && !d.isData && d.enumerable.isNone && d.configurable.isNone

/-- The descriptor that says all of a slot. -/
def ofSlot (s : Slot) : Descriptor :=
  match s.content with
  | .data v w => { value := some v, writable := some w, enumerable := some s.enumerable,
                   configurable := some s.configurable }
  | .accessor g t => { get := some g, set := some t, enumerable := some s.enumerable,
                       configurable := some s.configurable }

/-- The slot a descriptor creates, missing parts read as `undefined` and `false`. -/
def toSlot (d : Descriptor) : Slot :=
  let content : Content :=
    if d.isAccessor then .accessor (d.get.getD .undefined) (d.set.getD .undefined)
    else .data (d.value.getD .undefined) (d.writable.getD false)
  ⟨content, d.enumerable.getD false, d.configurable.getD false⟩

/-- A slot after the parts a descriptor has are written over it. -/
def layOver (d : Descriptor) (s : Slot) : Slot :=
  let content : Content := match s.content with
    | .data v w =>
      if d.isAccessor then .accessor (d.get.getD .undefined) (d.set.getD .undefined)
      else .data (d.value.getD v) (d.writable.getD w)
    | .accessor g t =>
      if d.isData then .data (d.value.getD .undefined) (d.writable.getD false)
      else .accessor (d.get.getD g) (d.set.getD t)
  ⟨content, d.enumerable.getD s.enumerable, d.configurable.getD s.configurable⟩

/-- Whether a descriptor asks for nothing that a slot forbids. -/
def isAllowedOver (d : Descriptor) (s : Slot) : Bool :=
  if s.configurable then true
  else if d.configurable == some true then false
  else if d.enumerable.any (· != s.enumerable) then false
  else match s.content with
    | .accessor g t =>
      !d.isData && d.get.all (Value.sameValue g) && d.set.all (Value.sameValue t)
    | .data v w =>
      !d.isAccessor && (w || (d.writable != some true && d.value.all (Value.sameValue v)))

end Descriptor

/-- Properties in the order in which they were created. No key has two. -/
structure Props where
  slots : Array (Key × Slot)
  distinct : (slots.toList.map Prod.fst).Nodup

namespace Props

instance : EmptyCollection Props := ⟨⟨#[], .nil⟩⟩

instance : Inhabited Props := ⟨∅⟩

def find? (ps : Props) (k : Key) : Option Slot :=
  (Array.find? (fun p => p.1 == k) ps.slots).map (·.2)

theorem distinct_setIfInBounds (ps : Props) {k : Key} {i : Nat} (s : Slot)
    (hi : ps.slots.findIdx? (fun p => p.1 == k) = some i) :
    ((ps.slots.setIfInBounds i (k, s)).toList.map Prod.fst).Nodup := by
  obtain ⟨hlt, hat, -⟩ := Array.findIdx?_eq_some_iff_getElem.mp hi
  have hkeys : i < (ps.slots.toList.map Prod.fst).length := by simpa using hlt
  have hk : k = (ps.slots.toList.map Prod.fst)[i] := by
    rw [List.getElem_map, Array.getElem_toList, eq_of_beq hat]
  rw [Array.toList_setIfInBounds, List.map_set, hk, List.set_getElem_self]
  exact ps.distinct

theorem distinct_push (ps : Props) {k : Key} (s : Slot)
    (hnone : ps.slots.findIdx? (fun p => p.1 == k) = none) :
    ((ps.slots.push (k, s)).toList.map Prod.fst).Nodup := by
  rw [Array.toList_push, List.map_append, List.nodup_append]
  refine ⟨ps.distinct, List.nodup_cons.mpr ⟨List.not_mem_nil, .nil⟩, fun k₁ h₁ k₂ h₂ => ?_⟩
  obtain ⟨p, hp, rfl⟩ := List.mem_map.mp h₁
  rw [List.mem_singleton.mp h₂]
  exact fun heq => ne_of_beq_false
    (Array.findIdx?_eq_none_iff.mp hnone p (Array.mem_toList_iff.mp hp)) heq

/-- Overwrites a property in its place, or adds it at the end. -/
def insert (ps : Props) (k : Key) (s : Slot) : Props :=
  match h : ps.slots.findIdx? (fun p => p.1 == k) with
  | some i => ⟨ps.slots.setIfInBounds i (k, s), ps.distinct_setIfInBounds s h⟩
  | none => ⟨ps.slots.push (k, s), ps.distinct_push s h⟩

def erase (ps : Props) (k : Key) : Props where
  slots := ps.slots.filter fun p => p.1 != k
  distinct := by
    rw [Array.toList_filter]
    exact (List.filter_sublist.map Prod.fst).nodup ps.distinct

/-- The properties of a list of keys with their slots; of two with the same key the later one. -/
def ofList (ps : List (Key × Slot)) : Props := ps.foldl (fun ps p => ps.insert p.1 p.2) ∅

/-- The properties of a list of values: its length and its elements. -/
def listing (length : Slot) (elements : List Slot) : Props where
  slots := ((Key.length, length) :: elements.zipIdx.map fun (s, i) => (Key.ofNat i, s)).toArray
  distinct := by
    have hkeys : (elements.zipIdx.map fun p => (Key.ofNat p.2, p.1)).map Prod.fst =
        (List.range' 0 elements.length).map Key.ofNat := by
      rw [← List.zipIdx_map_snd 0 elements, List.map_map, List.map_map]
      rfl
    rw [List.toList_toArray, List.map_cons, List.nodup_cons, hkeys]
    refine ⟨fun h => ?_, List.pairwise_map.mpr ?_⟩
    · obtain ⟨n, -, hn⟩ := List.mem_map.mp h
      exact Key.ofNat_ne_length n hn
    · exact List.Pairwise.imp (fun hne heq => hne (Key.ofNat_injective heq)) List.nodup_range'

/-- The keys in the order in which they were added. -/
def keys (ps : Props) : List Key := ps.slots.toList.map Prod.fst

/-- The indices among the keys, in ascending order. -/
def indices (ps : Props) : List ArrayIndex :=
  (ps.keys.filterMap Key.index?).mergeSort fun i j => i ≤ j

/-- The indices in ascending order, then the names, then the symbols. -/
def orderedKeys (ps : Props) : List Key :=
  ps.indices.map Key.index ++ ps.keys.filter Key.isName ++ ps.keys.filter Key.isSymbol

end Props

/-- The identity of a host callback: the instance that registered it and its number there. -/
structure Anchor where
  owner : Nat
  id : Nat
deriving DecidableEq, Repr, Inhabited

/-- The built-in objects a realm has under a name of their own. -/
inductive Intrinsic where
  | objectPrototype | functionPrototype | arrayPrototype | stringPrototype | numberPrototype
  | booleanPrototype | symbolPrototype | bigintPrototype | datePrototype | errorPrototype
  | typeErrorPrototype | rangeErrorPrototype | referenceErrorPrototype | syntaxErrorPrototype
  | evalErrorPrototype | uriErrorPrototype | aggregateErrorPrototype
  | mapPrototype | setPrototype | weakMapPrototype | weakSetPrototype
  | iteratorPrototype | listIteratorPrototype
  | globalObject | math | json | reflect
  | objectConstructor | functionConstructor | arrayConstructor | stringConstructor
  | numberConstructor | booleanConstructor | symbolConstructor | bigintConstructor
  | dateConstructor | errorConstructor | typeErrorConstructor | rangeErrorConstructor
  | referenceErrorConstructor | syntaxErrorConstructor | evalErrorConstructor
  | uriErrorConstructor | aggregateErrorConstructor | proxyConstructor
  | mapConstructor | setConstructor | weakMapConstructor | weakSetConstructor
  | arrayValues
deriving DecidableEq, Repr, Inhabited

/-- The error classes of the language. -/
inductive ErrorClass where
  | error | typeError | rangeError | referenceError | syntaxError | evalError | uriError
deriving DecidableEq, Repr, Inhabited

namespace ErrorClass

def name : ErrorClass → String
  | .error => "Error"
  | .typeError => "TypeError"
  | .rangeError => "RangeError"
  | .referenceError => "ReferenceError"
  | .syntaxError => "SyntaxError"
  | .evalError => "EvalError"
  | .uriError => "URIError"

def proto : ErrorClass → Intrinsic
  | .error => .errorPrototype
  | .typeError => .typeErrorPrototype
  | .rangeError => .rangeErrorPrototype
  | .referenceError => .referenceErrorPrototype
  | .syntaxError => .syntaxErrorPrototype
  | .evalError => .evalErrorPrototype
  | .uriError => .uriErrorPrototype

end ErrorClass

/-- A script function with the surroundings it was made in. -/
structure Closure where
  info : FunctionInfo
  params : List Code
  functions : List Code
  body : List Code
  scope : Ref
  realm : Ref
  /-- The object whose parent `super` means. -/
  home : Option Ref
  /-- Fields a constructor gives its instances, with their keys already computed. -/
  fields : List (Key × Code)
deriving Inhabited

/-- What an object is beyond its properties. -/
inductive Nature where
  | plain
  | array
  | error
  | booleanBox (b : Bool)
  | numberBox (x : Float)
  | stringBox (t : Text)
  | symbolBox (s : Symbol)
  | bigintBox (n : Int)
  | date (time : Time)
  /-- The arguments of a call; those still tied to a parameter name the scope and the parameter. -/
  | arguments (tied : List (ArrayIndex × Ref × String))
  | closure (c : Closure)
  /-- A built-in function, by its name in the library of built-ins. -/
  | builtin (name : String) (realm : Ref) (isConstructor : Bool)
  /-- A host callback. Which one, the object's anchor says. -/
  | hostFunction (realm : Ref)
  | bound (target : Ref) (this : Value) (args : List Value) (isConstructor : Bool)
  /-- A proxy; a revoked one has neither target nor handler. -/
  | proxy (parts : Option (Ref × Ref)) (callable isConstructor : Bool)
  | map (entries : Array (Option (Value × Value)))
  | set (entries : Array (Option Value))
  /-- An iterator over an array-like object, a string, a map or a set. -/
  | listIterator (subject : Value) (next : Nat) (sort : Nat)
deriving Inhabited

namespace Nature

def isCallable : Nature → Bool
  | .closure _ | .builtin .. | .hostFunction _ | .bound .. => true
  | .proxy _ callable _ => callable
  | _ => false

def isConstructor : Nature → Bool
  | .closure c => c.info.sort.isConstructor
  | .builtin _ _ b => b
  | .bound _ _ _ b => b
  | .proxy _ _ b => b
  | _ => false

/-- Whether the inside of an object can turn into another: it can change, but not its sort. -/
def canBecome : Nature → Nature → Bool
  | .arguments _, .arguments _ | .closure _, .closure _ | .date _, .date _ | .map _, .map _
  | .set _, .set _ | .listIterator .., .listIterator .. => true
  | _, _ => false

end Nature

structure Object where
  nature : Nature
  proto : Option Ref
  extensible : Bool
  props : Props
  anchor : Option Anchor
deriving Inhabited

/-- A variable: its value, absent until it is initialised, and whether it may change. -/
structure Binding where
  name : String
  value : Option Value
  mutable : Bool
  /-- Whether assigning to an unchanging variable is an error also in sloppy code. -/
  strict : Bool
deriving Inhabited

/-- What a function scope knows about its call. -/
structure CallInfo where
  /-- Absent in a derived constructor until its parent has run. -/
  this : Option Value
  callee : Ref
  newTarget : Value
deriving Inhabited

structure Scope where
  bindings : Array Binding
  outer : Option Ref
  /-- Present in the scope of a call that has a `this` of its own. -/
  call : Option CallInfo
  /-- Present in the outermost scope of a realm: the realm. -/
  global : Option Ref
deriving Inhabited

/-- A realm: the address of its first intrinsic object, its global scope, and how many cells its
built-in objects take. -/
structure Realm where
  base : Ref
  scope : Ref
  count : Nat
deriving Inhabited

inductive Cell where
  | object (o : Object)
  | scope (s : Scope)
  | realm (r : Realm)
  /-- The loop iterations of one call so far. -/
  | tally (n : Nat)
deriving Inhabited

end ScriptBoundary.Script
