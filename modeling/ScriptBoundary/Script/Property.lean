import ScriptBoundary.Script.Arguments
import ScriptBoundary.Script.Convert

/-!
# Properties

The internal methods of objects that are not proxies: own properties, inheritance, definition,
assignment and deletion. Three natures depart from the ordinary rules. An array keeps its length
above its indices, a string object shows its units as properties, and the arguments of a sloppy
call share their elements with the parameters.

A prototype may be a proxy, so whatever goes on to the prototype goes through the machine.

The object at the root of the prototypes of a realm never gets a prototype itself.
-/

namespace ScriptBoundary.Script

open Script.Comp

/-- The indices under which the units of a text stand. -/
def unitIndices (t : Text) : List ArrayIndex := (List.range t.size).filterMap ArrayIndex.ofNat?

namespace Object

/-- The length of an array object. -/
def arrayLength (o : Object) : Nat :=
  match (o.props.find? Key.length).bind Slot.value? with
  | some (.number x) => x.toUInt64.toNat
  | _ => 0

/-- The unit of a string object that a key stands for, as a property. -/
def unit? (o : Object) (k : Key) : Option Slot :=
  match o.nature, k with
  | .stringBox t, .index i => (t.unitAt? i.val).map fun u => ⟨.data (.text u) false, true, false⟩
  | _, _ => none

/-- The own property of a key, without a look at tied parameters. A unit cannot be redefined or
removed, so it comes before what is in the table. -/
def slot? (o : Object) (k : Key) : Option Slot := (o.unit? k).or (o.props.find? k)

/-- Whether a key is that of a unit of a string object. -/
def isUnit (o : Object) (k : Key) : Bool :=
  match o.nature, k with
  | .stringBox t, .index i => i.val < t.size
  | _, _ => false

theorem isSome_unit? (o : Object) (k : Key) : (o.unit? k).isSome = o.isUnit k := by
  unfold unit? isUnit
  split
  · rw [Option.isSome_map, Text.unitAt?, Option.isSome_map, Bool.eq_iff_iff, isSome_getElem?]
    exact decide_eq_true_iff.symm
  · rfl

theorem unit?_eq_none_iff {o : Object} {k : Key} : o.unit? k = none ↔ o.isUnit k = false := by
  rw [← isSome_unit?, Option.isSome_eq_false_iff, Option.isNone_iff_eq_none]

/-- Without a unit in the way the table says what there is. -/
theorem slot?_of_isUnit_eq_false {o : Object} {k : Key} (h : o.isUnit k = false) :
    o.slot? k = o.props.find? k := by
  rw [slot?, unit?_eq_none_iff.mpr h, Option.none_or]

theorem isUnit_of_plain {o : Object} (h : o.nature = .plain) (k : Key) : o.isUnit k = false := by
  unfold isUnit
  rw [h]

/-- The own keys in their order: first the units of a string object. -/
def keys (o : Object) : List Key :=
  match o.nature with
  | .stringBox t =>
    (unitIndices t).map Key.index ++ o.props.orderedKeys.filter fun k => !o.isUnit k
  | _ => o.props.orderedKeys

/-- Whether the object can be asked about itself without running a trap. -/
def isOrdinary (o : Object) : Bool :=
  match o.nature with
  | .proxy .. => false
  | _ => true

/-- The prototype that scripts would be told of, as far as no trap has to say it. -/
def parent? (o : Object) : Option Ref := if o.isOrdinary then o.proto else none

end Object

namespace Heap

/-- The own property of a key as the object shows it now. -/
def ownSlot? (h : Heap) (r : Ref) (k : Key) : Option Slot :=
  let o := h.object r
  (o.slot? k).map fun s =>
    match o.tiedTo? k, s.content with
    | some (scope, name), .data v w =>
      { s with content := .data (((h.scope scope).find? name).bind (·.value) |>.getD v) w }
    | _, _ => s

/-- Whether an object is at the root of the prototypes of some realm. -/
def isRootPrototype (h : Heap) (r : Ref) : Bool :=
  h.cells.any fun c => match c with
    | .realm m => m.base + Intrinsic.objectPrototype.ctorIdx == r
    | _ => false

/-- Whether `p` is met on the way from `r` up the prototypes, as far as no proxy stands in it. -/
def inheritsFrom (h : Heap) (p : Ref) : Nat → Ref → Bool
  | 0, _ => false
  | fuel + 1, r =>
    if r == p then true
    else
      let o := h.object r
      match o.nature, o.proto with
      | .proxy .., _ | _, none => false
      | _, some q => inheritsFrom h p fuel q

end Heap

def ownSlot (r : Ref) (k : Key) : Comp (Option Slot) := inspect (·.ownSlot? r k)

/-- Defines an own property, if the object and the present property allow it. -/
def defineOrdinary (r : Ref) (k : Key) (d : Descriptor) : Comp Bool := do
  match ← ownSlot r k with
  | none =>
    if (← readObject r).extensible then
      performOnly (.putSlot r k d.toSlot)
      return true
    else return false
  | some s =>
    if d.isAllowedOver s then
      performOnly (.putSlot r k (d.layOver s))
      return true
    else return false

/-- Writes the length of an array without further ado. -/
def writeLength (r : Ref) (n : Nat) (writable : Bool) : Comp Unit :=
  performOnly (.putSlot r Key.length ⟨.data (Value.ofNat n) writable, false, false⟩)

/-- Deletes elements in the order given; stops at one that cannot be deleted and gives it. -/
def dropElements (r : Ref) : List ArrayIndex → Comp (Option ArrayIndex)
  | [] => pure none
  | i :: rest => do
    match ← ownSlot r (.index i) with
    | some s =>
      if s.configurable then
        performOnly (.dropSlot r (.index i))
        dropElements r rest
      else return some i
    | none => dropElements r rest

/-- The indices from `n` on, the greatest first. -/
def Object.indicesFrom (o : Object) (n : Nat) : List ArrayIndex :=
  (o.props.indices.filter fun i => n ≤ i.val).reverse

namespace Machine

variable (m : Machine)

/-- Defines the length of an array: elements above a shorter length go, as far as they can. -/
def defineLength (r : Ref) (d : Descriptor) : Comp Bool := do
  match d.value with
  | none => defineOrdinary r Key.length d
  | some v =>
    let n := (← m.toNumber v).toWord.toNat
    let x ← m.toNumber v
    if n.toFloat != x then raise .rangeError "bad length for array"
    else
      let d := { d with value := some (Value.ofNat n) }
      let o ← readObject r
      if o.arrayLength ≤ n then defineOrdinary r Key.length d
      else if !((o.props.find? Key.length).any Slot.isWritable) then return false
      else
        let staysWritable := d.writable != some false
        if !(← defineOrdinary r Key.length { d with writable := some true }) then return false
        else
          match ← dropElements r (o.indicesFrom n) with
          | some i =>
            writeLength r (i.val + 1) staysWritable
            return false
          | none =>
            if !staysWritable then writeLength r n false
            return true

/-- Defines a property of an array: an index at or above the length moves the length. -/
def defineInArray (r : Ref) (k : Key) (d : Descriptor) : Comp Bool := do
  match k with
  | .index i =>
    let o ← readObject r
    if i.val < o.arrayLength then defineOrdinary r k d
    else if !((o.props.find? Key.length).any Slot.isWritable) then return false
    else if ← defineOrdinary r k d then
      writeLength r (i.val + 1) true
      return true
    else return false
  | k => if k == Key.length then m.defineLength r d else defineOrdinary r k d

end Machine

/-- Defines a property of an arguments object: what is written to a tied element is written to
the parameter. -/
def defineInArguments (r : Ref) (k : Key) (d : Descriptor) : Comp Bool := do
  match (← readObject r).tiedTo? k with
  | none => defineOrdinary r k d
  | some (scope, name) =>
    let shown ← ownSlot r k
    let full :=
      if d.isData && d.value.isNone && d.writable == some false then
        { d with value := shown.bind Slot.value? }
      else d
    if !(← defineOrdinary r k full) then return false
    else if d.isAccessor then
      untie r k
      return true
    else
      match d.value with
      | some v => performOnly (.store scope name v)
      | none => pure ()
      if d.writable == some false then untie r k
      return true

namespace Machine

variable (m : Machine)

/-- Defines an own property of an object that is not a proxy. -/
def defineOwn (r : Ref) (k : Key) (d : Descriptor) : Comp Bool := do
  match (← readObject r).nature with
  | .array => m.defineInArray r k d
  | .arguments _ => defineInArguments r k d
  | .stringBox t =>
    match k with
    | .index i =>
      match t.unitAt? i.val with
      | some u => return d.isAllowedOver ⟨.data (.text u) false, true, false⟩
      | none => defineOrdinary r k d
    | k => defineOrdinary r k d
  | _ => defineOrdinary r k d

/-- What reading a property gives. -/
def readSlot (s : Slot) (receiver : Value) : Comp Value :=
  match s.content with
  | .data v _ => pure v
  | .accessor g _ => if g.isUndefined then pure .undefined else m.call g receiver []

def getFrom (r : Ref) (k : Key) (receiver : Value) : Comp Value := do
  match ← ownSlot r k with
  | some s => m.readSlot s receiver
  | none =>
    match (← readObject r).proto with
    | some p => m.getFor p k receiver
    | none => return .undefined

def hasIn (r : Ref) (k : Key) : Comp Bool := do
  match ← ownSlot r k with
  | some _ => return true
  | none =>
    match (← readObject r).proto with
    | some p => m.has p k
    | none => return false

/-- Assigns where a property was found, or would be created: an accessor is called, a writable
property is given a value on the receiver. -/
def assignTo (s : Slot) (k : Key) (v receiver : Value) : Comp Bool := do
  match s.content with
  | .accessor _ set =>
    if set.isUndefined then return false
    else
      let _ ← m.call set receiver [v]
      return true
  | .data _ writable =>
    match writable, receiver with
    | true, .object q =>
      match ← m.getOwn q k with
      | some t =>
        if t.isAccessor || !t.isWritable then return false
        else m.define q k { value := some v }
      | none => m.define q k (Descriptor.ofSlot (Slot.plain v))
    | _, _ => return false

def setIn (r : Ref) (k : Key) (v receiver : Value) : Comp Bool := do
  match ← ownSlot r k with
  | some s => m.assignTo s k v receiver
  | none =>
    match (← readObject r).proto with
    | some p => m.setFor p k v receiver
    | none => m.assignTo (Slot.plain .undefined) k v receiver

end Machine

def deleteFrom (r : Ref) (k : Key) : Comp Bool := do
  match ← ownSlot r k with
  | none => return true
  | some s =>
    if s.configurable then
      performOnly (.dropSlot r k)
      untie r k
      return true
    else return false

def ownKeysOf (r : Ref) : Comp (List Key) := do return (← readObject r).keys

/-- Changes the prototype, unless the object is closed, would become its own ancestor or is at the
root of all prototypes. -/
def changeProto (r : Ref) (p : Option Ref) : Comp Bool := do
  let o ← readObject r
  if o.proto == p then return true
  else if !o.extensible then return false
  else if ← inspect fun h => o.proto.isNone && h.isRootPrototype r then return false
  else
    let cyclic ← inspect fun h => match p with
      | some q => h.inheritsFrom r (h.cells.size + 1) q
      | none => false
    if cyclic then return false
    else
      performOnly (.setProto r p)
      return true

end ScriptBoundary.Script
