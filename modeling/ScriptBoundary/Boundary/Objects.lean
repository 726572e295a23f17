import ScriptBoundary.Boundary.World
import ScriptBoundary.Script.Property

/-!
# Objects of the host's making

What operations do to the heap without running a script: they make empty objects, empty arrays and
the function objects of host callbacks, and they read the length of an array.
-/

namespace ScriptBoundary.Boundary

open Script (Ref)

/-- The properties a host function has. -/
def hostFunctionProps : Script.Props :=
  .ofList [(Script.Key.length, Script.Slot.readOnly (Script.Value.ofNat 0)),
    (Script.Key.ofString "name", Script.Slot.readOnly (Script.Value.ofString ""))]

/-- Makes the function object of a callback and enters the callback in the table. -/
def World.register (w : World) (i : InstanceId) (realm : Ref) (c : Callback) : Value × World :=
  match w.instance? i with
  | none => (.undefined, w)
  | some x =>
    let id := x.table.nextId
    let proto := (w.heap.realm realm).base + Script.Intrinsic.functionPrototype.ctorIdx
    let (heap, function) := w.heap.addHostFunction realm proto hostFunctionProps ⟨i, id⟩
    let w := { w with heap }.updateTable i fun t => t.register ⟨c, function⟩
    let (h, w) := (w.note (.registered id)).newHandle i (.object function)
    (.composite .function h, w)

/-- The length of an array; zero for anything else. -/
def World.arrayLength (w : World) (h : Handle) : Nat :=
  match w.referent h with
  | .object r =>
    let o := w.heap.object r
    match o.nature with
    | .array => o.arrayLength
    | _ => 0
  | _ => 0

/-- Whether a value is an array, which it takes no context to find out. -/
def World.isArray (w : World) (h : Handle) : Bool :=
  match w.referent h with
  | .object r => match (w.heap.object r).nature with | .array => true | _ => false
  | _ => false

/-- A new empty array of a realm. -/
def World.newArray (w : World) (i : InstanceId) (realm : Ref) : Handle × World :=
  let proto := (w.heap.realm realm).base + Script.Intrinsic.arrayPrototype.ctorIdx
  let length : Script.Slot := ⟨.data (Script.Value.ofNat 0) true, false, false⟩
  let (heap, r) := w.heap.apply (.newObject .array (some proto) (.listing length []))
  { w with heap }.newHandle i (.object r)

/-- A new empty object of a realm. -/
def World.newObject (w : World) (i : InstanceId) (realm : Ref) : Handle × World :=
  let proto := (w.heap.realm realm).base + Script.Intrinsic.objectPrototype.ctorIdx
  let (heap, r) := w.heap.apply (.newObject .plain (some proto) ∅)
  { w with heap }.newHandle i (.object r)

end ScriptBoundary.Boundary
