import ScriptBoundary.Boundary.World
import ScriptBoundary.Script.Builtin.Dates

/-!
# The codec

How script values become boundary values and back.

`encode` copies what can be copied: null, undefined, booleans, numbers and dates. A text or any
other object gets a new handle, labelled with the kind it really has. Symbols and big integers mean
nothing to a host and become undefined.

`decode` gives back the handle of the value it is given, so a value can be decoded once. A date
becomes a new date object of the realm that asks.
-/

namespace ScriptBoundary.Boundary

open Script (Heap Ref Intrinsic)

/-- What a script value becomes: a value of its own, or a handle of some kind. -/
inductive Form where
  | inline (v : Value)
  | composite (kind : Kind)
deriving Repr

/-- The kind of an object that is no date. -/
def Kind.ofNature (n : Script.Nature) : Kind :=
  match n with
  | .array => .array
  | n => if n.isCallable then .function else .object

/-- What a script value becomes. Dates are told from other objects first, then arrays, then
functions. -/
def Form.of (h : Heap) (v : Script.Value) : Form :=
  match v with
  | .null => .inline .null
  | .undefined => .inline .undefined
  | .boolean b => .inline (.boolean b)
  | .number x => .inline (.number x)
  | .text _ => .composite .string
  | .symbol _ | .bigint _ => .inline .undefined
  | .object r =>
    match (h.object r).nature with
    | .date t => .inline (.date t.ms)
    | n => .composite (Kind.ofNature n)

/-- A new date object of a realm. -/
def newDate (h : Heap) (realm : Ref) (ms : Float) : Heap × Ref :=
  let proto := (h.realm realm).base + Intrinsic.datePrototype.ctorIdx
  h.apply (.newObject (.date (.clip ms)) (some proto) ∅)

namespace World

/-- Hands a script value to the host, at the expense of an instance. -/
def encode (w : World) (owner : InstanceId) (v : Script.Value) : Value × World :=
  match Form.of w.heap v with
  | .inline u => (u, w)
  | .composite kind =>
    let (h, w) := w.newHandle owner v
    (.composite kind h, w)

/-- Hands script values to the host, in their order. -/
def encodeAll (w : World) (owner : InstanceId) : List Script.Value → List Value × World
  | [] => ([], w)
  | v :: vs =>
    let (u, w) := w.encode owner v
    let (us, w) := w.encodeAll owner vs
    (u :: us, w)

/-- Takes a value back from the host, for use in a realm. -/
def decode (w : World) (realm : Ref) (v : Value) : Script.Value × World :=
  match v with
  | .null => (.null, w)
  | .undefined => (.undefined, w)
  | .boolean b => (.boolean b, w)
  | .number x => (.number x, w)
  | .date ms =>
    let (heap, r) := newDate w.heap realm ms
    (.object r, { w with heap })
  | .composite _ h => (w.referent h, w.releaseHandle h)

/-- Takes values back from the host, in their order. -/
def decodeAll (w : World) (realm : Ref) : List Value → List Script.Value × World
  | [] => ([], w)
  | v :: vs =>
    let (u, w) := w.decode realm v
    let (us, w) := w.decodeAll realm vs
    (u :: us, w)

end World

end ScriptBoundary.Boundary
