import ScriptBoundary.Script.Builtin.Arrays

/-!
# The string constructor and prototype

Positions and lengths count UTF-16 units. Changing case affects the letters A to Z only; no other
letter has a case here.
-/

namespace ScriptBoundary.Script

open Script.Comp

namespace Builtin

/-- `this` as a text, as most functions of strings take it. -/
def thisText (m : Machine) (c : BuiltinCall) : Comp Text := do
  if c.this.isNullish then throwType "Can't call method on null or undefined" else m.toText c.this

/-- The text that `this` is or wraps. -/
def ownText (c : BuiltinCall) : Comp Text := do
  match c.this, ← c.thisNature with
  | .text t, _ => return t
  | _, .stringBox t => return t
  | _, _ => throwType "'this' is not a string"

/-- The integer an argument stands for, zero if it is infinite or missing. -/
def wholeNumber (m : Machine) (v : Value) : Comp Extent := do
  if v.isUndefined then return .finite 0 else m.toExtent v

/-- The unit at a position. -/
def unitOf (t : Text) : Extent → Option UInt16
  | .finite (.ofNat n) => t.units[n]?
  | _ => none

def mapUnits (f : UInt16 → UInt16) (t : Text) : Text := ⟨t.units.map f⟩

/-- The letters a to z as A to Z. -/
def upperUnit (u : UInt16) : UInt16 := if 97 ≤ u && u ≤ 122 then u - 32 else u

/-- The letters A to Z as a to z. -/
def lowerUnit (u : UInt16) : UInt16 := if 65 ≤ u && u ≤ 90 then u + 32 else u

/-- A text so many times over. -/
def repeated (t : Text) : Nat → Text
  | 0 => .empty
  | n + 1 => repeated t n ++ t

/-- Pads a text to a length with copies of a filler. -/
def padding (t : Text) (width : Nat) (filler : Text) : Text :=
  if width ≤ t.size || filler.isEmpty then .empty
  else
    let missing := width - t.size
    (repeated filler (missing / filler.size + 1)).slice 0 missing

/-- The parts of a text between separators. -/
def splitAt (t separator : Text) : Nat → Nat → List Text
  | 0, start => [t.slice start t.size]
  | fuel + 1, start =>
    match t.indexOf? separator start with
    | some i => t.slice start i :: splitAt t separator fuel (i + separator.size)
    | none => [t.slice start t.size]

/-- The units of a text, each as a text. -/
def unitTexts (t : Text) : List Text := t.units.toList.map fun u => ⟨#[u]⟩

/-- The text of a code point. -/
def ofCodePoint (n : Nat) : Text :=
  if n < 0x10000 then ⟨#[UInt16.ofNat n]⟩
  else ⟨#[UInt16.ofNat (0xD800 + (n - 0x10000) / 0x400), UInt16.ofNat (0xDC00 + (n - 0x10000) % 0x400)]⟩

/-- Two positions given as arguments, cut to the text, the second one the end if missing. -/
def twoPositions (m : Machine) (c : BuiltinCall) (size : Nat) : Comp (Nat × Nat) := do
  let start := (← wholeNumber m (c.arg 0)).clamp size
  let stop ← (if (c.arg 1).isUndefined then pure size
    else do return (← m.toExtent (c.arg 1)).clamp size : Comp Nat)
  return (start, stop)

def texts : List Builtin :=
  [constructor .stringConstructor (some .stringPrototype) "String" 1 fun m c => do
      let t ← (match c.args, c.newTarget with
        | [], _ => pure Text.empty
        | .symbol s :: _, none => pure ("Symbol(" ++ (s.description.getD .empty) ++ ")")
        | v :: _, _ => m.toText v : Comp Text)
      match c.newTarget with
      | none => return .text t
      | some _ =>
        let v ← c.make m (.stringBox t) .stringPrototype
        match v with
        | .object r =>
          performOnly (.putSlot r Key.length (Slot.fixed (Value.ofNat t.size)))
          return v
        | _ => return v,
   method .stringConstructor "String.fromCharCode" 1 fun m c => do
      let xs ← mapList m.toNumber c.args
      return .text ⟨(xs.map fun x => UInt16.ofNat x.toWord.toNat).toArray⟩,
   method .stringConstructor "String.fromCodePoint" 1 fun m c => do
      let xs ← mapList m.toNumber c.args
      if xs.all fun x => x.isIntegral && 0.0 ≤ x && x ≤ 1114111.0 then
        return .text (Text.join .empty (xs.map fun x => ofCodePoint x.toIntOrZero.toNat))
      else raise .rangeError "codepoint is not a valid number",
   method .stringPrototype "String.prototype.toString" 0 fun _ c => do return .text (← ownText c),
   method .stringPrototype "String.prototype.valueOf" 0 fun _ c => do return .text (← ownText c),
   method .stringPrototype "String.prototype.at" 1 fun m c => do
      let t ← thisText m c
      match ← wholeNumber m (c.arg 0) with
      | .finite i =>
        let i := if i < 0 then i + t.size else i
        if i < 0 then return .undefined
        else return ((t.unitAt? i.toNat).map Value.text).getD .undefined
      | _ => return .undefined,
   method .stringPrototype "String.prototype.charAt" 1 fun m c => do
      let t ← thisText m c
      return .text (((unitOf t (← wholeNumber m (c.arg 0))).map fun u => ⟨#[u]⟩).getD .empty),
   method .stringPrototype "String.prototype.charCodeAt" 1 fun m c => do
      let t ← thisText m c
      match unitOf t (← wholeNumber m (c.arg 0)) with
      | some u => return Value.ofNat u.toNat
      | none => return .number (0.0 / 0.0),
   method .stringPrototype "String.prototype.codePointAt" 1 fun m c => do
      let t ← thisText m c
      match ← wholeNumber m (c.arg 0) with
      | .finite (.ofNat i) =>
        match t.units[i]?, t.units[i + 1]? with
        | some u, some v =>
          if Utf16.isHigh u && Utf16.isLow v then return Value.ofNat (Utf16.joinPair u v).toNat
          else return Value.ofNat u.toNat
        | some u, none => return Value.ofNat u.toNat
        | none, _ => return .undefined
      | _ => return .undefined,
   method .stringPrototype "String.prototype.concat" 1 fun m c => do
      let t ← thisText m c
      return .text (← foldList (fun t v => do return t ++ (← m.toText v)) t c.args),
   method .stringPrototype "String.prototype.endsWith" 1 fun m c => do
      let t ← thisText m c
      let part ← m.toText (c.arg 0)
      let stop ← (if (c.arg 1).isUndefined then pure t.size
        else do return (← m.toExtent (c.arg 1)).clamp t.size : Comp Nat)
      return .boolean (part.size ≤ stop && t.hasAt part (stop - part.size)),
   method .stringPrototype "String.prototype.includes" 1 fun m c => do
      let t ← thisText m c
      let part ← m.toText (c.arg 0)
      let start := (← wholeNumber m (c.arg 1)).clamp t.size
      return .boolean (t.indexOf? part start).isSome,
   method .stringPrototype "String.prototype.indexOf" 1 fun m c => do
      let t ← thisText m c
      let part ← m.toText (c.arg 0)
      match t.indexOf? part ((← wholeNumber m (c.arg 1)).clamp t.size) with
      | some i => return Value.ofNat i
      | none => return .number (-1.0),
   method .stringPrototype "String.prototype.lastIndexOf" 1 fun m c => do
      let t ← thisText m c
      let part ← m.toText (c.arg 0)
      let x ← m.toNumber (c.arg 1)
      let stop := if x.isNaN then t.size else (Extent.ofFloat x).clamp t.size
      match t.lastIndexOf? part stop with
      | some i => return Value.ofNat i
      | none => return .number (-1.0),
   method .stringPrototype "String.prototype.padEnd" 1 fun m c => do
      let t ← thisText m c
      let width ← m.toLength (c.arg 0)
      let filler ← (if (c.arg 1).isUndefined then pure " " else m.toText (c.arg 1) : Comp Text)
      return .text (t ++ padding t width filler),
   method .stringPrototype "String.prototype.padStart" 1 fun m c => do
      let t ← thisText m c
      let width ← m.toLength (c.arg 0)
      let filler ← (if (c.arg 1).isUndefined then pure " " else m.toText (c.arg 1) : Comp Text)
      return .text (padding t width filler ++ t),
   method .stringPrototype "String.prototype.repeat" 1 fun m c => do
      let t ← thisText m c
      match ← wholeNumber m (c.arg 0) with
      | .finite (.ofNat n) => return .text (repeated t n)
      | _ => raise .rangeError "repeat count cannot be a negative number",
   method .stringPrototype "String.prototype.replace" 2 fun m c => do
      let t ← thisText m c
      let part ← m.toText (c.arg 0)
      match t.indexOf? part 0 with
      | none => return .text t
      | some i =>
        let new ← (do
          if ← isCallable (c.arg 1) then
            m.toText (← m.call (c.arg 1) .undefined [.text part, Value.ofNat i, .text t])
          else m.toText (c.arg 1) : Comp Text)
        return .text (t.slice 0 i ++ new ++ t.slice (i + part.size) t.size),
   method .stringPrototype "String.prototype.slice" 2 fun m c => do
      let t ← thisText m c
      let start := (← wholeNumber m (c.arg 0)).within t.size
      let stop ← position m (c.arg 1) t.size t.size
      return .text (t.slice start stop),
   method .stringPrototype "String.prototype.split" 2 fun m c => do
      let t ← thisText m c
      let limit ← (if (c.arg 1).isUndefined then pure 4294967295
        else do return (← m.toNumber (c.arg 1)).toWord.toNat : Comp Nat)
      let separator ← m.toText (c.arg 0)
      let parts :=
        if (c.arg 0).isUndefined then [t]
        else if separator.isEmpty then unitTexts t
        else splitAt t separator (t.size + 1) 0
      return .object (← newArray ((parts.take limit).map .text)),
   method .stringPrototype "String.prototype.startsWith" 1 fun m c => do
      let t ← thisText m c
      let part ← m.toText (c.arg 0)
      return .boolean (t.hasAt part ((← wholeNumber m (c.arg 1)).clamp t.size)),
   method .stringPrototype "String.prototype.substr" 2 fun m c => do
      let t ← thisText m c
      let start := (← wholeNumber m (c.arg 0)).within t.size
      let count ← (if (c.arg 1).isUndefined then pure t.size
        else do return (← m.toExtent (c.arg 1)).clamp t.size : Comp Nat)
      return .text (t.slice start (min t.size (start + count))),
   method .stringPrototype "String.prototype.substring" 2 fun m c => do
      let t ← thisText m c
      let (a, b) ← twoPositions m c t.size
      return .text (t.slice (min a b) (max a b)),
   method .stringPrototype "String.prototype.toLowerCase" 0 fun m c => do
      return .text (mapUnits lowerUnit (← thisText m c)),
   method .stringPrototype "String.prototype.toUpperCase" 0 fun m c => do
      return .text (mapUnits upperUnit (← thisText m c)),
   method .stringPrototype "String.prototype.trim" 0 fun m c => do
      return .text (← thisText m c).trim,
   method .stringPrototype "String.prototype.trimStart" 0 fun m c => do
      return .text (← thisText m c).trimStart,
   method .stringPrototype "String.prototype.trimEnd" 0 fun m c => do
      return .text (← thisText m c).trimEnd,
   symbolMethod .stringPrototype "String.prototype[iterator]" Symbol.iterator 0 fun m c => do
      newListIterator (.text (← thisText m c)) 0]

end Builtin

end ScriptBoundary.Script
