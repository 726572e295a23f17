import ScriptBoundary.Script.Builtin.Basic

/-!
# Numbers, booleans, big integers and mathematics
-/

namespace ScriptBoundary.Script

open Script.Comp

namespace Builtin

/-- The number that `this` is or wraps. -/
def thisNumber (c : BuiltinCall) : Comp Float := do
  match c.this, ← c.thisNature with
  | .number x, _ => return x
  | _, .numberBox x => return x
  | _, _ => throwType "'this' is not a number"

def thisBoolean (c : BuiltinCall) : Comp Bool := do
  match c.this, ← c.thisNature with
  | .boolean b, _ => return b
  | _, .booleanBox b => return b
  | _, _ => throwType "'this' is not a boolean"

def thisInteger (c : BuiltinCall) : Comp Int := do
  match c.this, ← c.thisNature with
  | .bigint n, _ => return n
  | _, .bigintBox n => return n
  | _, _ => throwType "'this' is not a BigInt"

/-- A digit of a radix up to 36. -/
def radixDigit (n : Nat) : Char := if n < 10 then Char.ofNat (48 + n) else Char.ofNat (87 + n)

/-- The digits of a natural number in some radix. -/
def radixDigits (radix : Nat) : Nat → Nat → List Char → List Char
  | 0, _, out => out
  | fuel + 1, n, out =>
    let out := radixDigit (n % radix) :: out
    if n / radix == 0 then out else radixDigits radix fuel (n / radix) out

/-- The text of an integer in some radix. -/
def integerText (radix : Nat) (n : Int) : Text :=
  let ds := String.ofList (radixDigits radix (n.natAbs.log2 + 2) n.natAbs [])
  Text.ofString (if n < 0 then "-" ++ ds else ds)

/-- Digits after the point in some radix, until nothing is left. -/
def fractionDigits (radix : Nat) : Nat → Float → List Char
  | 0, _ => []
  | fuel + 1, x =>
    if x == 0.0 then []
    else
      let y := x * radix.toFloat
      radixDigit y.toUInt32.toNat :: fractionDigits radix fuel (y - y.floor)

/-- The text of a number in some radix. -/
def radixText (radix : Nat) (x : Float) : Text :=
  if radix == 10 || x.isNaN || x.isInf then numberText x
  else
    let whole := integerText radix (x.abs.toIntOrZero)
    let fraction := fractionDigits radix 52 (x.abs - x.abs.floor)
    let tail : Text := if fraction.isEmpty then .empty else "." ++ Text.ofString (String.ofList fraction)
    (if x < 0.0 then Text.ofString "-" else Text.empty) ++ whole ++ tail

/-- A radix given as an argument. -/
def radixOf (m : Machine) (v : Value) : Comp Nat := do
  if v.isUndefined then return 10
  else
    match ← m.toExtent v with
    | .finite n =>
      if 2 ≤ n && n ≤ 36 then return n.toNat
      else raise .rangeError "radix must be an integer at least 2 and no greater than 36"
    | _ => raise .rangeError "radix must be an integer at least 2 and no greater than 36"

/-- A number with so many digits after the point, a half rounded away from zero. -/
def fixedText (x : Float) (places : Nat) : Text :=
  match Binary.ofFloat x with
  | .finite negative m q =>
    let scaled := m * Nat.pow 10 places
    let n : Nat := match q with
      | .ofNat k => scaled * twoPow k
      | .negSucc k => (scaled + twoPow k) / twoPow (k + 1)
    let ds := toString n
    let ds := String.ofList (List.replicate (places + 1 - ds.length) '0') ++ ds
    let whole := String.ofList (ds.toList.take (ds.length - places))
    let fraction := String.ofList (ds.toList.drop (ds.length - places))
    let body := if places == 0 then whole else whole ++ "." ++ fraction
    Text.ofString (if negative && n != 0 then "-" ++ body else body)
  | _ => numberText x

/-- The longest decimal at the front of a text. -/
def leadingDecimal (t : Text) : Float :=
  let cs := t.trimStart.toString.toList
  let (negative, body) := match cs with
    | '-' :: r => (true, r)
    | '+' :: r => (false, r)
    | r => (false, r)
  let magnitude : Float :=
    if body.take 8 == "Infinity".toList then 1.0 / 0.0
    else
      let (whole, rest) := Decimal.takeDigits body
      let (fraction, rest) := match rest with
        | '.' :: r => Decimal.takeDigits r
        | r => ([], r)
      if whole.isEmpty && fraction.isEmpty then 0.0 / 0.0
      else
        let e : Int := ((Decimal.exponentPart? rest).map (·.1)).getD 0
        Decimal.nearest (Decimal.digitsValue (whole ++ fraction)) (e - (fraction.length : Int))
  if negative then -magnitude else magnitude

/-- The value of a digit or letter in a radix up to 36. -/
def letterValue? (c : Char) : Option Nat :=
  if c.isDigit then some (c.toNat - 48)
  else if 'a' ≤ c && c ≤ 'z' then some (c.toNat - 87)
  else if 'A' ≤ c && c ≤ 'Z' then some (c.toNat - 55)
  else none

/-- The longest integer at the front of a text. -/
def leadingInteger (t : Text) (radix : Int) : Float :=
  let cs := t.trimStart.toString.toList
  let (negative, body) := match cs with
    | '-' :: r => (true, r)
    | '+' :: r => (false, r)
    | r => (false, r)
  if radix != 0 && (radix < 2 || 36 < radix) then 0.0 / 0.0
  else
    let marked := match body with
      | '0' :: x :: _ => x == 'x' || x == 'X'
      | _ => false
    let (base, body) : Nat × List Char :=
      if marked && (radix == 0 || radix == 16) then (16, body.drop 2)
      else (if radix == 0 then 10 else radix.toNat, body)
    let ds := (body.map letterValue?).takeWhile fun d => d.any (· < base)
    if ds.isEmpty then 0.0 / 0.0
    else
      let n := ds.foldl (fun n d => n * base + d.getD 0) 0
      if negative then -Float.ofNat n else Float.ofNat n

def numbers : List Builtin :=
  [constructor .numberConstructor (some .numberPrototype) "Number" 1 fun m c => do
      let x ← (match c.args with
        | [] => pure 0.0
        | v :: _ => do
          match ← m.toNumeric v with
          | .bigint n => return Float.ofExactInt n
          | .number x => return x
          | _ => return 0.0 : Comp Float)
      match c.newTarget with
      | none => return .number x
      | some _ => c.make m (.numberBox x) .numberPrototype,
   method .numberConstructor "Number.isFinite" 1 fun _ c => do
      match c.arg 0 with
      | .number x => return .boolean x.isFinite
      | _ => return .boolean false,
   method .numberConstructor "Number.isInteger" 1 fun _ c => do
      match c.arg 0 with
      | .number x => return .boolean x.isIntegral
      | _ => return .boolean false,
   method .numberConstructor "Number.isNaN" 1 fun _ c => do
      match c.arg 0 with
      | .number x => return .boolean x.isNaN
      | _ => return .boolean false,
   method .numberConstructor "Number.isSafeInteger" 1 fun _ c => do
      match c.arg 0 with
      | .number x => return .boolean (x.isIntegral && x.abs ≤ 9007199254740991.0)
      | _ => return .boolean false,
   method .numberPrototype "Number.prototype.toString" 1 fun m c => do
      let x ← thisNumber c
      return .text (radixText (← radixOf m (c.arg 0)) x),
   method .numberPrototype "Number.prototype.toLocaleString" 0 fun _ c => do
      return .text (numberText (← thisNumber c)),
   method .numberPrototype "Number.prototype.valueOf" 0 fun _ c => do
      return .number (← thisNumber c),
   method .numberPrototype "Number.prototype.toFixed" 1 fun m c => do
      let x ← thisNumber c
      match ← (if (c.arg 0).isUndefined then pure (.finite 0) else m.toExtent (c.arg 0)
        : Comp Extent) with
      | .finite n =>
        if n < 0 || 100 < n then
          raise .rangeError "toFixed() digits argument must be between 0 and 100"
        else if x.abs ≥ 1e21 then return .text (numberText x)
        else return .text (fixedText x n.toNat)
      | _ => raise .rangeError "toFixed() digits argument must be between 0 and 100",
   method .globalObject "parseFloat" 1 fun m c => do
      return .number (leadingDecimal (← m.toText (c.arg 0))),
   method .globalObject "parseInt" 2 fun m c => do
      let t ← m.toText (c.arg 0)
      return .number (leadingInteger t (← m.toNumber (c.arg 1)).toSignedWord),
   method .globalObject "isFinite" 1 fun m c => do
      return .boolean (← m.toNumber (c.arg 0)).isFinite,
   method .globalObject "isNaN" 1 fun m c => do
      return .boolean (← m.toNumber (c.arg 0)).isNaN,
   constructor .booleanConstructor (some .booleanPrototype) "Boolean" 1 fun m c => do
      let b := (c.arg 0).truthy
      match c.newTarget with
      | none => return .boolean b
      | some _ => c.make m (.booleanBox b) .booleanPrototype,
   method .booleanPrototype "Boolean.prototype.toString" 0 fun _ c => do
      return Value.ofString (if ← thisBoolean c then "true" else "false"),
   method .booleanPrototype "Boolean.prototype.valueOf" 0 fun _ c => do
      return .boolean (← thisBoolean c),
   constructor .bigintConstructor (some .bigintPrototype) "BigInt" 1 fun m c => do
      if c.newTarget.isSome then throwType "BigInt is not a constructor"
      else
        match ← m.toPrimitive (c.arg 0) .number with
        | .number x =>
          if x.isIntegral then return .bigint x.toIntOrZero
          else raise .rangeError "Cannot convert number to BigInt"
        | .bigint n => return .bigint n
        | .boolean b => return .bigint (if b then 1 else 0)
        | .text t =>
          match Numeral.integerOf? t with
          | some n => return .bigint n
          | none => raise .syntaxError "cannot convert string to bigint primitive"
        | .undefined => throwType "cannot convert undefined to a BigInt"
        | .null => throwType "cannot convert null to a BigInt"
        | _ => throwType "cannot convert Symbol to a BigInt",
   method .bigintPrototype "BigInt.prototype.toString" 0 fun m c => do
      let n ← thisInteger c
      return .text (integerText (← radixOf m (c.arg 0)) n),
   method .bigintPrototype "BigInt.prototype.valueOf" 0 fun _ c => do
      return .bigint (← thisInteger c)]

/-- A function of one number. -/
def ofNumber (name : String) (f : Float → Float) : Builtin :=
  method .math ("Math." ++ name) 1 fun m c => do return .number (f (← m.toNumber (c.arg 0)))

/-- The greater of two numbers; a NaN wins, and the positive zero is the greater one. -/
def greater (x y : Float) : Float :=
  if x.isNaN || y.isNaN then 0.0 / 0.0
  else if x == 0.0 && y == 0.0 then (if x.hasSign then y else x)
  else if x < y then y else x

/-- The lesser of two numbers. -/
def lesser (x y : Float) : Float := -(greater (-x) (-y))

/-- The nearest integer, a half rounded up; the sign of a zero is kept. -/
def roundUp (x : Float) : Float :=
  if x.isNaN || x.isInf || x.isIntegral then x
  else
    let n := (x + 0.5).floor
    let n := if n - x > 0.5 then n - 1.0 else n
    if n == 0.0 && x.hasSign then -0.0 else n

def mathematics : List Builtin :=
  [ofNumber "abs" Float.abs, ofNumber "acos" Float.acos, ofNumber "asin" Float.asin,
   ofNumber "atan" Float.atan, ofNumber "cbrt" Float.cbrt, ofNumber "ceil" Float.ceil,
   ofNumber "cos" Float.cos, ofNumber "exp" Float.exp, ofNumber "floor" Float.floor,
   ofNumber "log" Float.log, ofNumber "log2" Float.log2, ofNumber "log10" Float.log10,
   ofNumber "round" roundUp, ofNumber "sin" Float.sin, ofNumber "sqrt" Float.sqrt,
   ofNumber "tan" Float.tan, ofNumber "fround" fun x => x.toFloat32.toFloat,
   ofNumber "sign" fun x => if x > 0.0 then 1.0 else if x < 0.0 then -1.0 else x,
   ofNumber "trunc" fun x => if x < 0.0 then x.ceil else x.floor,
   method .math "Math.atan2" 2 fun m c => do
      let y ← m.toNumber (c.arg 0)
      return .number (Float.atan2 y (← m.toNumber (c.arg 1))),
   method .math "Math.pow" 2 fun m c => do
      let x ← m.toNumber (c.arg 0)
      return .number (BinaryOp.power x (← m.toNumber (c.arg 1))),
   method .math "Math.max" 2 fun m c => do
      return .number ((← mapList m.toNumber c.args).foldl greater (-1.0 / 0.0)),
   method .math "Math.min" 2 fun m c => do
      return .number ((← mapList m.toNumber c.args).foldl lesser (1.0 / 0.0)),
   method .math "Math.hypot" 2 fun m c => do
      let xs ← mapList m.toNumber c.args
      if xs.any Float.isInf then return .number (1.0 / 0.0)
      else return .number (xs.foldl (fun s x => s + x * x) 0.0).sqrt]

end Builtin

end ScriptBoundary.Script
