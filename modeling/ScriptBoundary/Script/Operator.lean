import ScriptBoundary.Script.Convert

/-!
# Operators

Binary and unary operators on values that are already evaluated. Arithmetic is on doubles or on
big integers, never on a mix of the two.
-/

namespace ScriptBoundary.Script

open Script.Comp

namespace BinaryOp

/-- `x` to the power `y`. Unlike the usual function it is a NaN at one and minus one to an infinite
power. -/
def power (x y : Float) : Float :=
  if y.isNaN then 0.0 / 0.0
  else if (x == 1.0 || x == -1.0) && y.isInf then 0.0 / 0.0
  else Float.pow x y

/-- A shift of a word by the lowest five bits of another. -/
def shiftCount (y : Float) : Nat := y.toWord.toNat % 32

def onNumbers (op : BinaryOp) (x y : Float) : Float :=
  let signed (n : Int) : Float := Float.ofExactInt (n.bmod (twoPow 32))
  let bits (f : UInt32 → UInt32 → UInt32) : Float := signed (f x.toWord y.toWord).toNat
  match op with
  | .add => x + y
  | .sub => x - y
  | .mul => x * y
  | .div => x / y
  | .mod => x.remainder y
  | .pow => power x y
  | .shiftLeft => signed (x.toSignedWord * twoPow (shiftCount y))
  | .shiftRight => signed (x.toSignedWord / twoPow (shiftCount y))
  | .shiftRightZero => (x.toWord.toNat / twoPow (shiftCount y)).toFloat
  | .bitAnd => bits (· &&& ·)
  | .bitOr => bits (· ||| ·)
  | .bitXor => bits (· ^^^ ·)
  | _ => 0.0 / 0.0

/-- A bitwise operator on integers in two's complement, wide enough for both. -/
def bitwise (f : Nat → Nat → Nat) (a b : Int) : Int :=
  let width := max a.natAbs.log2 b.natAbs.log2 + 2
  let word (n : Int) : Nat := (n % twoPow width).toNat
  Int.bmod (f (word a) (word b)) (twoPow width)

def onIntegers (op : BinaryOp) (a b : Int) : Comp Value := do
  let shift (a b : Int) : Int :=
    match b with
    | .ofNat n => a * twoPow n
    | .negSucc n => a / twoPow (n + 1)
  match op with
  | .add => return .bigint (a + b)
  | .sub => return .bigint (a - b)
  | .mul => return .bigint (a * b)
  | .div =>
    if b == 0 then raise .rangeError "BigInt division by zero" else return .bigint (a.tdiv b)
  | .mod =>
    if b == 0 then raise .rangeError "BigInt division by zero" else return .bigint (a.tmod b)
  | .pow =>
    if b < 0 then raise .rangeError "BigInt negative exponent"
    else return .bigint (Int.pow a b.toNat)
  | .shiftLeft => return .bigint (shift a b)
  | .shiftRight => return .bigint (shift a (-b))
  | .bitAnd => return .bigint (bitwise (· &&& ·) a b)
  | .bitOr => return .bigint (bitwise (· ||| ·) a b)
  | .bitXor => return .bigint (bitwise (· ^^^ ·) a b)
  | _ => throwType "BigInts have no unsigned right shift, use >> instead"

end BinaryOp

namespace Machine

variable (m : Machine)

/-- An operator that is defined on numbers only. -/
def arithmetic (op : BinaryOp) (a b : Value) : Comp Value := do
  match a, b with
  | .number x, .number y => return .number (op.onNumbers x y)
  | a, b =>
    let a ← m.toNumeric a
    match a, ← m.toNumeric b with
    | .number x, .number y => return .number (op.onNumbers x y)
    | .bigint p, .bigint q => op.onIntegers p q
    | _, _ => throwType "cannot mix BigInt and other types, use explicit conversions"

/-- Addition, which joins texts if either side is one. -/
def add (a b : Value) : Comp Value := do
  match a, b with
  | .number x, .number y => return .number (x + y)
  | .text s, .text t => return .text (s ++ t)
  | a, b =>
    let a ← holding [b] (m.toPrimitive a .default)
    let b ← holding [a] (m.toPrimitive b .default)
    match a, b with
    | .text s, b => return .text (s ++ (← primitiveText b))
    | a, .text t => return .text ((← primitiveText a) ++ t)
    | a, b => m.arithmetic .add a b

/-- How two values compare, the left one converted first. -/
def compareValues (a b : Value) : Comp (Option Ordering) := do
  let a ← holding [b] (m.toPrimitive a .number)
  let b ← holding [a] (m.toPrimitive b .number)
  comparePrimitives a b

/-- Whether the prototype of a constructor is met among the prototypes of an object. Chains are no
longer than the fuel. -/
def inherits (proto : Ref) : Nat → Ref → Comp Bool
  | 0, _ => return false
  | fuel + 1, r => do
    match ← m.protoOf r with
    | none => return false
    | some p => if p == proto then return true else inherits proto fuel p

/-- `instanceof` by the prototype of a constructor; a bound function stands for its target. -/
def ordinaryInstanceOf : Nat → Value → Ref → Comp Bool
  | 0, _, _ => exhausted
  | fuel + 1, v, c => do
    match (← readObject c).nature with
    | .bound target .. => ordinaryInstanceOf fuel v target
    | nature =>
      if !nature.isCallable then return false
      else
        match v with
        | .object r =>
          match ← m.get c (Key.ofString "prototype") with
          | .object proto =>
            let size ← inspect (·.cells.size)
            m.inherits proto (size + 1) r
          | _ => throwType "function has non-object prototype in instanceof check"
        | _ => return false

def instanceOf (v c : Value) : Comp Bool := do
  match c with
  | .object r =>
    match ← m.getMethod c (.symbol Symbol.hasInstance) with
    | some f => return (← m.call f c [v]).truthy
    | none =>
      if ← isCallable c then
        let size ← inspect (·.cells.size)
        m.ordinaryInstanceOf (size + 1) v r
      else throwType "right-hand side of 'instanceof' is not callable"
  | _ => throwType "right-hand side of 'instanceof' should be an object"

/-- A binary operator on two values. -/
def binary (op : BinaryOp) (a b : Value) : Comp Value := do
  match op with
  | .add => m.add a b
  | .eq => return .boolean (← m.looseEquals a b)
  | .ne => return .boolean !(← m.looseEquals a b)
  | .strictEq => return .boolean (Value.strictEquals a b)
  | .strictNe => return .boolean !(Value.strictEquals a b)
  | .lt => return .boolean ((← m.compareValues a b) == some .lt)
  | .gt => return .boolean ((← m.compareValues a b) == some .gt)
  | .le =>
    let c ← m.compareValues a b
    return .boolean (c == some .lt || c == some .eq)
  | .ge =>
    let c ← m.compareValues a b
    return .boolean (c == some .gt || c == some .eq)
  | .instanceOf => return .boolean (← m.instanceOf a b)
  | .has =>
    match b with
    | .object r => return .boolean (← m.has r (← m.toKey a))
    | _ => throwType "right-hand side of 'in' should be an object"
  | op => m.arithmetic op a b

/-- A unary operator on a value. -/
def unary (op : UnaryOp) (v : Value) : Comp Value := do
  match op with
  | .typeOf => return Value.ofString (← typeName v)
  | .void => return .undefined
  | .not => return .boolean !v.truthy
  | .plus => return .number (← m.toNumber v)
  | .negate =>
    match ← m.toNumeric v with
    | .bigint n => return .bigint (-n)
    | .number x => return .number (-x)
    | v => return v
  | .bitNot =>
    match ← m.toNumeric v with
    | .bigint n => return .bigint (-n - 1)
    | .number x => return .number (Float.ofExactInt (-x.toSignedWord - 1))
    | v => return v

end Machine

end ScriptBoundary.Script
