/-!
# Doubles as integers times powers of two

Every finite double is `± m · 2 ^ q` with a natural number `m` below `2 ^ 53`. Reading a double
this way makes decimal text, remainders and the 32-bit conversions exact computations on natural
numbers, with no rounding to argue about.
-/

namespace ScriptBoundary

/-- The powers of two: bit weights, sizes of words and scales of doubles. -/
def twoPow (n : Nat) : Nat := Nat.pow 2 n

/-- A double taken apart. -/
inductive Binary where
  | nan
  | infinite (negative : Bool)
  /-- `± m · 2 ^ q`; both zeros have `m = 0`. -/
  | finite (negative : Bool) (m : Nat) (q : Int)
deriving Repr

namespace Binary

/-- Reads the sign, exponent and fraction fields. -/
def ofFloat (x : Float) : Binary :=
  let bits := x.toBits.toNat
  let negative := bits >= twoPow 63
  let exponent : Nat := bits / twoPow 52 % twoPow 11
  let fraction : Nat := bits % twoPow 52
  if exponent == 2047 then
    if fraction == 0 then .infinite negative else .nan
  else if exponent == 0 then .finite negative fraction (-1074)
  else .finite negative (twoPow 52 + fraction) ((exponent : Int) - 1075)

/-- The integer part, toward zero; `none` for an infinity or a NaN. -/
def truncate? : Binary → Option Int
  | .finite negative m q =>
    let n : Nat := match q with
      | .ofNat k => m * twoPow k
      | .negSucc k => m / twoPow (k + 1)
    some (if negative then -(n : Int) else n)
  | _ => none

/-- Whether the value is an integer. -/
def isInteger : Binary → Bool
  | .finite _ m q => match q with
    | .ofNat _ => true
    | .negSucc k => m % twoPow (k + 1) == 0
  | _ => false

end Binary

end ScriptBoundary

namespace Float

/-- The sign bit, which tells `-0.0` from `0.0`. -/
def hasSign (x : Float) : Bool := x.toBits >= 0x8000000000000000

/-- The integer part as an integer, zero for an infinity or a NaN. -/
def toIntOrZero (x : Float) : Int := (ScriptBoundary.Binary.ofFloat x).truncate?.getD 0

/-- Whether the double is an integer. -/
def isIntegral (x : Float) : Bool := (ScriptBoundary.Binary.ofFloat x).isInteger

/-- The double nearest to an integer. -/
def ofExactInt (n : Int) : Float :=
  match n with
  | .ofNat k => Float.ofNat k
  | .negSucc k => -Float.ofNat (k + 1)

/-- The integer part modulo `2 ^ 32`, as scripts convert to unsigned words. -/
def toWord (x : Float) : UInt32 := UInt32.ofNat (x.toIntOrZero % ScriptBoundary.twoPow 32).toNat

/-- `toWord`, read as a signed number. -/
def toSignedWord (x : Float) : Int := (x.toIntOrZero).bmod (ScriptBoundary.twoPow 32)

/-- The remainder with the sign of the dividend, computed exactly. -/
def remainder (x y : Float) : Float :=
  match ScriptBoundary.Binary.ofFloat x, ScriptBoundary.Binary.ofFloat y with
  | .finite negative mx qx, .finite _ my qy =>
    if my == 0 then 0.0 / 0.0
    else
      let q := min qx qy
      let scaled (m : Nat) (p : Int) : Nat := m * ScriptBoundary.twoPow (p - q).toNat
      let r := scaled mx qx % scaled my qy
      let magnitude := (Float.ofNat r).scaleB q
      if negative then -magnitude else magnitude
  | .finite .., .infinite _ => x
  | _, _ => 0.0 / 0.0

end Float
