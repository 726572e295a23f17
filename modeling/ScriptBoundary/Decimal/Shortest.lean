import ScriptBoundary.Decimal.Binary

/-!
# The fewest digits that read back

A double stands for an interval of reals, those that round to it; the ends belong to it when its
significand is even. `shortest` finds the decimal with the fewest digits in the interval, and of
several with that many the one nearest to the double. It tries one digit, then two, and so on up
to seventeen. With `n` digits the candidates are the two neighbours of the value on the grid of
`n`-digit decimals: if any point of the grid lies in the interval, one of those does.

All comparisons are between natural numbers, after both sides are multiplied by the powers of two
and ten that clear the denominators.
-/

namespace ScriptBoundary.Decimal

/-- A positive decimal `digits · 10 ^ exponent`. -/
structure Digits where
  digits : Nat
  exponent : Int
deriving DecidableEq, Repr

/-- How many decimal digits `n` has; one for zero. -/
def countDigits (n : Nat) : Nat := (Nat.toDigits 10 n).length

/-- The rounding interval of `m · 2 ^ q`, in units of `2 ^ (q - 2)`: its lower end, the value and
its upper end. Below a power of two the next smaller double is half as far away. -/
def interval (m : Nat) (q : Int) : Nat × Nat × Nat :=
  let narrow := m == twoPow 52 && q > -1074
  (4 * m - (if narrow then 1 else 2), 4 * m, 4 * m + 2)

/-- `2 ^ e` as a fraction. -/
def powerOfTwo (e : Int) : Nat × Nat :=
  if 0 ≤ e then (twoPow e.toNat, 1) else (1, twoPow (-e).toNat)

/-- `10 ^ e` as a fraction. -/
def powerOfTen (e : Int) : Nat × Nat :=
  if 0 ≤ e then (Nat.pow 10 e.toNat, 1) else (1, Nat.pow 10 (-e).toNat)

/-- The exponent of the leading decimal digit of `m · 2 ^ q`, for `0 < m`. -/
def leadingExponent (m : Nat) (q : Int) : Int :=
  let (n, d) := powerOfTwo q
  let value := m * n
  if d ≤ value then (countDigits (value / d) : Int) - 1
  else
    -- The value is below one: its reciprocal, rounded up, tells how many places to move.
    let k := countDigits ((d - 1) / value)
    Int.neg k

/-- The best decimal with last digit at `10 ^ p`, if the grid meets the interval. -/
def onGrid? (m : Nat) (q p : Int) : Option Digits :=
  let (low, mid, high) := interval m q
  let (tn, td) := powerOfTwo (q - 2)
  let (pn, pd) := powerOfTen p
  let up := tn * pd
  let down := td * pn
  let inside (c : Nat) : Bool :=
    if m % 2 == 0 then low * up ≤ c * down && c * down ≤ high * up
    else low * up < c * down && c * down < high * up
  let value := mid * up
  let below := value / down
  let above := below + 1
  match inside below && 0 < below, inside above with
  | true, true =>
    let under := value - below * down
    let beyond := above * down - value
    if under < beyond || (under == beyond && below % 2 == 0) then some ⟨below, p⟩ else some ⟨above, p⟩
  | true, false => some ⟨below, p⟩
  | false, true => some ⟨above, p⟩
  | false, false => none

/-- Moves trailing zeros of the digits into the exponent. -/
def stripZeros : Nat → Digits → Digits
  | 0, d => d
  | fuel + 1, d =>
    if d.digits % 10 == 0 && d.digits != 0 then stripZeros fuel ⟨d.digits / 10, d.exponent + 1⟩ else d

/-- The shortest decimal of `m · 2 ^ q`, for `0 < m`. -/
def shortest (m : Nat) (q : Int) : Digits :=
  let lead := leadingExponent m q
  let grids := (List.range 17).map fun (n : Nat) => lead - (n : Int)
  let found := grids.findSome? (onGrid? m q)
  stripZeros 400 (found.getD ⟨m, 0⟩)

end ScriptBoundary.Decimal
