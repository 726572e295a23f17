import ScriptBoundary.Decimal.Shortest

/-!
# Three ways to write a double

The digits are always the shortest ones; what differs is where the point goes. A `Layout` says
when a number is written positionally, what follows an integer, how an exponent looks and what the
special values are called.

* `Layout.plain` never uses an exponent. It is how a boundary value shows itself.
* `Layout.precise` marks integers with `.0` and uses an exponent for very large and very small
  magnitudes. It is how a boundary value is written for debugging.
* `Layout.script` is the `ToString` of the script language.
-/

namespace ScriptBoundary.Decimal

/-- The choices a written form makes. -/
structure Layout where
  /-- Whether a number whose leading digit stands at `10 ^ lead` is written positionally. -/
  positional : (lead : Int) → Bool
  /-- What an integer ends in when it is written positionally. -/
  integerTail : String
  /-- What stands before an exponent that is not negative. -/
  exponentPlus : String
  /-- Whether zero keeps its sign. -/
  signedZero : Bool
  infinity : String

/-- Never an exponent. -/
def Layout.plain : Layout where
  positional _ := true
  integerTail := ""
  exponentPlus := ""
  signedZero := true
  infinity := "inf"

/-- Positional from `1e-4` up to `1e16`, integers with `.0`. -/
def Layout.precise : Layout where
  positional lead := -4 ≤ lead && lead < 16
  integerTail := ".0"
  exponentPlus := ""
  signedZero := true
  infinity := "inf"

/-- Positional from `1e-6` up to `1e21`, and a plus sign before a positive exponent. -/
def Layout.script : Layout where
  positional lead := -6 ≤ lead && lead < 21
  integerTail := ""
  exponentPlus := "+"
  signedZero := false
  infinity := "Infinity"

/-- `n` zeros. -/
def zeros (n : Nat) : String := String.ofList (List.replicate n '0')

/-- Positional text of digits whose first one stands at `10 ^ lead`. -/
def writePositional (layout : Layout) (digits : String) (lead : Int) : String :=
  let count := digits.length
  if lead < 0 then "0." ++ zeros (-lead - 1).toNat ++ digits
  else
    let whole := lead.toNat + 1
    if count ≤ whole then digits ++ zeros (whole - count) ++ layout.integerTail
    else
      String.ofList (digits.toList.take whole) ++ "." ++ String.ofList (digits.toList.drop whole)

/-- Text with an exponent: one digit, the point, the rest. -/
def writeScientific (layout : Layout) (digits : String) (lead : Int) : String :=
  let mantissa := match digits.toList with
    | [] => "0"
    | [d] => String.ofList [d]
    | d :: rest => String.ofList (d :: '.' :: rest)
  let power := if lead < 0 then "-" ++ toString lead.natAbs else layout.exponentPlus ++ toString lead.natAbs
  mantissa ++ "e" ++ power

/-- The text of a double. -/
def Layout.write (layout : Layout) (x : Float) : String :=
  match Binary.ofFloat x with
  | .nan => "NaN"
  | .infinite negative => (if negative then "-" else "") ++ layout.infinity
  | .finite negative m q =>
    if m == 0 then
      (if negative && layout.signedZero then "-" else "") ++ "0" ++ layout.integerTail
    else
      let d := shortest m q
      let digits := toString d.digits
      let lead := d.exponent + (digits.length : Int) - 1
      let body :=
        if layout.positional lead then writePositional layout digits lead
        else writeScientific layout digits lead
      (if negative then "-" else "") ++ body

end ScriptBoundary.Decimal
