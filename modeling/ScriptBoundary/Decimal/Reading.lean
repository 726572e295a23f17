/-!
# Reading decimal numbers

`nearest` is the double closest to `digits · 10 ^ exponent`. Exponents far outside the range of
doubles are answered at once, so no power of ten larger than the format can use is ever built.

`literal?` reads an optional sign, digits with an optional point, and an optional exponent, as
hosts write numbers; the special values have names.
-/

namespace ScriptBoundary.Decimal

/-- The double nearest to `digits · 10 ^ exponent`. -/
def nearest (digits : Nat) (exponent : Int) : Float :=
  if digits == 0 then 0.0
  else
    let lead := exponent + ((Nat.toDigits 10 digits).length : Int)
    if lead > 400 then 1.0 / 0.0
    else if lead < -400 then 0.0
    else if exponent < 0 then Float.ofScientific digits true exponent.natAbs
    else Float.ofScientific digits false exponent.natAbs

/-- The value of a run of decimal digits. -/
def digitsValue (cs : List Char) : Nat := cs.foldl (fun n c => n * 10 + (c.toNat - 48)) 0

/-- Splits a run of digits off the front. -/
def takeDigits (cs : List Char) : List Char × List Char :=
  (cs.takeWhile Char.isDigit, cs.dropWhile Char.isDigit)

/-- An exponent part: `e`, a sign, at least one digit. No exponent part counts as zero. -/
def exponentPart? : List Char → Option (Int × List Char)
  | c :: rest =>
    if c == 'e' || c == 'E' then
      let (negative, rest) := match rest with
        | '-' :: r => (true, r)
        | '+' :: r => (false, r)
        | r => (false, r)
      let (ds, rest) := takeDigits rest
      if ds.isEmpty then none
      else
        let n : Int := digitsValue (ds.dropWhile (· == '0') |>.take 20)
        some (if negative then -n else n, rest)
    else some (0, c :: rest)
  | [] => some (0, [])

/-- An unsigned decimal at the front: digits, point and digits, exponent; at least one digit
before the exponent. Also says whether a point or an exponent was written. -/
def unsigned? (cs : List Char) : Option (Float × List Char) :=
  let (whole, rest) := takeDigits cs
  let (fraction, rest) := match rest with
    | '.' :: r => takeDigits r
    | r => ([], r)
  if whole.isEmpty && fraction.isEmpty then none
  else
    match exponentPart? rest with
    | none => none
    | some (e, rest) =>
      some (nearest (digitsValue (whole ++ fraction)) (e - (fraction.length : Int)), rest)

/-- A host number: a decimal, `inf`, `infinity` or `nan` in any case, with an optional sign. -/
def literal? (s : String) : Option Float :=
  let (negative, body) := match s.toList with
    | '-' :: r => (true, r)
    | '+' :: r => (false, r)
    | r => (false, r)
  let lower := String.ofList (body.map Char.toLower)
  let magnitude : Option Float :=
    if lower == "inf" || lower == "infinity" then some (1.0 / 0.0)
    else if lower == "nan" then some (0.0 / 0.0)
    else match unsigned? body with
      | some (x, []) => some x
      | _ => none
  magnitude.map fun x => if negative then -x else x

end ScriptBoundary.Decimal
