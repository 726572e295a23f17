import ScriptBoundary.Decimal.Binary
import ScriptBoundary.Decimal.Reading
import ScriptBoundary.Text.Units

/-!
# Numbers written in texts

`numberOf` reads a whole text as a number, as scripts convert texts: blanks around it do not
count, nothing at all is zero, and whatever is not a number is a NaN. `0x`, `0o` and `0b` open an
unsigned integer of that radix. Everything else is decimal, and there the reader is generous: it
takes a missing whole or fractional part, leading zeros and a plus sign.

An integer of another radix is accumulated digit by digit in a double, so a long one is rounded
at every digit past the fifty-third bit and not once at the end.
-/

namespace ScriptBoundary.Script.Numeral

/-- The value of a digit of any radix up to sixteen. -/
def digitValue? (c : Char) : Option Nat :=
  if '0' ≤ c && c ≤ '9' then some (c.toNat - 48)
  else if 'a' ≤ c && c ≤ 'f' then some (c.toNat - 87)
  else if 'A' ≤ c && c ≤ 'F' then some (c.toNat - 55)
  else none

/-- The digits of a radix, or nothing if some character is not one. -/
def digits? (radix : Nat) (cs : List Char) : Option (List Nat) :=
  cs.mapM fun c => (digitValue? c).filter (· < radix)

/-- One more digit, rounded to the nearest double. -/
def pushDigit (radix : Nat) (x : Float) (d : Nat) : Float :=
  if x.isInf then x else Float.ofExactInt (x.toIntOrZero * radix + d)

/-- An integer of some radix, after its mark. A plus sign is let through before a number of at
most 32 bits. -/
def radixInteger? (radix : Nat) (cs : List Char) : Option Float :=
  let exact (cs : List Char) : Option Nat :=
    if cs.isEmpty then none
    else ((digits? radix cs).map fun ds => ds.foldl (fun n d => n * radix + d) 0).filter (· < twoPow 32)
  let small := match cs with
    | '+' :: rest => exact rest
    | _ => exact cs
  match small with
  | some n => some n.toFloat
  | none =>
    if cs.isEmpty then none
    else (digits? radix cs).map fun ds => ds.foldl (pushDigit radix) 0.0

/-- The radix a mark stands for. -/
def radix? : Char → Option Nat
  | 'x' | 'X' => some 16
  | 'o' | 'O' => some 8
  | 'b' | 'B' => some 2
  | _ => none

/-- A decimal number or a name of infinity. -/
def decimal? (s : String) : Option Float :=
  match s with
  | "Infinity" | "+Infinity" => some (1.0 / 0.0)
  | "-Infinity" => some (-1.0 / 0.0)
  | _ =>
    match s.toList with
    | 'i' :: _ | 'I' :: _ => none
    | _ => Decimal.literal? s

/-- The characters of a text without the blanks around them; nothing if a surrogate stands alone. -/
def characters? (t : Text) : Option (List Char) :=
  let s := t.toString
  if Text.ofString s == t then some t.trim.toString.toList else none

/-- The number a text spells. -/
def numberOf (t : Text) : Float :=
  let nan : Float := 0.0 / 0.0
  match characters? t with
  | none => nan
  | some [] => 0.0
  | some cs =>
    match cs with
    | '0' :: mark :: rest =>
      match radix? mark with
      | some radix => (radixInteger? radix rest).getD nan
      | none => (decimal? (String.ofList cs)).getD nan
    | _ => (decimal? (String.ofList cs)).getD nan

/-- The integer a text spells, if it spells one exactly. -/
def integerOf? (t : Text) : Option Int :=
  let natural (radix : Nat) (cs : List Char) : Option Int :=
    if cs.isEmpty then none
    else (digits? radix cs).map fun ds => (ds.foldl (fun n d => n * radix + d) 0 : Nat)
  match characters? t with
  | none => none
  | some [] => some 0
  | some cs =>
    match cs with
    | '-' :: rest => (natural 10 rest).map (-·)
    | '+' :: rest => natural 10 rest
    | '0' :: mark :: rest =>
      match radix? mark with
      | some radix => natural radix rest
      | none => natural 10 cs
    | _ => natural 10 cs

end ScriptBoundary.Script.Numeral
