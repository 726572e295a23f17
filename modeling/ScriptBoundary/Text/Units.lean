/-!
# Strings of UTF-16 code units

A script string is a sequence of 16-bit units, and nothing forces the units to pair up: a lone
surrogate is an ordinary element. A host string is a sequence of characters. `Text.ofString`
writes each character as one or two units, and `Text.toString` reads them back, putting U+FFFD
where a surrogate has no partner. So the first loses nothing and the second is total.

`Utf16.encode` and `Utf16.decode` are the same two maps on lists, for reasoning.
-/

namespace ScriptBoundary

namespace Utf16

/-- The first half of a pair: units D800 to DBFF. -/
def isHigh (u : UInt16) : Bool := 0xD800 ≤ u && u ≤ 0xDBFF

/-- The second half of a pair: units DC00 to DFFF. -/
def isLow (u : UInt16) : Bool := 0xDC00 ≤ u && u ≤ 0xDFFF

/-- The character that stands for whatever cannot be read. -/
def replacement : Char := Char.ofNat 0xFFFD

/-- The units of one character: itself in the basic plane, a high and a low unit above it. -/
def encodeChar (c : Char) : List UInt16 :=
  if c.toNat < 0x10000 then [UInt16.ofNat c.toNat]
  else
    let n := c.toNat - 0x10000
    [UInt16.ofNat (0xD800 + n / 0x400), UInt16.ofNat (0xDC00 + n % 0x400)]

/-- The character a high and a low unit make together. -/
def joinPair (high low : UInt16) : Char :=
  Char.ofNat (0x10000 + (high.toNat - 0xD800) * 0x400 + (low.toNat - 0xDC00))

/-- A unit on its own: a character of the basic plane, or U+FFFD for a surrogate. -/
def decodeUnit (u : UInt16) : Char :=
  if isHigh u || isLow u then replacement else Char.ofNat u.toNat

/-- Every character of `cs`, written out after `out`. -/
def encodeOnto (out : Array UInt16) (cs : List Char) : Array UInt16 :=
  cs.foldl (fun units c => units ++ encodeChar c) out

/-- Reads units from the left: a high unit takes a following low unit with it, and every other
unit stands alone. -/
def decodeOnto (out : Array Char) : List UInt16 → Array Char
  | [] => out
  | [u] => out.push (decodeUnit u)
  | u :: v :: rest =>
    if isHigh u && isLow v then decodeOnto (out.push (joinPair u v)) rest
    else decodeOnto (out.push (decodeUnit u)) (v :: rest)

/-- The units of a list of characters. -/
def encode (cs : List Char) : List UInt16 := (encodeOnto #[] cs).toList

/-- The characters of a list of units. -/
def decode (us : List UInt16) : List Char := (decodeOnto #[] us).toList

end Utf16

/-- A script string. -/
structure Text where
  units : Array UInt16
deriving DecidableEq, Hashable, Inhabited, Repr

namespace Text

/-- The script string with the characters of a host string. -/
def ofString (s : String) : Text := ⟨Utf16.encodeOnto #[] s.toList⟩

instance : Coe String Text := ⟨ofString⟩

/-- The host string with the characters of a script string; a lone surrogate reads as U+FFFD. -/
protected def toString (t : Text) : String :=
  String.ofList (Utf16.decodeOnto #[] t.units.toList).toList

instance : ToString Text := ⟨Text.toString⟩

def empty : Text := ⟨#[]⟩

/-- The number of units, which is what a script calls the length. -/
def size (t : Text) : Nat := t.units.size

def isEmpty (t : Text) : Bool := t.units.isEmpty

protected def append (a b : Text) : Text := ⟨a.units ++ b.units⟩

instance : Append Text := ⟨Text.append⟩

/-- The units from `start` up to `stop`. -/
def slice (t : Text) (start stop : Nat) : Text := ⟨t.units.extract start stop⟩

/-- The string of the one unit at `i`, if there is one. -/
def unitAt? (t : Text) (i : Nat) : Option Text := t.units[i]?.map fun u => ⟨#[u]⟩

/-- Order by the first unit that differs, a string before its extensions. -/
def lt (a b : Text) : Bool :=
  go a.units.toList b.units.toList
where
  go : List UInt16 → List UInt16 → Bool
    | _, [] => false
    | [], _ :: _ => true
    | u :: us, v :: vs => if u < v then true else if v < u then false else go us vs

/-- Whether `part` stands in `t` at unit `i`. -/
def hasAt (t part : Text) (i : Nat) : Bool :=
  i + part.size ≤ t.size && t.slice i (i + part.size) == part

/-- The first position from `start` on at which `part` stands in `t`. -/
def indexOf? (t part : Text) (start : Nat) : Option Nat :=
  ((List.range (t.size + 1)).drop start).find? (t.hasAt part)

/-- The last position up to `stop` at which `part` stands in `t`. -/
def lastIndexOf? (t part : Text) (stop : Nat) : Option Nat :=
  ((List.range (min t.size stop + 1)).reverse).find? (t.hasAt part)

/-- The strings of `ts`, with `separator` between neighbours. -/
def join (separator : Text) : List Text → Text
  | [] => empty
  | t :: ts => ts.foldl (fun out u => out ++ separator ++ u) t

/-- The white space and line ends that a script trims. -/
def isBlank (u : UInt16) : Bool :=
  (9 ≤ u && u ≤ 13) || u == 0x20 || u == 0xA0 || u == 0x1680 || (0x2000 ≤ u && u ≤ 0x200A) ||
    u == 0x2028 || u == 0x2029 || u == 0x202F || u == 0x205F || u == 0x3000 || u == 0xFEFF

def trimStart (t : Text) : Text := ⟨(t.units.toList.dropWhile isBlank).toArray⟩

def trimEnd (t : Text) : Text := ⟨(t.units.toList.reverse.dropWhile isBlank).reverse.toArray⟩

def trim (t : Text) : Text := t.trimStart.trimEnd

end Text

end ScriptBoundary
