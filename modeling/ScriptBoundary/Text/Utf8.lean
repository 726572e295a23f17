/-!
# Bytes as UTF-8

`Utf8.decode` reads any byte sequence. Well-formed sequences give their characters; each maximal
run of bytes that begins a character and cannot be finished gives one U+FFFD, and so does each
byte that begins nothing.

The reader is a machine with one byte of look-ahead. Between characters it holds nothing; inside
one it knows how many bytes are still owed and between which two bounds the next byte must lie.
The bounds are what keeps out overlong forms, surrogates and values above U+10FFFF: all of them
show in the second byte.
-/

namespace ScriptBoundary.Utf8

/-- The inside of a character: bytes still owed (one less than the count), the bounds of the next
one, and the value read so far. -/
structure Partial where
  more : Nat
  least : UInt8
  greatest : UInt8
  value : Nat
deriving Repr

/-- What the first byte of a character says. -/
inductive Lead where
  /-- The byte is a character by itself. -/
  | whole (c : Char)
  /-- The byte opens a longer character. -/
  | opens (p : Partial)
  /-- No character starts with the byte. -/
  | invalid

/-- Classifies a first byte. -/
def lead (b : UInt8) : Lead :=
  let n := b.toNat
  if n < 0x80 then .whole (Char.ofNat n)
  else if n < 0xC2 then .invalid
  else if n < 0xE0 then .opens ⟨0, 0x80, 0xBF, n - 0xC0⟩
  else if n == 0xE0 then .opens ⟨1, 0xA0, 0xBF, 0⟩
  else if n == 0xED then .opens ⟨1, 0x80, 0x9F, 0xD⟩
  else if n < 0xF0 then .opens ⟨1, 0x80, 0xBF, n - 0xE0⟩
  else if n == 0xF0 then .opens ⟨2, 0x90, 0xBF, 0⟩
  else if n == 0xF4 then .opens ⟨2, 0x80, 0x8F, 4⟩
  else if n < 0xF4 then .opens ⟨2, 0x80, 0xBF, n - 0xF0⟩
  else .invalid

/-- The character that stands for an ill-formed run. -/
def replacement : Char := Char.ofNat 0xFFFD

/-- A byte read between characters. -/
def begin (out : Array Char) (b : UInt8) : Array Char × Option Partial :=
  match lead b with
  | .whole c => (out.push c, none)
  | .opens p => (out, some p)
  | .invalid => (out.push replacement, none)

/-- One byte. A byte that does not fit ends the open run with U+FFFD and is read again between
characters. -/
def step (out : Array Char) (state : Option Partial) (b : UInt8) : Array Char × Option Partial :=
  match state with
  | none => begin out b
  | some p =>
    if p.least ≤ b && b ≤ p.greatest then
      let value := p.value * 64 + (b.toNat - 0x80)
      match p.more with
      | 0 => (out.push (Char.ofNat value), none)
      | more + 1 => (out, some ⟨more, 0x80, 0xBF, value⟩)
    else begin (out.push replacement) b

/-- An open run at the end of the input is ill-formed too. -/
def finish (out : Array Char) : Option Partial → Array Char
  | none => out
  | some _ => out.push replacement

/-- The reader over the rest of the input. -/
def run (out : Array Char) (state : Option Partial) : List UInt8 → Array Char
  | [] => finish out state
  | b :: rest => let (out, state) := step out state b; run out state rest

/-- The characters of a byte sequence, U+FFFD for each maximal ill-formed part. -/
def decode (bytes : List UInt8) : List Char := (run #[] none bytes).toList

/-- `decode`, as a host string. -/
def decodeString (bytes : List UInt8) : String := String.ofList (decode bytes)

end ScriptBoundary.Utf8
