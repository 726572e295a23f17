import ScriptBoundary.Script.Index
import ScriptBoundary.Decimal.Layout

/-!
# Script values and property keys

A script value is a primitive or a reference to a heap cell. A property key is an array index, a
name or a symbol. The three are kept apart and kept canonical: a name that spells an array index
*is* that index (`Key.ofText`), so a number, its decimal text and the index itself reach the same
property.

`sameValue` is the finest equality a script can observe: it tells the two zeros apart and holds of
a NaN and itself. `strictEquals` does the opposite on both.
-/

namespace ScriptBoundary.Script

/-- The address of a heap cell. -/
abbrev Ref := Nat

/-- A symbol is its identity; the description is only for show. -/
structure Symbol where
  id : Nat
  description : Option Text
deriving DecidableEq, Repr, Inhabited

namespace Symbol

/-- A symbol that every realm shares. -/
def wellKnown (id : Nat) (name : String) : Symbol := ⟨id, some (Text.ofString ("Symbol." ++ name))⟩

def toPrimitive : Symbol := wellKnown 0 "toPrimitive"
def toStringTag : Symbol := wellKnown 1 "toStringTag"
def iterator : Symbol := wellKnown 2 "iterator"
def hasInstance : Symbol := wellKnown 3 "hasInstance"
def isConcatSpreadable : Symbol := wellKnown 4 "isConcatSpreadable"
def species : Symbol := wellKnown 5 "species"
def unscopables : Symbol := wellKnown 6 "unscopables"
def asyncIterator : Symbol := wellKnown 7 "asyncIterator"

/-- The well-known symbols with the names they have on the symbol constructor. -/
def wellKnowns : List (String × Symbol) :=
  [("asyncIterator", asyncIterator), ("hasInstance", hasInstance),
   ("isConcatSpreadable", isConcatSpreadable), ("iterator", iterator), ("species", species),
   ("toPrimitive", toPrimitive), ("toStringTag", toStringTag), ("unscopables", unscopables)]

/-- The first identity that no well-known symbol has. -/
def firstFresh : Nat := 16

end Symbol

/-- A property key. A name does not spell an array index: the text that does is that index. -/
inductive Key where
  | index (i : ArrayIndex)
  | name (t : Text) (h : t.index? = none)
  | symbol (s : Symbol)
deriving DecidableEq, Repr, Inhabited

namespace Key

/-- The key a text names. -/
def ofText (t : Text) : Key :=
  match h : t.index? with
  | some i => .index i
  | none => .name t h

/-- The key a host string names. -/
def ofString (s : String) : Key := ofText (Text.ofString s)

/-- The key of a natural number. -/
def ofNat (n : Nat) : Key :=
  match ArrayIndex.ofNat? n with
  | some i => .index i
  | none => ofText (Text.ofNat n)

/-- The key of the length of arrays, texts and functions. -/
def length : Key := ofString "length"

def index? : Key → Option ArrayIndex
  | .index i => some i
  | _ => none

def isName : Key → Bool
  | .name .. => true
  | _ => false

def isSymbol : Key → Bool
  | .symbol _ => true
  | _ => false

/-- The text of a key that is not a symbol. -/
def text? : Key → Option Text
  | .index i => some (Text.ofNat i)
  | .name t _ => some t
  | .symbol _ => none

/-- How a key shows in a message. -/
def show' : Key → String
  | .index i => toString i.val
  | .name t _ => t.toString
  | .symbol s => "Symbol(" ++ ((s.description.map Text.toString).getD "") ++ ")"

instance : Coe String Key := ⟨ofString⟩

section Texts

variable {k : Key} {t : Text}

theorem ofText_of_index? {i : ArrayIndex} (h : t.index? = some i) : ofText t = .index i := by
  unfold ofText
  split
  · next j hj => rw [Option.some.inj (hj.symm.trans h)]
  · next hnone => exact (Option.some_ne_none i (h.symm.trans hnone)).elim

theorem ofText_of_index?_none (h : t.index? = none) : ofText t = .name t h := by
  unfold ofText
  split
  · next j hj => exact (Option.some_ne_none j (hj.symm.trans h)).elim
  · rfl

@[simp]
theorem text?_ofText (t : Text) : (ofText t).text? = some t := by
  cases h : t.index? with
  | some i => rw [ofText_of_index? h, text?, ← Text.eq_ofNat_of_index? h]
  | none => rw [ofText_of_index?_none h, text?]

/-- **A key that is not a symbol** is the one its text names. -/
theorem text?_eq_some_iff : k.text? = some t ↔ k = ofText t := by
  refine ⟨fun h => ?_, fun h => h ▸ text?_ofText t⟩
  cases k with
  | index i =>
    obtain rfl := Option.some.inj h
    exact (ofText_of_index? (Text.index?_ofNat_val i)).symm
  | name u hu =>
    obtain rfl := Option.some.inj h
    exact (ofText_of_index?_none hu).symm
  | symbol s => cases h

/-- The key of a number is the one that its text names. -/
theorem ofNat_eq_ofText (n : Nat) : ofNat n = ofText (Text.ofNat n) := by
  unfold ofNat
  split
  · next i hi => exact (ofText_of_index? ((Text.index?_ofNat n).trans hi)).symm
  · rfl

@[simp]
theorem text?_ofNat (n : Nat) : (ofNat n).text? = some (Text.ofNat n) := by
  rw [ofNat_eq_ofText, text?_ofText]

theorem ofNat_injective {n m : Nat} (h : ofNat n = ofNat m) : n = m :=
  Text.ofNat_injective (Option.some.inj (by rw [← text?_ofNat, h, text?_ofNat]))

/-- The length is no element. -/
theorem ofNat_ne_length (n : Nat) : ofNat n ≠ length := fun h => by
  have htext : Text.ofNat n = Text.ofString "length" :=
    Option.some.inj (by rw [← text?_ofNat, h, length, ofString, text?_ofText])
  have hnumeral := Decimal.isNumeral_numeral n
  rw [← Text.units_ofNat, htext] at hnumeral
  exact absurd hnumeral (by decide +kernel)

end Texts

end Key

/-- A script value. -/
inductive Value where
  | undefined
  | null
  | boolean (b : Bool)
  | number (x : Float)
  | text (t : Text)
  | symbol (s : Symbol)
  | bigint (n : Int)
  | object (r : Ref)
deriving Repr, Inhabited

namespace Value

/-- A string value. -/
def ofString (s : String) : Value := .text (Text.ofString s)

/-- A number value. -/
def ofNat (n : Nat) : Value := .number (Float.ofNat n)

def isNullish : Value → Bool
  | .undefined | .null => true
  | _ => false

def isUndefined : Value → Bool
  | .undefined => true
  | _ => false

/-- The cell a value refers to, if it is an object. -/
def ref? : Value → Option Ref
  | .object r => some r
  | _ => none

/-- Equality of numbers as values: a NaN is itself, and the zeros differ. -/
def sameNumber (x y : Float) : Bool :=
  if x.isNaN then y.isNaN else if y.isNaN then false else x.toBits == y.toBits

/-- The finest equality: same primitive or same cell. -/
def sameValue : Value → Value → Bool
  | .undefined, .undefined | .null, .null => true
  | .boolean a, .boolean b => a == b
  | .number x, .number y => sameNumber x y
  | .text s, .text t => s == t
  | .symbol s, .symbol t => s.id == t.id
  | .bigint m, .bigint n => m == n
  | .object r, .object q => r == q
  | _, _ => false

/-- The equality of `===`: a NaN equals nothing, and the zeros are equal. -/
def strictEquals : Value → Value → Bool
  | .number x, .number y => x == y
  | a, b => sameValue a b

/-- `sameValue` with the two zeros taken together. -/
def sameValueZero (a b : Value) : Bool :=
  match a, b with
  | .number x, .number y => x == y || (x.isNaN && y.isNaN)
  | a, b => sameValue a b

/-- What counts as true. -/
def truthy : Value → Bool
  | .undefined | .null => false
  | .boolean b => b
  | .number x => !(x == 0.0 || x.isNaN)
  | .text t => !t.isEmpty
  | .bigint n => n != 0
  | .symbol _ | .object _ => true

end Value

/-- The text a script gives a number. -/
def numberText (x : Float) : Text := Text.ofString (Decimal.Layout.script.write x)

/-- The key a number names: itself if it is an array index, its text otherwise. -/
def Key.ofNumber (x : Float) : Key :=
  let i := x.toUInt32
  if i.toNat.toFloat == x then .ofNat i.toNat else .ofText (numberText x)

end ScriptBoundary.Script
