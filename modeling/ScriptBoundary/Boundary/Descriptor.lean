import ScriptBoundary.Boundary.Value

/-!
# Descriptors

A descriptor is the form in which a value passes through the C surface: a tag byte and one payload
word that the tag says how to read. Anything can stand in a descriptor that a host filled in by
hand, so reading one is total: `toValue?` refuses unknown tags only, and `toValue` takes those for
undefined as well.

`ofValue` hands the handle of a composite value over to the descriptor and `toValue` takes it back,
so neither of them touches a ledger, and the second undoes the first.
-/

namespace ScriptBoundary.Boundary

/-- The payload of a descriptor: a word, or the address of a handle. -/
inductive Payload where
  | word (bits : UInt64)
  | handle (h : Handle)
deriving Repr, Inhabited

namespace Payload

/-- The payload that nothing was written into. -/
def clear : Payload := .word 0

/-- The address a handle has as a word. No handle has the null address. -/
def address (h : Handle) : UInt64 := UInt64.ofNat ((h.id + 1) * 16)

def bits : Payload → UInt64
  | .word b => b
  | .handle h => address h

def ofNumber (x : Float) : Payload := .word x.toBits

/-- The payload read as a double. -/
def number : Payload → Float
  | p => Float.ofBits p.bits

/-- The payload read as a byte: the lowest one of the word. -/
def byte (p : Payload) : UInt8 := p.bits.toUInt8

/-- The payload with its lowest byte written over. -/
def setByte (p : Payload) (b : UInt8) : Payload := .word ((p.bits &&& ~~~255) ||| b.toUInt64)

/-- The handle the payload is the address of. A word of the host's own making is the address of
none. -/
def handle? : Payload → Option Handle
  | .word _ => none
  | .handle h => some h

end Payload

/-- A raw value. -/
structure Descriptor where
  tag : UInt8
  payload : Payload
deriving Repr, Inhabited

namespace Descriptor

def null : Descriptor := ⟨Tag.null.toByte, .clear⟩
def undefined : Descriptor := ⟨Tag.undefined.toByte, .clear⟩
def number (x : Float) : Descriptor := ⟨Tag.number.toByte, .ofNumber x⟩
def boolean (b : Bool) : Descriptor := ⟨Tag.boolean.toByte, .word (if b then 1 else 0)⟩
def date (ms : Float) : Descriptor := ⟨Tag.date.toByte, .ofNumber ms⟩

/-- A descriptor of a composite value with a given address. -/
def composite (tag : Tag) (payload : Payload) : Except AbiError Descriptor :=
  if !tag.isOwning then .error (.notOwning tag)
  else if payload.bits == 0 then .error (.nullHandle tag)
  else .ok ⟨tag.toByte, payload⟩

/-- The tag, if the byte is one. -/
def tag? (d : Descriptor) : Except AbiError Tag :=
  match Tag.ofByte? d.tag with
  | some t => .ok t
  | none => .error (.unknownTag d.tag)

def asNumber? (d : Descriptor) : Option Float :=
  match Tag.ofByte? d.tag with
  | some .number | some .date => some d.payload.number
  | _ => none

def asBoolean? (d : Descriptor) : Option Bool :=
  match Tag.ofByte? d.tag with
  | some .boolean => some (d.payload.byte != 0)
  | _ => none

/-- The payload as an address, for owning tags. -/
def pointer? (d : Descriptor) : Option UInt64 :=
  match Tag.ofByte? d.tag with
  | some t => if t.isOwning then some d.payload.bits else none
  | none => none

/-- Hands a value over. -/
def ofValue : Value → Descriptor
  | .null => null
  | .undefined => undefined
  | .number x => number x
  | .boolean b => boolean b
  | .date ms => date ms
  | .composite kind h => ⟨kind.tag.toByte, .handle h⟩

/-- Takes a value back. An owning tag without a handle is undefined. -/
def toValue? (d : Descriptor) : Except AbiError Value :=
  match Tag.ofByte? d.tag with
  | none => .error (.unknownTag d.tag)
  | some .null => .ok .null
  | some .undefined => .ok .undefined
  | some .number => .ok (.number d.payload.number)
  | some .boolean => .ok (.boolean (d.payload.byte != 0))
  | some .date => .ok (.date d.payload.number)
  | some tag =>
    match Kind.ofTag? tag, d.payload.handle? with
    | some kind, some h => .ok (.composite kind h)
    | _, _ => .ok .undefined

/-- Takes a value back, an unknown tag as undefined. -/
def toValue (d : Descriptor) : Value :=
  match d.toValue? with
  | .ok v => v
  | .error _ => .undefined

/-- A word in hexadecimal. -/
def hex (n : Nat) : String := "0x" ++ String.ofList (Nat.toDigits 16 n)

def debug (d : Descriptor) : String :=
  match Tag.ofByte? d.tag with
  | some .null => "ValueDesc(null)"
  | some .undefined => "ValueDesc(undefined)"
  | some .boolean => "ValueDesc(Some(" ++ toString (d.payload.byte != 0) ++ "))"
  | some .number => "ValueDesc(number: Some(" ++ Decimal.Layout.precise.write d.payload.number ++ "))"
  | some .date => "ValueDesc(date: Some(" ++ Decimal.Layout.precise.write d.payload.number ++ "))"
  | some t => "ValueDesc(" ++ t.name ++ ": " ++ hex d.payload.bits.toNat ++ ")"
  | none => "ValueDesc(<tag " ++ toString d.tag.toNat ++ ">)"

end Descriptor

/-- A raw outcome: a raw value and a byte that is zero unless it was thrown. -/
structure OutcomeDescriptor where
  value : Descriptor
  isException : UInt8
deriving Repr, Inhabited

namespace OutcomeDescriptor

def ok (d : Descriptor) : OutcomeDescriptor := ⟨d, 0⟩

def okEmpty : OutcomeDescriptor := ok .undefined

def exception (d : Descriptor) : OutcomeDescriptor := ⟨d, 1⟩

/-- Hands an outcome over. -/
def ofOutcome (o : Outcome) : OutcomeDescriptor :=
  if o.isException then exception (.ofValue o.value) else ok (.ofValue o.value)

/-- Takes an outcome back. -/
def toOutcome (d : OutcomeDescriptor) : Outcome := ⟨d.value.toValue, d.isException != 0⟩

def debug (d : OutcomeDescriptor) : String :=
  "TryCatchDesc \x7b value: " ++ d.value.debug ++ ", is_exception: "
    ++ toString d.isException.toNat ++ " \x7d"

end OutcomeDescriptor

end ScriptBoundary.Boundary
