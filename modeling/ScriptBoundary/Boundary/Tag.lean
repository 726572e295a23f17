/-!
# Tags and kinds

Every value that crosses the boundary carries a tag. The numbers are published: hosts in other
languages are compiled against them. Four of the tags own a handle, and those four are the kinds of
composite values, so `Kind.ofTag?` is defined exactly where `Tag.isOwning` holds.
-/

namespace ScriptBoundary.Boundary

inductive Tag where
  | null | undefined | number | boolean | array | function | date | object | string
deriving DecidableEq, Repr, Inhabited

namespace Tag

/-- All tags in the order of their numbers. -/
def all : List Tag := [.null, .undefined, .number, .boolean, .array, .function, .date, .object, .string]

/-- The published number. -/
def toByte : Tag → UInt8
  | .null => 0
  | .undefined => 1
  | .number => 2
  | .boolean => 3
  | .array => 4
  | .function => 5
  | .date => 6
  | .object => 7
  | .string => 8

/-- The tag with a number. -/
def ofByte? : UInt8 → Option Tag
  | 0 => some .null
  | 1 => some .undefined
  | 2 => some .number
  | 3 => some .boolean
  | 4 => some .array
  | 5 => some .function
  | 6 => some .date
  | 7 => some .object
  | 8 => some .string
  | _ => none

/-- Whether a value with this tag owns a handle. -/
def isOwning : Tag → Bool
  | .array | .function | .object | .string => true
  | _ => false

/-- The name a tag has in messages. -/
def name : Tag → String
  | .null => "null"
  | .undefined => "undefined"
  | .number => "number"
  | .boolean => "boolean"
  | .array => "array"
  | .function => "function"
  | .date => "date"
  | .object => "object"
  | .string => "string"

/-- The name a tag has in debugging output. -/
def debugName : Tag → String
  | .null => "Null"
  | .undefined => "Undefined"
  | .number => "Number"
  | .boolean => "Boolean"
  | .array => "Array"
  | .function => "Function"
  | .date => "Date"
  | .object => "Object"
  | .string => "String"

theorem ofByte?_toByte (t : Tag) : ofByte? t.toByte = some t := by cases t <;> rfl

end Tag

/-- The kinds of composite values. -/
inductive Kind where
  | array | function | object | string
deriving DecidableEq, Repr, Inhabited

namespace Kind

def tag : Kind → Tag
  | .array => .array
  | .function => .function
  | .object => .object
  | .string => .string

/-- The kind of the values with a tag, if they are composite. -/
def ofTag? : Tag → Option Kind
  | .array => some .array
  | .function => some .function
  | .object => some .object
  | .string => some .string
  | _ => none

theorem ofTag?_tag (k : Kind) : ofTag? k.tag = some k := by cases k <;> rfl

theorem isOwning_tag (k : Kind) : k.tag.isOwning = true := by cases k <;> rfl

end Kind

/-- What can be wrong with a raw descriptor. -/
inductive AbiError where
  | unknownTag (n : UInt8)
  | nullHandle (tag : Tag)
  | notOwning (tag : Tag)
deriving DecidableEq, Repr

namespace AbiError

def message : AbiError → String
  | .unknownTag n => "Unknown value tag: " ++ toString n.toNat
  | .nullHandle t => "Null handle for owning tag " ++ t.name
  | .notOwning t => "Tag " ++ t.name ++ " does not carry a handle"

end AbiError

end ScriptBoundary.Boundary
