/-!
# Data

Scripted hosts are written down as data, and what they see is told as data. A datum is a tree of
texts, integers and truth values; a record is a list of named fields, and its order means nothing.
-/

namespace ScriptBoundary.Session

inductive Data where
  | null
  | boolean (b : Bool)
  | integer (n : Int)
  | text (s : String)
  | list (items : List Data)
  | record (fields : List (String × Data))
deriving Repr, Inhabited

namespace Data

def nat (n : Nat) : Data := .integer n

/-- A field of a record. -/
def field? (d : Data) (name : String) : Option Data :=
  match d with
  | .record fields => fields.lookup name
  | _ => none

def text? : Data → Option String
  | .text s => some s
  | _ => none

def integer? : Data → Option Int
  | .integer n => some n
  | _ => none

def boolean? : Data → Option Bool
  | .boolean b => some b
  | _ => none

/-- The items of a list; of anything else, none. -/
def items : Data → List Data
  | .list items => items
  | _ => []

def textField? (d : Data) (name : String) : Option String := (d.field? name).bind text?

def natField? (d : Data) (name : String) : Option Nat :=
  ((d.field? name).bind integer?).bind fun n => if n < 0 then none else some n.toNat

/-- Whether a field is there and null. -/
def hasNull (d : Data) (name : String) : Bool :=
  match d.field? name with
  | some .null => true
  | _ => false

/-- A value that may be missing. -/
def ofOption {α : Type} (f : α → Data) : Option α → Data
  | some a => f a
  | none => .null

/-- A field that is left out when its list is empty. -/
def listField (name : String) (items : List Data) : List (String × Data) :=
  if items.isEmpty then [] else [(name, .list items)]

/-- What a step answers that has nothing to say. -/
def unit : Data := .record [("unit", .boolean true)]

end Data

/-- What can be wrong with a step. -/
inductive Problem where
  | noRegister (name : String)
  | noHandle (name : String)
  | noInstance (name : String)
  /-- The register is in use. -/
  | busy (name : String)
  | exists (name : String)
  | badInput (what : String)
  | unsupported (what : String)
  | abi (message : String)
deriving DecidableEq, Repr

namespace Problem

def kind : Problem → String
  | .noRegister _ => "NoRegister"
  | .noHandle _ => "NoHandle"
  | .noInstance _ => "NoInstance"
  | .busy _ => "Busy"
  | .exists _ => "Exists"
  | .badInput _ => "BadInput"
  | .unsupported _ => "Unsupported"
  | .abi _ => "Abi"

def message : Problem → String
  | .noRegister m | .noHandle m | .noInstance m | .busy m | .exists m | .badInput m
  | .unsupported m | .abi m => m

def toData (p : Problem) : Data := .record [("error", .text p.kind), ("message", .text p.message)]

end Problem

end ScriptBoundary.Session
