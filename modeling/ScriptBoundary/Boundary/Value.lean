import ScriptBoundary.Boundary.Tag
import ScriptBoundary.Decimal.Layout

/-!
# Boundary values

The values a host works with. Null, undefined, numbers, booleans and dates travel inline. Whatever
lives on the script heap travels as a handle with the kind of thing it refers to.

The typed readers (`asNumber` and its like) refuse a value of another type with a
`BoundaryError`, never with a default.
-/

namespace ScriptBoundary.Boundary

/-- A host's reference to a script value. Handles are numbered in the order of their creation, and
no number is used twice. -/
structure Handle where
  id : Nat
deriving DecidableEq, Repr, Inhabited

inductive Value where
  | null
  | undefined
  | number (x : Float)
  | boolean (b : Bool)
  /-- Milliseconds since the start of 1970. -/
  | date (ms : Float)
  | composite (kind : Kind) (handle : Handle)
deriving Repr, Inhabited

/-- What a host operation can complain about. -/
inductive BoundaryError where
  /-- A script value of one type was read as another type of the host. -/
  | wrongType (tag : Tag) (wanted : String)
  /-- A handle was asked of a value that has none. -/
  | notComposite (tag : Tag)
  | abi (e : AbiError)
  /-- A failure of the host's own. -/
  | external (message : String)
deriving DecidableEq, Repr

namespace BoundaryError

def message : BoundaryError → String
  | .wrongType tag wanted => "error converting JavaScript " ++ tag.name ++ " to " ++ wanted
  | .notComposite tag => "value of kind " ++ tag.name ++ " does not carry a handle"
  | .abi e => e.message
  | .external m => m

/-- Whether a value had the wrong type. Scripts see such an error as a `TypeError`. -/
def isConversion : BoundaryError → Bool
  | .wrongType .. | .notComposite _ => true
  | .abi _ | .external _ => false

end BoundaryError

namespace Value

def tag : Value → Tag
  | .null => .null
  | .undefined => .undefined
  | .number _ => .number
  | .boolean _ => .boolean
  | .date _ => .date
  | .composite kind _ => kind.tag

def kind? : Value → Option Kind
  | .composite kind _ => some kind
  | _ => none

def handle? : Value → Option Handle
  | .composite _ h => some h
  | _ => none

def isComposite (v : Value) : Bool := v.kind?.isSome

def asNumber : Value → Except BoundaryError Float
  | .number x => .ok x
  | v => .error (.wrongType v.tag "f64")

def asBoolean : Value → Except BoundaryError Bool
  | .boolean b => .ok b
  | v => .error (.wrongType v.tag "bool")

def asDate : Value → Except BoundaryError Float
  | .date ms => .ok ms
  | v => .error (.wrongType v.tag "date")

/-- The handle of a composite value. -/
def intoHandle : Value → Except BoundaryError Handle
  | .composite _ h => .ok h
  | v => .error (.notComposite v.tag)

/-- How a value shows itself. -/
protected def toString : Value → String
  | .null => "null"
  | .undefined => "undefined"
  | .number x => Decimal.Layout.plain.write x
  | .boolean b => toString b
  | .date ms => "Date(" ++ Decimal.Layout.plain.write ms ++ ")"
  | .composite kind _ => "<" ++ kind.tag.name ++ ">"

instance : ToString Value := ⟨Value.toString⟩

/-- How a handle is written for debugging, given the type of what it refers to. -/
def debugHandle (typeName : String) : String := "Handle(" ++ typeName ++ ")"

/-- How a value is written for debugging. -/
def debug (typeName : String) : Value → String
  | .null => "Null"
  | .undefined => "Undefined"
  | .number x => "Number(" ++ Decimal.Layout.precise.write x ++ ")"
  | .boolean b => "Boolean(" ++ toString b ++ ")"
  | .date ms => "Date(" ++ Decimal.Layout.precise.write ms ++ ")"
  | .composite kind _ =>
    "Composite(Composite \x7b kind: " ++ kind.tag.debugName ++ ", handle: "
      ++ debugHandle typeName ++ " \x7d)"

end Value

/-- What an operation that can throw gives: a value and whether it was thrown. -/
structure Outcome where
  value : Value
  isException : Bool
deriving Repr, Inhabited

namespace Outcome

def ok (v : Value) : Outcome := ⟨v, false⟩

/-- The outcome of an operation that has nothing to give. -/
def okEmpty : Outcome := ok .undefined

def exception (v : Value) : Outcome := ⟨v, true⟩

def isOk (o : Outcome) : Bool := !o.isException

/-- The value on the side it belongs to. -/
def intoResult (o : Outcome) : Except Value Value :=
  if o.isException then .error o.value else .ok o.value

/-- The outcome a result stands for. -/
def ofResult : Except Value Value → Outcome
  | .ok v => ok v
  | .error v => exception v

theorem ofResult_intoResult (o : Outcome) : ofResult o.intoResult = o := by
  cases o with
  | mk v e => cases e <;> rfl

def debug (typeName : String) (o : Outcome) : String :=
  "ExceptionResult \x7b value: " ++ o.value.debug typeName ++ ", is_exception: "
    ++ toString o.isException ++ " \x7d"

end Outcome

end ScriptBoundary.Boundary
