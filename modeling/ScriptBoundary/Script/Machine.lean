import ScriptBoundary.Script.Program

/-!
# Tasks and machines

Evaluating an expression may call a function, whose body has expressions to evaluate; reading a
property may run a getter. The kinds of work that refer to one another are the constructors of
`Task`, and a `Machine` does them. Every part of the evaluator is written against a machine it is
given and is not recursive itself; the knot is tied once, with a number of levels, in `Evaluate`.
-/

namespace ScriptBoundary.Script

/-- What evaluation needs to know of the running call. -/
structure Frame where
  scope : Ref
  /-- The cell that counts the call's loop iterations. -/
  tally : Ref
  strict : Bool
deriving Inhabited

/-- How a statement ends. The value is the statement's completion value, where it has one. -/
inductive Flow where
  | normal (v : Option Value)
  | breakTo (label : Option String) (v : Option Value)
  | continueTo (label : Option String) (v : Option Value)
  | returned (v : Value)
deriving Inhabited

/-- A loop over the property names of an object and its prototypes. -/
structure NameWalk where
  object : Option Ref
  remaining : List Key
  visited : List Key
deriving Inhabited

/-- What binding a value to a pattern does with each name: it assigns, or it gives a name that the
current scope has declared its first value. -/
inductive BindingSort where
  | assign | initialise
deriving DecidableEq, Repr

inductive Task where
  | eval (f : Frame) (e : Expr)
  /-- An expression inside an optional chain; no value if a link was skipped. -/
  | chain (f : Frame) (e : Expr)
  | exec (f : Frame) (labels : List String) (s : Stmt)
  | whileStep (f : Frame) (labels : List String) (test : Expr) (body : Stmt) (v : Option Value)
  | doStep (f : Frame) (labels : List String) (body : Stmt) (test : Expr) (v : Option Value)
  | forStep (f : Frame) (labels : List String) (names : List Lexical) (first : Bool)
      (test update : Expr) (body : Stmt) (v : Option Value)
  | ofStep (f : Frame) (labels : List String) (head : Code) (body : Stmt) (iterator next : Value)
      (v : Option Value)
  | inStep (f : Frame) (labels : List String) (head : Code) (body : Stmt) (walk : NameWalk)
      (v : Option Value)
  /-- Gives the names of a pattern the parts of a value. -/
  | bind (f : Frame) (sort : BindingSort) (target : Pattern) (v : Value)
  /-- The next name of a loop over property names. -/
  | walk (w : NameWalk)
  /-- Draws the rest of an iterator, after the values already drawn, latest first. -/
  | gather (iterator next : Value) (drawn : List Value)
  | call (callee this : Value) (args : List Value)
  | construct (callee : Ref) (args : List Value) (newTarget : Ref)
  | getOwn (r : Ref) (k : Key)
  | define (r : Ref) (k : Key) (d : Descriptor)
  | has (r : Ref) (k : Key)
  | get (r : Ref) (k : Key) (receiver : Value)
  | set (r : Ref) (k : Key) (v receiver : Value)
  | delete (r : Ref) (k : Key)
  | ownKeys (r : Ref)
  | protoOf (r : Ref)
  | setProtoOf (r : Ref) (p : Option Ref)
  | isExtensible (r : Ref)
  | preventExtensions (r : Ref)

/-- What a task gives. -/
@[reducible] def Task.Result : Task → Type
  | .eval .. | .call .. | .construct .. | .get .. => Value
  | .chain .. => Option Value
  | .exec .. | .whileStep .. | .doStep .. | .forStep .. | .ofStep .. | .inStep .. => Flow
  | .getOwn .. => Option Slot
  | .define .. | .has .. | .set .. | .delete .. | .setProtoOf .. | .isExtensible ..
  | .preventExtensions .. => Bool
  | .bind .. => Unit
  | .gather .. => List Value
  | .walk .. => Option (Text × NameWalk)
  | .ownKeys .. => List Key
  | .protoOf .. => Option Ref

/-- Whatever does tasks. -/
abbrev Machine := (t : Task) → Comp t.Result

namespace Machine

variable (m : Machine)

def eval (f : Frame) (e : Expr) : Comp Value := m (.eval f e)
def exec (f : Frame) (s : Stmt) : Comp Flow := m (.exec f [] s)
def chain (f : Frame) (e : Expr) : Comp (Option Value) := m (.chain f e)
def walk (w : NameWalk) : Comp (Option (Text × NameWalk)) := m (.walk w)
def bindTo (f : Frame) (sort : BindingSort) (target : Pattern) (v : Value) : Comp Unit :=
  m (.bind f sort target v)
def gather (iterator next : Value) (drawn : List Value) : Comp (List Value) :=
  m (.gather iterator next drawn)
def call (callee this : Value) (args : List Value) : Comp Value := m (.call callee this args)
def construct (callee : Ref) (args : List Value) (newTarget : Ref) : Comp Value :=
  m (.construct callee args newTarget)
def getOwn (r : Ref) (k : Key) : Comp (Option Slot) := m (.getOwn r k)
def define (r : Ref) (k : Key) (d : Descriptor) : Comp Bool := m (.define r k d)
def has (r : Ref) (k : Key) : Comp Bool := m (.has r k)
def get (r : Ref) (k : Key) : Comp Value := m (.get r k (.object r))
def getFor (r : Ref) (k : Key) (receiver : Value) : Comp Value := m (.get r k receiver)
def set (r : Ref) (k : Key) (v : Value) : Comp Bool := m (.set r k v (.object r))
def setFor (r : Ref) (k : Key) (v receiver : Value) : Comp Bool := m (.set r k v receiver)
def delete (r : Ref) (k : Key) : Comp Bool := m (.delete r k)
def ownKeys (r : Ref) : Comp (List Key) := m (.ownKeys r)
def protoOf (r : Ref) : Comp (Option Ref) := m (.protoOf r)
def setProtoOf (r : Ref) (p : Option Ref) : Comp Bool := m (.setProtoOf r p)
def isExtensible (r : Ref) : Comp Bool := m (.isExtensible r)
def preventExtensions (r : Ref) : Comp Bool := m (.preventExtensions r)

end Machine

namespace Comp

variable {α : Type}

/-- A built-in object of the current realm. -/
def intrinsic (i : Intrinsic) : Comp Ref := do
  let act ← activation
  let r ← inspect (·.realm act.realm)
  return r.base + i.ctorIdx

/-- A new object of some nature. -/
def newObject (nature : Nature) (proto : Option Ref) (props : Props) : Comp Ref :=
  perform (.newObject nature proto props)

/-- A new error object of the current realm. -/
def newError (c : ErrorClass) (message : String) : Comp Value := do
  let proto ← intrinsic c.proto
  let r ← newObject .error (some proto)
    (.ofList [(Key.ofString "message", Slot.hidden (Value.ofString message))])
  return .object r

def raise (c : ErrorClass) (message : String) : Comp α := do
  throwValue (← newError c message)

def throwType (message : String) : Comp α := raise .typeError message

/-- A new array of the current realm. -/
def newArray (items : List Value) : Comp Ref := do
  let proto ← intrinsic .arrayPrototype
  let length : Slot := ⟨.data (Value.ofNat items.length) true, false, false⟩
  newObject .array (some proto) (.listing length (items.map Slot.plain))

/-- A new plain object of the current realm. -/
def newPlain : Comp Ref := do newObject .plain (some (← intrinsic .objectPrototype)) ∅

end Comp

end ScriptBoundary.Script
