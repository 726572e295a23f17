import ScriptBoundary.Script.Heap

/-!
# Programs: what a script does, step by step

A running script looks at the heap, edits it, and now and then calls a host function, which may do
anything: run other scripts, register callbacks, collect garbage. A `Program` is the tree of these
steps. At a host call it stops and says what it needs; whoever runs it answers with a completion
and it goes on.

So nothing about the host is decided here, and everything a script can do to the world is in five
constructors. What is to hold of every script is proved by induction on the tree, without a look
at how scripts are evaluated.

## Activations

A script runs in a context, and inside it at some depth: so many frames, so many operand slots,
and a list of cells that the calls in progress still hold. That is an `Activation`. It travels with
a host call, since the host may start operations at that very depth, and the cells it lists must
survive a collection.
-/

namespace ScriptBoundary.Script

/-- The limits a context imposes on what runs in it. -/
structure Limits where
  loopIterations : Nat
  recursion : Nat
  stackSize : Nat
deriving DecidableEq, Repr, Inhabited

/-- The limits that can be exceeded. -/
inductive LimitFault where
  | loop (limit : Nat)
  | recursion
  | stack
deriving DecidableEq, Repr

/-- What a limit says when it is exceeded. -/
def LimitFault.message : LimitFault → String
  | .loop limit => "Maximum loop iteration limit " ++ toString limit ++ " exceeded"
  | .recursion => "exceeded maximum number of recursive calls"
  | .stack => "exceeded maximum call stack length"

/-- How a computation ends: with a value, by a throw that scripts can catch, or at a limit, which
they cannot. -/
inductive Completion (α : Type) where
  | value (a : α)
  | thrown (v : Value)
  | limit (fault : LimitFault)
deriving Repr

instance {α : Type} [Inhabited α] : Inhabited (Completion α) := ⟨.value default⟩

/-- Where in a context a computation runs. -/
structure Activation where
  /-- The instance whose context it is. -/
  context : Nat
  limits : Limits
  realm : Ref
  frames : Nat
  slots : Nat
  /-- The cells that the calls in progress hold. -/
  held : List Ref
  /-- The objects that are being converted to a primitive. -/
  converting : List Ref
deriving Inhabited

/-- A call of a host function by a script. -/
structure HostCall where
  anchor : Anchor
  this : Value
  args : List Value
  activation : Activation

/-- What is left of a computation. -/
inductive Program where
  /-- It has ended. -/
  | done (result : Completion Value)
  /-- It looks at the heap. -/
  | look (next : Heap → Program)
  /-- It changes the heap. -/
  | edit (e : Edit) (next : Nat → Program)
  /-- It waits for a host function. -/
  | call (c : HostCall) (next : Completion Value → Program)
  /-- It was given too few levels of nesting. -/
  | exhausted

/-- A computation inside a program: what it does in an activation, given what is done with its
outcome. -/
def Comp (α : Type) : Type := Activation → (Completion α → Program) → Program

namespace Comp

variable {α β : Type}

@[inline] protected def pure (a : α) : Comp α := fun _ k => k (.value a)

@[inline] protected def bind (m : Comp α) (f : α → Comp β) : Comp β := fun act k =>
  m act fun c => match c with
    | .value a => f a act k
    | .thrown v => k (.thrown v)
    | .limit l => k (.limit l)

instance : Monad Comp where
  pure := Comp.pure
  bind := Comp.bind

instance : Inhabited (Comp α) := ⟨fun _ _ => .exhausted⟩

/-- The program that a computation is when nothing comes after it. -/
def start (m : Comp Value) (act : Activation) : Program := m act .done

def exhausted : Comp α := fun _ _ => .exhausted

def throwValue (v : Value) : Comp α := fun _ k => k (.thrown v)

def exceed (l : LimitFault) : Comp α := fun _ k => k (.limit l)

/-- Runs a computation and gives its outcome, whatever it is. -/
def attempt (m : Comp α) : Comp (Completion α) := fun act k => m act fun c => k (.value c)

/-- Runs `handler` on a thrown value. A limit is not caught. -/
def catchThrow (m : Comp α) (handler : Value → Comp α) : Comp α := fun act k =>
  m act fun c => match c with
    | .thrown v => handler v act k
    | c => k c

/-- The activation in which this runs. -/
def activation : Comp Activation := fun act k => k (.value act)

/-- Runs a computation in another activation. -/
def within (f : Activation → Activation) (m : Comp α) : Comp α := fun act k => m (f act) k

/-- Looks something up in the heap. -/
@[inline] def inspect (f : Heap → α) : Comp α := fun _ k => .look fun h => k (.value (f h))

def readObject (r : Ref) : Comp Object := inspect (·.object r)

def readScope (r : Ref) : Comp Scope := inspect (·.scope r)

/-- Edits the heap. -/
def perform (e : Edit) : Comp Nat := fun _ k => .edit e fun n => k (.value n)

def performOnly (e : Edit) : Comp Unit := fun _ k => .edit e fun _ => k (.value ())

/-- Calls a host function. -/
def callHost (anchor : Anchor) (this : Value) (args : List Value) : Comp Value := fun act k =>
  .call ⟨anchor, this, args, act⟩ k

/-- Marks an object as being converted to a primitive while a computation runs. -/
def converting (r : Ref) (m : Comp α) : Comp α := fun act k =>
  m { act with converting := r :: act.converting } k

/-- Keeps cells alive while a computation runs. -/
def holdingRefs (rs : List Ref) (m : Comp α) : Comp α := fun act k =>
  m { act with held := rs ++ act.held } k

/-- Keeps values alive while a computation runs; each takes an operand slot. -/
def holding (vs : List Value) (m : Comp α) : Comp α := fun act k =>
  m { act with held := vs.flatMap Value.links ++ act.held, slots := act.slots + vs.length } k

/-- Keeps values alive that a built-in function holds outside the operand stack. -/
def keeping (vs : List Value) (m : Comp α) : Comp α := fun act k =>
  m { act with held := vs.flatMap Value.links ++ act.held } k

/-- Runs `f` on `start`, `start + 1`, … , `count` times. -/
def forRange (count : Nat) (start : Nat) (f : Nat → Comp Unit) : Comp Unit :=
  match count with
  | 0 => pure ()
  | n + 1 => do
    f start
    forRange n (start + 1) f

/-- Runs `f` on the elements of a list and gathers the results. -/
def mapList (f : α → Comp β) : List α → Comp (List β)
  | [] => pure []
  | a :: rest => do
    let b ← f a
    let bs ← mapList f rest
    return b :: bs

/-- Runs `f` on the elements of a list. -/
def forList (f : α → Comp Unit) : List α → Comp Unit
  | [] => pure ()
  | a :: rest => do
    f a
    forList f rest

/-- Threads a value through the elements of a list. -/
def foldList (f : β → α → Comp β) (b : β) : List α → Comp β
  | [] => pure b
  | a :: rest => do
    let b ← f b a
    foldList f b rest

end Comp

end ScriptBoundary.Script
