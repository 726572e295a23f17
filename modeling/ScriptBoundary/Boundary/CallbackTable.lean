import ScriptBoundary.Script.Value

/-!
# Callback tables

A host callback that scripts may call is entered in the table of its instance, under a number that
is never used again. The table refers to the function object only weakly: the entry does not keep
the function alive, and once the function is gone the entry is taken out and the callback retired.

Each entry stands for so many bytes of host memory, and the account of these bytes goes with the
table.

The number that the next registration gets is a natural number. On a machine it is a word of 64
bits, and no process registers enough callbacks for it to overflow, so no number comes round again.
-/

namespace ScriptBoundary.Boundary

/-- Instances are numbered in the order of their creation, from zero. -/
abbrev InstanceId := Nat

/-- Host code that scripts may call. -/
inductive Callback where
  /-- Code of the host's own, under a name the host gave it. -/
  | native (name : Nat)
  /-- A context pointer that the host's wrapper function knows what to do with, and the instance
  the host registered it on. -/
  | foreign (owner : InstanceId) (context : UInt64)
deriving DecidableEq, Repr, Inhabited

structure Registration where
  callback : Callback
  /-- The function object, which the registration does not keep alive. -/
  function : Script.Ref
deriving DecidableEq, Repr, Inhabited

/-- The host memory a registration stands for. -/
def registrationBytes : Nat := 40

structure CallbackTable where
  /-- The registrations with their numbers, in ascending order. -/
  entries : List (Nat × Registration)
  nextId : Nat
  /-- How many registrations were retired. -/
  finalized : Nat
  externalBytes : Nat
deriving Repr, Inhabited

namespace CallbackTable

def empty : CallbackTable := ⟨[], 1, 0, 0⟩

/-- The registrations that are not retired. -/
def live (t : CallbackTable) : Nat := t.entries.length

/-- Enters a registration under the next number. -/
def register (t : CallbackTable) (r : Registration) : CallbackTable :=
  { t with
    entries := t.entries ++ [(t.nextId, r)]
    nextId := t.nextId + 1
    externalBytes := t.externalBytes + registrationBytes }

def lookup (t : CallbackTable) (id : Nat) : Option Registration :=
  (t.entries.find? fun e => e.1 == id).map (·.2)

/-- Takes a registration out of the table and settles its account. -/
def retire (t : CallbackTable) (id : Nat) : CallbackTable :=
  { t with
    entries := t.entries.filter fun e => e.1 != id
    finalized := t.finalized + 1
    externalBytes := t.externalBytes - registrationBytes }

/-- Settles the account for good and gives what was left in it. -/
def dispose (t : CallbackTable) : CallbackTable × Nat :=
  ({ t with externalBytes := 0 }, t.externalBytes)

end CallbackTable

end ScriptBoundary.Boundary
