/-!
# Handle ledgers

Every instance keeps a ledger of the handles it made. There are three counters and each of them
only goes up: how many handles were made from script values, how many by copying another handle,
and how many were given back. How many are out at the moment is what is left over.

The counters are natural numbers. On a machine they are words of 64 bits, which counting one by one
does not exhaust, so their overflow is left out.
-/

namespace ScriptBoundary.Boundary

structure Ledger where
  created : Nat
  cloned : Nat
  released : Nat
deriving DecidableEq, Repr, Inhabited

namespace Ledger

def empty : Ledger := ⟨0, 0, 0⟩

/-- The handles that are out. -/
def live (l : Ledger) : Nat := l.created + l.cloned - l.released

def create (l : Ledger) : Ledger := { l with created := l.created + 1 }

def clone (l : Ledger) : Ledger := { l with cloned := l.cloned + 1 }

def release (l : Ledger) : Ledger := { l with released := l.released + 1 }

theorem live_empty : empty.live = 0 := rfl

theorem live_create {l : Ledger} (h : l.released ≤ l.created + l.cloned) :
    l.create.live = l.live + 1 := by
  simp only [create, live]
  omega

theorem live_clone {l : Ledger} (h : l.released ≤ l.created + l.cloned) :
    l.clone.live = l.live + 1 := by
  simp only [clone, live]
  omega

theorem live_release (l : Ledger) : l.release.live = l.live - 1 := by
  simp only [release, live]
  omega

end Ledger

end ScriptBoundary.Boundary
