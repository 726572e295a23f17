import ScriptBoundary.Boundary.Options
import ScriptBoundary.Boundary.Platform
import ScriptBoundary.Boundary.Tag

/-!
# Events

What the boundary tells whoever reads its log. An event says what happened; `Event.level` and
`Event.message` say how it is written down.
-/

namespace ScriptBoundary.Boundary

inductive Level where
  | trace | debug | warn
deriving DecidableEq, Repr

namespace Level

def name : Level → String
  | .trace => "TRACE"
  | .debug => "DEBUG"
  | .warn => "WARN"

end Level

inductive Event where
  | bootstrapping
  | created (number : Nat) (limits : Script.Limits)
  | registered (id : Nat)
  /-- The function object of a callback has become unreachable. -/
  | finalizing (id : Nat)
  | collected (number finalized : Nat)
  | outstanding (number bytes : Nat)
  | destroyed (number finalized bytes live : Nat)
  /-- A callback with this context pointer went away and there was nobody to tell. -/
  | unclaimed (context : UInt64)
  | malformed (e : AbiError)
  /-- Listing the names of an object failed. -/
  | namesLost (reason : String)
deriving DecidableEq, Repr

namespace Event

def level : Event → Level
  | .registered _ | .finalizing _ => .trace
  | .outstanding .. | .unclaimed _ => .warn
  | _ => .debug

/-- A number in hexadecimal. -/
def hex (n : Nat) : String := "0x" ++ String.ofList (Nat.toDigits 16 n)

def message : Event → String
  | .bootstrapping => "bootstrapping platform v" ++ Platform.version
  | .created number limits =>
    "created instance " ++ toString number ++ " (" ++ Options.debug limits ++ ")"
  | .registered id => "registered callback " ++ toString id
  | .finalizing id => "finalizing unreachable callback " ++ toString id
  | .collected number n =>
    "instance " ++ toString number ++ ": collection finalized " ++ toString n ++ " callbacks"
  | .outstanding number bytes =>
    "instance " ++ toString number ++ " disposed with " ++ toString bytes
      ++ " external bytes outstanding"
  | .destroyed number finalized bytes live =>
    "destroyed instance " ++ toString number ++ " (" ++ toString finalized
      ++ " callbacks force-finalized, " ++ toString bytes ++ " external bytes leaked, "
      ++ toString live ++ " handles live)"
  | .unclaimed context =>
    "no drop function installed; leaking callback " ++ hex context.toNat
  | .malformed e => "decoding malformed descriptor as undefined: " ++ e.message
  | .namesLost reason => "keys(): enumeration threw, returning empty: " ++ reason

end Event

end ScriptBoundary.Boundary
