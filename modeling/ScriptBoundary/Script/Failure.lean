import ScriptBoundary.Script.Property

/-!
# Failures in words

How a thrown value or an exceeded limit is written where nobody can catch it any more. An error
object shows its name and its message, without running a getter for either.
-/

namespace ScriptBoundary.Script

/-- The text of an own or inherited data property, as far as no getter is needed. -/
def Heap.dataText? (h : Heap) (k : Key) : Nat → Ref → Option Text
  | 0, _ => none
  | levels + 1, r =>
    match h.ownSlot? r k with
    | some s => s.value?.bind fun v => match v with
      | .text t => some t
      | _ => none
    | none => ((h.object r).proto).bind (h.dataText? k levels)

/-- What a failed computation says. -/
def Heap.describeFailure (h : Heap) : Completion Value → String
  | .limit fault => "RuntimeLimit: " ++ fault.message
  | .thrown (.object r) =>
    match (h.object r).nature with
    | .error =>
      let part (k : String) := ((h.dataText? k h.cells.size r).map (·.toString)).getD ""
      let name := part "name"
      let message := part "message"
      if name.isEmpty then message else if message.isEmpty then name else name ++ ": " ++ message
    | _ => "[object]"
  | .thrown (.text t) => "\"" ++ t.toString ++ "\""
  | .thrown (.number x) => (numberText x).toString
  | .thrown (.boolean b) => toString b
  | .thrown .null => "null"
  | .thrown .undefined => "undefined"
  | .thrown (.bigint n) => toString n ++ "n"
  | .thrown (.symbol s) => (Key.symbol s).show'
  | .value _ => ""

end ScriptBoundary.Script
