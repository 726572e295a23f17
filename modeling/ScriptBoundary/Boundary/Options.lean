import ScriptBoundary.Script.Program

/-!
# Instance options

The limits an instance is created with.
-/

namespace ScriptBoundary.Boundary

/-- The limits of an instance whose host asks for none in particular. -/
def Options.default : Script.Limits := ⟨twoPow 64 - 1, 512, 1024⟩

/-- How options are written for debugging. -/
def Options.debug (o : Script.Limits) : String :=
  "EngineOptions \x7b loop_iteration_limit: " ++ toString o.loopIterations ++ ", recursion_limit: "
    ++ toString o.recursion ++ ", stack_size_limit: " ++ toString o.stackSize ++ " \x7d"

end ScriptBoundary.Boundary
