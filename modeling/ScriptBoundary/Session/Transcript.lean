import ScriptBoundary.Boundary.Invoke
import ScriptBoundary.Session.Callback

/-!
# Transcripts

A session starts with one instance called `main`, does its steps in order, and cleans up: the
registers are given back, then the instances that are left are destroyed in the order of their
names. Its transcript tells what every step answered and what was left at the end.
-/

namespace ScriptBoundary.Session

open Boundary

/-- Gives back all registers of the session. -/
def releaseAll : Play Unit := do
  let s ← Act.state
  Act.modify fun s => { s with registers := [] }
  Act.forEach (fun r => Play.abandon r.2) s.registers

/-- Destroys an instance and tells its last counters. -/
def closeInstance (x : String × InstanceId) : Play (String × Data) := do
  let last ← tellCounters (some x.2)
  Act.request (.destroy x.2)
  return (x.1, .record last)

/-- The end of a session. -/
def close : Play Data := do
  releaseAll
  let left := (← Act.state).instances.mergeSort fun a b => !(b.1 < a.1)
  Act.modify fun s => { s with instances := [] }
  let counted ← Act.gather closeInstance left
  let drops ← Play.tellDrops
  let log ← Play.tellLog
  return .record ([("left", .record counted)] ++ drops ++ log)

/-- A session from its start to its end. -/
def session (input : Data) : Play Data := do
  let s ← Act.state
  if s.api = .foreign && !(((input.field? "fresh").bind Data.boolean?).getD false) then
    Surface.installLifecycle ⟨"A"⟩
  let wanted := if s.api = .engine then Doing.limits (input.field? "options") else Options.default
  let i ← Act.request (.newInstance wanted)
  Act.modify fun s => { s with instances := [("main", i)] }
  let start ← Play.tellLog
  let steps ← Act.gather Play.answerStep ((input.field? "steps").getD .null).items
  let last ← close
  let begun := if start.isEmpty then [] else [("start", Data.record start)]
  return .record ([("steps", .list steps), ("end", last)] ++ begun)

/-- The transcript of a session. -/
def transcript (input : Data) : Data :=
  let api : Api := if input.textField? "api" = some "ffi" then .foreign else .engine
  let showsLog := ((input.field? "log").bind Data.boolean?).getD false
  match execute host (session input) World.started (State.initial api showsLog) with
  | .ok (told, _) => told
  | .error fault => .record [("error", .text "Panic"), ("message", .text fault.message)]

end ScriptBoundary.Session
