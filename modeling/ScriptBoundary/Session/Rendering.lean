import ScriptBoundary.Session.Registers

/-!
# Rendering

How values, outcomes, counters and errors are told as data.

A value shows its tag and how it prints itself. A string shows its text as well, and so does
anything composite that was thrown; to get that text a script may have to run, so rendering is
something the host does, not a function of the value.
-/

namespace ScriptBoundary.Session

open Boundary

/-- A number as data. Fractions have no place in data, so it is a text. -/
def numberData (x : Float) : Data := .text (Decimal.Layout.plain.write x)

/-- The text a composite value shows. The text of a syntax error beyond its kind is not told. -/
def shownText (kind : Kind) (text : String) : String :=
  if kind != .string && text.startsWith "SyntaxError" then "SyntaxError" else text

namespace Play

/-- Renders a raw value, with an instance to read texts through. -/
def render (i : Option InstanceId) (thrown : Bool) (d : Descriptor) : Play Data := do
  let v := d.toValue
  let base := [("tag", Data.nat d.tag.toNat), ("show", Data.text (toString v))]
  match v, i with
  | .composite kind h, some i =>
    if kind = .string || thrown then
      let text ← Act.request (.toUtf8 i h)
      return .record (base ++ [("text", .text (shownText kind text))])
    else return .record base
  | _, _ => return .record base

/-- Renders a raw outcome. -/
def renderOutcome (i : Option InstanceId) (d : OutcomeDescriptor) : Play Data := do
  let thrown := d.isException != 0
  return .record [(if thrown then "throw" else "ok", ← render i thrown d.value)]

/-- Tells the callbacks dropped since the last time, sorted as texts. -/
def tellDrops : Play (List (String × Data)) := do
  let s ← Act.state
  let dropped ← Act.request .dropped
  Act.modify fun s => { s with toldDrops := dropped.size }
  let names := (dropped.toList.drop s.toldDrops).filterMap fun d =>
    match d.callback, d.through with
    | .native name, _ => some (toString name)
    | .foreign _ context, some pair => some (pair.name ++ toString context.toNat)
    | .foreign _ _, none => none
  return Data.listField "drops" ((names.mergeSort fun a b => !(b < a)).map .text)

end Play

/-- Log records in the order in which they are told: runs of finalizations are sorted as texts. -/
def orderedEvents : List Event → List Event → List Event
  | run, [] => flush run
  | run, e :: rest =>
    match e with
    | .finalizing _ => orderedEvents (e :: run) rest
    | e => flush run ++ e :: orderedEvents [] rest
where
  flush (run : List Event) : List Event := run.mergeSort fun a b => !(b.message < a.message)

/-- A log record as data. -/
def eventData (e : Event) : Data := .list [.text e.level.name, .text e.message]

namespace Play

/-- Tells the log records since the last time, if the session shows its log. -/
def tellLog : Play (List (String × Data)) := do
  let s ← Act.state
  let log ← Act.request .log
  Act.modify fun s => { s with toldEvents := log.size }
  if s.showsLog then
    let events := orderedEvents [] (log.toList.drop s.toldEvents)
    return Data.listField "log" (events.map eventData)
  else return []

end Play

/-- The counters of an instance. -/
def counters (x : Instance) : List (String × Data) :=
  [("h", .list [.nat x.ledger.live, .nat x.ledger.created, .nat x.ledger.cloned,
      .nat x.ledger.released]),
   ("cb", .list [.nat x.table.live, .nat x.table.finalized, .nat x.table.externalBytes])]

/-- The counters of an instance that may be missing. -/
def tellCounters (i : Option InstanceId) : Play (List (String × Data)) := do
  match i with
  | none => return []
  | some i => return ((← Act.request (.inspect i)).map counters).getD []

/-- The name of the kind of an error. -/
def errorKind : BoundaryError → String
  | .wrongType .. => "FromJs"
  | .notComposite _ => "NotComposite"
  | .abi _ => "Abi"
  | .external _ => "External"

/-- An error of the host as data. -/
def errorFields (e : BoundaryError) : List (String × Data) :=
  [("error", .text (errorKind e)), ("message", .text e.message),
   ("conversion", .boolean e.isConversion)]

/-- All that can be asked of a value, given the name of the type it refers to. -/
def inspection (d : Descriptor) (typeName : String) : Data :=
  let v := d.toValue
  let raw := [("number", Data.ofOption numberData d.asNumber?),
    ("boolean", Data.ofOption .boolean d.asBoolean?),
    ("handle", Data.ofOption (fun bits => .boolean (bits != 0)) d.pointer?)]
  .record [
    ("tag", .nat v.tag.toByte.toNat),
    ("name", .text v.tag.name),
    ("owning", .boolean v.tag.isOwning),
    ("kind", Data.ofOption (fun k => .text k.tag.debugName) v.kind?),
    ("composite", .boolean v.isComposite),
    ("null", .boolean (v.tag = .null)),
    ("undefined", .boolean (v.tag = .undefined)),
    ("is", .list ([Kind.array, .function, .object, .string].map fun k =>
      .boolean (v.kind? = some k))),
    ("has_handle", .boolean v.handle?.isSome),
    ("show", .text (toString v)),
    ("debug", .text (v.debug typeName)),
    ("desc", .record (if d.pointer?.isSome then raw else raw ++ [("debug", .text d.debug)]))]

end ScriptBoundary.Session
