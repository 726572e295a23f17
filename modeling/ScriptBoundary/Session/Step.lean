import ScriptBoundary.Session.Expression

/-!
# Steps

A step is one thing a scripted host does: it names an operation and gives its arguments in fields.
Every operation goes through the C surface, whichever surface the session works through; that an
engine session cannot pass null pointers is all the difference there is.

What is ill formed shows before anything is asked of the boundary: first the instance, then the
object, then the expressions in their order.
-/

namespace ScriptBoundary.Session

open Boundary

namespace State

/-- The instance a step is addressed to: the one it names, or else the one the running callback is
on, or else the one called `main`. -/
def addressee (s : State) (step : Data) : Except Problem (Option InstanceId) :=
  let named (name : String) : Except Problem (Option InstanceId) :=
    match s.instances.lookup name with
    | some i => .ok (some i)
    | none => .error (.noInstance name)
  match step.field? "inst" with
  | some (.text name) => named name
  | some .null => if s.api = .foreign then .ok none else whoever named
  | _ => whoever named
where
  whoever (named : String → Except Problem (Option InstanceId)) :
      Except Problem (Option InstanceId) :=
    match s.frames.head? with
    | some f => .ok (some f.target)
    | none => named "main"

end State

namespace Doing

def addressee (step : Data) : Doing (Option InstanceId) := do
  match (← state).addressee step with
  | .ok i => return i
  | .error p => throw p

/-- The text in a field. -/
def name (step : Data) (field : String) : Doing String := do
  match step.textField? field with
  | some t => return t
  | none => throw (.badInput field)

/-- The number in a field. -/
def natural (step : Data) (field : String) : Doing Nat := do
  match step.natField? field with
  | some n => return n
  | none => throw (.badInput field)

/-- Uses the register a field names, which is to hold a handle. The C surface takes null pointers
too. -/
def withHandle {α : Type} (step : Data) (field : String) (m : Option Handle → Doing α) :
    Doing α := do
  let foreign := (← state).api = .foreign
  if foreign && step.hasNull field then m none
  else
    let r ← name step field
    withRegister r fun c => do
      match c.content.toValue.handle? with
      | some h => m (some h)
      | none => if foreign && c.content.pointer?.isSome then m none else throw (.noHandle r)

/-- Renders an outcome and puts its value where the step wants it. -/
def finish (i : Option InstanceId) (step : Data) (d : OutcomeDescriptor) : Doing Data := do
  let shown ← play (Play.renderOutcome i d)
  play (Play.keep (step.textField? "as") d.value (d.isException != 0))
  return shown

/-- Renders a new handle and puts it where the step wants it. -/
def finishHandle (i : Option InstanceId) (step : Data) (kind : Kind) (h : Option Handle) :
    Doing Data :=
  finish i step (.ok (fresh kind h))

/-- The limits that options ask for. -/
def limits (options : Option Data) : Script.Limits :=
  let o := options.getD .null
  let d := Options.default
  ⟨(o.natField? "loop").getD d.loopIterations, (o.natField? "recursion").getD d.recursion,
    (o.natField? "stack").getD d.stackSize⟩

/-! ## Instances -/

def newInstance (step : Data) : Doing Data := do
  let n ← name step "inst"
  let s ← state
  if (s.instances.lookup n).isSome then throw (.exists n)
  let wanted := if s.api = .engine then limits (step.field? "options") else Options.default
  let i ← ask (.newInstance wanted)
  modify fun s => { s with instances := (n, i) :: s.instances }
  return Data.unit

def destroy (step : Data) : Doing Data := do
  if !(← state).frames.isEmpty then throw (.unsupported "destroy inside a callback")
  match ← addressee step with
  | none => return Data.unit
  | some i =>
    modify fun s => { s with instances := s.instances.filter fun x => x.2 != i }
    ask (.destroy i)
    return Data.unit

def eval (step : Data) : Doing Data := do
  let i ← addressee step
  if (← state).api = .foreign && step.hasNull "src" then
    finish i step (← play (Surface.instanceEval i none))
  else
    let source ← bytes step "src"
    finish i step (← play (Surface.instanceEval i (some source)))

def global (step : Data) : Doing Data := do
  let i ← addressee step
  finishHandle i step .object (← play (Surface.instanceGlobal i))

def collect (step : Data) : Doing Data := do
  play (Surface.instanceCollectGarbage (← addressee step))
  return Data.unit

/-- Asks an instance for its counters, which every step tells anyway. -/
def statistics (step : Data) : Doing Data := do
  let _ ← addressee step
  return Data.unit

/-- The number of an instance. -/
def instanceNumber (step : Data) : Doing Data := do
  match ← addressee step with
  | none => return .record [("id", .null)]
  | some i => return .record [("id", Data.ofOption (fun x => .nat x.number) (← ask (.inspect i)))]

def setSlot (step : Data) : Doing Data := do
  let i ← addressee step
  let slot ← natural step "slot"
  let data ← natural step "data"
  play (Surface.instanceSetData i slot.toUInt32 data.toUInt64)
  return Data.unit

def getSlot (step : Data) : Doing Data := do
  let i ← addressee step
  let slot ← natural step "slot"
  return .record [("data", .nat (← play (Surface.instanceGetData i slot.toUInt32)).toNat)]

/-! ## Values -/

def createObject (step : Data) : Doing Data := do
  let i ← addressee step
  finishHandle i step .object (← play (Surface.objectCreate i))

def createArray (step : Data) : Doing Data := do
  let i ← addressee step
  finishHandle i step .array (← play (Surface.arrayCreate i))

def createString (step : Data) : Doing Data := do
  let i ← addressee step
  if (← state).api = .foreign && step.hasNull "text" then
    finishHandle i step .string (← play (Surface.stringCreate i none))
  else
    let bs ← bytes step "text"
    finishHandle i step .string (← play (Surface.stringCreate i (some bs)))

def value (step : Data) : Doing Data := do
  let i ← addressee step
  finish i step (.ok (← evaluate i (step.field? "value")))

def toUtf8 (step : Data) : Doing Data := do
  let i ← addressee step
  withHandle step "obj" fun h => do
    let view ← play (Surface.stringToUtf8 i h)
    let told := match view with
      | some v => [("text", Data.text v.text), ("bytes", .nat v.length)]
      | none => [("text", .text "<null>"), ("bytes", .nat 0)]
    if (← state).api = .foreign then return .record told
    else
      let _ ← play (Surface.stringToUtf8 i h)
      let empty := match view with
        | some v => v.text.isEmpty
        | none => true
      return .record (told ++ [("empty", .boolean empty), ("display", .boolean true)])

def toBoolean (step : Data) : Doing Data := do
  let i ← addressee step
  let v ← evaluate i (step.field? "value")
  return .record [("bool", .boolean ((← play (Surface.coerceBoolean i v)) != 0))]

def toNumber (step : Data) : Doing Data := do
  let i ← addressee step
  let v ← evaluate i (step.field? "value")
  finish i step (← play (Surface.coerceNumber i v))

def toText (step : Data) : Doing Data := do
  let i ← addressee step
  let v ← evaluate i (step.field? "value")
  finish i step (← play (Surface.coerceString i v))

/-! ## Properties -/

/-- An operation on an object with a key. -/
def withKey (step : Data)
    (operation : Option InstanceId → Option Handle → Descriptor → Play OutcomeDescriptor) :
    Doing Data := do
  let i ← addressee step
  let d ← withHandle step "obj" fun h => do
    let key ← evaluate i (step.field? "key")
    play (operation i h key)
  finish i step d

def set (step : Data) : Doing Data := do
  let i ← addressee step
  let d ← withHandle step "obj" fun h => do
    let key ← evaluate i (step.field? "key")
    let v ← orRelease key (evaluate i (step.field? "value"))
    play (Surface.objectSet i h key v)
  finish i step d

def getIndex (step : Data) : Doing Data := do
  let i ← addressee step
  let d ← withHandle step "obj" fun h => do
    let index ← natural step "index"
    play (Surface.objectGetIndex i h index.toUInt32)
  finish i step d

def setIndex (step : Data) : Doing Data := do
  let i ← addressee step
  let d ← withHandle step "obj" fun h => do
    let index ← natural step "index"
    let v ← evaluate i (step.field? "value")
    play (Surface.objectSetIndex i h index.toUInt32 v)
  finish i step d

/-- The texts in an array, read element by element. -/
def texts (i : Option InstanceId) (array : Handle) : Nat → Nat → Play (List Data)
  | 0, _ => return []
  | count + 1, index => do
    let d ← Surface.objectGetIndex i (some array) index.toUInt32
    let view ← match d.value.toValue.handle? with
      | some h => Surface.stringToUtf8 i (some h)
      | none => pure none
    Play.release d.value
    return .text ((view.map (·.text)).getD "") :: (← texts i array count (index + 1))

def keys (step : Data) : Doing Data := do
  let i ← addressee step
  let names ← withHandle step "obj" fun h => do
    let inherited := ((step.field? "inherited").bind Data.boolean?).getD false
    play (Surface.objectKeys i h (if inherited then 1 else 0))
  match names with
  | none => return .record [("null", .boolean true)]
  | some array =>
    let count ← play (Surface.arrayLength i (some array))
    let told ← play (texts i array count 0)
    play (Play.keep (step.textField? "as") (.ofValue (.composite .array array)) false)
    return .record [("keys", .list told)]

def arrayLength (step : Data) : Doing Data := do
  let i ← addressee step
  withHandle step "obj" fun h => do
    return .record [("len", .nat (← play (Surface.arrayLength i h)))]

/-! ## Functions -/

/-- The arguments that are passed; those beyond the stated count are given back. -/
def passed (args : List Descriptor) (argc : Option Int) : Play (List Descriptor × Int) := do
  match argc with
  | none => return (args, args.length)
  | some n =>
    Act.forEach Play.release (args.drop n.toNat)
    return (args.take n.toNat, n)

def call (step : Data) : Doing Data := do
  let i ← addressee step
  let d ← withHandle step "fn" fun h => do
    let this ← match step.field? "this" with
      | some e => evaluate i (some e)
      | none => pure .undefined
    let args ← orRelease this (evaluateAll i ((step.field? "args").getD .null).items)
    let argc := if (← state).api = .foreign then (step.field? "argc").bind Data.integer? else none
    let (args, count) ← play (passed args argc)
    play (Surface.functionCall i h this (some args) count)
  finish i step d

/-- Registers a callback. Its body belongs to its number, and registering the number again replaces
the body. -/
def register (step : Data) : Doing Data := do
  let i ← addressee step
  let id ← natural step "id"
  let body : Body := ⟨((step.field? "do").getD .null).items, (step.field? "ret").getD .null⟩
  modify fun s => { s with bodies := (id, body) :: s.bodies.filter fun b => b.1 != id }
  match (← state).api, i with
  | .engine, some i =>
    let v ← ask (.register i (.native id))
    finish (some i) step (.ok (.ofValue v))
  | _, i => finishHandle i step .function (← play (Surface.functionCreate i id.toUInt64))

def install (step : Data) : Doing Data := do
  if (← state).api = .engine then throw (.unsupported "install")
  play (Surface.installLifecycle ⟨← name step "pair"⟩)
  return Data.unit

/-! ## Registers -/

def clone (step : Data) : Doing Data := do
  let target ← name step "as"
  let c ← look (← name step "r")
  play (Play.store target (← play (Play.clone c.content)) c.thrown)
  return Data.unit

def cloneNull : Doing Data := do
  if (← state).api = .engine then throw (.unsupported "clone_null")
  match ← play (Surface.valueClone none none) with
  | none => return .record [("null", .boolean true)]
  | some h => return .record [("null", .boolean (h.id = 0))]

def drop (step : Data) : Doing Data := do
  if (← state).api = .foreign && step.hasNull "r" then
    play (Surface.valueDrop none)
  else
    let c ← take (← name step "r")
    play (Play.release c.content)
  return Data.unit

/-- The handle in a register that is to be compared. -/
def compared (step : Data) (field : String) : Doing Handle := do
  let r ← name step field
  let c ← look r
  match c.content.toValue.handle? with
  | some h => return h
  | none => throw (.noHandle (if c.content.pointer?.isSome then "null" else r))

def same (step : Data) : Doing Data := do
  let a ← compared step "a"
  let b ← compared step "b"
  return .record [("bool", .boolean (← ask (.sameValue a b)))]

/-- The name of the type of what a value refers to. -/
def typeName (v : Value) : Doing String := do
  match v.handle? with
  | some h => ask (.typeName h)
  | none => return ""

def inspect (step : Data) : Doing Data := do
  let c ← look (← name step "r")
  return inspection c.content (← typeName c.content.toValue)

/-- Reads a register as a value of one type. -/
def access (step : Data) : Doing Data := do
  let r ← name step "r"
  let number (x : Float) : Data := .record [("number", numberData x)]
  let bool (b : Bool) : Data := .record [("bool", .boolean b)]
  let tell {α : Type} (f : α → Data) (e : Except BoundaryError α) : Data :=
    match e with
    | .ok a => f a
    | .error e => .record (errorFields e)
  let consuming {α : Type} (f : α → Data) (read : Value → Except BoundaryError α) : Doing Data := do
    let c ← take r
    let answer := tell f (read c.content.toValue)
    play (Play.release c.content)
    return answer
  match ← name step "want" with
  | "as_number" => return tell number (← look r).content.toValue.asNumber
  | "as_boolean" => return tell bool (← look r).content.toValue.asBoolean
  | "as_date" => return tell number (← look r).content.toValue.asDate
  | "try_number" => consuming number Value.asNumber
  | "try_boolean" => consuming bool Value.asBoolean
  | "into_handle" | "try_handle" =>
    let c ← take r
    match c.content.toValue.intoHandle with
    | .error e => return .record (errorFields e)
    | .ok h =>
      let shown := Value.debugHandle (← ask (.typeName h))
      play (Play.keep (step.textField? "as") c.content false)
      return .record [("handle", .text shown)]
  | _ => throw (.badInput "want")

/-- Sends a register through the C surface's shapes and back. -/
def abi (step : Data) : Doing Data := do
  let r ← name step "r"
  let c ← take r
  let o : Outcome := OutcomeDescriptor.toOutcome ⟨c.content, if c.thrown then 1 else 0⟩
  let d := OutcomeDescriptor.ofOutcome (Outcome.ofResult o.intoResult)
  let thrown := d.isException != 0
  play (Play.store r d.value thrown)
  return .record [("abi", .record [
    ("flags", .list [.boolean o.isOk, .boolean o.isException]),
    ("tag", .nat d.value.tag.toNat),
    ("thrown", .boolean thrown)])]

/-- The tag in a field, where its name is needed. -/
def knownTag (step : Data) : Doing Tag := do
  let n := (← natural step "tag").toUInt8
  match Tag.ofByte? n with
  | some t => return t
  | none => throw (.abi (AbiError.unknownTag n).message)

/-- The error a step describes. -/
def describedError (step : Data) : Doing BoundaryError := do
  match ← name step "kind" with
  | "external" => return .external (← name step "message")
  | "from_js" => return .wrongType (← knownTag step) (← name step "to")
  | "not_composite" => return .notComposite (← knownTag step)
  | "unknown_tag" => return .abi (.unknownTag (← natural step "tag").toUInt8)
  | "null_handle" => return .abi (.nullHandle (← knownTag step))
  | "not_owning" => return .abi (.notOwning (← knownTag step))
  | _ => throw (.badInput "kind")

def hostError (step : Data) : Doing Data := do
  if (← state).api = .foreign then throw (.unsupported "host_error")
  match ← addressee step with
  | none => throw (.noInstance "main")
  | some i =>
    let e ← describedError step
    let d := Descriptor.ofValue (← ask (.errorValue i e))
    let shown ← play (Play.render (some i) true d)
    play (Play.keep (step.textField? "as") d true)
    return .record (errorFields e ++ [("value", shown)])

/-- Does what a step says. -/
def step (s : Data) : Doing Data := do
  match s.textField? "op" with
  | none => throw (.badInput "op")
  | some "new" => newInstance s
  | some "destroy" => destroy s
  | some "eval" => eval s
  | some "global" => global s
  | some "create_object" => createObject s
  | some "create_array" => createArray s
  | some "create_string" => createString s
  | some "value" => value s
  | some "get" => withKey s Surface.objectGet
  | some "has" => withKey s Surface.objectHas
  | some "remove" => withKey s Surface.objectRemove
  | some "set" => set s
  | some "get_index" => getIndex s
  | some "set_index" => setIndex s
  | some "keys" => keys s
  | some "array_length" => arrayLength s
  | some "to_utf8" => toUtf8 s
  | some "to_boolean" => toBoolean s
  | some "to_number" => toNumber s
  | some "to_string" => toText s
  | some "call" => call s
  | some "register" => register s
  | some "clone" => clone s
  | some "clone_null" => cloneNull
  | some "drop" => drop s
  | some "same" => same s
  | some "inspect" => inspect s
  | some "access" => access s
  | some "abi" => abi s
  | some "host_error" => hostError s
  | some "set_slot" => setSlot s
  | some "get_slot" => getSlot s
  | some "collect" => collect s
  | some "id" => instanceNumber s
  | some "stats" => statistics s
  | some "install" => install s
  | some other => throw (.unsupported other)

end Doing

/-- What a step answers: its result, the counters of the instance it was addressed to, and what
happened meanwhile. -/
def Play.answerStep (step : Data) : Play Data := do
  Act.modify fun s => { s with calls := [] :: s.calls }
  let result := match ← (Doing.step step).run with
    | .ok d => d
    | .error p => p.toData
  let s ← Act.state
  let calls := (s.calls.headD []).reverse
  Act.modify fun s => { s with calls := s.calls.tail }
  let addressed := match (← Act.state).addressee step with
    | .ok i => i
    | .error _ => none
  let counters ← tellCounters addressed
  let drops ← Play.tellDrops
  let log ← Play.tellLog
  return .record ([("r", result)] ++ counters ++ Data.listField "calls" calls ++ drops ++ log)

end ScriptBoundary.Session
