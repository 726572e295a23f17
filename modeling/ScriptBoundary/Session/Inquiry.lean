import ScriptBoundary.Session.Transcript

/-!
# Inquiries

Questions that can be asked without a session: about tags, raw values and options, and what becomes
of many threads that each make an instance. `answer` answers any of them, sessions included.
-/

namespace ScriptBoundary.Session

open Boundary

namespace Inquiry

/-- The byte in a field. -/
def byte (d : Data) (field : String) : UInt8 := ((d.natField? field).getD 0).toUInt8

/-- What there is to know of a tag. -/
def tag (d : Data) : Data :=
  let raw := byte d "raw"
  match Tag.ofByte? raw with
  | none => (Problem.abi (AbiError.unknownTag raw).message).toData
  | some t =>
    let kind := Kind.ofTag? t
    .record [("name", .text t.name), ("display", .text t.name), ("debug", .text t.debugName),
      ("owning", .boolean t.isOwning),
      ("kind", Data.ofOption (fun k => .text k.tag.debugName) kind),
      ("kind_tag", Data.ofOption (fun k => .nat k.tag.toByte.toNat) kind)]

/-- What there is to know of a raw value, and of a raw outcome with that value. -/
def raw (d : Data) : Data :=
  match rawValue? d with
  | .error p => p.toData
  | .ok v =>
    let o := OutcomeDescriptor.toOutcome ⟨v, byte d "exc"⟩
    let back := OutcomeDescriptor.ofOutcome o
    let name := match v.tag? with
      | .ok t => t.name
      | .error e => e.message
    let value := match v.toValue? with
      | .ok u => .text (toString u)
      | .error e => .record (errorFields (.abi e))
    .record [("tag", .text name), ("number", Data.ofOption numberData v.asNumber?),
      ("boolean", Data.ofOption .boolean v.asBoolean?),
      ("handle", Data.ofOption (fun bits => .boolean (bits != 0)) v.pointer?),
      ("debug", .text v.debug), ("value", value),
      ("flags", .list [.boolean o.isOk, .boolean o.isException, .nat back.isException.toNat]),
      ("back", .text back.debug)]

/-- The raw value of a tag with a given address. -/
def composite (d : Data) : Data :=
  let n := byte d "tag"
  match Tag.ofByte? n with
  | none => (Problem.abi (AbiError.unknownTag n).message).toData
  | some t =>
    let null := ((d.field? "null").bind Data.boolean?).getD false
    match Descriptor.composite t (.word (if null then 0 else 16)) with
    | .ok v => .record [("tag", .nat v.tag.toNat), ("debug", .text v.debug)]
    | .error e =>
      let told (kind : String) := [("error", Data.text kind), ("message", .text e.message)]
      match e with
      | .nullHandle t => .record (told "NullHandle" ++ [("name", .text t.name)])
      | .notOwning _ => .record (told "NotOwning")
      | .unknownTag _ => .record (told "Abi")

/-- How options show, and whether they are the same as others. -/
def options (d : Data) : Data :=
  let a := Doing.limits (d.field? "options")
  let b := Doing.limits (d.field? "other")
  .record [("debug", .text (Options.debug a)), ("equal", .boolean (a = b))]

/-- The class of the weak handles of callback registrations. -/
def callbackClass : Nat := 1001

/-- How things are when nothing in particular was asked for. -/
def defaults : Data :=
  .record [("desc", .text Descriptor.undefined.debug),
    ("ok_empty", .text OutcomeDescriptor.okEmpty.debug),
    ("utf8_len", .nat (TextView.ofString "").length),
    ("options", .text (Options.debug Options.default)),
    ("result", .text (Outcome.okEmpty.debug "")),
    ("from", .list [.text (toString (Value.number 7.0)), .text (toString (Value.number (-1.5))),
      .text (toString (Value.boolean true))]),
    ("class", .nat callbackClass)]

/-- What a source text shows when it is run in an instance of its own. -/
def shown (source : List UInt8) : Data :=
  let play : Play Value := do
    let i ← Act.request (.newInstance Options.default)
    return (← Act.request (.eval i source)).value
  match execute host play World.started (State.initial .engine false) with
  | .ok (v, _) => .text (toString v)
  | .error fault => .text fault.message

/-- What becomes of threads that each make an instance and run a source text in it. -/
def threads (d : Data) : Data :=
  let n := (d.natField? "n").getD 0
  let source := ((d.textField? "src").getD "").toUTF8.toList
  let crowd := Crowd.ofThreads .ready n
  .record [("shown", .list (List.replicate n (shown source))),
    ("created", .nat crowd.platform.issued), ("bootstraps", .nat crowd.platform.bootstraps)]

end Inquiry

/-- Answers an inquiry. -/
def answer (d : Data) : Data :=
  match d.textField? "op" with
  | some "session" => transcript d
  | some "tag" => Inquiry.tag d
  | some "desc" => Inquiry.raw d
  | some "composite_desc" => Inquiry.composite d
  | some "options" => Inquiry.options d
  | some "defaults" => Inquiry.defaults
  | some "version" => .record [("version", .text Surface.version)]
  | some "threads" => Inquiry.threads d
  | some other => (Problem.unsupported other).toData
  | none => (Problem.unsupported "").toData

end ScriptBoundary.Session
