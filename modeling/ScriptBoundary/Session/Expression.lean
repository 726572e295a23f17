import ScriptBoundary.Session.Rendering
import ScriptBoundary.Decimal.Reading

/-!
# Value expressions

How a step writes down a value: an inline value, a string, object or array to be made, a register
to be copied or moved from, or a raw value.

Expressions are evaluated in order. If one of them is ill formed, the values of those before it are
given back.
-/

namespace ScriptBoundary.Session

open Boundary

/-- The value of a hexadecimal digit. -/
def hexDigit? (c : Char) : Option UInt8 :=
  if '0' ≤ c && c ≤ '9' then some (c.toNat - 48).toUInt8
  else if 'a' ≤ c && c ≤ 'f' then some (c.toNat - 87).toUInt8
  else if 'A' ≤ c && c ≤ 'F' then some (c.toNat - 55).toUInt8
  else none

/-- The bytes that pairs of hexadecimal digits spell. -/
def hexBytes? : List Char → Option (List UInt8)
  | [] => some []
  | [_] => none
  | a :: b :: rest => do
    let high ← hexDigit? a
    let low ← hexDigit? b
    return (high * 16 + low) :: (← hexBytes? rest)

/-- The raw value that fields describe: a number or nothing, then a byte. Where the tag says there
is a handle, there is none. -/
def rawValue? (d : Data) : Except Problem Descriptor := do
  let tag ← match d.natField? "tag" with
    | some n => pure n.toUInt8
    | none => throw (.badInput "tag")
  let number ← match d.textField? "number" with
    | some t => match Decimal.literal? t with
      | some x => pure (Payload.ofNumber x)
      | none => throw (.badInput "number")
    | none => pure Payload.clear
  let payload := match d.natField? "byte" with
    | some n => number.setByte n.toUInt8
    | none => number
  let owning := ((Tag.ofByte? tag).map (·.isOwning)).getD false
  return ⟨tag, if owning then .clear else payload⟩

namespace Doing

/-- The bytes a step spells out, as a text or as hexadecimal digits, so often repeated. -/
def bytes (d : Data) (field : String) : Doing (List UInt8) := do
  let once ← match d.textField? "hex" with
    | some hex => match hexBytes? hex.toList with
      | some bs => pure bs
      | none => throw (.badInput "hex")
    | none => match d.textField? field with
      | some t => pure t.toUTF8.toList
      | none => throw (.badInput field)
  match d.natField? "rep" with
  | some n => return (List.replicate n once).flatten
  | none => return once

/-- The number a field spells. -/
def number (d : Data) : Doing Float := do
  match (d.textField? "v").bind Decimal.literal? with
  | some x => return x
  | none => throw (.badInput "v")

/-- A raw value with a new handle, or undefined if the pointer is null. -/
def fresh (kind : Kind) (h : Option Handle) : Descriptor :=
  match h with
  | some h => .ofValue (.composite kind h)
  | none => .undefined

/-- Evaluates an expression on an instance. -/
def evaluate (i : Option InstanceId) (e : Option Data) : Doing Descriptor := do
  let e := e.getD .null
  match e.textField? "k" with
  | none => throw (.badInput "k")
  | some "null" => return .null
  | some "undefined" => return .undefined
  | some "number" => return .number (← number e)
  | some "date" => return .date (← number e)
  | some "boolean" =>
    match (e.field? "v").bind Data.boolean? with
    | some b => return .boolean b
    | none => throw (.badInput "v")
  | some "string" => do
    let bs ← bytes e "v"
    return fresh .string (← play (Surface.stringCreate i (some bs)))
  | some "object" => do return fresh .object (← play (Surface.objectCreate i))
  | some "array" => do return fresh .array (← play (Surface.arrayCreate i))
  | some "reg" =>
    match e.textField? "r" with
    | some r => do play (Play.clone (← look r).content)
    | none => throw (.badInput "r")
  | some "move" =>
    match e.textField? "r" with
    | some r => do return (← take r).content
    | none => throw (.badInput "r")
  | some "desc" =>
    match rawValue? e with
    | .ok d => return d
    | .error p => throw p
  | some other => throw (.badInput other)

/-- Evaluates expressions in order. -/
def evaluateAll (i : Option InstanceId) : List Data → Doing (List Descriptor)
  | [] => return []
  | e :: rest => do
    let d ← evaluate i (some e)
    orRelease d do return d :: (← evaluateAll i rest)

end Doing

end ScriptBoundary.Session
