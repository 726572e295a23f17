import Mathlib.Data.List.Basic
import ScriptBoundary.Boundary.Operation
import ScriptBoundary.Proofs.Enclosure.Builtin.Arrays
import ScriptBoundary.Proofs.Enclosure.Builtin.Collections
import ScriptBoundary.Proofs.Enclosure.Builtin.Dates
import ScriptBoundary.Proofs.Enclosure.Builtin.Functions
import ScriptBoundary.Proofs.Enclosure.Builtin.Numbers
import ScriptBoundary.Proofs.Enclosure.Builtin.Objects
import ScriptBoundary.Proofs.Enclosure.Builtin.Texts

/-!
# Scripts stay inside

The parts come together. Every task stays inside if the tasks it leads to do, so by induction on the
levels of nesting the machine that runs scripts stays inside, for every set of cells. Whole scripts
and the operations on objects are computations on that machine.

## Main results

* `machine_stays`: the machine stays inside every set of cells
* `Comp.Stays.evalSource`: so does the evaluation of a source text
-/

namespace ScriptBoundary.Script

variable {K : Ref → Prop}

/-! ## The library -/

theorem Builtin.stays_all : ∀ b ∈ Builtin.all, b.Stays K := by
  intro b hb
  simp only [Builtin.all, List.mem_append] at hb
  rcases hb with
    ((((((((((h | h) | h) | h) | h) | h) | h) | h) | h) | h) | h) | h
  · exact List.forall_iff_forall_mem.mp Builtin.stays_objects b h
  · exact List.forall_iff_forall_mem.mp Builtin.stays_functions b h
  · exact List.forall_iff_forall_mem.mp Builtin.stays_errors b h
  · exact List.forall_iff_forall_mem.mp Builtin.stays_symbols b h
  · exact List.forall_iff_forall_mem.mp Builtin.stays_arrays b h
  · exact List.forall_iff_forall_mem.mp Builtin.stays_iterators b h
  · exact List.forall_iff_forall_mem.mp Builtin.stays_texts b h
  · exact List.forall_iff_forall_mem.mp Builtin.stays_numbers b h
  · exact List.forall_iff_forall_mem.mp Builtin.stays_mathematics b h
  · exact Builtin.stays_dates b h
  · exact List.forall_iff_forall_mem.mp Builtin.stays_collections b h
  · exact List.forall_iff_forall_mem.mp Builtin.stays_reflection b h

/-- What is found under a path was put there. -/
theorem Builtin.exists_of_table {path : String} {run : Machine → BuiltinCall → Comp Value}
    (h : Builtin.find? path = some run) : ∃ b ∈ Builtin.all, b.run = run := by
  revert h
  rw [Builtin.find?, Builtin.table]
  refine List.foldlRecOn Builtin.all _
    (motive := fun t : Std.HashMap String (Machine → BuiltinCall → Comp Value) =>
      t[path]? = some run → ∃ b ∈ Builtin.all, b.run = run) ?nothing ?more
  case nothing => exact fun h => absurd h (by simp)
  case more =>
    intro t ht b hb h
    rw [Std.HashMap.getElem?_insert] at h
    split at h
    · exact ⟨b, hb, Option.some.inj h⟩
    · exact ht h

theorem Builtin.find?_stay : Builtins.Stay K Builtin.find? := by
  intro path run hrun m c hm hc
  obtain ⟨b, hb, rfl⟩ := Builtin.exists_of_table hrun
  exact Builtin.stays_all b hb m c hm hc

/-! ## The machine -/

namespace Machine

/-- **Every task stays inside**, if the tasks it leads to do. -/
theorem Stays.step {library : Builtins} {m : Machine} (hl : library.Stay K) (hm : m.Stays K) :
    (Machine.step library m).Stays K := by
  intro t ht
  cases t with
  | eval f e => exact hm.evalTask
  | chain f e => exact hm.chainTask
  | exec f labels s => exact hm.execTask
  | whileStep f labels test body v => exact hm.whileTask ht
  | doStep f labels body test v => exact hm.doTask ht
  | forStep f labels names first test update body v => exact hm.forTask ht
  | ofStep f labels head body iterator next v => exact hm.ofTask ht.1 ht.2.1 ht.2.2
  | inStep f labels head body walk v => exact hm.inTask ht
  | bind f sort target v => exact hm.bindTask ht
  | walk w => exact hm.walkTask
  | gather iterator next drawn => exact hm.gatherTask ht.1 ht.2.1 ht.2.2
  | call callee this args => exact Stays.callTask hl hm ht.1 ht.2.1 ht.2.2
  | construct callee args newTarget => exact Stays.constructTask hl hm ht.1 ht.2.1 ht.2.2
  | getOwn r k => exact hm.getOwnTask
  | define r k d => exact hm.defineTask ht
  | has r k => exact hm.hasTask
  | get r k receiver => exact hm.getTask ht
  | set r k v receiver => exact hm.setTask ht.1 ht.2
  | delete r k => exact hm.deleteTask
  | ownKeys r => exact hm.ownKeysTask
  | protoOf r => exact hm.protoOfTask
  | setProtoOf r p => exact hm.setProtoOfTask ht
  | isExtensible r => exact hm.isExtensibleTask
  | preventExtensions r => exact hm.preventExtensionsTask

/-- By induction on the levels. -/
theorem Stays.ofDepth {library : Builtins} (hl : library.Stay K) :
    ∀ depth, Machine.Stays K (Machine.ofDepth library depth)
  | 0 => fun _ _ => Comp.Stays.exhausted
  | depth + 1 => fun t ht => Stays.step hl (Stays.ofDepth hl depth) t ht

end Machine

/-- **The machine that runs scripts stays inside.** -/
theorem machine_stays : machine.Stays K := .ofDepth Builtin.find?_stay machineDepth

/-! ## Scripts -/

namespace Comp

variable {object key v this : Value} {inherited : Bool}

theorem Stays.declareGlobals (code : ScriptCode) (realm : Ref) :
    (Script.declareGlobals code realm).Stays K fun _ => True := by
  refine .bind (P := fun _ => True) (.inspect fun _ _ => trivial) fun _ _ =>
    .bind (.globalObjectOf realm) fun g hg =>
    .bind (.forList (A := fun _ => True) (fun l _ => ?lexical) fun _ _ => trivial) fun _ _ =>
    .bind (.forList (A := fun _ => True) (fun name _ => ?taken) fun _ _ => trivial) fun _ _ =>
    .bind (.forList (A := fun _ => True) (fun name _ => ?declarable) fun _ _ => trivial) fun _ _ =>
    .bind (.forList (A := Binding.Within K) (fun b hb => ?declare) ?bindings) fun _ _ =>
    .bind (.forList (A := fun _ => True) (fun fn _ => ?function) fun _ _ => trivial) fun _ _ =>
    .forList (A := fun _ => True) (fun name _ => ?var) fun _ _ => trivial
  case lexical =>
    refine .bind (P := fun _ => True) (.bind (.readScope _) fun _ _ => .pure trivial) fun _ _ =>
      .first (.raise _ _) fun _ => .bind .ownSlot fun s _ => ?_
    cases s with
    | some s => exact .unless (.raise _ _)
    | none => exact .pure trivial
  case taken =>
    exact .bind (P := fun _ => True) (.bind (.readScope _) fun _ _ => .pure trivial) fun _ _ =>
      .when (.raise _ _)
  case declarable =>
    refine .bind .ownSlot fun s _ => ?_
    cases s with
    | none => exact .bind (.readObject g) fun _ _ => .unless (.throwType _)
    | some s => exact .unless (.throwType _)
  case declare => exact .performOnly rfl hb
  case bindings =>
    intro b hb
    obtain ⟨l, -, rfl⟩ := List.mem_map.mp hb
    exact within_lexicalBinding l
  case function =>
    refine .bind .newNamedClosure fun r hr => .bind (P := fun _ => True) (.bind .ownSlot fun s _ =>
      ?_) fun _ _ =>
        .ite (.performOnly rfl hr) (.bind (.defineOrdinary ?_) fun _ _ => .pure trivial)
    · cases s with
      | none => exact .pure trivial
      | some s => exact .pure trivial
    · exact ⟨.present (v := .object r) hr, .absent, .absent⟩
  case var =>
    exact .bind .ownSlot fun _ _ =>
      .bind (.readObject g) fun _ _ => .when (.performOnly rfl trivial)

/-- **Running a script.** -/
theorem Stays.evalScript (code : ScriptCode) :
    (Script.evalScript code).Stays K (Value.Within K) :=
  .bind .activation fun _ _ => .bind (P := fun _ => True) (.inspect fun _ _ => trivial) fun _ _ =>
    .bind (.declareGlobals code _) fun _ _ => .within <| .bind (.perform rfl trivial) fun _ _ =>
    .bind (machine_stays.execList _ .absent) fun _ hflow => .pure (hflow.value?.getD trivial)

theorem Stays.evalSource (source : String) :
    (Script.evalSource source).Stays K (Value.Within K) := by
  unfold Script.evalSource
  cases ScriptCode.parse? source with
  | some code => exact .evalScript code
  | none => exact .raise _ _

/-! ## Operations -/

section Operations

open Boundary

theorem Stays.operationGet (ho : object.Within K) (hk : key.Within K) :
    (Operation.get object key).Stays K (Value.Within K) :=
  .keeping <| .bind (machine_stays.toKey hk) fun _ _ => .bind (.toObject ho) fun _ hr =>
    machine_stays.get hr

theorem Stays.operationSet (ho : object.Within K) (hk : key.Within K) (hv : v.Within K) :
    (Operation.set object key v).Stays K (Value.Within K) :=
  .keeping <| .bind (machine_stays.toKey hk) fun _ _ => .bind (.toObject ho) fun _ hr =>
    .bind (machine_stays.set hr hv) fun _ _ => .pure trivial

theorem Stays.operationRemove (ho : object.Within K) (hk : key.Within K) :
    (Operation.remove object key).Stays K (Value.Within K) :=
  .keeping <| .bind (machine_stays.toKey hk) fun _ _ => .bind (.toObject ho) fun _ _ =>
    .bind machine_stays.deleteOrThrow fun _ _ => .pure trivial

theorem Stays.operationHas (ho : object.Within K) (hk : key.Within K) :
    (Operation.has object key).Stays K (Value.Within K) :=
  .keeping <| .bind (machine_stays.toKey hk) fun _ _ => .bind (.toObject ho) fun _ _ =>
    .bind machine_stays.has fun _ _ => .pure trivial

theorem Stays.operationGetIndex (ho : object.Within K) (i : UInt32) :
    (Operation.getIndex object i).Stays K (Value.Within K) :=
  .keeping <| .bind (.toObject ho) fun _ hr => machine_stays.get hr

theorem Stays.operationSetIndex (ho : object.Within K) (hv : v.Within K) (i : UInt32) :
    (Operation.setIndex object i v).Stays K (Value.Within K) :=
  .keeping <| .bind (.toObject ho) fun _ hr => .bind (machine_stays.set hr hv) fun _ _ =>
    .pure trivial

theorem Stays.namesFrom : ∀ levels {r : Ref}, K r → ∀ seen,
    (Operation.namesFrom inherited levels r seen).Stays K fun _ => True
  | 0, _, _, _ => .pure trivial
  | levels + 1, r, hr, seen => by
    refine .bind (machine_stays.ownNames (v := .object r) hr) fun _ _ => .ite (.pure trivial) <|
      .bind (machine_stays.ownNames (v := .object r) hr) fun _ _ =>
      .bind (.readObject r) fun o ho => ?_
    have hproto := ho.proto
    split
    · exact .pure trivial
    · next p heq => exact .bind (Stays.namesFrom levels (hproto p heq) _) fun _ _ => .pure trivial

theorem Stays.operationNames (ho : object.Within K) :
    (Operation.names object inherited).Stays K fun _ => True :=
  .keeping <| .bind (P := fun _ => True) (.inspect fun _ _ => trivial) fun _ _ =>
    .bind (.toObject ho) fun _ hr => .namesFrom _ hr _

/-- The array of the names is a new object. -/
theorem Stays.operationKeys (ho : object.Within K) :
    (Operation.keys object inherited).Stays K (Value.Within K) :=
  .bind (.operationNames ho) fun _ _ =>
    .bind (.newArray (.map (f := Value.text) (fun _ => trivial) _)) fun _ hr => .pure hr

theorem Stays.operationCall {function : Value} {args : List Value} (hf : function.Within K)
    (hthis : this.Within K) (ha : ValuesWithin K args) :
    (Operation.call function this args).Stays K (Value.Within K) :=
  .keeping <| .bind (.isCallable _) fun _ _ => .ite (machine_stays.call hf hthis ha) (.throwType _)

theorem Stays.operationToNumber (hv : v.Within K) :
    (Operation.toNumber v).Stays K (Value.Within K) :=
  .keeping <| .bind (machine_stays.toNumber hv) fun _ _ => .pure trivial

/-- What a conversion to text gives is a text. -/
theorem Stays.operationToText (hv : v.Within K) :
    (Operation.toText v).Stays K fun w => ∃ t, w = .text t :=
  .keeping <| .bind (machine_stays.toText hv) fun t _ => .pure ⟨t, rfl⟩

end Operations

end Comp

end ScriptBoundary.Script
