import Mathlib
import ScriptBoundary.Proofs.Handles

/-!
# What descriptors keep

A value is handed over as a descriptor and taken back from it. For a value that was handed over the
two undo each other, handle and all, and neither of them touches the world. A descriptor that a host
filled in by hand need not have come from a value: its tag may be unknown, it may own nothing where
its tag says it does, and its payload may have more bits than the tag says how to read. Such a
descriptor is read all the same, so handing its value over again gives another one.

`Descriptor.canonical` says which one, by looking at the byte and the word alone. It is written
without the reader and the writer, so that the two can be measured against it.

## Main results

* `Descriptor.toValue_ofValue`, `Descriptor.ofValue_toValue`: there and back, from either side
* `descriptors_are_lossless`: all of it, for values and for outcomes
-/

namespace Float

/-- Writing a double that was read gives the same bits, if it is a number. -/
theorem toBits_ofBits {b : UInt64} (h : (Float.ofBits b).isNaN = false) :
    (Float.ofBits b).toBits = b := by
  have hpack := @Model.UnpackedFloat.pack_unpack .binary64 b.toBitVec (by decide)
  split at hpack
  · -- All words that are no number are read as the same double.
    have hnan : Float.ofBits b = nan := toBits_inj.mp (congrArg UInt64.ofBitVec hpack)
    rw [hnan] at h
    cases h
  · exact congrArg UInt64.ofBitVec hpack

end Float

namespace ScriptBoundary.Boundary

variable {σ : Type}

namespace Tag

theorem eq_toByte_of_ofByte? {n : UInt8} {t : Tag} (h : ofByte? n = some t) : n = t.toByte := by
  unfold ofByte? at h
  split at h <;> cases h <;> rfl

/-- The bytes that are no tag are those above the last one. -/
theorem ofByte?_eq_none_iff {n : UInt8} : ofByte? n = none ↔ 8 < n.toNat := by
  constructor
  · intro h
    have htags : ∀ k : Fin 9, ofByte? (UInt8.ofNat k) ≠ none := by decide
    refine Nat.lt_of_not_le fun hle => htags ⟨n.toNat, Nat.lt_succ_of_le hle⟩ ?_
    rwa [UInt8.ofNat_toNat]
  · intro h
    cases ht : ofByte? n with
    | none => rfl
    | some t =>
      rw [eq_toByte_of_ofByte? ht] at h
      cases t <;> exact absurd h (by decide)

end Tag

namespace Payload

/-- Writing a double and reading it gives the double. -/
theorem number_ofNumber (x : Float) : (ofNumber x).number = x := Float.ofBits_toBits x

end Payload

namespace Descriptor

/-- What is left of a descriptor when its value is handed over again: the tag, and that part of the
payload which the tag says how to read. -/
def canonical (d : Descriptor) : Descriptor :=
  match d.tag with
  | 0 => ⟨0, .word 0⟩
  | 2 => ⟨2, .ofNumber d.payload.number⟩
  | 3 => ⟨3, .word (if d.payload.byte = 0 then 0 else 1)⟩
  | 6 => ⟨6, .ofNumber d.payload.number⟩
  | 4 | 5 | 7 | 8 =>
    match d.payload with
    | .handle h => ⟨d.tag, .handle h⟩
    | .word _ => ⟨1, .word 0⟩
  | _ => ⟨1, .word 0⟩

theorem canonical_of_unknown {d : Descriptor} (h : 8 < d.tag.toNat) : d.canonical = undefined := by
  unfold canonical
  split
  case h_9 => rfl
  all_goals
    next hd =>
      rw [hd] at h
      exact absurd h (by decide)

/-- **A value that was handed over** is taken back as it was. -/
theorem toValue_ofValue (v : Value) : (ofValue v).toValue = v := by
  cases v with
  | null => rfl
  | undefined => rfl
  | number x => exact congrArg Value.number (Payload.number_ofNumber x)
  | boolean b => cases b <;> rfl
  | date ms => exact congrArg Value.date (Payload.number_ofNumber ms)
  | composite kind h => cases kind <;> rfl

/-- **A descriptor whose value is handed over again** is left in its canonical form. -/
theorem ofValue_toValue (d : Descriptor) : ofValue d.toValue = d.canonical := by
  obtain ⟨n, p⟩ := d
  cases htag : Tag.ofByte? n with
  | none =>
    rw [canonical_of_unknown (Tag.ofByte?_eq_none_iff.mp htag), toValue, toValue?]
    dsimp only
    rw [htag]
    rfl
  | some t =>
    obtain rfl := Tag.eq_toByte_of_ofByte? htag
    cases t with
    | null | undefined | number | date => rfl
    | boolean =>
      show boolean (p.byte != 0) = ⟨3, .word (if p.byte = 0 then 0 else 1)⟩
      by_cases hb : p.byte = 0 <;> simp [boolean, hb, Tag.toByte]
    | array | function | object | string => cases p <;> rfl

/-- Canonical descriptors are those of values, so they are left alone. -/
theorem canonical_canonical (d : Descriptor) : d.canonical.canonical = d.canonical := by
  rw [← ofValue_toValue d, ← ofValue_toValue (ofValue _), toValue_ofValue]

/-- **The strict reader** differs from the other one at unknown tags and nowhere else. -/
theorem toValue?_eq (d : Descriptor) : d.toValue? =
    if 8 < d.tag.toNat then .error (.unknownTag d.tag) else .ok d.toValue := by
  have hread : d.toValue? = .ok d.toValue ∨ d.toValue? = .error (.unknownTag d.tag)
      ∧ Tag.ofByte? d.tag = none := by
    rw [toValue, toValue?]
    cases Tag.ofByte? d.tag with
    | none => exact .inr ⟨rfl, rfl⟩
    | some t => cases t <;> first | exact .inl rfl | (cases d.payload.handle? <;> exact .inl rfl)
  split
  · next hunknown =>
    rcases hread with hread | hread
    · have hnone := Tag.ofByte?_eq_none_iff.mpr hunknown
      rw [toValue?, hnone] at hread
      cases hread
    · exact hread.1
  · next hknown =>
    rcases hread with hread | hread
    · exact hread
    · exact absurd (Tag.ofByte?_eq_none_iff.mp hread.2) hknown

end Descriptor

namespace OutcomeDescriptor

/-- What is left of an outcome that is handed over again. -/
def canonical (d : OutcomeDescriptor) : OutcomeDescriptor :=
  ⟨d.value.canonical, if d.isException = 0 then 0 else 1⟩

theorem toOutcome_ofOutcome (o : Outcome) : (ofOutcome o).toOutcome = o := by
  obtain ⟨v, e⟩ := o
  have hv := Descriptor.toValue_ofValue v
  cases e <;> exact congrArg (Outcome.mk · _) hv

theorem ofOutcome_toOutcome (d : OutcomeDescriptor) : ofOutcome d.toOutcome = d.canonical := by
  obtain ⟨d, e⟩ := d
  rw [ofOutcome, toOutcome, canonical]
  dsimp only
  rw [Descriptor.ofValue_toValue]
  by_cases he : e = 0 <;> simp [he, ok, exception]

theorem canonical_canonical (d : OutcomeDescriptor) : d.canonical.canonical = d.canonical := by
  rw [← ofOutcome_toOutcome d, ← ofOutcome_toOutcome (ofOutcome _), toOutcome_ofOutcome]

end OutcomeDescriptor

/-! ## Reading in the middle of a run -/

/-- The state in which a descriptor has been read: a tag that is unknown has been noted. -/
def State.noting (s : State σ) (d : Descriptor) : State σ :=
  if 8 < d.tag.toNat then { s with world := s.world.note (.malformed (.unknownTag d.tag)) } else s

section Reading

variable (respond : Invoke σ) (s : State σ)

/-- Reading takes note of an unknown tag and does nothing else. -/
theorem run_consume_noting (d : Descriptor) :
    (Act.consume d).run (answer respond) s = .ok (d.toValue, s.noting d) := by
  have hread := d.toValue?_eq
  rw [Act.consume, State.noting]
  by_cases hunknown : 8 < d.tag.toNat
  · have hvalue : d.toValue = .undefined := by
      rw [Descriptor.toValue, hread, if_pos hunknown]
    rw [hread, hvalue, if_pos hunknown, if_pos hunknown]
    rfl
  · rw [hread, if_neg hunknown, if_neg hunknown]
    rfl

theorem run_consumeOutcome (d : OutcomeDescriptor) :
    (Act.consumeOutcome d).run (answer respond) s = .ok (d.toOutcome, s.noting d.value) := by
  rw [Act.consumeOutcome, Act.run_bind, run_consume_noting]
  rfl

theorem State.purse_noting (d : Descriptor) : (s.noting d).world.purse = s.world.purse := by
  rw [noting]
  split
  · exact World.purse_note _ _
  · rfl

theorem State.noting_ofValue (v : Value) : s.noting (.ofValue v) = s := by
  have htag : (Descriptor.ofValue v).tag = v.tag.toByte := by cases v <;> rfl
  have hknown : ∀ t : Tag, ¬ 8 < t.toByte.toNat := fun t => by cases t <;> decide
  rw [noting, htag, if_neg (hknown _)]

end Reading

/-- What descriptors keep of a value, and what becomes of those that are not the descriptor of
any. -/
structure Lossless : Prop where
  /-- A value that is handed over and taken back is the same value -/
  value : ∀ v, (Descriptor.ofValue v).toValue = v
  /-- with the same handle, which stood in the payload meanwhile. -/
  handle : ∀ v, (Descriptor.ofValue v).payload.handle? = v.handle?
  /-- An outcome is the same outcome, thrown or not. -/
  outcome : ∀ o, (OutcomeDescriptor.ofOutcome o).toOutcome = o
  /-- A host program that takes a value back that was handed over leaves the state as it is, and
  with it all handles and all that was charged for them. -/
  untouched : ∀ {σ : Type} (invoke : Invoke σ) (s : State σ) (v : Value),
    (Act.consume (.ofValue v)).run (answer invoke) s = .ok (v, s)
  untouchedOutcome : ∀ {σ : Type} (invoke : Invoke σ) (s : State σ) (o : Outcome),
    (Act.consumeOutcome (.ofOutcome o)).run (answer invoke) s = .ok (o, s)
  /-- Any descriptor can be taken back. That costs nobody anything and clears no handle. -/
  free : ∀ {σ : Type} (invoke : Invoke σ) (s : State σ) (d : Descriptor),
    (Act.consume d).run (answer invoke) s = .ok (d.toValue, s.noting d)
      ∧ (s.noting d).host = s.host ∧ (s.noting d).world.purse = s.world.purse
  /-- If its value is handed over again, it is in its canonical form, -/
  normalised : ∀ d : Descriptor, Descriptor.ofValue d.toValue = d.canonical
  normalisedOutcome : ∀ d : OutcomeDescriptor,
    OutcomeDescriptor.ofOutcome d.toOutcome = d.canonical
  /-- which is final. -/
  final : ∀ d : Descriptor, d.canonical.canonical = d.canonical
  finalOutcome : ∀ d : OutcomeDescriptor, d.canonical.canonical = d.canonical
  /-- The canonical form of an unknown tag is undefined, -/
  unknown : ∀ d : Descriptor, 8 < d.tag.toNat → d.canonical = .undefined
  /-- and so is that of an owning tag without a handle. -/
  ownerless : ∀ (kind : Kind) (p : Payload), p.handle? = none →
    Descriptor.canonical ⟨kind.tag.toByte, p⟩ = .undefined
  /-- With a handle, nothing changes. -/
  owning : ∀ (kind : Kind) (h : Handle),
    Descriptor.canonical ⟨kind.tag.toByte, .handle h⟩ = ⟨kind.tag.toByte, .handle h⟩
  /-- A byte other than zero is true, and true is one. -/
  boolean : ∀ p, Descriptor.canonical ⟨Tag.boolean.toByte, p⟩ = .boolean (p.byte != 0)
  /-- Null and undefined have no payload. -/
  null : ∀ p, Descriptor.canonical ⟨Tag.null.toByte, p⟩ = .null
  undefined : ∀ p, Descriptor.canonical ⟨Tag.undefined.toByte, p⟩ = .undefined
  /-- A number keeps its double, and with it the whole word if it is not a NaN. So does a date. -/
  double : ∀ p : Payload, ∀ t ∈ [Tag.number, Tag.date],
    (Descriptor.canonical ⟨t.toByte, p⟩).tag = t.toByte
      ∧ (Descriptor.canonical ⟨t.toByte, p⟩).payload.number = p.number
      ∧ (p.number.isNaN = false → (Descriptor.canonical ⟨t.toByte, p⟩).payload.bits = p.bits)
  /-- An outcome was thrown if its byte is not zero, and the byte becomes one. -/
  thrown : ∀ d : OutcomeDescriptor, d.toOutcome.isException = (d.isException != 0)
    ∧ d.canonical.isException = if d.isException = 0 then 0 else 1
  /-- The strict reader refuses unknown tags and nothing else, -/
  refuses : ∀ d : Descriptor, 8 < d.tag.toNat ↔ ∃ e, d.toValue? = .error e
  /-- names them, -/
  culprit : ∀ (d : Descriptor) (e : AbiError), d.toValue? = .error e → e = .unknownTag d.tag
  /-- and otherwise gives what the other reader gives. -/
  agrees : ∀ (d : Descriptor) (v : Value), d.toValue? = .ok v → v = d.toValue

/-- **Descriptors are lossless**, and those that no value was handed over in are normalised. -/
theorem descriptors_are_lossless : Lossless where
  value := Descriptor.toValue_ofValue
  handle v := by cases v <;> rfl
  outcome := OutcomeDescriptor.toOutcome_ofOutcome
  untouched invoke s v := by
    rw [run_consume_noting, Descriptor.toValue_ofValue, State.noting_ofValue]
  untouchedOutcome invoke s o := by
    have hvalue : (OutcomeDescriptor.ofOutcome o).value = .ofValue o.value := by
      rw [OutcomeDescriptor.ofOutcome]
      split <;> rfl
    rw [run_consumeOutcome, OutcomeDescriptor.toOutcome_ofOutcome, hvalue, State.noting_ofValue]
  free invoke s d := by
    refine ⟨run_consume_noting invoke s d, ?_, s.purse_noting d⟩
    rw [State.noting]
    split <;> rfl
  normalised := Descriptor.ofValue_toValue
  normalisedOutcome := OutcomeDescriptor.ofOutcome_toOutcome
  final := Descriptor.canonical_canonical
  finalOutcome := OutcomeDescriptor.canonical_canonical
  unknown _ := Descriptor.canonical_of_unknown
  ownerless kind p hp := by
    cases p with
    | word b => cases kind <;> rfl
    | handle h => cases hp
  owning kind h := by cases kind <;> rfl
  boolean p := by
    show (⟨3, .word (if p.byte = 0 then 0 else 1)⟩ : Descriptor) = Descriptor.boolean (p.byte != 0)
    by_cases hb : p.byte = 0 <;> simp [Descriptor.boolean, hb, Tag.toByte]
  null p := rfl
  undefined p := rfl
  double p t ht := by
    have hbits : p.number.isNaN = false → (Payload.ofNumber p.number).bits = p.bits :=
      Float.toBits_ofBits
    rcases List.mem_cons.mp ht with rfl | ht
    · exact ⟨rfl, Payload.number_ofNumber p.number, hbits⟩
    · obtain rfl := List.mem_singleton.mp ht
      exact ⟨rfl, Payload.number_ofNumber p.number, hbits⟩
  thrown _ := ⟨rfl, rfl⟩
  refuses d := by
    rw [Descriptor.toValue?_eq]
    split <;> simp [*]
  culprit d e he := by
    rw [Descriptor.toValue?_eq] at he
    split at he <;> cases he
    rfl
  agrees d v hv := by
    rw [Descriptor.toValue?_eq] at hv
    split at hv <;> cases hv
    rfl

/-- A boolean that a host wrote into a word of rubbish, in an outcome it says was thrown. -/
example : (OutcomeDescriptor.mk ⟨3, .word 0xABCD02⟩ 7).canonical = ⟨.boolean true, 1⟩ := rfl

end ScriptBoundary.Boundary
