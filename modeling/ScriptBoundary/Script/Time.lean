import ScriptBoundary.Decimal.Exact

/-!
# Time values

A time value is a number of milliseconds since the start of 1970: an integer of magnitude at most
`8.64e15`, or a NaN. `clipTime` brings any number into that form, and it leaves a number alone that
has the form already. A `Time` is such a number, so that a date cannot hold any other.
-/

namespace ScriptBoundary.Script

/-- The greatest magnitude of a time value. -/
def maxTime : Nat := 8640000000000000

/-- The time value a number stands for. A fraction is cut off, toward zero. -/
def clipTime (x : Float) : Float :=
  match (Binary.ofFloat x).truncate? with
  | some n => if n.natAbs ≤ maxTime then Float.ofExactInt n else 0.0 / 0.0
  | none => 0.0 / 0.0

theorem clipTime_nan : clipTime (0.0 / 0.0) = 0.0 / 0.0 := by decide +kernel

/-- Time values are clipped already: they are small integers. -/
theorem clipTime_ofExactInt {n : Int} (h : n.natAbs ≤ maxTime) :
    clipTime (Float.ofExactInt n) = Float.ofExactInt n := by
  have hlt : n.natAbs < twoPow 53 := Nat.lt_of_le_of_lt h (by decide)
  rw [clipTime, Float.truncate_ofExactInt hlt]
  exact if_pos h

/-- **Clipping twice is clipping once.** -/
theorem clipTime_clipTime (x : Float) : clipTime (clipTime x) = clipTime x := by
  have hcases : clipTime x = 0.0 / 0.0
      ∨ ∃ n : Int, n.natAbs ≤ maxTime ∧ clipTime x = Float.ofExactInt n := by
    rw [clipTime]
    split
    · next n _ =>
      split
      · next h => exact .inr ⟨n, h, rfl⟩
      · exact .inl rfl
    · exact .inl rfl
  rcases hcases with hx | ⟨n, hn, hx⟩
  · rw [hx, clipTime_nan]
  · rw [hx, clipTime_ofExactInt hn]

/-- A number that has been clipped. -/
structure Time where
  ms : Float
  clipped : clipTime ms = ms

namespace Time

/-- The time a number stands for. -/
def clip (x : Float) : Time := ⟨clipTime x, clipTime_clipTime x⟩

/-- No time at all. -/
def invalid : Time := clip (0.0 / 0.0)

/-- The start of 1970. -/
def epoch : Time := clip 0.0

instance : Inhabited Time := ⟨epoch⟩

@[simp] theorem ms_clip (x : Float) : (clip x).ms = clipTime x := rfl

/-- A time is the time its own number stands for. -/
@[simp] theorem clip_ms (t : Time) : clip t.ms = t := by
  obtain ⟨ms, hms⟩ := t
  simp only [clip, hms]

end Time

end ScriptBoundary.Script
