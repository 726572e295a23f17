import Mathlib
import ScriptBoundary.Decimal.Exact
import ScriptBoundary.Script.Value

/-!
# Whole numbers, as doubles and as digits

A host that counts has a whole number, and a script sees it as a double. What the double says of it
is the number again, to whoever asks: as a 32-bit word (`Float.toUInt32_ofNat`), and as a text
(`numberText_ofNat`). So a whole number names the same property as its digits do, be it small enough
for an index or not (`Key.ofNumber_ofNat`).

How a double is written is defined by a search for the shortest digits that lie in an interval
around it, and nothing in the search knows of whole numbers. What decides it is that the interval is
narrow: below `2 ^ 53` it is not wider than one, so the only whole number in it is the one that the
double is (`multiple_near_iff`). A power of ten is a step on which the search succeeds if and only
if it divides the number (`onGrid?_whole`), and one does at the latest, `10 ^ 0`. Which of them
comes first does not matter, since the zeros that the digits lack are written after them.
-/

namespace Float.Model.UnpackedFloat

open ScriptBoundary (twoPow)

/-- The integer that a small natural number is read as. -/
theorem toInt_ofNat {n : Nat} (hn : 0 < n) (hlt : n < twoPow 53) (low high : Int) :
    (UnpackedFloat.finite .positive (n * twoPow (52 - n.log2)) ((n.log2 : Int) - 52)
      (isNormal_ofNat hn hlt).pos).toInt low high = n := by
  have hlog : n.log2 < 53 := (Nat.log2_lt (Nat.pos_iff_ne_zero.mp hn)).mpr hlt
  have hnone : ((n.log2 : Int) - 52 - 0).toNat = 0 := by omega
  have hshift : (0 - ((n.log2 : Int) - 52 - ((0 : Nat) : Int))).toNat = 52 - n.log2 := by omega
  rw [toInt, roundToInt, decreaseExponent, hnone]
  dsimp only
  rw [shiftToExponent, hshift, ExtendedMantissa.ofMantissaAndAccuracy, Nat.shiftLeft_zero,
    shiftRight_exact]
  rfl

theorem beq_self_of_finite {s : Sign} {m : Nat} {e : Int} {h : 0 < m} :
    (UnpackedFloat.finite s m e h).beq (.finite s m e h) = true := by
  cases s <;> simp [UnpackedFloat.beq, UnpackedFloat.compare]

end Float.Model.UnpackedFloat

namespace Float

open ScriptBoundary (twoPow)

/-- A small natural number as a double, and as a word. -/
theorem toUInt32_ofNat {n : Nat} (hlt : n < twoPow 32) : (Float.ofNat n).toUInt32.toNat = n := by
  rcases Nat.eq_zero_or_pos n with rfl | hn
  · decide +kernel
  · have hlt' : n < twoPow 53 := Nat.lt_trans hlt (by decide)
    rw [ofNat_eq_ofParts hn hlt']
    show (UInt32.ofNatClamp ((ofParts _ _).toModel.unpack.toInt 0 _).toNat).toNat = n
    rw [unpack_ofParts, Model.UnpackedFloat.toInt_ofNat hn hlt', Int.toNat_natCast,
      UInt32.ofNatClamp, dif_pos (show n < UInt32.size from hlt)]
    rfl

/-- A number that is too great gives the greatest. -/
theorem toUInt32_ofNat_of_le {n : Nat} (hle : twoPow 32 ≤ n) (hlt : n < twoPow 53) :
    (Float.ofNat n).toUInt32.toNat = twoPow 32 - 1 := by
  have hn : 0 < n := Nat.lt_of_lt_of_le (by decide) hle
  rw [ofNat_eq_ofParts hn hlt]
  show (UInt32.ofNatClamp ((ofParts _ _).toModel.unpack.toInt 0 _).toNat).toNat = _
  rw [unpack_ofParts, Model.UnpackedFloat.toInt_ofNat hn hlt, Int.toNat_natCast,
    UInt32.ofNatClamp, dif_neg (show ¬n < UInt32.size from Nat.not_lt.mpr hle)]
  rfl

/-- Numbers of different lengths are different. -/
theorem ofNat_beq_of_log2_lt {n m : Nat} (hn : 0 < n) (hm : m < twoPow 53)
    (h : n.log2 < m.log2) : (Float.ofNat n == Float.ofNat m) = false := by
  have hm' : 0 < m := Nat.pos_of_ne_zero fun hzero => by simp [hzero] at h
  have hn' : n < twoPow 53 := by
    have hlog : m.log2 < 53 := (Nat.log2_lt (Nat.pos_iff_ne_zero.mp hm')).mpr hm
    exact (Nat.log2_lt (Nat.pos_iff_ne_zero.mp hn)).mp (by omega)
  rw [ofNat_eq_ofParts hn hn', ofNat_eq_ofParts hm' hm]
  show (ofParts _ _).toModel.unpack.beq (ofParts _ _).toModel.unpack = false
  rw [unpack_ofParts, unpack_ofParts]
  have hexponent : compare ((n.log2 : Int) - 52) ((m.log2 : Int) - 52) = .lt := by
    rw [Int.compare_eq_lt]
    omega
  simp [Model.UnpackedFloat.beq, Model.UnpackedFloat.compare, hexponent]

theorem ofNat_beq_self {n : Nat} (hlt : n < twoPow 53) :
    (Float.ofNat n == Float.ofNat n) = true := by
  rcases Nat.eq_zero_or_pos n with rfl | hn
  · decide +kernel
  · rw [ofNat_eq_ofParts hn hlt]
    show (ofParts _ _).toModel.unpack.beq (ofParts _ _).toModel.unpack = true
    rw [unpack_ofParts]
    exact Model.UnpackedFloat.beq_self_of_finite

end Float

namespace ScriptBoundary.Decimal

/-- Whether digits with some zeros after them are those of a natural number. -/
def Digits.IsOf (d : Digits) (n : Nat) : Prop := ∃ e : Nat, d.exponent = e ∧ d.digits * 10 ^ e = n

theorem Digits.IsOf.stripZeros {d : Digits} {n : Nat} (h : d.IsOf n) (fuel : Nat) :
    (stripZeros fuel d).IsOf n := by
  induction fuel generalizing d with
  | zero => exact h
  | succ fuel ih =>
    rw [Decimal.stripZeros]
    split
    · next hzero =>
      rw [Bool.and_eq_true, beq_iff_eq] at hzero
      obtain ⟨e, he, hd⟩ := h
      refine ih ⟨e + 1, by simp [he], ?_⟩
      rw [Nat.pow_succ, Nat.mul_comm (10 ^ e), ← Nat.mul_assoc,
        Nat.div_mul_cancel (Nat.dvd_of_mod_eq_zero hzero.1), hd]
    · exact h

section Whole

variable {n : Nat}

/-- Of the multiples of a distance that is wide enough, only the middle of an interval lies in
it. -/
theorem multiple_near_iff {d w k : Nat} (hd : 4 ≤ d) (hw : w ≤ 2) :
    (n * d - w ≤ k * d ∧ k * d ≤ n * d + 2) ↔ k = n := by
  refine ⟨fun h => ?_, fun h => by subst h; omega⟩
  rcases Nat.lt_trichotomy k n with hlt | heq | hgt
  · have := Nat.mul_le_mul_right d (Nat.succ_le_of_lt hlt)
    rw [Nat.succ_mul] at this
    omega
  · exact heq
  · have := Nat.mul_le_mul_right d (Nat.succ_le_of_lt hgt)
    rw [Nat.succ_mul] at this
    omega

theorem multiple_within_iff {d w k : Nat} (hd : 4 ≤ d) (hn : 0 < n) (hw : 1 ≤ w ∧ w ≤ 2) :
    (n * d - w < k * d ∧ k * d < n * d + 2) ↔ k = n := by
  refine ⟨fun h => (multiple_near_iff hd hw.2).mp ⟨Nat.le_of_lt h.1, Nat.le_of_lt h.2⟩,
    fun h => ?_⟩
  have := Nat.mul_le_mul_right d (show 1 ≤ n from hn)
  subst h
  omega

/-- **The search at a power of ten**, from the first digit of a whole number down to its last. -/
theorem onGrid?_whole (hn : 0 < n) (hlt : n < twoPow 53) (p : Nat) (hp : 10 ^ p ≤ n) :
    onGrid? (n * twoPow (52 - n.log2)) ((n.log2 : Int) - 52) p =
      if 10 ^ p ∣ n then some ⟨n / 10 ^ p, p⟩ else none := by
  have hlog : n.log2 < 53 := (Nat.log2_lt (Nat.pos_iff_ne_zero.mp hn)).mpr hlt
  have hten : powerOfTen (p : Int) = (10 ^ p, 1) := by simp [powerOfTen]
  have htwo : powerOfTwo ((n.log2 : Int) - 52 - 2) = (1, twoPow (54 - n.log2)) := by
    rw [powerOfTwo, if_neg (by omega)]
    congr 2
    omega
  have hfour : 4 * (n * twoPow (52 - n.log2)) = n * twoPow (54 - n.log2) := by
    rw [show 54 - n.log2 = 52 - n.log2 + 2 by omega, twoPow_add, show twoPow 2 = 4 from rfl,
      Nat.mul_comm 4, Nat.mul_assoc]
  have hd : 4 ≤ twoPow (54 - n.log2) := by
    rw [show 54 - n.log2 = 52 - n.log2 + 2 by omega, twoPow_add]
    exact Nat.le_mul_of_pos_left 4 (twoPow_pos _)
  have hten' : 0 < 10 ^ p := Nat.pow_pos (by decide)
  rw [onGrid?, htwo, hten, interval, hfour]
  dsimp only
  generalize n * twoPow (52 - n.log2) = m
  generalize hw : (if (m == twoPow 52 && decide ((n.log2 : Int) - 52 > -1074)) = true then 1 else 2)
    = w
  have hw' : 1 ≤ w ∧ w ≤ 2 := by
    rw [← hw]
    split <;> decide
  generalize hdd : twoPow (54 - n.log2) = d at *
  have hcell (c : Nat) : c * (d * 10 ^ p) = c * 10 ^ p * d := by
    rw [Nat.mul_comm d, Nat.mul_assoc]
  simp only [Nat.mul_one, hcell]
  have hinside (c : Nat) : (if (m % 2 == 0) = true then
      decide (n * d - w ≤ c * 10 ^ p * d) && decide (c * 10 ^ p * d ≤ n * d + 2)
      else decide (n * d - w < c * 10 ^ p * d) && decide (c * 10 ^ p * d < n * d + 2)) =
      decide (c * 10 ^ p = n) := by
    rw [← Bool.decide_and, ← Bool.decide_and]
    simp only [multiple_near_iff hd hw'.2, multiple_within_iff hd hn hw', ite_self]
  simp only [hinside]
  have hbelow : n * d / (d * 10 ^ p) = n / 10 ^ p := by
    rw [Nat.mul_comm n, Nat.mul_div_mul_left _ _ (by omega)]
  rw [hbelow]
  have habove : (n / 10 ^ p + 1) * 10 ^ p ≠ n := by
    have := Nat.lt_div_mul_add hten' (a := n)
    rw [Nat.succ_mul]
    omega
  rw [decide_eq_false habove, decide_eq_true (Nat.div_pos hp hten'), Bool.and_true]
  by_cases hdvd : 10 ^ p ∣ n
  · rw [decide_eq_true (Nat.div_mul_cancel hdvd), if_pos hdvd]
  · rw [decide_eq_false fun h => hdvd ⟨n / 10 ^ p, by rw [Nat.mul_comm]; exact h.symm⟩,
      if_neg hdvd]

theorem leadingExponent_whole (hn : 0 < n) (hlt : n < twoPow 53) :
    leadingExponent (n * twoPow (52 - n.log2)) ((n.log2 : Int) - 52) =
      (countDigits n : Int) - 1 := by
  have hlog : n.log2 < 53 := (Nat.log2_lt (Nat.pos_iff_ne_zero.mp hn)).mpr hlt
  have htwo : powerOfTwo ((n.log2 : Int) - 52) = (1, twoPow (52 - n.log2)) := by
    rw [powerOfTwo]
    split
    · have h52 : n.log2 = 52 := by omega
      rw [h52]
      rfl
    · congr 2
      omega
  rw [leadingExponent, htwo]
  dsimp only
  rw [Nat.mul_one, if_pos (Nat.le_mul_of_pos_left _ hn), Nat.mul_div_cancel _ (twoPow_pos _)]

theorem countDigits_le_iff {k : Nat} (hk : 0 < k) : countDigits n ≤ k ↔ n < 10 ^ k :=
  Nat.length_toDigits_le_iff (by decide) hk

/-- There is no power of ten in a number beyond its first digit. -/
theorem tenPow_le_of_lt_countDigits {p : Nat} (hn : 0 < n) (hp : p < countDigits n) :
    10 ^ p ≤ n := by
  cases p with
  | zero => exact hn
  | succ p => exact Nat.le_of_not_lt fun hlt =>
      Nat.not_le.mpr hp ((countDigits_le_iff p.succ_pos).mpr hlt)

/-- The search ends at the power of ten of the last digit, or before. -/
theorem shortest_whole (hn : 0 < n) (hlt : n < twoPow 53) :
    (shortest (n * twoPow (52 - n.log2)) ((n.log2 : Int) - 52)).IsOf n := by
  have hpos : 0 < countDigits n := List.length_pos_iff.mpr Nat.toDigits_ne_nil
  have hcount : countDigits n ≤ 17 :=
    (countDigits_le_iff (by decide)).mpr (Nat.lt_trans hlt (by decide))
  rw [shortest, leadingExponent_whole hn hlt]
  refine Digits.IsOf.stripZeros ?_ 400
  have hat {k : Nat} (hk : k < countDigits n) :
      onGrid? (n * twoPow (52 - n.log2)) ((n.log2 : Int) - 52) ((countDigits n : Int) - 1 - k) =
        if 10 ^ (countDigits n - 1 - k) ∣ n then
          some ⟨n / 10 ^ (countDigits n - 1 - k), (countDigits n - 1 - k : Nat)⟩ else none := by
    rw [← onGrid?_whole hn hlt _ (tenPow_le_of_lt_countDigits hn (by omega))]
    congr 1
    omega
  have hrange : List.range 17 = List.range (countDigits n) ++
      (List.range (17 - countDigits n)).map (countDigits n + ·) := by
    rw [← List.range_add, Nat.add_sub_cancel' hcount]
  rw [List.findSome?_map, hrange, List.findSome?_append]
  -- The last digit of a whole number stands at `10 ^ 0`.
  have hlast : ((List.range (countDigits n)).findSome? (onGrid? (n * twoPow (52 - n.log2))
      ((n.log2 : Int) - 52) ∘ fun k : Nat => (countDigits n : Int) - 1 - k)).isSome := by
    rw [List.findSome?_isSome_iff]
    refine ⟨countDigits n - 1, List.mem_range.mpr (by omega), ?_⟩
    rw [Function.comp_apply, hat (by omega), Nat.sub_self, Nat.pow_zero, if_pos (Nat.one_dvd n)]
    rfl
  obtain ⟨d, hd⟩ := Option.isSome_iff_exists.mp hlast
  rw [hd, Option.some_or, Option.getD_some]
  obtain ⟨k, hk, hgrid⟩ := List.exists_of_findSome?_eq_some hd
  rw [Function.comp_apply, hat (List.mem_range.mp hk)] at hgrid
  split at hgrid
  · next hdvd =>
    obtain rfl := Option.some.inj hgrid
    exact ⟨_, rfl, Nat.div_mul_cancel hdvd⟩
  · cases hgrid

/-- Zeros after the digits of a number. -/
theorem toDigits_mul_tenPow {d : Nat} (hd : 0 < d) (e : Nat) :
    Nat.toDigits 10 (d * 10 ^ e) = Nat.toDigits 10 d ++ List.replicate e '0' := by
  induction e with
  | zero => simp
  | succ e ih =>
    have hmore := Nat.toDigits_append_toDigits (b := 10) (n := d * 10 ^ e) (d := 0) (by decide)
      (Nat.mul_pos hd (Nat.pow_pos (by decide))) (by decide)
    rw [Nat.add_zero, ih, Nat.toDigits_zero] at hmore
    rw [Nat.pow_succ, ← Nat.mul_assoc, Nat.mul_comm, ← hmore, List.append_assoc,
      List.replicate_succ']

theorem toList_toString (n : Nat) : (toString n).toList = Nat.toDigits 10 n := Nat.toList_repr

theorem length_toString (n : Nat) : (toString n).length = countDigits n := by
  rw [← String.length_toList, toList_toString]
  rfl

/-- Digits with their zeros, as a script writes them. -/
theorem writePositional_whole {d : Digits} (h : d.IsOf n) (hn : 0 < n) :
    writePositional Layout.script (toString d.digits)
      (d.exponent + ((toString d.digits).length : Int) - 1) = toString n := by
  obtain ⟨e, he, rfl⟩ := h
  have hd : 0 < d.digits := Nat.pos_of_mul_pos_right hn
  have hcount : 0 < (toString d.digits).length := by
    rw [length_toString]
    exact Nat.length_toDigits_pos
  rw [writePositional, he]
  dsimp only
  have hlead : ((e : Int) + ((toString d.digits).length : Int) - 1).toNat + 1 =
      e + (toString d.digits).length := by omega
  rw [if_neg (by omega), hlead, if_pos (by omega), Nat.add_sub_cancel, ← String.toList_inj]
  have htail : Layout.script.integerTail.toList = [] := by decide
  rw [String.toList_append, String.toList_append, toList_toString, toList_toString, zeros,
    String.toList_ofList, htail, List.append_nil, toDigits_mul_tenPow hd]

/-- **A whole number is written as its digits.** -/
theorem write_whole (hlt : n < twoPow 53) : Layout.script.write (Float.ofNat n) = toString n := by
  rcases Nat.eq_zero_or_pos n with rfl | hn
  · decide +kernel
  have hwhole := shortest_whole hn hlt
  have hm : (n * twoPow (52 - n.log2) == 0) = false := by
    rw [beq_eq_false_iff_ne]
    exact Nat.pos_iff_ne_zero.mp (Nat.mul_pos hn (twoPow_pos _))
  rw [Layout.write, Float.ofNat_eq_ofParts hn hlt, Float.ofFloat_ofParts]
  dsimp only
  rw [hm, if_neg Bool.false_ne_true, writePositional_whole hwhole hn]
  generalize hd : shortest (n * twoPow (52 - n.log2)) ((n.log2 : Int) - 52) = d at hwhole ⊢
  have hlead : Layout.script.positional (d.exponent + ((toString d.digits).length : Int) - 1) =
      true := by
    obtain ⟨e, he, hvalue⟩ := hwhole
    have hdigits : 0 < d.digits := Nat.pos_of_mul_pos_right (hvalue ▸ hn)
    have hcount : countDigits n = (toString d.digits).length + e := by
      rw [← hvalue, countDigits, toDigits_mul_tenPow hdigits, List.length_append,
        List.length_replicate, length_toString]
      rfl
    have hsmall : countDigits n ≤ 16 :=
      (countDigits_le_iff (by decide)).mpr (Nat.lt_trans hlt (by decide))
    rw [Layout.script, Bool.and_eq_true, decide_eq_true_iff, decide_eq_true_iff]
    omega
  rw [hlead, if_pos rfl]
  rfl

end Whole

end ScriptBoundary.Decimal

namespace ScriptBoundary.Script

variable {n : Nat}

theorem numberText_ofNat (hlt : n < twoPow 53) : numberText (Float.ofNat n) = Text.ofNat n :=
  congrArg Text.ofString (Decimal.write_whole hlt)

/-- **The key of a whole number** is that of its digits, whether it is an index or not. -/
theorem Key.ofNumber_ofNat (hlt : n < twoPow 53) : Key.ofNumber (Float.ofNat n) = Key.ofNat n := by
  rw [Key.ofNumber]
  rcases Nat.lt_or_ge n (twoPow 32) with hindex | hlarge
  · rw [Float.toUInt32_ofNat hindex, if_pos (Float.ofNat_beq_self hlt)]
  · have hlog : (twoPow 32 - 1).log2 < n.log2 := by
      have hle : 32 ≤ n.log2 :=
        (Nat.le_log2 (Nat.pos_iff_ne_zero.mp (Nat.lt_of_lt_of_le (by decide) hlarge))).mpr hlarge
      exact Nat.lt_of_lt_of_le (by decide) hle
    rw [Float.toUInt32_ofNat_of_le hlarge hlt, if_neg ?_, numberText_ofNat hlt,
      Key.ofNat_eq_ofText]
    rw [Float.ofNat_beq_of_log2_lt (by decide) hlt hlog]
    exact Bool.false_ne_true

end ScriptBoundary.Script
