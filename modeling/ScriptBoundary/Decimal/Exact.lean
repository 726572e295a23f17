import ScriptBoundary.Decimal.Binary

/-!
# Small integers as doubles

An integer below `2 ^ 53` in magnitude is a double: making it one and reading it again gives the
same integer. Time values rest on this, since they are integers that scripts see as doubles.

The arithmetic of doubles is defined on floats that are taken apart into a sign, a mantissa and an
exponent. A float is *normal* here if its mantissa has all of its 53 bits and its exponent is in
range (`IsNormal`). Rounding leaves a normal float alone, however many zero bits its mantissa came
with (`IsNormal.roundWithAccuracy_eq`), and so does packing it into 64 bits and unpacking it
(`IsNormal.unpack_pack`). Everything else is a matter of scaling an integer until it is normal.

## Main results

* `Float.ofNat_eq_ofParts`: the sign, mantissa and exponent of a small natural number
* `Float.truncate_ofExactInt`: small integers survive being made doubles
-/

namespace ScriptBoundary

theorem twoPow_pos (k : Nat) : 0 < twoPow k := Nat.two_pow_pos k

theorem twoPow_add (j k : Nat) : twoPow (j + k) = twoPow j * twoPow k := Nat.pow_add 2 j k

end ScriptBoundary

namespace Float.Model.UnpackedFloat

open ScriptBoundary (twoPow twoPow_pos twoPow_add)

/-- Whether a mantissa and an exponent are those of a double with all its bits. -/
structure IsNormal (m : Nat) (e : Int) : Prop where
  mantissa : twoPow 52 ≤ m ∧ m < twoPow 53
  exponent : -1074 ≤ e ∧ e ≤ 971

/-- Floats with the same parts are the same. -/
theorem finite_congr {s s' : Sign} {m m' : Nat} {e e' : Int} {h : 0 < m} {h' : 0 < m'}
    (hs : s = s') (hm : m = m') (he : e = e') :
    UnpackedFloat.finite s m e h = .finite s' m' e' h' := by
  subst hs hm he
  rfl

/-- Zero bits are shifted out without a trace. -/
theorem shiftRight_exact (m j : Nat) :
    (⟨m * twoPow j, false, false⟩ : ExtendedMantissa) >>> j = ⟨m, false, false⟩ := by
  show j.repeat ExtendedMantissa.shiftRightOne ⟨m * twoPow j, false, false⟩ = _
  induction j generalizing m with
  | zero => simp [Nat.repeat, twoPow]
  | succ j ih =>
    have hm : m * twoPow (j + 1) = m * 2 * twoPow j := by
      rw [Nat.add_comm, twoPow_add, Nat.mul_assoc]
      rfl
    rw [Nat.repeat, hm, ih]
    simp [ExtendedMantissa.shiftRightOne]

/-- A bit in front of all others. -/
theorem lead_pos {w : Nat} (y : BitVec w) : 0 < (1#1 ++ y).toNat := by simp

/-- The fields of a double that is neither subnormal nor special. -/
theorem unpack_packComponents {spec : Format} {s : Sign} {x : BitVec spec.exponentBits}
    {y : BitVec spec.mantissaBitsWithoutImplicit} (hmax : x ≠ -1#_) (hmin : x ≠ 0#_) :
    unpack spec (packComponents spec s x y) = .finite s (1#1 ++ y).toNat
      ((x.toNat : Int) - (spec.exponentBias + spec.mantissaBitsWithoutImplicit)) (lead_pos y) := by
  have hsign : unpackSign (packComponents spec s x y) = s.toBitVec := by
    ext i hi
    have hi0 : i = 0 := by omega
    subst hi0
    have hnot : ¬ spec.mantissaBitsWithoutImplicit + spec.exponentBits
        < spec.mantissaBitsWithoutImplicit := by omega
    delta unpackSign
    simp [packComponents, BitVec.getLsbD_eq_getElem, BitVec.getLsbD_append, hnot,
      BitVec.getElem_append]
  have hback : Sign.ofBitVec s.toBitVec = s := by cases s <;> rfl
  have hx : unpackExponent (packComponents spec s x y) = x := unpackExponent_packComponents ..
  have hy : unpackMantissa (packComponents spec s x y) = y := unpackMantissa_packComponents ..
  delta unpack
  refine (if_neg ?_).trans ((if_neg ?_).trans (finite_congr ?_ ?_ ?_))
  · rwa [hx]
  · rwa [hx]
  · rw [hsign, hback]
  · rw [hy]
  · rw [hx]

namespace IsNormal

variable {m : Nat} {e : Int}

theorem pos (h : IsNormal m e) : 0 < m := Nat.lt_of_lt_of_le (by decide) h.mantissa.1

/-- Where the first bit of a normal mantissa is, after some zeros were added. -/
theorem log2_scaled (h : IsNormal m e) (j : Nat) : (m * twoPow j).log2 = 52 + j := by
  have hne : m * twoPow j ≠ 0 :=
    Nat.mul_ne_zero (Nat.pos_iff_ne_zero.mp h.pos) (Nat.pos_iff_ne_zero.mp (twoPow_pos j))
  refine (Nat.log2_eq_iff hne).mpr ⟨?_, ?_⟩
  · have hle := Nat.mul_le_mul_right (twoPow j) h.mantissa.1
    rwa [← twoPow_add] at hle
  · have hlt := Nat.mul_lt_mul_of_pos_right h.mantissa.2 (twoPow_pos j)
    rw [← twoPow_add] at hlt
    rwa [show 52 + j + 1 = 53 + j by omega]

theorem log2_eq (h : IsNormal m e) : m.log2 = 52 := by
  have hscaled := h.log2_scaled 0
  rwa [show m * twoPow 0 = m from Nat.mul_one m] at hscaled

theorem targetExponent_eq (h : IsNormal m e) (j : Nat) :
    Format.binary64.targetExponent (totalExponent (m * twoPow j) (e - j)) = e := by
  have hmin : Format.binary64.minExponent = -1074 := by decide
  have hbits : Format.binary64.mantissaBits = 53 := by decide
  have hexp := h.exponent
  rw [Format.targetExponent, hmin, hbits, totalExponent, h.log2_scaled]
  omega

theorem shiftToTargetExponent_eq (h : IsNormal m e) (j : Nat) :
    shiftToTargetExponent Format.binary64 (m * twoPow j) (e - j) .exact =
      (⟨m, false, false⟩, e) := by
  have hj : (e - (e - (j : Int))).toNat = j := by omega
  rw [shiftToTargetExponent, h.targetExponent_eq, shiftToExponent, hj,
    ExtendedMantissa.ofMantissaAndAccuracy, shiftRight_exact]
  congr 1
  omega

/-- **Rounding leaves a normal float alone**, with any number of zeros after its mantissa. -/
theorem roundWithAccuracy_eq (h : IsNormal m e) (s : Sign) (j : Nat) :
    roundWithAccuracy Format.binary64 s (m * twoPow j) (e - j) .exact = .finite s m e h.pos := by
  have h0 : shiftToTargetExponent Format.binary64 m e .exact = (⟨m, false, false⟩, e) := by
    have hzero := h.shiftToTargetExponent_eq 0
    rwa [show m * twoPow 0 = m from Nat.mul_one m, show e - ((0 : Nat) : Int) = e by omega]
      at hzero
  have hrounded : (⟨m, false, false⟩ : ExtendedMantissa).roundedMantissa = m := rfl
  rw [roundWithAccuracy, h.shiftToTargetExponent_eq j]
  dsimp only
  rw [hrounded, h0]
  exact dif_neg (Nat.pos_iff_ne_zero.mp h.pos)

theorem pack_eq (h : IsNormal m e) (s : Sign) :
    pack Format.binary64 (.finite s m e h.pos) =
      packComponents Format.binary64 s (BitVec.ofNat 11 (e + 1075).toNat) (BitVec.ofNat 52 m) := by
  have hexp := h.exponent
  have hbias : Format.binary64.exponentBias = 1023 := by decide
  have hbits : Format.binary64.mantissaBits = 53 := by decide
  have hb : (e + ((1023 : Nat) : Int) + ((52 : Nat) : Int)).toNat = (e + 1075).toNat := by omega
  have hlt : ¬ (2 ^ 11 ≤ (e + 1075).toNat + 1) := by omega
  delta pack
  dsimp only
  rw [hbias, hb, if_neg hlt, h.log2_eq, hbits, if_pos rfl]

/-- The bits of a double. -/
theorem toNat_pack (h : IsNormal m e) (s : Sign) :
    (pack Format.binary64 (.finite s m e h.pos)).toNat =
      s.toBitVec.toNat * twoPow 63 + (e + 1075).toNat * twoPow 52 + (m - twoPow 52) := by
  have hexp := h.exponent
  have hm : 2 ^ 52 ≤ m ∧ m < 2 ^ 53 := h.mantissa
  have h63 : twoPow 63 = 2 ^ 63 := rfl
  have h52 : twoPow 52 = 2 ^ 52 := rfl
  have hmod : m % 2 ^ 52 = m - 2 ^ 52 := by omega
  have hemod : (e + 1075).toNat % 2 ^ 11 = (e + 1075).toNat := by omega
  rw [h.pack_eq, packComponents, BitVec.toNat_append, BitVec.toNat_append, BitVec.toNat_ofNat,
    BitVec.toNat_ofNat, hmod, hemod, ← Nat.shiftLeft_add_eq_or_of_lt (by omega),
    ← Nat.shiftLeft_add_eq_or_of_lt (by omega), Nat.shiftLeft_eq, Nat.shiftLeft_eq, h63, h52]
  omega

/-- **Packing keeps a normal float.** -/
theorem unpack_pack (h : IsNormal m e) (s : Sign) :
    unpack Format.binary64 (pack Format.binary64 (.finite s m e h.pos)) = .finite s m e h.pos := by
  have hexp := h.exponent
  have hm : 2 ^ 52 ≤ m ∧ m < 2 ^ 53 := h.mantissa
  have hmod : m % 2 ^ 52 = m - 2 ^ 52 := by omega
  have hemod : (e + 1075).toNat % 2 ^ 11 = (e + 1075).toNat := by omega
  have hbias : Format.binary64.exponentBias = 1023 := by decide
  have hmax : BitVec.ofNat 11 (e + 1075).toNat ≠ -1#11 := fun heq => by
    have hn := congrArg BitVec.toNat heq
    rw [BitVec.toNat_ofNat, hemod] at hn
    have hones : (-1#11).toNat = 2047 := by decide
    omega
  have hmin : BitVec.ofNat 11 (e + 1075).toNat ≠ 0#11 := fun heq => by
    have hn := congrArg BitVec.toNat heq
    rw [BitVec.toNat_ofNat, hemod] at hn
    have hzero : (0#11).toNat = 0 := by decide
    omega
  have hmant : (1#1 ++ BitVec.ofNat 52 m).toNat = m := by
    have hlow : (BitVec.ofNat 52 m).toNat = m - 2 ^ 52 := by rw [BitVec.toNat_ofNat, hmod]
    rw [BitVec.toNat_append, hlow, ← Nat.shiftLeft_add_eq_or_of_lt (by omega), Nat.shiftLeft_eq]
    have hone : (1#1).toNat = 1 := by decide
    omega
  have hexpo : ((BitVec.ofNat 11 (e + 1075).toNat).toNat : Int)
      - (((1023 : Nat) : Int) + ((52 : Nat) : Int)) = e := by
    rw [BitVec.toNat_ofNat, hemod]
    omega
  rw [h.pack_eq, unpack_packComponents hmax hmin]
  refine finite_congr rfl hmant ?_
  rw [hbias]
  exact hexpo

end IsNormal

/-- The mantissa and the exponent of a small natural number. -/
theorem isNormal_ofNat {n : Nat} (hn : 0 < n) (hlt : n < twoPow 53) :
    IsNormal (n * twoPow (52 - n.log2)) ((n.log2 : Int) - 52) := by
  have hne : n ≠ 0 := Nat.pos_iff_ne_zero.mp hn
  have hlog : n.log2 < 53 := (Nat.log2_lt hne).mpr hlt
  have hself : twoPow n.log2 ≤ n := Nat.log2_self_le hne
  have hself' : n < twoPow (n.log2 + 1) := Nat.lt_log2_self
  refine ⟨⟨?_, ?_⟩, by omega⟩
  · have hlow := Nat.mul_le_mul_right (twoPow (52 - n.log2)) hself
    rwa [← twoPow_add, show n.log2 + (52 - n.log2) = 52 by omega] at hlow
  · have hhigh := Nat.mul_lt_mul_of_pos_right hself' (twoPow_pos (52 - n.log2))
    rwa [← twoPow_add, show n.log2 + 1 + (52 - n.log2) = 53 by omega] at hhigh

/-- A small natural number needs no rounding. -/
theorem ofNat_eq {n : Nat} (hn : 0 < n) (hlt : n < twoPow 53) :
    ofNat Format.binary64 n = .finite .positive (n * twoPow (52 - n.log2)) ((n.log2 : Int) - 52)
      (isNormal_ofNat hn hlt).pos := by
  have hlog : n.log2 < 53 := (Nat.log2_lt (Nat.pos_iff_ne_zero.mp hn)).mpr hlt
  have hmin : Format.binary64.minExponent = -1074 := by decide
  have htarget : Format.binary64.targetExponent (totalExponent n 0) = (n.log2 : Int) - 52 := by
    have hbits : Format.binary64.mantissaBits = 53 := by decide
    rw [Format.targetExponent, hmin, hbits, totalExponent]
    omega
  have hpos : compare (n : Int) 0 = .gt := by
    rw [Int.compare_eq_gt]
    omega
  have hshift : (0 - ((n.log2 : Int) - 52)).toNat = 52 - n.log2 := by omega
  have hexponent : (0 : Int) - ((52 - n.log2 : Nat) : Int) = (n.log2 : Int) - 52 := by omega
  have hround := (isNormal_ofNat hn hlt).roundWithAccuracy_eq .positive 0
  have hzero : n * twoPow (52 - n.log2) * twoPow 0 = n * twoPow (52 - n.log2) := Nat.mul_one _
  rw [hzero, Int.natCast_zero, Int.sub_zero] at hround
  rw [ofNat, ofInt, normalize, hpos]
  dsimp only
  rw [Int.toNat_natCast, round]
  dsimp only
  rw [htarget, decreaseExponent]
  dsimp only
  rw [hshift, Nat.shiftLeft_eq, hexponent]
  exact hround

/-- Multiplying by one changes nothing. -/
theorem IsNormal.mul_one {m : Nat} {e : Int} (h : IsNormal m e) (s : Sign)
    {hone : 0 < twoPow 52} :
    mul Format.binary64 (.finite s m e h.pos) (.finite .positive (twoPow 52) (-52) hone) =
      .finite s m e h.pos := by
  have hsign : s * Sign.positive = s := by cases s <;> rfl
  show roundWithAccuracy Format.binary64 (s * .positive) (m * twoPow 52) (e - (52 : Nat)) .exact = _
  rw [hsign]
  exact h.roundWithAccuracy_eq s 52

end Float.Model.UnpackedFloat

namespace Float

open Model.UnpackedFloat (IsNormal Sign)
open ScriptBoundary (Binary twoPow twoPow_pos)

/-- The double with a sign, a mantissa and an exponent. -/
def ofParts (s : Sign) {m : Nat} {e : Int} (h : IsNormal m e) : Float :=
  .ofModel (Model.pack (.finite s m e h.pos))

variable {m : Nat} {e : Int}

theorem unpack_ofParts (s : Sign) (h : IsNormal m e) :
    (ofParts s h).toModel.unpack = .finite s m e h.pos :=
  h.unpack_pack s

theorem neg_ofParts (h : IsNormal m e) : -ofParts .positive h = ofParts .negative h := by
  show Float.ofModel (Model.pack (ofParts .positive h).toModel.unpack.neg) = _
  rw [unpack_ofParts]
  rfl

/-- A double that is put together from its parts is taken apart into them. -/
theorem ofFloat_ofParts (s : Sign) (h : IsNormal m e) :
    Binary.ofFloat (ofParts s h) = .finite (s.toBitVec.toNat == 1) m e := by
  have hexp := h.exponent
  have hm : 2 ^ 52 ≤ m ∧ m < 2 ^ 53 := h.mantissa
  have hs : s.toBitVec.toNat < 2 := s.toBitVec.isLt
  have hbits : (ofParts s h).toBits.toNat =
      s.toBitVec.toNat * 2 ^ 63 + (e + 1075).toNat * 2 ^ 52 + (m - 2 ^ 52) := h.toNat_pack s
  generalize hn : s.toBitVec.toNat * 2 ^ 63 + (e + 1075).toNat * 2 ^ 52 + (m - 2 ^ 52) = n at hbits
  have h63 : twoPow 63 = 2 ^ 63 := rfl
  have h52 : twoPow 52 = 2 ^ 52 := rfl
  have h11 : twoPow 11 = 2 ^ 11 := rfl
  have hsign : decide (n ≥ twoPow 63) = (s.toBitVec.toNat == 1) := by
    rw [Bool.eq_iff_iff, decide_eq_true_iff, beq_iff_eq, h63]
    omega
  have hexponent : n / twoPow 52 % twoPow 11 = (e + 1075).toNat := by
    rw [h52, h11]
    omega
  have hfraction : n % twoPow 52 = m - 2 ^ 52 := by
    rw [h52]
    omega
  have hnotMax : ((e + 1075).toNat == 2047) = false := by
    rw [beq_eq_false_iff_ne]
    omega
  have hnotMin : ((e + 1075).toNat == 0) = false := by
    rw [beq_eq_false_iff_ne]
    omega
  rw [Binary.ofFloat, hbits, hexponent, hfraction, hsign, hnotMax, hnotMin, h52,
    if_neg Bool.false_ne_true, if_neg Bool.false_ne_true]
  have hmantissa : 2 ^ 52 + (m - 2 ^ 52) = m := by omega
  have hexponent' : ((e + 1075).toNat : Int) - 1075 = e := by omega
  rw [hmantissa, hexponent']

theorem unpack_one :
    (Float.ofBits 0x3FF0000000000000).toModel.unpack =
      .finite .positive (twoPow 52) (-52) (twoPow_pos 52) := rfl

/-- **Small natural numbers are doubles.** -/
theorem ofNat_eq_ofParts {n : Nat} (hn : 0 < n) (hlt : n < twoPow 53) :
    Float.ofNat n = ofParts .positive (Model.UnpackedFloat.isNormal_ofNat hn hlt) := by
  have hnormal := Model.UnpackedFloat.isNormal_ofNat hn hlt
  have hword : n.toUInt64.toNat = n := by
    rw [Nat.toUInt64_eq, UInt64.toNat_ofNat_of_lt']
    exact Nat.lt_trans hlt (by decide)
  have hcast : n.toUInt64.toFloat = ofParts .positive hnormal := by
    show Float.ofModel (Model.pack (Model.UnpackedFloat.ofNat _ n.toUInt64.toNat)) = _
    rw [hword, Model.UnpackedFloat.ofNat_eq hn hlt]
    rfl
  have hscientific : Float.ofNat n = n.toUInt64.toFloat * Float.ofBits 0x3FF0000000000000 :=
    dif_pos ⟨hlt, by decide⟩
  rw [hscientific, hcast]
  show Float.ofModel (Model.pack (Model.UnpackedFloat.mul _
    (ofParts .positive hnormal).toModel.unpack
    (Float.ofBits 0x3FF0000000000000).toModel.unpack)) = _
  rw [unpack_ofParts, unpack_one, hnormal.mul_one]
  rfl

/-- The integer part of a scaled mantissa. -/
theorem truncate_ofNat {n : Nat} (hn : 0 < n) (hlt : n < twoPow 53) (negative : Bool) :
    (Binary.finite negative (n * twoPow (52 - n.log2)) ((n.log2 : Int) - 52)).truncate? =
      some (if negative then -(n : Int) else n) := by
  have hlog : n.log2 < 53 := (Nat.log2_lt (Nat.pos_iff_ne_zero.mp hn)).mpr hlt
  rcases Nat.lt_or_ge n.log2 52 with hsmall | hlarge
  · obtain ⟨k, hk⟩ : ∃ k, 52 - n.log2 = k + 1 := ⟨51 - n.log2, by omega⟩
    have hq : (n.log2 : Int) - 52 = .negSucc k := by omega
    have hshift : n * twoPow (k + 1) / twoPow (k + 1) = n := Nat.mul_div_cancel _ (twoPow_pos _)
    rw [hq, hk]
    simp only [Binary.truncate?, hshift]
  · have hq : (n.log2 : Int) - 52 = .ofNat 0 := by
      have hcast : Int.ofNat 0 = 0 := rfl
      omega
    have hshift : n * twoPow (52 - n.log2) * twoPow 0 = n := by
      rw [show 52 - n.log2 = 0 by omega]
      exact (Nat.mul_one _).trans (Nat.mul_one _)
    rw [hq]
    simp only [Binary.truncate?, hshift]

/-- **Small integers survive** being made doubles and read again. -/
theorem truncate_ofExactInt {n : Int} (h : n.natAbs < twoPow 53) :
    (Binary.ofFloat (ofExactInt n)).truncate? = some n := by
  cases n with
  | ofNat k =>
    rcases Nat.eq_zero_or_pos k with rfl | hk
    · decide +kernel
    · rw [ofExactInt, ofNat_eq_ofParts hk h, ofFloat_ofParts]
      exact truncate_ofNat hk h false
  | negSucc k =>
    rw [ofExactInt, ofNat_eq_ofParts (Nat.succ_pos k) h, neg_ofParts, ofFloat_ofParts]
    exact truncate_ofNat (Nat.succ_pos k) h true

end Float
