import ScriptBoundary.Text.Units
import Mathlib.Tactic.SplitIfs

/-!
# Surrogates

A character is written as one or two units, and units are read back with one unit of look-ahead: a
high unit takes a low one along. Written characters are always read back as they were
(`decode_encode`), because what follows a character can not change how its units are read.

The other way loses something, but only where a surrogate has no partner, and whether it has one
can be seen from its two neighbours: `isLone` looks one unit back and one ahead, and not at how the
units before it were paired up. `encode_decode` says that this is all there is to it: reading units
and writing the characters again keeps every unit in its place, and puts U+FFFD in the place of a
lone one. The induction goes by what is read next, a pair or a single unit. What carries it is that
the rest begins anew: the unit before it either is a low one or is not followed by one, and so does
not make a partner of the next (`isLone_succ`).
-/

namespace ScriptBoundary

/-- A number that is a character's is the number of that character. -/
theorem toNat_char {v : Nat} (hv : v.isValidChar) : (Char.ofNat v).toNat = v := by
  rw [Char.ofNat, dif_pos hv]
  rfl

namespace Utf16

/-! ### Reading and writing without an accumulator -/

theorem toList_encodeOnto (out : Array UInt16) (cs : List Char) :
    (encodeOnto out cs).toList = out.toList ++ cs.flatMap encodeChar := by
  induction cs generalizing out with
  | nil => simp [encodeOnto]
  | cons c cs ih => exact (ih (out ++ encodeChar c)).trans (by simp)

theorem encode_eq (cs : List Char) : encode cs = cs.flatMap encodeChar := by
  simp [encode, toList_encodeOnto]

theorem encode_cons (c : Char) (cs : List Char) : encode (c :: cs) = encodeChar c ++ encode cs := by
  simp [encode_eq]

theorem decodeOnto_eq (out : Array Char) (us : List UInt16) :
    decodeOnto out us = out ++ (decode us).toArray := by
  suffices h : ∀ out out', decodeOnto (out ++ out') us = out ++ decodeOnto out' us by
    simpa [decode] using h out #[]
  intro out out'
  induction out', us using decodeOnto.induct with
  | case1 => simp [decodeOnto]
  | case2 => simp [decodeOnto]
  | case3 out' u v rest hpair ih =>
    rw [decodeOnto, decodeOnto, if_pos hpair, if_pos hpair, ← ih, Array.append_push]
  | case4 out' u v rest hpair ih =>
    rw [decodeOnto, decodeOnto, if_neg hpair, if_neg hpair, ← ih, Array.append_push]

/-- Whether the unit at the head of a list, if any, ends a pair. -/
def startsLow (us : List UInt16) : Bool := us.head?.any isLow

theorem decode_pair {u v : UInt16} (h : (isHigh u && isLow v) = true) (us : List UInt16) :
    decode (u :: v :: us) = joinPair u v :: decode us := by
  rw [decode, decodeOnto, if_pos h, decodeOnto_eq]
  simp

theorem decode_single {u : UInt16} {us : List UInt16} (h : (isHigh u && startsLow us) = false) :
    decode (u :: us) = decodeUnit u :: decode us := by
  cases us with
  | nil => rfl
  | cons v us =>
    rw [decode, decodeOnto, if_neg (by simpa [startsLow] using h), decodeOnto_eq]
    simp

/-! ### One character -/

theorem isHigh_iff {u : UInt16} : isHigh u = true ↔ 0xD800 ≤ u.toNat ∧ u.toNat ≤ 0xDBFF := by
  simp [isHigh, UInt16.le_iff_toNat_le]

theorem isLow_iff {u : UInt16} : isLow u = true ↔ 0xDC00 ≤ u.toNat ∧ u.toNat ≤ 0xDFFF := by
  simp [isLow, UInt16.le_iff_toNat_le]

theorem toNat_unit {n : Nat} (hn : n < 0x10000) : (UInt16.ofNat n).toNat = n :=
  UInt16.toNat_ofNat_of_lt' hn

theorem encodeChar_of_lt {c : Char} (h : c.toNat < 0x10000) :
    encodeChar c = [UInt16.ofNat c.toNat] := if_pos h

theorem encodeChar_of_le {c : Char} (h : 0x10000 ≤ c.toNat) : encodeChar c =
    [UInt16.ofNat (0xD800 + (c.toNat - 0x10000) / 0x400),
      UInt16.ofNat (0xDC00 + (c.toNat - 0x10000) % 0x400)] := if_neg (by omega)

theorem encodeChar_joinPair {u v : UInt16} (h : (isHigh u && isLow v) = true) :
    encodeChar (joinPair u v) = [u, v] := by
  rw [Bool.and_eq_true, isHigh_iff, isLow_iff] at h
  have hc : (joinPair u v).toNat =
      0x10000 + (u.toNat - 0xD800) * 0x400 + (v.toNat - 0xDC00) :=
    toNat_char (.inr ⟨by omega, by omega⟩)
  have hhigh : UInt16.ofNat (0xD800 + ((joinPair u v).toNat - 0x10000) / 0x400) = u := by
    rw [← UInt16.toNat_inj, toNat_unit (by omega)]
    omega
  have hlow : UInt16.ofNat (0xDC00 + ((joinPair u v).toNat - 0x10000) % 0x400) = v := by
    rw [← UInt16.toNat_inj, toNat_unit (by omega)]
    omega
  rw [encodeChar_of_le (by omega), hhigh, hlow]

theorem encodeChar_decodeUnit (u : UInt16) :
    encodeChar (decodeUnit u) = [if isHigh u || isLow u then 0xFFFD else u] := by
  rw [decodeUnit]
  split_ifs with h
  · rfl
  · have hvalid : u.toNat.isValidChar := by
      have hlt := u.toNat_lt
      simp only [Bool.or_eq_true, isHigh_iff, isLow_iff] at h
      unfold Nat.isValidChar
      omega
    have hu : (Char.ofNat u.toNat).toNat = u.toNat := toNat_char hvalid
    rw [encodeChar_of_lt (by rw [hu]; exact u.toNat_lt), hu, UInt16.ofNat_toNat]

/-- A character is read back, whatever follows it. -/
theorem decode_encodeChar (c : Char) (us : List UInt16) :
    decode (encodeChar c ++ us) = c :: decode us := by
  have hvalid : c.toNat.isValidChar := c.valid
  unfold Nat.isValidChar at hvalid
  have hc : Char.ofNat c.toNat = c := Char.ofNat_toNat c
  rcases Nat.lt_or_ge c.toNat 0x10000 with h | h
  · rw [encodeChar_of_lt h]
    have hu : (UInt16.ofNat c.toNat).toNat = c.toNat := toNat_unit h
    have hhigh : isHigh (UInt16.ofNat c.toNat) = false := by
      rw [Bool.eq_false_iff, ne_eq, isHigh_iff]
      omega
    have hlow : isLow (UInt16.ofNat c.toNat) = false := by
      rw [Bool.eq_false_iff, ne_eq, isLow_iff]
      omega
    rw [List.singleton_append, decode_single (by rw [hhigh]; rfl), decodeUnit, hhigh, hlow, hu, hc]
    rfl
  · rw [encodeChar_of_le h]
    have hu : (UInt16.ofNat (0xD800 + (c.toNat - 0x10000) / 0x400)).toNat = _ :=
      toNat_unit (by omega)
    have hv : (UInt16.ofNat (0xDC00 + (c.toNat - 0x10000) % 0x400)).toNat = _ :=
      toNat_unit (by omega)
    refine (decode_pair ?_ us).trans ?_
    · rw [Bool.and_eq_true, isHigh_iff, isLow_iff]
      omega
    · rw [joinPair, hu, hv, show 0x10000 + _ + _ = c.toNat by omega, hc]

theorem decode_encode (cs : List Char) : decode (encode cs) = cs := by
  induction cs with
  | nil => rfl
  | cons c cs ih => rw [encode_cons, decode_encodeChar, ih]

/-! ### Units without a partner -/

/-- Whether the unit at a place is a surrogate without its partner: a high one with no low one
after it, or a low one with no high one before it. -/
def isLone (us : List UInt16) (i : Nat) : Bool :=
  (us[i]?.any isHigh && !us[i + 1]?.any isLow) ||
    (us[i]?.any isLow && !(decide (0 < i) && us[i - 1]?.any isHigh))

/-- No unit is a half of both sorts. -/
theorem not_isHigh_and_isLow (u : UInt16) : (isHigh u && isLow u) = false := by
  rw [Bool.eq_false_iff, ne_eq, Bool.and_eq_true, isHigh_iff, isLow_iff]
  omega

/-- A unit that is not the high half of a pair does not change which of the units after it are
alone. -/
theorem isLone_succ {u : UInt16} {us : List UInt16} (h : (isHigh u && startsLow us) = false)
    (i : Nat) : isLone (u :: us) (i + 1) = isLone us i := by
  cases i with
  | zero =>
    cases us with
    | nil => rfl
    | cons v us =>
      have hv : (isHigh u && isLow v) = false := h
      simp only [isLone, List.getElem?_cons_succ, List.getElem?_cons_zero, Option.any_some,
        Nat.add_sub_cancel, Nat.lt_irrefl, Nat.zero_lt_succ, decide_true, decide_false]
      cases hu : isHigh u <;> simp_all
  | succ i => simp [isLone]

theorem isLone_zero {u : UInt16} {us : List UInt16} (h : (isHigh u && startsLow us) = false) :
    isLone (u :: us) 0 = (isHigh u || isLow u) := by
  have hnext : (isHigh u && us[0]?.any isLow) = false := by
    rwa [startsLow, List.head?_eq_getElem?] at h
  simp only [isLone, List.getElem?_cons_succ, List.getElem?_cons_zero, Option.any_some,
    Nat.lt_irrefl, decide_false]
  cases hu : isHigh u <;> simp_all

theorem isLone_pair {u v : UInt16} (h : (isHigh u && isLow v) = true) (us : List UInt16) :
    isLone (u :: v :: us) 0 = false ∧ isLone (u :: v :: us) 1 = false := by
  rw [Bool.and_eq_true] at h
  have hu := not_isHigh_and_isLow u
  have hv := not_isHigh_and_isLow v
  simp_all [isLone]

theorem startsLow_of_isLow {v : UInt16} (h : isLow v = true) (us : List UInt16) :
    (isHigh v && startsLow us) = false := by
  have hv := not_isHigh_and_isLow v
  simp_all

/-- **Units read and written again**: each in its place, those without a partner mended. -/
theorem getElem?_encode_decode (us : List UInt16) (i : Nat) :
    (encode (decode us))[i]? = us[i]?.map fun u => if isLone us i then 0xFFFD else u := by
  induction hn : us.length using Nat.strongRecOn generalizing us i with
  | ind n ih =>
    cases us with
    | nil => rfl
    | cons u us =>
      cases hpair : isHigh u && startsLow us with
      | false =>
        rw [decode_single hpair, encode_cons, encodeChar_decodeUnit]
        cases i with
        | zero => simp [isLone_zero hpair]
        | succ i =>
          simp only [List.singleton_append, List.getElem?_cons_succ, isLone_succ hpair]
          exact ih us.length (by rw [← hn, List.length_cons]; omega) us i rfl
      | true =>
        obtain _ | ⟨v, us⟩ := us
        · simp [startsLow] at hpair
        have hpair' : (isHigh u && isLow v) = true := hpair
        have hv := startsLow_of_isLow (Bool.and_eq_true _ _ ▸ hpair').2 us
        rw [decode_pair hpair', encode_cons, encodeChar_joinPair hpair']
        match i with
        | 0 => simp [(isLone_pair hpair' us).1]
        | 1 => simp [(isLone_pair hpair' us).2]
        | i + 2 =>
          have hlone : isLone (u :: v :: us) (i + 2) = isLone us i := by
            rw [← isLone_succ hv]
            simp [isLone]
          rw [hlone]
          exact ih us.length (by rw [← hn, List.length_cons, List.length_cons]; omega) us i rfl

theorem length_encode_decode (us : List UInt16) : (encode (decode us)).length = us.length := by
  have hnone (i : Nat) : (encode (decode us))[i]? = none ↔ us[i]? = none := by
    rw [getElem?_encode_decode, Option.map_eq_none_iff]
  simp only [List.getElem?_eq_none_iff] at hnone
  exact Nat.le_antisymm ((hnone _).mpr Nat.le.refl) ((hnone _).mp Nat.le.refl)

/-- A unit without a partner is a surrogate. -/
theorem exists_of_isLone {us : List UInt16} {i : Nat} (h : isLone us i = true) :
    ∃ u, us[i]? = some u ∧ (isHigh u || isLow u) = true := by
  cases hu : us[i]? with
  | none => simp [isLone, hu] at h
  | some u =>
    refine ⟨u, rfl, ?_⟩
    simp only [isLone, hu, Option.any_some, Bool.or_eq_true, Bool.and_eq_true] at h ⊢
    exact h.imp And.left And.left

/-- **Units that come back as they were** are those that all have their partners. -/
theorem encode_decode_eq_iff (us : List UInt16) :
    encode (decode us) = us ↔ ∀ i, isLone us i = false := by
  constructor
  · intro h i
    refine Bool.eq_false_iff.mpr fun hlone => ?_
    obtain ⟨u, hu, hsurrogate⟩ := exists_of_isLone hlone
    have hmended := getElem?_encode_decode us i
    rw [h, hu, Option.map_some, hlone, if_pos rfl] at hmended
    rw [Option.some.inj hmended] at hsurrogate
    exact absurd hsurrogate (by decide)
  · intro h
    refine List.ext_getElem? fun i => ?_
    rw [getElem?_encode_decode, h i]
    simp

end Utf16

namespace Text

/-- Whether the unit at a place of a script string has no partner. -/
def isLone (t : Text) (i : Nat) : Bool := Utf16.isLone t.units.toList i

/-- A host string is the same after it has been a script string. -/
theorem toString_ofString (s : String) : (ofString s).toString = s := by
  show String.ofList (Utf16.decode (Utf16.encode s.toList)) = s
  rw [Utf16.decode_encode, String.ofList_toList]

theorem toList_ofString_toString (t : Text) :
    (ofString t.toString).units.toList = Utf16.encode (Utf16.decode t.units.toList) := by
  show Utf16.encode (String.ofList (Utf16.decode t.units.toList)).toList = _
  rw [String.toList_ofList]

/-- What becomes of a script string that has been a host string: every unit stays in its place,
except that a unit without a partner is U+FFFD by then. -/
structure Mended (t t' : Text) : Prop where
  size : t'.size = t.size
  units (i : Nat) : t'.units[i]? = t.units[i]?.map fun u => if t.isLone i then 0xFFFD else u

theorem Mended.unique {t t' t'' : Text} (h : t.Mended t') (h' : t.Mended t'') : t' = t'' :=
  congrArg Text.mk (Array.ext_getElem? fun i => (h.units i).trans (h'.units i).symm)

theorem mended_ofString_toString (t : Text) : t.Mended (ofString t.toString) where
  size := by
    rw [size, size, ← Array.length_toList, toList_ofString_toString, Utf16.length_encode_decode,
      Array.length_toList]
  units i := by
    rw [← Array.getElem?_toList, toList_ofString_toString, Utf16.getElem?_encode_decode,
      Array.getElem?_toList]
    rfl

theorem ofString_toString_eq_iff (t : Text) :
    ofString t.toString = t ↔ ∀ i, t.isLone i = false := by
  have h := Utf16.encode_decode_eq_iff t.units.toList
  rw [← toList_ofString_toString, Array.toList_inj] at h
  exact ⟨fun ht => h.mp (congrArg units ht), fun ht => congrArg mk (h.mpr ht)⟩

end Text

end ScriptBoundary
