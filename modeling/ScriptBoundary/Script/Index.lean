import ScriptBoundary.Text.Units

/-!
# Array indices and their numerals

An array index is a number below `2 ^ 32 - 1`. A text spells one if it is the decimal numeral of
the number, as numbers are printed: digits without a leading zero. So an index and the text that
spells it determine each other (`Text.index?_numeral`, `Text.eq_numeral_of_index?`), which is what
lets property keys keep the two apart and still agree on which property is meant.
-/

namespace ScriptBoundary

/-- Array indices are below this number. -/
def indexBound : Nat := 4294967295

/-- A number that can stand for an element of an array. -/
abbrev ArrayIndex := Fin indexBound

/-- The array index that a number is, if it is small enough. -/
def ArrayIndex.ofNat? (n : Nat) : Option ArrayIndex :=
  if h : n < indexBound then some ⟨n, h⟩ else none

namespace Decimal

/-! ## Decimal digits as units -/

def isDigit (u : UInt16) : Bool := 48 ≤ u && u ≤ 57

/-- The unit of a digit. -/
def digit (d : Nat) : UInt16 := UInt16.ofNat (48 + d)

/-- The number that digits spell. -/
def spelled (us : List UInt16) : Nat := us.foldl (fun n u => n * 10 + (u.toNat - 48)) 0

/-- Whether units are a number as it is printed: zero, or digits of which the first is not zero. -/
def isNumeral (us : List UInt16) : Bool :=
  us == [48] || (!us.isEmpty && us.head? != some 48 && us.all isDigit)

/-- The units of a number as it is printed. -/
def numeral (n : Nat) : List UInt16 := (Nat.toDigits 10 n).map fun c => UInt16.ofNat c.toNat

section Digits

variable {n d : Nat} {us vs : List UInt16} {u : UInt16}

theorem head?_append (h : us ≠ []) (vs : List UInt16) : (us ++ vs).head? = us.head? := by
  cases us with
  | nil => exact absurd rfl h
  | cons u us => rfl

theorem toNat_digit (hd : d < 10) : (digit d).toNat = 48 + d :=
  UInt16.toNat_ofNat_of_lt' (Nat.lt_of_lt_of_le (Nat.add_lt_add_left hd 48) (by decide))

theorem isDigit_iff : isDigit u = true ↔ 48 ≤ u.toNat ∧ u.toNat ≤ 57 := by
  rw [isDigit, Bool.and_eq_true, decide_eq_true_iff, decide_eq_true_iff]
  exact Iff.rfl

theorem isDigit_digit (hd : d < 10) : isDigit (digit d) = true := by
  rw [isDigit_iff, toNat_digit hd]
  omega

/-- A digit is the unit of its value. -/
theorem digit_of_isDigit (h : isDigit u = true) : u.toNat - 48 < 10 ∧ digit (u.toNat - 48) = u := by
  obtain ⟨hlow, hhigh⟩ := isDigit_iff.mp h
  have hd : u.toNat - 48 < 10 := by omega
  refine ⟨hd, UInt16.toNat_inj.mp ?_⟩
  rw [toNat_digit hd]
  omega

theorem numeral_of_lt (hd : d < 10) : numeral d = [digit d] := by
  rw [numeral, Nat.toDigits_of_lt_base hd, List.map_singleton,
    Nat.toNat_digitChar_of_lt_ten hd, digit]

/-- A number with one more digit. -/
theorem numeral_append (hn : 0 < n) (hd : d < 10) :
    numeral (10 * n + d) = numeral n ++ [digit d] := by
  rw [← numeral_of_lt hd, numeral, numeral, numeral,
    ← Nat.toDigits_append_toDigits (by decide) hn hd, List.map_append]

theorem spelled_append (us : List UInt16) (u : UInt16) :
    spelled (us ++ [u]) = 10 * spelled us + (u.toNat - 48) := by
  rw [spelled, spelled, List.foldl_append, List.foldl_cons, List.foldl_nil, Nat.mul_comm]

theorem spelled_append_digit (us : List UInt16) (hd : d < 10) :
    spelled (us ++ [digit d]) = 10 * spelled us + d := by
  rw [spelled_append, toNat_digit hd, Nat.add_sub_cancel_left]

/-- Every number is zero, a single digit, or has one digit more than another one. -/
theorem induction_digits {P : Nat → Prop} (small : ∀ d < 10, P d)
    (more : ∀ n d, 0 < n → d < 10 → P n → P (10 * n + d)) (n : Nat) : P n := by
  induction n using Nat.strongRecOn with
  | ind n ih =>
    by_cases hsmall : n < 10
    · exact small n hsmall
    · have hcut := more (n / 10) (n % 10) (by omega) (Nat.mod_lt n (by decide)) (ih _ (by omega))
      rwa [Nat.div_add_mod] at hcut

theorem spelled_numeral (n : Nat) : spelled (numeral n) = n := by
  induction n using induction_digits with
  | small d hd =>
    rw [numeral_of_lt hd]
    exact (spelled_append_digit [] hd).trans (Nat.zero_add d)
  | more n d hn hd ih => rw [numeral_append hn hd, spelled_append_digit _ hd, ih]

/-- What is printed of a positive number. -/
theorem numeral_of_pos (hn : 0 < n) :
    numeral n ≠ [] ∧ (numeral n).head? ≠ some 48 ∧ ∀ u ∈ numeral n, isDigit u = true := by
  induction n using induction_digits with
  | small d hd =>
    rw [numeral_of_lt hd]
    refine ⟨List.cons_ne_nil _ _, fun h => ?_, fun u hu => ?_⟩
    · have hzero := congrArg UInt16.toNat (Option.some.inj h)
      rw [toNat_digit hd, show (48 : UInt16).toNat = 48 from rfl] at hzero
      omega
    · rw [List.mem_singleton.mp hu]
      exact isDigit_digit hd
  | more n d hpos hd ih =>
    obtain ⟨hne, hhead, hdigits⟩ := ih hpos
    rw [numeral_append hpos hd]
    refine ⟨List.append_ne_nil_of_left_ne_nil hne _, ?_, fun u hu => ?_⟩
    · rwa [head?_append hne]
    · rcases List.mem_append.mp hu with hu | hu
      · exact hdigits u hu
      · rw [List.mem_singleton.mp hu]
        exact isDigit_digit hd

theorem isNumeral_numeral (n : Nat) : isNumeral (numeral n) = true := by
  rcases Nat.eq_zero_or_pos n with rfl | hn
  · rfl
  · obtain ⟨hne, hhead, hdigits⟩ := numeral_of_pos hn
    rw [isNumeral, Bool.or_eq_true, Bool.and_eq_true, Bool.and_eq_true, Bool.not_eq_true',
      List.isEmpty_eq_false_iff, bne_iff_ne, List.all_eq_true]
    exact .inr ⟨⟨hne, hhead⟩, hdigits⟩

/-- **Digits without a leading zero** are what is printed of the number they spell. -/
theorem eq_numeral_of_digits (hne : us ≠ []) (hhead : us.head? ≠ some 48)
    (hdigits : ∀ u ∈ us, isDigit u = true) : us = numeral (spelled us) ∧ 0 < spelled us := by
  obtain ⟨vs, u, rfl⟩ : ∃ vs u, us = vs ++ [u] :=
    ⟨us.dropLast, us.getLast hne, (List.dropLast_concat_getLast hne).symm⟩
  induction hlen : vs.length generalizing vs u with
  | zero =>
    obtain rfl := List.eq_nil_of_length_eq_zero hlen
    obtain ⟨hd, hu⟩ := digit_of_isDigit (hdigits u List.mem_cons_self)
    have hspelled : spelled ([] ++ [u]) = u.toNat - 48 :=
      (spelled_append [] u).trans (Nat.zero_add _)
    rw [hspelled, numeral_of_lt hd, hu]
    refine ⟨rfl, Nat.pos_of_ne_zero fun hzero => hhead ?_⟩
    rw [hzero] at hu
    rw [← hu]
    rfl
  | succ k ih =>
    have hvs : vs ≠ [] := fun h => by simp [h] at hlen
    obtain ⟨ws, v, rfl⟩ : ∃ ws v, vs = ws ++ [v] :=
      ⟨vs.dropLast, vs.getLast hvs, (List.dropLast_concat_getLast hvs).symm⟩
    rw [head?_append hvs] at hhead
    obtain ⟨heq, hpos⟩ := ih ws v hvs hhead
      (fun w hw => hdigits w (List.mem_append_left _ hw)) (by simpa using hlen)
    obtain ⟨hd, hu⟩ := digit_of_isDigit (hdigits u (List.mem_append_right _ List.mem_cons_self))
    rw [spelled_append (ws ++ [v]) u]
    refine ⟨?_, by omega⟩
    rw [numeral_append hpos hd, ← heq, hu]

theorem eq_numeral_of_isNumeral (h : isNumeral us = true) : us = numeral (spelled us) := by
  rw [isNumeral, Bool.or_eq_true, Bool.and_eq_true, Bool.and_eq_true, Bool.not_eq_true',
    List.isEmpty_eq_false_iff, bne_iff_ne, List.all_eq_true, beq_iff_eq] at h
  rcases h with rfl | ⟨⟨hne, hhead⟩, hdigits⟩
  · rfl
  · exact (eq_numeral_of_digits hne hhead hdigits).1

end Digits

end Decimal

namespace Text

open Decimal

/-- The text of a number as it is printed. -/
def ofNat (n : Nat) : Text := Text.ofString (toString n)

/-- The array index a text spells. No index has more than ten digits. -/
def index? (t : Text) : Option ArrayIndex :=
  let us := t.units.toList
  if us.length ≤ 10 && isNumeral us then ArrayIndex.ofNat? (spelled us) else none

section Numerals

variable {t : Text} {n : Nat}

/-- A text of plain characters has a unit for each. -/
theorem encodeOnto_of_plain {cs : List Char} (h : ∀ c ∈ cs, c.toNat < 0x10000)
    (out : Array UInt16) : (Utf16.encodeOnto out cs).toList =
      out.toList ++ cs.map fun c => UInt16.ofNat c.toNat := by
  induction cs generalizing out with
  | nil => exact (List.append_nil _).symm
  | cons c cs ih =>
    have hc : Utf16.encodeChar c = [UInt16.ofNat c.toNat] := by
      rw [Utf16.encodeChar, if_pos (h c List.mem_cons_self)]
    have hrest := ih fun c' hc' => h c' (List.mem_cons_of_mem _ hc')
    refine (hrest (out ++ Utf16.encodeChar c)).trans ?_
    rw [hc, Array.toList_appendList, List.append_assoc]
    rfl

theorem units_ofNat (n : Nat) : (ofNat n).units.toList = numeral n := by
  have hplain : ∀ c ∈ (toString n).toList, c.toNat < 0x10000 := fun c hc => by
    have hdigit := Nat.isDigit_of_mem_toDigits (by decide) (by decide) (Nat.toList_repr ▸ hc)
    rw [Char.isDigit, Bool.and_eq_true, decide_eq_true_iff, decide_eq_true_iff] at hdigit
    exact Nat.lt_of_le_of_lt hdigit.2 (by decide)
  rw [ofNat, ofString]
  refine (encodeOnto_of_plain hplain #[]).trans ?_
  rw [numeral, ← Nat.toList_repr]
  rfl

theorem ofNat_injective {m : Nat} (h : ofNat n = ofNat m) : n = m := by
  rw [← spelled_numeral n, ← spelled_numeral m, ← units_ofNat, ← units_ofNat, h]

/-- The index that a printed number spells is the number, if it can be an index. -/
theorem index?_ofNat (n : Nat) : (ofNat n).index? = ArrayIndex.ofNat? n := by
  rw [index?, units_ofNat]
  rw [isNumeral_numeral, Bool.and_true, spelled_numeral]
  split
  · rfl
  · next hlong =>
    rw [ArrayIndex.ofNat?, dif_neg fun hn => hlong ?_]
    rw [decide_eq_true_iff, numeral, List.length_map,
      Nat.length_toDigits_le_iff (by decide) (by decide)]
    exact Nat.lt_trans hn (by decide)

theorem index?_ofNat_val (i : ArrayIndex) : (ofNat i).index? = some i := by
  rw [index?_ofNat, ArrayIndex.ofNat?, dif_pos i.isLt]

/-- A text that spells an index is the index as it is printed. -/
theorem eq_ofNat_of_index? {i : ArrayIndex} (h : t.index? = some i) : t = ofNat i := by
  rw [index?] at h
  split at h
  · next hnumeral =>
    have hunits := eq_numeral_of_isNumeral (Bool.and_eq_true_iff.mp hnumeral).2
    rw [ArrayIndex.ofNat?] at h
    split at h
    · obtain rfl := Option.some.inj h
      rw [← units_ofNat] at hunits
      exact congrArg Text.mk (Array.toList_inj.mp hunits)
    · cases h
  · cases h

end Numerals

end Text

end ScriptBoundary
