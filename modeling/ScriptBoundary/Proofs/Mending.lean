import ScriptBoundary.Proofs.Surrogates
import ScriptBoundary.Text.Utf8
import Mathlib.Data.Nat.Find
import Mathlib.Tactic.SplitIfs

/-!
# Mending bytes

Bytes that come from a host need not be a text. What becomes of them is said here without the
machine that reads them, in terms of what a character is written as: whole characters stay, and a
part that cannot be read is replaced. How long that part is, is the only delicate point. It is the
longest beginning of any character that stands there, or a single byte if no character begins
there: the *maximal part* of Unicode, so that a character that breaks off costs one U+FFFD, not one
for each byte, and a byte that does not belong to it is not swallowed.

`mends_iff` says that the machine does just this. It rests on one lemma about a single character,
`encodeChar_eq_cons_iff`: the machine gets through bytes to a character if and only if they are the
bytes of that character. From left to right it says that the bounds kept in a `Partial` let every
character through, from right to left that they let nothing else through, overlong forms, surrogates
and values above U+10FFFF included. With it, a place inside a character where the machine is stuck
is a place where no character goes on.

## Main results

* `encodeChar_eq_cons_iff`: the machine inside a character
* `run_encodeChar`, `run_maximalPart`: what one step of mending does to the machine
* `mends_iff`: every byte sequence is mended, in one way, and `decode` computes it
* `decode_encode`, `encode_decode_eq_iff`: what comes back as it was
-/

namespace ScriptBoundary.Utf8

/-! ### What it is to mend -/

/-- The bytes of characters. -/
def encode (cs : List Char) : List UInt8 := cs.flatMap String.utf8EncodeChar

/-- Whether bytes are a text. -/
def IsWellFormed (bytes : List UInt8) : Prop := ∃ cs, bytes = encode cs

/-- Whether bytes are a character or begin one. -/
def Begins (bytes : List UInt8) : Prop := ∃ c, bytes <+: String.utf8EncodeChar c

/-- Whether a part that cannot be read ends where it should, with `rest` after it. -/
structure IsMaximalPart (part rest : List UInt8) : Prop where
  nonempty : part ≠ []
  /-- No character stands there. -/
  illFormed : ∀ c, ¬String.utf8EncodeChar c <+: part ++ rest
  /-- The part begins a character, or is a byte by itself. -/
  begins : part.length = 1 ∨ Begins part
  /-- No longer one does. -/
  maximal : ∀ longer, longer <+: part ++ rest → Begins longer → longer.length ≤ part.length

/-- The characters of bytes, with U+FFFD for each part that cannot be read. -/
inductive Mends : List UInt8 → List Char → Prop where
  | nil : Mends [] []
  | char (c : Char) {rest : List UInt8} {cs : List Char} (h : Mends rest cs) :
      Mends (String.utf8EncodeChar c ++ rest) (c :: cs)
  | part {part rest : List UInt8} {cs : List Char} (hp : IsMaximalPart part rest)
      (h : Mends rest cs) : Mends (part ++ rest) (replacement :: cs)

/-! ### The machine inside a character -/

namespace Partial

/-- Whether a byte may come next. -/
def Fits (p : Partial) (b : UInt8) : Prop := p.least.toNat ≤ b.toNat ∧ b.toNat ≤ p.greatest.toNat

/-- The value once a byte has been read. -/
def grown (p : Partial) (b : UInt8) : Nat := p.value * 64 + (b.toNat - 0x80)

/-- The bytes that finish a character, and the character. -/
inductive Finishes : Partial → List UInt8 → Char → Prop where
  | last {p : Partial} {b : UInt8} {v : Nat} (hm : p.more = 0) (hb : p.Fits b)
      (hv : p.grown b = v) : Finishes p [b] (Char.ofNat v)
  | next {p : Partial} {b : UInt8} {more v : Nat} {bs : List UInt8} {c : Char}
      (hm : p.more = more + 1) (hb : p.Fits b) (hv : p.grown b = v)
      (h : Finishes ⟨more, 0x80, 0xBF, v⟩ bs c) : Finishes p (b :: bs) c

/-- The bytes between two places inside a character. -/
inductive Leads : Partial → List UInt8 → Partial → Prop where
  | refl (p : Partial) : Leads p [] p
  | next {p q : Partial} {b : UInt8} {more v : Nat} {bs : List UInt8} (hm : p.more = more + 1)
      (hb : p.Fits b) (hv : p.grown b = v) (h : Leads ⟨more, 0x80, 0xBF, v⟩ bs q) :
      Leads p (b :: bs) q

theorem Finishes.of_zero {least greatest : UInt8} {u : Nat} {bs : List UInt8} {c : Char}
    (h : Finishes ⟨0, least, greatest, u⟩ bs c) : ∃ b, bs = [b] ∧
      (least.toNat ≤ b.toNat ∧ b.toNat ≤ greatest.toNat) ∧
      c = Char.ofNat (u * 64 + (b.toNat - 0x80)) := by
  cases h with
  | last _ hb hv => exact ⟨_, rfl, hb, hv ▸ rfl⟩
  | next hm => cases hm

theorem Finishes.of_succ {more : Nat} {least greatest : UInt8} {u : Nat} {bs : List UInt8}
    {c : Char} (h : Finishes ⟨more + 1, least, greatest, u⟩ bs c) : ∃ b tail, bs = b :: tail ∧
      (least.toNat ≤ b.toNat ∧ b.toNat ≤ greatest.toNat) ∧
      Finishes ⟨more, 0x80, 0xBF, u * 64 + (b.toNat - 0x80)⟩ tail c := by
  cases h with
  | last hm => cases hm
  | next hm hb hv h =>
    cases hm
    cases hv
    exact ⟨_, _, rfl, hb, h⟩

theorem fits_iff {more v : Nat} {b least greatest : UInt8} :
    Fits ⟨more, least, greatest, v⟩ b ↔ least.toNat ≤ b.toNat ∧ b.toNat ≤ greatest.toNat := Iff.rfl

theorem grown_mk {more v : Nat} {b least greatest : UInt8} :
    grown ⟨more, least, greatest, v⟩ b = v * 64 + (b.toNat - 0x80) := rfl

theorem fits_continuation {more v : Nat} {b : UInt8} :
    Fits ⟨more, 0x80, 0xBF, v⟩ b ↔ 0x80 ≤ b.toNat ∧ b.toNat ≤ 0xBF := Iff.rfl

end Partial

/-- The three lengths of a character of several bytes, with what its first byte says. The bounds of
the second byte are narrower where the first byte alone would leave room for an overlong form, a
surrogate or a value that is too great. -/
inductive Opening (b : UInt8) : Partial → Prop where
  | two {v : Nat} (hb : b.toNat = v + 0xC0) (hv : 2 ≤ v ∧ v < 32) : Opening b ⟨0, 0x80, 0xBF, v⟩
  | three {v : Nat} (hb : b.toNat = v + 0xE0) (hv : v < 16) : Opening b
      ⟨1, if v = 0 then 0xA0 else 0x80, if v = 0xD then 0x9F else 0xBF, v⟩
  | four {v : Nat} (hb : b.toNat = v + 0xF0) (hv : v ≤ 4) : Opening b
      ⟨2, if v = 0 then 0x90 else 0x80, if v = 4 then 0x8F else 0xBF, v⟩

theorem lead_eq_opens_iff {b : UInt8} {p : Partial} : lead b = .opens p ↔ Opening b p := by
  rw [lead]
  constructor
  · intro h
    split_ifs at h with hascii hlow htwo hE0 hED hthree hF0 hF4 hfour <;> cases h
    · exact .two (by omega) (by omega)
    · exact .three (v := 0) (by simpa using hE0) (by decide)
    · exact .three (v := 0xD) (by simpa using hED) (by decide)
    · simp only [beq_iff_eq] at hE0 hED
      have hopening := Opening.three (b := b) (v := b.toNat - 0xE0) (by omega) (by omega)
      rwa [if_neg (by omega), if_neg (by omega)] at hopening
    · exact .four (v := 0) (by simpa using hF0) (by decide)
    · exact .four (v := 4) (by simpa using hF4) (by decide)
    · simp only [beq_iff_eq] at hF0 hF4
      have hopening := Opening.four (b := b) (v := b.toNat - 0xF0) (by omega) (by omega)
      rwa [if_neg (by omega), if_neg (by omega)] at hopening
  · intro h
    cases h with
    | @two v hb hv =>
      simp only [hb]
      rw [if_neg (by omega), if_neg (by omega), if_pos (by omega)]
      simp
    | @three v hb hv =>
      by_cases h0 : v = 0
      · subst h0; simp [hb]
      · by_cases hD : v = 0xD
        · subst hD; simp [hb]
        · simp [hb]; grind
    | @four v hb hv =>
      by_cases h0 : v = 0
      · subst h0; simp [hb]
      · by_cases h4 : v = 4
        · subst h4; simp [hb]
        · simp [hb]; grind

theorem lead_eq_whole_iff {b : UInt8} {c : Char} :
    lead b = .whole c ↔ b.toNat < 0x80 ∧ c = Char.ofNat b.toNat := by
  unfold lead
  generalize b.toNat = n
  grind

/-- Whether the machine reads a character from its first byte and the others. -/
def Reads (b : UInt8) (tail : List UInt8) (c : Char) : Prop :=
  (lead b = .whole c ∧ tail = []) ∨ ∃ p, lead b = .opens p ∧ p.Finishes tail c

/-! ### The bytes of a character -/

/-- The bytes that a value is written as, one case for each length. -/
inductive Spells : List UInt8 → Nat → Prop where
  | one {b : UInt8} {v : Nat} (hv : v < 0x80) (hb : b.toNat = v) : Spells [b] v
  | two {b x : UInt8} {v : Nat} (hv : 0x80 ≤ v ∧ v < 0x800) (hb : b.toNat = v / 64 + 0xC0)
      (hx : x.toNat = v % 64 + 0x80) : Spells [b, x] v
  | three {b x y : UInt8} {v : Nat} (hv : 0x800 ≤ v ∧ v < 0x10000)
      (hb : b.toNat = v / 4096 + 0xE0) (hx : x.toNat = v / 64 % 64 + 0x80)
      (hy : y.toNat = v % 64 + 0x80) : Spells [b, x, y] v
  | four {b x y z : UInt8} {v : Nat} (hv : 0x10000 ≤ v ∧ v < 0x110000)
      (hb : b.toNat = v / 262144 + 0xF0) (hx : x.toNat = v / 4096 % 64 + 0x80)
      (hy : y.toNat = v / 64 % 64 + 0x80) (hz : z.toNat = v % 64 + 0x80) : Spells [b, x, y, z] v

theorem spells_encodeChar (c : Char) : Spells (String.utf8EncodeChar c) c.toNat := by
  have hc : c.toNat.isValidChar := c.valid
  unfold Nat.isValidChar at hc
  have byte {n k : Nat} (hn : n < 256 ∧ n = k) : (UInt8.ofNat n).toNat = k :=
    (UInt8.toNat_ofNat_of_lt' hn.1).trans hn.2
  unfold String.utf8EncodeChar
  have hval : c.val.toNat = c.toNat := rfl
  simp only [hval]
  generalize c.toNat = v at *
  split_ifs
  · exact .one (by omega) (byte (by omega))
  · exact .two (by omega) (byte (by omega)) (byte (by omega))
  · exact .three (by omega) (byte (by omega)) (byte (by omega))
      (byte (by omega))
  · exact .four (by omega) (byte (by omega)) (byte (by omega))
      (byte (by omega)) (byte (by omega))

theorem Spells.unique {bs bs' : List UInt8} {v : Nat} (h : Spells bs v) (h' : Spells bs' v) :
    bs = bs' := by
  cases h <;> cases h' <;> first
    | (exfalso; omega)
    | (simp only [List.cons.injEq, ← UInt8.toNat_inj, and_true]; omega)

/-- The bounds let every character through. -/
theorem reads_encodeChar {c : Char} {b : UInt8} {tail : List UInt8}
    (h : String.utf8EncodeChar c = b :: tail) : Reads b tail c := by
  have hspell := spells_encodeChar c
  have hc : Char.ofNat c.toNat = c := Char.ofNat_toNat c
  have hvalid : c.toNat.isValidChar := c.valid
  unfold Nat.isValidChar at hvalid
  rw [h] at hspell
  rw [← hc]
  generalize c.toNat = v at *
  cases hspell with
  | one hv hb => exact .inl ⟨lead_eq_whole_iff.mpr ⟨by omega, by rw [hb]⟩, rfl⟩
  | two hv hb hx =>
    refine .inr ⟨_, lead_eq_opens_iff.mpr (.two hb (by omega)), .last rfl ?_ ?_⟩
    · exact Partial.fits_continuation.mpr (by omega)
    · rw [Partial.grown_mk]; omega
  | three hv hb hx hy =>
    refine .inr ⟨_, lead_eq_opens_iff.mpr (.three hb (by omega)), .next (v := v / 64) rfl ?_ ?_
      (.last rfl ?_ ?_)⟩
    · rw [Partial.fits_iff]
      split_ifs <;> simp only [UInt8.reduceToNat] <;> omega
    · rw [Partial.grown_mk]; omega
    · exact Partial.fits_continuation.mpr (by omega)
    · rw [Partial.grown_mk]; omega
  | four hv hb hx hy hz =>
    refine .inr ⟨_, lead_eq_opens_iff.mpr (.four hb (by omega)),
      .next (v := v / 4096) rfl ?_ ?_ (.next (v := v / 64) rfl ?_ ?_ (.last rfl ?_ ?_))⟩
    · rw [Partial.fits_iff]
      split_ifs <;> simp only [UInt8.reduceToNat] <;> omega
    · rw [Partial.grown_mk]; omega
    · exact Partial.fits_continuation.mpr (by omega)
    · rw [Partial.grown_mk]; omega
    · exact Partial.fits_continuation.mpr (by omega)
    · rw [Partial.grown_mk]; omega

theorem encodeChar_of_spells {bs : List UInt8} {v : Nat} (h : Spells bs v) (hv : v.isValidChar) :
    String.utf8EncodeChar (Char.ofNat v) = bs := by
  have hspell := spells_encodeChar (Char.ofNat v)
  rw [toNat_char hv] at hspell
  exact hspell.unique h

/-- They let nothing else through. -/
theorem Reads.encodeChar {c : Char} {b : UInt8} {tail : List UInt8} (h : Reads b tail c) :
    String.utf8EncodeChar c = b :: tail := by
  obtain ⟨hlead, rfl⟩ | ⟨p, hlead, hfinish⟩ := h
  · obtain ⟨hlt, rfl⟩ := lead_eq_whole_iff.mp hlead
    exact encodeChar_of_spells (.one hlt rfl) (.inl (by omega))
  · cases lead_eq_opens_iff.mp hlead with
    | two hb hv =>
      obtain ⟨x, rfl, hx, hc⟩ := hfinish.of_zero
      rw [hc]
      simp only [UInt8.reduceToNat] at hx
      exact encodeChar_of_spells (.two (by omega) (by omega) (by omega)) (.inl (by omega))
    | @three u hb hu =>
      obtain ⟨x, _, rfl, hx, hfinish⟩ := hfinish.of_succ
      obtain ⟨y, rfl, hy, hc⟩ := hfinish.of_zero
      rw [hc]
      simp only [UInt8.reduceToNat] at hy
      have hx' : 0x80 ≤ x.toNat ∧ x.toNat ≤ 0xBF ∧ (u = 0 → 0xA0 ≤ x.toNat) ∧
          (u = 0xD → x.toNat ≤ 0x9F) := by
        split_ifs at hx <;> simp only [UInt8.reduceToNat] at hx <;> omega
      exact encodeChar_of_spells (.three (by omega) (by omega) (by omega) (by omega))
        (by unfold Nat.isValidChar; omega)
    | @four u hb hu =>
      obtain ⟨x, _, rfl, hx, hfinish⟩ := hfinish.of_succ
      obtain ⟨y, _, rfl, hy, hfinish⟩ := hfinish.of_succ
      obtain ⟨z, rfl, hz, hc⟩ := hfinish.of_zero
      rw [hc]
      simp only [UInt8.reduceToNat] at hy hz
      have hx' : 0x80 ≤ x.toNat ∧ x.toNat ≤ 0xBF ∧ (u = 0 → 0x90 ≤ x.toNat) ∧
          (u = 4 → x.toNat ≤ 0x8F) := by
        split_ifs at hx <;> simp only [UInt8.reduceToNat] at hx <;> omega
      exact encodeChar_of_spells (.four (by omega) (by omega) (by omega) (by omega) (by omega))
        (by unfold Nat.isValidChar; omega)

/-- **The machine inside a character** follows the bytes of a character, and no others. -/
theorem encodeChar_eq_cons_iff {c : Char} {b : UInt8} {tail : List UInt8} :
    String.utf8EncodeChar c = b :: tail ↔ Reads b tail c :=
  ⟨reads_encodeChar, Reads.encodeChar⟩

/-! ### The reader over one character -/

theorem run_fits {p : Partial} {b : UInt8} (hb : p.Fits b) (out : Array Char)
    (rest : List UInt8) : run out (some p) (b :: rest) = match p.more with
      | 0 => run (out.push (Char.ofNat (p.grown b))) none rest
      | more + 1 => run out (some ⟨more, 0x80, 0xBF, p.grown b⟩) rest := by
  have hfits : (p.least ≤ b && b ≤ p.greatest) = true := by
    simpa [UInt8.le_iff_toNat_le, Partial.Fits] using hb
  rw [run, step, if_pos hfits]
  cases p.more <;> rfl

theorem run_not_fits {p : Partial} {b : UInt8} (hb : ¬p.Fits b) (out : Array Char)
    (rest : List UInt8) :
    run out (some p) (b :: rest) = run (out.push replacement) none (b :: rest) := by
  have hfits : ¬(p.least ≤ b && b ≤ p.greatest) = true := by
    simpa [UInt8.le_iff_toNat_le, Partial.Fits] using hb
  rw [run, step, if_neg hfits]
  rfl

theorem Partial.Finishes.run {p : Partial} {tail : List UInt8} {c : Char} (h : p.Finishes tail c)
    (out : Array Char) (rest : List UInt8) :
    Utf8.run out (some p) (tail ++ rest) = Utf8.run (out.push c) none rest := by
  induction h with
  | last hm hb hv => rw [List.singleton_append, run_fits hb, hm, hv]
  | next hm hb hv _ ih => rw [List.cons_append, run_fits hb, hm, hv]; exact ih

theorem Partial.Leads.run {p q : Partial} {bs : List UInt8} (h : p.Leads bs q) (out : Array Char)
    (rest : List UInt8) : Utf8.run out (some p) (bs ++ rest) = Utf8.run out (some q) rest := by
  induction h with
  | refl => rfl
  | next hm hb hv _ ih => rw [List.cons_append, run_fits hb, hm, hv]; exact ih

theorem run_opens {b : UInt8} {p : Partial} (h : lead b = .opens p) (out : Array Char)
    (rest : List UInt8) : run out none (b :: rest) = run out (some p) rest := by
  rw [run, step, begin, h]

/-- A character that stands there is read. -/
theorem run_encodeChar (c : Char) (out : Array Char) (rest : List UInt8) :
    run out none (String.utf8EncodeChar c ++ rest) = run (out.push c) none rest := by
  obtain ⟨b, tail, hbytes⟩ := List.exists_cons_of_ne_nil (String.utf8EncodeChar_ne_nil (c := c))
  rw [hbytes, List.cons_append]
  obtain ⟨hlead, rfl⟩ | ⟨p, hlead, hfinish⟩ := encodeChar_eq_cons_iff.mp hbytes
  · rw [run, step, begin, hlead]
    rfl
  · rw [run_opens hlead, hfinish.run]

/-! ### The reader over a maximal part -/

theorem Partial.Finishes.leads {p : Partial} {bs tail : List UInt8} {x : UInt8} {c : Char}
    (h : p.Finishes (bs ++ x :: tail) c) : ∃ q, p.Leads bs q := by
  induction bs generalizing p with
  | nil => exact ⟨p, .refl p⟩
  | cons b bs ih =>
    rw [List.cons_append] at h
    generalize hrest : bs ++ x :: tail = rest at h
    cases h with
    | last => simp at hrest
    | next hm hb hv h =>
      obtain ⟨q, hq⟩ := ih (hrest ▸ h)
      exact ⟨q, .next hm hb hv hq⟩

/-- Every place inside a character can be left by its end, through any byte that fits. -/
theorem Partial.exists_finishes (p : Partial) (x : UInt8) (hx : p.Fits x) :
    ∃ tail c, p.Finishes (x :: tail) c := by
  obtain ⟨more, least, greatest, value⟩ := p
  induction more generalizing least greatest value x with
  | zero => exact ⟨[], _, .last rfl hx rfl⟩
  | succ more ih =>
    obtain ⟨tail, c, hfinish⟩ := ih 0x80 0x80 0xBF _ (fits_continuation.mpr (by decide))
    exact ⟨0x80 :: tail, c, .next rfl hx rfl hfinish⟩

theorem Partial.Leads.exists_finishes {p q : Partial} {bs : List UInt8} {x : UInt8}
    (h : p.Leads bs q) (hx : q.Fits x) : ∃ tail c, p.Finishes (bs ++ x :: tail) c := by
  induction h with
  | refl p => exact p.exists_finishes x hx
  | next hm hb hv _ ih =>
    obtain ⟨tail, c, hfinish⟩ := ih hx
    exact ⟨tail, c, .next hm hb hv hfinish⟩

theorem Opening.fits_least {b : UInt8} {p : Partial} (h : Opening b p) : p.Fits p.least := by
  refine ⟨le_rfl, ?_⟩
  cases h with
  | two => exact (by decide : (0x80 : UInt8).toNat ≤ (0xBF : UInt8).toNat)
  | three =>
    dsimp only
    split_ifs <;> simp only [UInt8.reduceToNat] <;> omega
  | four =>
    dsimp only
    split_ifs <;> simp only [UInt8.reduceToNat] <;> omega

theorem begins_singleton {b : UInt8} (h : lead b ≠ .invalid) : Begins [b] := by
  cases hlead : lead b with
  | whole c => exact ⟨c, encodeChar_eq_cons_iff.mpr (.inl ⟨hlead, rfl⟩) ▸ List.prefix_refl _⟩
  | opens p =>
    obtain ⟨tail, c, hfinish⟩ := p.exists_finishes _ (lead_eq_opens_iff.mp hlead).fits_least
    exact ⟨c, _, (encodeChar_eq_cons_iff.mpr (.inr ⟨p, hlead, hfinish⟩)).symm⟩
  | invalid => exact absurd hlead h

/-- A part that cannot be read is replaced as a whole, and what follows it is read as if it stood
there alone. -/
theorem run_maximalPart {part rest : List UInt8} (h : IsMaximalPart part rest)
    (out : Array Char) :
    run out none (part ++ rest) = run (out.push replacement) none rest := by
  obtain ⟨b, bs, rfl⟩ := List.exists_cons_of_ne_nil h.nonempty
  have hbegins (hlead : lead b ≠ .invalid) : Begins (b :: bs) := by
    refine h.begins.elim (fun hlength => ?_) id
    obtain rfl : bs = [] := by simpa using hlength
    exact begins_singleton hlead
  cases hlead : lead b with
  | whole c =>
    have hc := encodeChar_eq_cons_iff.mpr (.inl ⟨hlead, rfl⟩ : Reads b [] c)
    exact absurd ⟨bs ++ rest, by rw [hc]; rfl⟩ (h.illFormed c)
  | invalid =>
    obtain hlength | ⟨c, more, hmore⟩ := h.begins
    · obtain rfl : bs = [] := by simpa using hlength
      rw [List.singleton_append, run, step, begin, hlead]
    · obtain ⟨hlead', -⟩ | ⟨p, hlead', -⟩ := encodeChar_eq_cons_iff.mp hmore.symm <;>
        cases hlead.symm.trans hlead'
  | opens p =>
    obtain ⟨c, more, hmore⟩ := hbegins (by rw [hlead]; exact Lead.noConfusion)
    obtain _ | ⟨x, tail⟩ := more
    · exact absurd ⟨rest, by rw [← hmore, List.append_nil]⟩ (h.illFormed c)
    obtain ⟨hlead', -⟩ | ⟨p', hlead', hfinish⟩ := encodeChar_eq_cons_iff.mp hmore.symm <;>
      cases hlead.symm.trans hlead'
    obtain ⟨q, hq⟩ := hfinish.leads
    rw [List.cons_append, run_opens hlead, hq.run]
    obtain _ | ⟨y, rest⟩ := rest
    · rfl
    · refine run_not_fits (fun hy => ?_) out rest
      -- A byte that fits would make a longer beginning.
      obtain ⟨tail', c', hfinish'⟩ := hq.exists_finishes hy
      have hc' := encodeChar_eq_cons_iff.mpr (.inr ⟨p, hlead, hfinish'⟩)
      have hlonger := h.maximal (b :: bs ++ [y]) ⟨rest, by simp⟩ ⟨c', tail', by simp [hc']⟩
      rw [List.length_append, List.length_singleton] at hlonger
      omega

/-- Where no character stands, a part can be replaced. -/
theorem exists_maximalPart {bs : List UInt8} (hbs : bs ≠ [])
    (h : ∀ c, ¬String.utf8EncodeChar c <+: bs) :
    ∃ part rest, bs = part ++ rest ∧ IsMaximalPart part rest := by
  classical
  have hlength : 0 < bs.length := List.length_pos_iff.mpr hbs
  let m := Nat.findGreatest (fun k => Begins (bs.take k)) bs.length
  have hm : m ≤ bs.length := Nat.findGreatest_le _
  have hbegins : Begins (bs.take m) :=
    Nat.findGreatest_spec (P := fun k => Begins (bs.take k)) (Nat.zero_le bs.length)
      ⟨'a', by simp⟩
  refine ⟨bs.take (max m 1), bs.drop (max m 1), (List.take_append_drop _ _).symm, ?_⟩
  have htake : (bs.take (max m 1)).length = max m 1 := by
    rw [List.length_take]
    omega
  constructor
  · exact List.ne_nil_of_length_pos (by omega)
  · rwa [List.take_append_drop]
  · rw [htake]
    rcases Nat.eq_zero_or_pos m with hzero | hpos
    · exact .inl (by omega)
    · exact .inr ((Nat.max_eq_left hpos).symm ▸ hbegins)
  · intro longer hlonger hb
    rw [List.take_append_drop] at hlonger
    rw [htake]
    rw [List.prefix_iff_eq_take.mp hlonger] at hb
    exact Nat.le_trans (Nat.le_findGreatest hlonger.length_le hb) (Nat.le_max_left _ _)

theorem Mends.run {bs : List UInt8} {cs : List Char} (h : Mends bs cs) (out : Array Char) :
    Utf8.run out none bs = out ++ cs.toArray := by
  induction h generalizing out with
  | nil => simp [Utf8.run, finish]
  | char c _ ih => rw [run_encodeChar, ih]; simp
  | part hp _ ih => rw [run_maximalPart hp, ih]; simp

theorem exists_mends (bs : List UInt8) : ∃ cs, Mends bs cs := by
  induction hn : bs.length using Nat.strong_induction_on generalizing bs with
  | _ n ih =>
    rcases eq_or_ne bs [] with rfl | hbs
    · exact ⟨[], .nil⟩
    by_cases hchar : ∃ c, String.utf8EncodeChar c <+: bs
    · obtain ⟨c, rest, rfl⟩ := hchar
      obtain ⟨cs, hcs⟩ := ih rest.length (by
        have := List.length_pos_iff.mpr (String.utf8EncodeChar_ne_nil (c := c))
        rw [← hn, List.length_append]
        omega) rest rfl
      exact ⟨c :: cs, .char c hcs⟩
    · obtain ⟨part, rest, rfl, hpart⟩ := exists_maximalPart hbs (not_exists.mp hchar)
      obtain ⟨cs, hcs⟩ := ih rest.length (by
        have := List.length_pos_iff.mpr hpart.nonempty
        rw [← hn, List.length_append]
        omega) rest rfl
      exact ⟨replacement :: cs, .part hpart hcs⟩

/-- **Bytes are mended in one way**, the way that the machine takes. -/
theorem mends_iff {bs : List UInt8} {cs : List Char} : Mends bs cs ↔ decode bs = cs := by
  have hrun {cs} (h : Mends bs cs) : decode bs = cs := by simp [decode, h.run]
  refine ⟨hrun, fun h => ?_⟩
  obtain ⟨cs', hmends⟩ := exists_mends bs
  rwa [← h, hrun hmends]

/-! ### Texts -/

theorem mends_encode (cs : List Char) : Mends (encode cs) cs := by
  induction cs with
  | nil => exact .nil
  | cons c cs ih => exact .char c ih

/-- Characters are read back from their bytes. -/
theorem decode_encode (cs : List Char) : decode (encode cs) = cs := mends_iff.mp (mends_encode cs)

/-- Only a text comes back as it was. -/
theorem encode_decode_eq_iff (bytes : List UInt8) :
    encode (decode bytes) = bytes ↔ IsWellFormed bytes := by
  refine ⟨fun h => ⟨_, h.symm⟩, ?_⟩
  rintro ⟨cs, rfl⟩
  rw [decode_encode]

/-- The bytes of a host string. -/
def bytesOf (s : String) : List UInt8 := s.toByteArray.data.toList

theorem bytesOf_eq (s : String) : bytesOf s = encode s.toList := by
  have h : s.toByteArray = s.toList.utf8Encode := by
    rw [← String.toByteArray_ofList, String.ofList_toList]
  rw [bytesOf, h, List.utf8Encode, List.data_toByteArray]
  rfl

theorem length_bytesOf (s : String) : (bytesOf s).length = s.utf8ByteSize := rfl

theorem decodeString_bytesOf (s : String) : decodeString (bytesOf s) = s := by
  rw [decodeString, bytesOf_eq, decode_encode, String.ofList_toList]

theorem bytesOf_decodeString (bytes : List UInt8) :
    bytesOf (decodeString bytes) = encode (decode bytes) := by
  rw [bytesOf_eq, decodeString, String.toList_ofList]

end ScriptBoundary.Utf8
