import Mathlib.Data.List.Basic
import Mathlib.Data.List.TakeWhile
import Mathlib.Algebra.Order.Group.Nat
import Mathlib.Tactic.Common

/-!
# UTF-16 and UTF-8

`utf16` and `utf8` encode a list of characters (Unicode scalar values).

* `wellFormed_iff`: the code unit sequences without an unpaired surrogate are
  the encodings of lists of characters;
* `codePoints_utf16`: `codePoints` decodes code units, a surrogate that is not
  paired standing for itself;
* `decode_utf8`: `decode` decodes bytes, U+FFFD standing for a sequence that is no
  character's;
* `takeWhile_utf8`, `takeWhile_utf16`: the bytes, or code units, of an encoding
  up to its first zero encode the characters up to the first U+0000;
* `length_utf8Points_le`: a code unit takes at most three bytes;
* `map_utf8_eq_utf16_iff`: the bytes of a text are its code units exactly if it is
  ASCII.
-/

namespace NativeObjects.Lib.Utf

/-- The UTF-16 code units of a character. -/
def utf16Char (c : Char) : List UInt16 :=
  if c.toNat < 0x10000 then [UInt16.ofNat c.toNat]
  else [UInt16.ofNat (0xD800 + (c.toNat - 0x10000) / 0x400),
    UInt16.ofNat (0xDC00 + (c.toNat - 0x10000) % 0x400)]

def utf16 (cs : List Char) : List UInt16 := cs.flatMap utf16Char

def utf8 (cs : List Char) : List UInt8 := cs.flatMap String.utf8EncodeChar

/-- A high surrogate, which starts a pair. -/
abbrev IsHigh (u : UInt16) : Prop := 0xD800 ≤ u.toNat ∧ u.toNat < 0xDC00

/-- A low surrogate, which ends one. -/
abbrev IsLow (u : UInt16) : Prop := 0xDC00 ≤ u.toNat ∧ u.toNat < 0xE000

/-- No surrogate is unpaired. -/
def WellFormed : List UInt16 → Prop
  | [] => True
  | [u] => ¬ IsHigh u ∧ ¬ IsLow u
  | u :: v :: us =>
    (IsHigh u ∧ IsLow v ∧ WellFormed us) ∨ (¬ IsHigh u ∧ ¬ IsLow u ∧ WellFormed (v :: us))

/-- The code point of a surrogate pair. -/
def pair (u v : UInt16) : Nat := 0x10000 + (u.toNat - 0xD800) * 0x400 + (v.toNat - 0xDC00)

/-- The code points of code units. -/
def codePoints : List UInt16 → List Nat
  | [] => []
  | [u] => [u.toNat]
  | u :: v :: us =>
    if IsHigh u ∧ IsLow v then pair u v :: codePoints us else u.toNat :: codePoints (v :: us)

/-- The UTF-8 bytes of a code point, a surrogate included. -/
def utf8Point (n : Nat) : List UInt8 :=
  if n ≤ 0x7f then [UInt8.ofNat n]
  else if n ≤ 0x7ff then [UInt8.ofNat (n / 64 % 0x20 + 0xc0), UInt8.ofNat (n % 0x40 + 0x80)]
  else if n ≤ 0xffff then
    [UInt8.ofNat (n / 4096 % 0x10 + 0xe0), UInt8.ofNat (n / 64 % 0x40 + 0x80), UInt8.ofNat (n % 0x40 + 0x80)]
  else
    [UInt8.ofNat (n / 262144 % 0x08 + 0xf0), UInt8.ofNat (n / 4096 % 0x40 + 0x80),
      UInt8.ofNat (n / 64 % 0x40 + 0x80), UInt8.ofNat (n % 0x40 + 0x80)]

def utf8Points (ns : List Nat) : List UInt8 := ns.flatMap utf8Point

/-- A byte that goes on with a sequence. -/
abbrev IsContinuation (b : UInt8) : Prop := 0x80 ≤ b.toNat ∧ b.toNat < 0xC0

/-- The bytes of a sequence that starts with the byte, one if none does. -/
def sequenceLength (b : UInt8) : Nat :=
  if b.toNat < 0xC2 then 1
  else if b.toNat < 0xE0 then 2
  else if b.toNat < 0xF0 then 3
  else if b.toNat < 0xF5 then 4
  else 1

/-- The bits of a character in the first byte of its sequence. -/
def leadBits (b : UInt8) : Nat :=
  match sequenceLength b with
  | 2 => b.toNat % 0x20
  | 3 => b.toNat % 0x10
  | 4 => b.toNat % 0x08
  | _ => b.toNat

/-- The character of a sequence, U+FFFD if the sequence is none's. -/
def decodeChar (b : UInt8) (tail : List UInt8) : Char :=
  let c := Char.ofNat (tail.foldl (fun n b => n * 64 + b.toNat % 64) (leadBits b))
  if String.utf8EncodeChar c = b :: tail then c else Char.ofNat 0xFFFD

/-- At most `fuel` characters of the bytes. -/
def decodeChars : Nat → List UInt8 → List Char
  | 0, _ | _ + 1, [] => []
  | fuel + 1, b :: bs =>
    let tail := (bs.take (sequenceLength b - 1)).takeWhile fun b => IsContinuation b
    decodeChar b tail :: decodeChars fuel (bs.drop tail.length)

/-- The characters of bytes. -/
def decode (bs : List UInt8) : List Char := decodeChars bs.length bs

/-! ## Characters and their code units -/

theorem char_toNat (c : Char) : c.toNat < 0xD800 ∨ (0xDFFF < c.toNat ∧ c.toNat < 0x110000) := c.valid

theorem utf16_cons (c : Char) (cs : List Char) : utf16 (c :: cs) = utf16Char c ++ utf16 cs := rfl

theorem utf8_cons (c : Char) (cs : List Char) : utf8 (c :: cs) = String.utf8EncodeChar c ++ utf8 cs := rfl

theorem toNat_ofNat {n : Nat} (h : n < 0x10000) : (UInt16.ofNat n).toNat = n := by
  simp only [UInt16.toNat_ofNat']
  exact Nat.mod_eq_of_lt h

/-- A character outside the surrogates is one code unit, of the same value. -/
theorem utf16Char_of_lt {c : Char} (h : c.toNat < 0x10000) :
    ∃ u, utf16Char c = [u] ∧ u.toNat = c.toNat ∧ ¬ IsHigh u ∧ ¬ IsLow u := by
  have hc := char_toNat c
  have hu := toNat_ofNat h
  refine ⟨_, if_pos h, hu, ?_, ?_⟩ <;> simp only [IsHigh, IsLow, hu] <;> omega

/-- A pair's code point, and the surrogates computed from it. -/
theorem pair_spec {u v : UInt16} (hh : IsHigh u) (hl : IsLow v) :
    0x10000 ≤ pair u v ∧ pair u v < 0x110000 ∧ 0xD800 + (pair u v - 0x10000) / 0x400 = u.toNat ∧
      0xDC00 + (pair u v - 0x10000) % 0x400 = v.toNat := by
  obtain ⟨h₁, h₂⟩ := hh
  obtain ⟨h₃, h₄⟩ := hl
  unfold pair
  omega

/-- Any other character is a surrogate pair. -/
theorem utf16Char_of_ge {c : Char} (h : ¬ c.toNat < 0x10000) :
    ∃ u v, utf16Char c = [u, v] ∧ IsHigh u ∧ IsLow v ∧ pair u v = c.toNat := by
  have hc := char_toNat c
  have hu := toNat_ofNat (show 0xD800 + (c.toNat - 0x10000) / 0x400 < 0x10000 by omega)
  have hv := toNat_ofNat (show 0xDC00 + (c.toNat - 0x10000) % 0x400 < 0x10000 by omega)
  refine ⟨_, _, if_neg h, ⟨?_, ?_⟩, ⟨?_, ?_⟩, ?_⟩
  · omega
  · omega
  · omega
  · omega
  · unfold pair
    omega

/-- Every code unit that is no surrogate is a character's. -/
theorem exists_char_of_unit {u : UInt16} (hh : ¬ IsHigh u) (hl : ¬ IsLow u) : ∃ c, utf16Char c = [u] := by
  have hu := u.toNat_lt
  have hv : u.toNat.isValidChar := by
    simp only [IsHigh, IsLow] at hh hl
    simp only [Nat.isValidChar]
    omega
  have hc : (Char.ofNat u.toNat).toNat = u.toNat := by
    rw [Char.ofNat, dif_pos hv]
    rfl
  refine ⟨Char.ofNat u.toNat, ?_⟩
  simp only [utf16Char, hc, show u.toNat < 0x10000 from hu, if_true, UInt16.ofNat_toNat]

/-- Every surrogate pair is a character's. -/
theorem exists_char_of_pair {u v : UInt16} (hh : IsHigh u) (hl : IsLow v) : ∃ c, utf16Char c = [u, v] := by
  obtain ⟨hge, hlt, hu, hv⟩ := pair_spec hh hl
  have hn : (pair u v).isValidChar := .inr ⟨by omega, hlt⟩
  have hc : (Char.ofNat (pair u v)).toNat = pair u v := by
    rw [Char.ofNat, dif_pos hn]
    rfl
  refine ⟨Char.ofNat (pair u v), ?_⟩
  simp only [utf16Char, hc, show ¬ pair u v < 0x10000 by omega, if_false, hu, hv, UInt16.ofNat_toNat]

theorem wellFormed_cons_unit {u : UInt16} {us : List UInt16} (hh : ¬ IsHigh u) (hl : ¬ IsLow u) :
    WellFormed (u :: us) ↔ WellFormed us := by
  cases us with
  | nil => simp only [WellFormed, hh, hl, not_false_eq_true, and_self]
  | cons v us => simp only [WellFormed, hh, hl, false_and, not_false_eq_true, true_and, false_or]

/-- The code unit sequences without an unpaired surrogate are the encodings. -/
theorem wellFormed_iff (us : List UInt16) : WellFormed us ↔ ∃ cs, utf16 cs = us := by
  constructor
  · intro h
    induction us using WellFormed.induct with
    | case1 => exact ⟨[], rfl⟩
    | case2 u =>
      obtain ⟨c, hc⟩ := exists_char_of_unit h.1 h.2
      exact ⟨[c], by simp only [utf16, List.flatMap_cons, List.flatMap_nil, hc, List.append_nil]⟩
    | case3 u v us ih ih' =>
      rcases h with ⟨hh, hl, h⟩ | ⟨hh, hl, h⟩
      · obtain ⟨c, hc⟩ := exists_char_of_pair hh hl
        obtain ⟨cs, rfl⟩ := ih h
        exact ⟨c :: cs, by rw [utf16_cons, hc]; rfl⟩
      · obtain ⟨c, hc⟩ := exists_char_of_unit hh hl
        obtain ⟨cs, hcs⟩ := ih' h
        exact ⟨c :: cs, by rw [utf16_cons, hc, hcs]; rfl⟩
  · rintro ⟨cs, rfl⟩
    induction cs with
    | nil => trivial
    | cons c cs ih =>
      rw [utf16_cons]
      by_cases h : c.toNat < 0x10000
      · obtain ⟨u, hu, -, hh, hl⟩ := utf16Char_of_lt h
        rw [hu]
        exact (wellFormed_cons_unit hh hl).mpr ih
      · obtain ⟨u, v, hu, hh, hl, -⟩ := utf16Char_of_ge h
        rw [hu]
        exact .inl ⟨hh, hl, ih⟩

theorem codePoints_cons_unit {u : UInt16} {us : List UInt16} (hh : ¬ IsHigh u) :
    codePoints (u :: us) = u.toNat :: codePoints us := by
  cases us with
  | nil => rfl
  | cons v us => rw [codePoints, if_neg fun h => hh h.1]

/-- The code points of an encoding are the characters. -/
theorem codePoints_utf16 (cs : List Char) : codePoints (utf16 cs) = cs.map Char.toNat := by
  induction cs with
  | nil => rfl
  | cons c cs ih =>
    rw [utf16_cons, List.map_cons, ← ih]
    by_cases h : c.toNat < 0x10000
    · obtain ⟨u, hu, hc, hh, -⟩ := utf16Char_of_lt h
      rw [hu, ← hc]
      exact codePoints_cons_unit hh
    · obtain ⟨u, v, hu, hh, hl, hc⟩ := utf16Char_of_ge h
      rw [hu, ← hc]
      exact if_pos ⟨hh, hl⟩

/-! ## UTF-8 -/

theorem utf8Point_toNat (c : Char) : utf8Point c.toNat = String.utf8EncodeChar c := rfl

/-- Encoding code units by way of their code points. -/
theorem utf8Points_codePoints_utf16 (cs : List Char) : utf8Points (codePoints (utf16 cs)) = utf8 cs := by
  rw [codePoints_utf16, utf8Points, List.flatMap_map]
  rfl

theorem length_utf8Point_le (n : Nat) : (utf8Point n).length ≤ if n ≤ 0xffff then 3 else 4 := by
  simp only [utf8Point]
  split
  · split <;> simp
  · split
    · split <;> simp
    · split
      · simp
      · simp

/-- A code unit takes at most three bytes. -/
theorem length_utf8Points_le (us : List UInt16) : (utf8Points (codePoints us)).length ≤ 3 * us.length := by
  have hunit : ∀ u : UInt16, (utf8Point u.toNat).length ≤ 3 := fun u => by
    have := length_utf8Point_le u.toNat
    rwa [if_pos (Nat.lt_succ_iff.mp u.toNat_lt)] at this
  induction us using codePoints.induct with
  | case1 => simp [codePoints, utf8Points]
  | case2 u => simpa [codePoints, utf8Points] using hunit u
  | case3 u v us h ih =>
    have hp : (utf8Point (pair u v)).length ≤ 4 :=
      (length_utf8Point_le _).trans (by split <;> omega)
    rw [codePoints, if_pos h]
    simp only [utf8Points, List.flatMap_cons, List.length_append, List.length_cons] at ih ⊢
    omega
  | case4 u v us h ih =>
    have := hunit u
    rw [codePoints, if_neg h]
    simp only [utf8Points, List.flatMap_cons, List.length_append, List.length_cons] at ih ⊢
    omega

theorem ofNat_ne_zero {n : Nat} (h0 : 0 < n) (h : n < 256) : UInt8.ofNat n ≠ 0 := by
  intro he
  have := congrArg UInt8.toNat he
  rw [UInt8.toNat_ofNat_of_lt' h, UInt8.toNat_zero] at this
  omega

/-- Only U+0000 has a zero byte. -/
theorem utf8Point_ne_zero {n : Nat} (h : n ≠ 0) : ∀ b ∈ utf8Point n, b ≠ 0 := by
  intro b hb
  simp only [utf8Point] at hb
  split at hb
  · simp only [List.mem_singleton] at hb
    exact hb ▸ ofNat_ne_zero (by omega) (by omega)
  split at hb
  · simp only [List.mem_cons, List.not_mem_nil, or_false] at hb
    rcases hb with rfl | rfl <;> exact ofNat_ne_zero (by omega) (by omega)
  split at hb
  · simp only [List.mem_cons, List.not_mem_nil, or_false] at hb
    rcases hb with rfl | rfl | rfl <;> exact ofNat_ne_zero (by omega) (by omega)
  · simp only [List.mem_cons, List.not_mem_nil, or_false] at hb
    rcases hb with rfl | rfl | rfl | rfl <;> exact ofNat_ne_zero (by omega) (by omega)

theorem toNat_ne_zero {c : Char} (h : c ≠ '\x00') : c.toNat ≠ 0 := fun he =>
  h (Char.toNat_inj.mp he)

/-- The bytes up to the first zero encode the characters up to U+0000. -/
theorem takeWhile_utf8 (cs : List Char) :
    (utf8 cs).takeWhile (· ≠ 0) = utf8 (cs.takeWhile (· ≠ '\x00')) := by
  induction cs with
  | nil => rfl
  | cons c cs ih =>
    rw [utf8_cons]
    by_cases h : c = '\x00'
    · subst h
      rfl
    · have hb : ∀ b ∈ String.utf8EncodeChar c, decide (b ≠ 0) = true := fun b hb =>
        decide_eq_true (utf8Point_ne_zero (toNat_ne_zero h) b (by rwa [utf8Point_toNat]))
      rw [List.takeWhile_append_of_pos hb, ih, List.takeWhile_cons, if_pos (decide_eq_true h), utf8_cons]

theorem utf16Char_ne_zero {c : Char} (h : c ≠ '\x00') : ∀ u ∈ utf16Char c, u ≠ 0 := by
  have hne : ∀ u : UInt16, u.toNat ≠ 0 → u ≠ 0 := fun u hu he => hu (congrArg UInt16.toNat he)
  intro u hu
  by_cases hc : c.toNat < 0x10000
  · obtain ⟨v, hv, hvc, -⟩ := utf16Char_of_lt hc
    rw [hv, List.mem_singleton] at hu
    rw [hu]
    exact hne v (hvc ▸ toNat_ne_zero h)
  · obtain ⟨v, w, hvw, hh, hl, -⟩ := utf16Char_of_ge hc
    simp only [hvw, List.mem_cons, List.not_mem_nil, or_false] at hu
    obtain ⟨hh, -⟩ := hh
    obtain ⟨hl, -⟩ := hl
    rcases hu with rfl | rfl
    · exact hne u (by omega)
    · exact hne u (by omega)

/-- The code units up to the first zero encode the characters up to U+0000. -/
theorem takeWhile_utf16 (cs : List Char) :
    (utf16 cs).takeWhile (· ≠ 0) = utf16 (cs.takeWhile (· ≠ '\x00')) := by
  induction cs with
  | nil => rfl
  | cons c cs ih =>
    rw [utf16_cons]
    by_cases h : c = '\x00'
    · subst h
      rfl
    · have hu : ∀ u ∈ utf16Char c, decide (u ≠ 0) = true := fun u hu => decide_eq_true (utf16Char_ne_zero h u hu)
      rw [List.takeWhile_append_of_pos hu, ih, List.takeWhile_cons, if_pos (decide_eq_true h), utf16_cons]

/-! ## Decoding UTF-8 -/

theorem toNat_ofNat_of_lt {n : Nat} (h : n < 256) : (UInt8.ofNat n).toNat = n := UInt8.toNat_ofNat_of_lt' h

/-- The sequence of a character, as its first byte has it. -/
theorem utf8Point_sequence {n : Nat} (h : n < 0x110000) : ∃ b tail, utf8Point n = b :: tail ∧
    sequenceLength b = tail.length + 1 ∧ (∀ b ∈ tail, IsContinuation b) ∧
    tail.foldl (fun n b => n * 64 + b.toNat % 64) (leadBits b) = n := by
  have hcont : ∀ m, IsContinuation (UInt8.ofNat (m % 0x40 + 0x80)) := by
    intro m
    rw [IsContinuation, toNat_ofNat_of_lt (by omega)]
    omega
  have hbits : ∀ m, (UInt8.ofNat (m % 0x40 + 0x80)).toNat % 64 = m % 64 := by
    intro m
    rw [toNat_ofNat_of_lt (by omega)]
    omega
  by_cases h₁ : n ≤ 0x7f
  · have hb := toNat_ofNat_of_lt (show n < 256 by omega)
    have hlen : sequenceLength (UInt8.ofNat n) = 1 := by rw [sequenceLength, hb, if_pos (by omega)]
    refine ⟨UInt8.ofNat n, [], by rw [utf8Point, if_pos h₁], hlen, by simp, ?_⟩
    simp only [List.foldl_nil, leadBits, hlen, hb]
  by_cases h₂ : n ≤ 0x7ff
  · have hb := toNat_ofNat_of_lt (show n / 64 % 0x20 + 0xc0 < 256 by omega)
    have hlen : sequenceLength (UInt8.ofNat (n / 64 % 0x20 + 0xc0)) = 2 := by
      rw [sequenceLength, hb, if_neg (by omega), if_pos (by omega)]
    refine ⟨_, _, by rw [utf8Point, if_neg h₁, if_pos h₂], hlen, List.forall_mem_singleton.mpr (hcont _), ?_⟩
    simp only [List.foldl_cons, List.foldl_nil, leadBits, hlen, hb, hbits]
    omega
  by_cases h₃ : n ≤ 0xffff
  · have hb := toNat_ofNat_of_lt (show n / 4096 % 0x10 + 0xe0 < 256 by omega)
    have hlen : sequenceLength (UInt8.ofNat (n / 4096 % 0x10 + 0xe0)) = 3 := by
      rw [sequenceLength, hb, if_neg (by omega), if_neg (by omega), if_pos (by omega)]
    refine ⟨_, _, by rw [utf8Point, if_neg h₁, if_neg h₂, if_pos h₃], hlen,
      List.forall_mem_cons.mpr ⟨hcont _, List.forall_mem_singleton.mpr (hcont _)⟩, ?_⟩
    simp only [List.foldl_cons, List.foldl_nil, leadBits, hlen, hb, hbits]
    omega
  · have hb := toNat_ofNat_of_lt (show n / 262144 % 0x08 + 0xf0 < 256 by omega)
    have hlen : sequenceLength (UInt8.ofNat (n / 262144 % 0x08 + 0xf0)) = 4 := by
      rw [sequenceLength, hb, if_neg (by omega), if_neg (by omega), if_neg (by omega), if_pos (by omega)]
    refine ⟨_, _, by rw [utf8Point, if_neg h₁, if_neg h₂, if_neg h₃], hlen,
      List.forall_mem_cons.mpr ⟨hcont _, List.forall_mem_cons.mpr ⟨hcont _, List.forall_mem_singleton.mpr (hcont _)⟩⟩, ?_⟩
    simp only [List.foldl_cons, List.foldl_nil, leadBits, hlen, hb, hbits]
    omega

theorem decodeChars_utf8 (cs : List Char) {fuel : Nat} (hf : (utf8 cs).length ≤ fuel) :
    decodeChars fuel (utf8 cs) = cs := by
  induction cs generalizing fuel with
  | nil => cases fuel <;> rfl
  | cons c cs ih =>
    have hc : c.toNat < 0x110000 := by
      have := char_toNat c
      omega
    obtain ⟨b, tail, hbytes, hlen, htail, hvalue⟩ := utf8Point_sequence hc
    rw [utf8Point_toNat] at hbytes
    rw [utf8_cons, hbytes] at hf ⊢
    cases fuel with
    | zero => simp at hf
    | succ fuel =>
      have htake : ((tail ++ utf8 cs).take (sequenceLength b - 1)).takeWhile (fun b => IsContinuation b) = tail := by
        rw [hlen, Nat.add_sub_cancel, List.take_left]
        exact List.takeWhile_eq_self_iff.mpr fun b hb => decide_eq_true (htail b hb)
      have hchar : decodeChar b tail = c := by
        rw [decodeChar, hvalue, Char.ofNat_toNat, if_pos hbytes]
      have hrest := ih (show (utf8 cs).length ≤ fuel by simp at hf; omega)
      rw [List.cons_append, decodeChars, htake, hchar, List.drop_left, hrest]

/-- Decoding gives the text back. -/
theorem decode_utf8 (cs : List Char) : decode (utf8 cs) = cs := decodeChars_utf8 cs le_rfl

/-- A sequence that breaks off, and one that is whole. -/
example : decode [0x61, 0xC3, 0x28, 0xE2, 0x82, 0xAC] = ['a', Char.ofNat 0xFFFD, '(', Char.ofNat 0x20AC] := by decide

/-! ## Bytes read as code units

As Latin-1 reads them, which agrees with UTF-8 on ASCII only. -/

theorem utf8EncodeChar_of_lt {c : Char} (h : c.toNat < 0x80) : String.utf8EncodeChar c = [UInt8.ofNat c.toNat] := by
  rw [← utf8Point_toNat, utf8Point, if_pos (by omega)]

/-- Any other character has more bytes than code units. -/
theorem length_utf16Char_lt {c : Char} (h : 0x80 ≤ c.toNat) :
    (utf16Char c).length < (String.utf8EncodeChar c).length := by
  rw [← utf8Point_toNat, utf8Point, if_neg (by omega), utf16Char]
  by_cases h₁ : c.toNat < 0x10000
  · rw [if_pos h₁]
    split
    · simp
    · rw [if_pos (by omega)]
      simp
  · rw [if_neg h₁, if_neg (by omega), if_neg (by omega)]
    simp

theorem length_utf16_le (cs : List Char) : (utf16 cs).length ≤ (utf8 cs).length := by
  induction cs with
  | nil => simp [utf16]
  | cons c cs ih =>
    rw [utf16_cons, utf8_cons, List.length_append, List.length_append]
    by_cases h : c.toNat < 0x80
    · rw [utf8EncodeChar_of_lt h, utf16Char, if_pos (by omega)]
      simpa using ih
    · have := length_utf16Char_lt (show 0x80 ≤ c.toNat by omega)
      omega

/-- The bytes, each read as a code unit, give the text back exactly if it is ASCII. -/
theorem map_utf8_eq_utf16_iff (cs : List Char) :
    (utf8 cs).map UInt8.toUInt16 = utf16 cs ↔ ∀ c ∈ cs, c.toNat < 0x80 := by
  induction cs with
  | nil => simp [utf8, utf16]
  | cons c cs ih =>
    rw [utf8_cons, utf16_cons, List.map_append, List.forall_mem_cons]
    by_cases h : c.toNat < 0x80
    · have hc : (String.utf8EncodeChar c).map UInt8.toUInt16 = utf16Char c := by
        rw [utf8EncodeChar_of_lt h, utf16Char, if_pos (by omega), List.map_singleton]
        refine congrArg (fun u => [u]) (UInt16.toNat_inj.mp ?_)
        rw [UInt8.toNat_toUInt16, UInt8.toNat_ofNat_of_lt' (show c.toNat < 256 by omega), toNat_ofNat (by omega)]
      rw [hc, List.append_cancel_left_eq, ih, and_iff_right h]
    · refine iff_of_false (fun heq => ?_) fun hc => h hc.1
      have hlength := congrArg List.length heq
      rw [List.length_append, List.length_append, List.length_map, List.length_map] at hlength
      have h₁ := length_utf16Char_lt (show 0x80 ≤ c.toNat by omega)
      have h₂ := length_utf16_le cs
      omega

end NativeObjects.Lib.Utf
