import NativeObjects.Lib.Utf

/-!
# JavaScript strings and C strings

JavaScript strings are counted, C strings end at their first NUL.
`StringConversions` is what the code relies on of `String::Utf8Value` and
`String::NewFromUtf8`; `StringConversions.standard` is an instance.
-/

namespace NativeObjects

open Lib.Utf

/-- `String::kMaxLength` where a pointer has four bytes (`APP_ABI := armeabi-v7a`). -/
def kMaxLength : Nat := 2 ^ 28 - 16

/-- A JavaScript string: UTF-16 code units. -/
structure JSString where
  units : List UInt16
  length_le : units.length ≤ kMaxLength
  deriving DecidableEq

namespace JSString

theorem ext {s t : JSString} (h : s.units = t.units) : s = t := by
  cases s
  cases t
  simpa using h

/-- The string has no unpaired surrogate. -/
def WellFormed (s : JSString) : Prop := Lib.Utf.WellFormed s.units

/-- The code units up to the first U+0000. -/
def upToNul (s : JSString) : JSString :=
  ⟨s.units.takeWhile (· ≠ 0), (List.takeWhile_prefix _).length_le.trans s.length_le⟩

end JSString

/-- V8's conversions between JavaScript strings and bytes. -/
structure StringConversions where
  /-- `*String::Utf8Value(s)`, without the NUL that it appends. -/
  utf8Value : JSString → List UInt8
  /-- `String::NewFromUtf8(isolate, data)`, of the bytes before the first NUL of
  `data`; `none` is an empty handle. -/
  newFromUtf8 : List UInt8 → Option JSString
  utf8Value_utf16 : ∀ (s : JSString) (cs : List Char), s.units = utf16 cs → utf8Value s = utf8 cs
  newFromUtf8_utf8 : ∀ (s : JSString) (cs : List Char), s.units = utf16 cs → newFromUtf8 (utf8 cs) = some s
  length_utf8Value_le : ∀ s : JSString, (utf8Value s).length ≤ 3 * s.units.length

/-- A string of these code units, unless they are too many. -/
def JSString.ofUnits (us : List UInt16) : Option JSString :=
  if h : us.length ≤ kMaxLength then some ⟨us, h⟩ else none

/-- Conversions that write an unpaired surrogate as it is, and read U+FFFD where the
bytes are not UTF-8. -/
def StringConversions.standard : StringConversions where
  utf8Value s := utf8Points (codePoints s.units)
  newFromUtf8 bytes := JSString.ofUnits (utf16 (decode bytes))
  utf8Value_utf16 s cs h := by rw [h, utf8Points_codePoints_utf16]
  newFromUtf8_utf8 s cs h := by
    rw [decode_utf8, ← h, JSString.ofUnits, dif_pos s.length_le]
  length_utf8Value_le s := length_utf8Points_le s.units

/-! ## C strings -/

/-- The bytes that `data`, a `const char*`, points to as a C string. -/
def cString (data : List UInt8) : List UInt8 := data.takeWhile (· ≠ 0)

def strlen (data : List UInt8) : Nat := (cString data).length

/-- The code units of `String::NewFromOneByte(isolate, data)`, of a `const char*` whose
bytes are `data` in UTF-8. -/
def newFromOneByte (data : String) : List UInt16 := (cString (utf8 data.toList)).map UInt8.toUInt16

/-- The conversion of a `size_t` to an `int`. -/
def toInt (n : Nat) : Int := Int.bmod n (2 ^ 32)

theorem toInt_of_lt {n : Nat} (h : n < 2 ^ 31) : toInt n = n := by
  unfold toInt
  rw [Int.bmod_eq_of_le (by omega) (by omega)]

theorem cString_isPrefix (data : List UInt8) : cString data <+: data := List.takeWhile_prefix _

theorem strlen_le (data : List UInt8) : strlen data ≤ data.length := (cString_isPrefix data).length_le

theorem take_strlen (data : List UInt8) : data.take (strlen data) = cString data :=
  (List.prefix_iff_eq_take.mp (cString_isPrefix data)).symm

theorem cString_append_nul (data : List UInt8) : cString (data ++ [0]) = cString data := by
  induction data with
  | nil => rfl
  | cons b data ih =>
    simp only [cString, List.cons_append, List.takeWhile_cons] at ih ⊢
    rw [ih]

theorem cString_cString (data : List UInt8) : cString (cString data) = cString data :=
  List.takeWhile_idem

/-- A byte string without a zero is its own C string. -/
theorem cString_of_nul_free {data : List UInt8} (h : 0 ∉ data) : cString data = data :=
  List.takeWhile_eq_self_iff.mpr fun _ hb => decide_eq_true fun hz => h (hz ▸ hb)

/-- What is decoded of the C string that a string's encoding is. -/
theorem StringConversions.newFromUtf8_cString (V : StringConversions) {s : JSString} (h : s.WellFormed) :
    V.newFromUtf8 (cString (V.utf8Value s)) = some s.upToNul := by
  obtain ⟨cs, hcs⟩ := (wellFormed_iff s.units).mp h
  have hnul : s.upToNul.units = utf16 (cs.takeWhile (· ≠ '\x00')) := by
    rw [← takeWhile_utf16, hcs]
    rfl
  rw [V.utf8Value_utf16 s cs hcs.symm, cString, takeWhile_utf8]
  exact V.newFromUtf8_utf8 _ _ hnul

theorem JSString.upToNul_eq_iff (s : JSString) : s.upToNul = s ↔ 0 ∉ s.units := by
  constructor
  · intro h hz
    have htake : s.units.takeWhile (· ≠ 0) = s.units := congrArg JSString.units h
    exact of_decide_eq_true (List.takeWhile_eq_self_iff.mp htake 0 hz) rfl
  · intro h
    exact JSString.ext (List.takeWhile_eq_self_iff.mpr fun _ hu => decide_eq_true fun hz => h (hz ▸ hu))

end NativeObjects
