import Mathlib.Data.Option.Basic
import Mathlib.Data.UInt

/-!
# The text of JSON strings

What stands between the quotes of a JSON string, byte by byte: a byte that stands for itself, a
short escape, or `\u` with four hexadecimal digits (`Body`). How the bytes from 128 on are encoded is
not looked at here. `unescape` undoes the escapes of the ASCII characters.
-/

namespace JsonText

/-- The byte `"`. -/
abbrev quote : UInt8 := 34
/-- The byte `\`. -/
abbrev backslash : UInt8 := 92

/-- A byte that stands for itself: no control character, quote or backslash. -/
def isPlain (b : UInt8) : Bool := 32 ≤ b && b ≠ quote && b ≠ backslash

/-- A hexadecimal digit. -/
def isHex (b : UInt8) : Bool := 48 ≤ b && b ≤ 57 || 65 ≤ b && b ≤ 70 || 97 ≤ b && b ≤ 102

/-- The value of a hexadecimal digit. -/
def hexValue (b : UInt8) : Nat :=
  if b ≤ 57 then b.toNat - 48 else if b ≤ 70 then b.toNat - 55 else b.toNat - 87

/-- The character of a short escape, by its letter. -/
def shortEscape (c : UInt8) : Option UInt8 :=
  if c = quote ∨ c = backslash ∨ c = 47 then some c
  else if c = 98 then some 8
  else if c = 102 then some 12
  else if c = 110 then some 10
  else if c = 114 then some 13
  else if c = 116 then some 9
  else none

/-- The text of a string, its quotes apart. -/
inductive Body : List UInt8 → Prop where
  | nil : Body []
  | plain {b : UInt8} {s : List UInt8} (hb : isPlain b = true) (hs : Body s) : Body (b :: s)
  | short {c : UInt8} {s : List UInt8} (hc : (shortEscape c).isSome = true) (hs : Body s) :
    Body (backslash :: c :: s)
  | unicode {a b c d : UInt8} {s : List UInt8} (ha : isHex a = true) (hb : isHex b = true)
    (hc : isHex c = true) (hd : isHex d = true) (hs : Body s) :
    Body (backslash :: 117 :: a :: b :: c :: d :: s)

/-- What a text stands for whose `\u` escapes are of ASCII characters. -/
def unescape : List UInt8 → Option (List UInt8)
  | [] => some []
  | 92 :: 117 :: a :: b :: c :: d :: s =>
    let code := ((hexValue a * 16 + hexValue b) * 16 + hexValue c) * 16 + hexValue d
    if isHex a && isHex b && isHex c && isHex d && code < 128 then
      (unescape s).map (code.toUInt8 :: ·)
    else none
  | 92 :: c :: s => (shortEscape c).bind fun v => (unescape s).map (v :: ·)
  | b :: s => if isPlain b then (unescape s).map (b :: ·) else none

section
variable {b c v : UInt8} {s t : List UInt8}

theorem unescape_plain (h : isPlain b = true) : unescape (b :: s) = (unescape s).map (b :: ·) := by
  have hb : b ≠ 92 := by
    rintro rfl
    cases h
  rw [unescape.eq_def]
  split
  · next heq => cases heq
  · next heq => exact absurd (List.cons.inj heq).1 hb
  · next heq => exact absurd (List.cons.inj heq).1 hb
  · next heq =>
    obtain ⟨rfl, rfl⟩ := List.cons.inj heq
    rw [if_pos h]

theorem unescape_short (h : shortEscape c = some v) :
    unescape (backslash :: c :: s) = (unescape s).map (v :: ·) := by
  have hc : c ≠ 117 := by
    rintro rfl
    cases h
  rw [unescape.eq_def]
  split
  · next heq => cases heq
  · next heq => exact absurd (List.cons.inj (List.cons.inj heq).2).1 hc
  · next heq =>
    obtain ⟨rfl, rfl⟩ := List.cons.inj (List.cons.inj heq).2
    rw [h, Option.bind_some]
  · next hshort heq =>
    obtain ⟨rfl, rfl⟩ := List.cons.inj heq
    exact absurd rfl (hshort c s rfl)

theorem unescape_unicode {a b c d : UInt8} (ha : isHex a = true) (hb : isHex b = true)
    (hc : isHex c = true) (hd : isHex d = true)
    (hv : ((hexValue a * 16 + hexValue b) * 16 + hexValue c) * 16 + hexValue d = v.toNat)
    (hascii : v < 128) :
    unescape (backslash :: 117 :: a :: b :: c :: d :: s) = (unescape s).map (v :: ·) := by
  have hlt : v.toNat < 128 := UInt8.lt_iff_toNat_lt.1 hascii
  rw [unescape, hv]
  simp only [ha, hb, hc, hd, hlt, decide_true, Bool.and_self, if_true, UInt8.ofNat_toNat,
    Nat.toUInt8_eq]

theorem Body.append (hs : Body s) (ht : Body t) : Body (s ++ t) := by
  induction hs with
  | nil => exact ht
  | plain hb _ ih => exact .plain hb ih
  | short hc _ ih => exact .short hc ih
  | unicode ha hb hc hd _ ih => exact .unicode ha hb hc hd ih

/-- The text of a string has no zero byte. -/
theorem Body.zero_not_mem (h : Body s) : (0 : UInt8) ∉ s := by
  have hbackslash : (0 : UInt8) ≠ backslash := by decide
  induction h with
  | nil => exact List.not_mem_nil
  | plain hb _ ih =>
    rw [List.mem_cons, not_or]
    refine ⟨?_, ih⟩
    rintro rfl
    cases hb
  | short hc _ ih =>
    rw [List.mem_cons, List.mem_cons, not_or, not_or]
    refine ⟨hbackslash, ?_, ih⟩
    rintro rfl
    cases hc
  | @unicode a b c d _ ha hb hc hd _ ih =>
    have hdigit : ∀ e, isHex e = true → (0 : UInt8) ≠ e := by
      rintro e he rfl
      cases he
    simp only [List.mem_cons, not_or]
    exact ⟨hbackslash, by decide, hdigit a ha, hdigit b hb, hdigit c hc, hdigit d hd, ih⟩

end

end JsonText
