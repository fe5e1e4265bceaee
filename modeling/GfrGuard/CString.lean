import Mathlib.Data.List.TakeWhile
import Mathlib.Algebra.Ring.Int.Defs
import Mathlib.Algebra.Ring.Nat
import GfrGuard.Lib.Search
import GfrGuard.Lib.Components

/-!
# C strings

A C string is the list of its bytes before the terminating zero. `CBuf n` is the content of
a `char[n]` array written by `snprintf`: a string that fits with its terminator, so that
copying one buffer into another at least as large changes nothing. Searches (`strstr`,
`strrchr`), comparison (`strcasecmp`), numbers (`atoi`, `%d`, `%03d`) and the file a path
names (`pathComponents`) follow the C library.
-/

namespace GfrGuard

/-- A C string: its bytes up to the terminating zero. -/
abbrev CStr := List UInt8

instance : LawfulBEq CStr := inferInstance

/-- A string literal of the source (ASCII). -/
def lit (s : String) : CStr := s.toList.map fun c => c.toNat.toUInt8

/-- `snprintf(buf, n, "%s", s)`: at most `n - 1` bytes are kept. -/
def snprintf (n : Nat) (s : CStr) : CStr := s.take (n - 1)

theorem snprintf_of_lt {n : Nat} {s : CStr} (h : s.length < n) : snprintf n s = s :=
  List.take_of_length_le (by omega)

theorem length_snprintf_lt {n : Nat} (h : 0 < n) (s : CStr) : (snprintf n s).length < n := by
  simp only [snprintf, List.length_take]
  omega

/-! ## Buffers -/

/-- The content of a `char[n]` array that holds a terminated string. -/
structure CBuf (n : Nat) where
  /-- The string before the terminator. -/
  str : CStr
  /-- The string and its terminator fit. -/
  fits : str.length < n
deriving DecidableEq

namespace CBuf

variable {n : Nat}

/-- The buffer after `snprintf(buf, sizeof(buf), "%s", s)`. -/
def ofStr (n : Nat) [NeZero n] (s : CStr) : CBuf n :=
  ⟨snprintf n s, length_snprintf_lt (Nat.pos_of_neZero n) s⟩

/-- A zeroed buffer. -/
def empty (n : Nat) [NeZero n] : CBuf n := ⟨[], Nat.pos_of_neZero n⟩

@[simp] theorem str_empty [NeZero n] : (empty n).str = [] := rfl

@[simp] theorem str_ofStr [NeZero n] (s : CStr) : (ofStr n s).str = snprintf n s := rfl

theorem str_ofStr_of_lt [NeZero n] {s : CStr} (h : s.length < n) : (ofStr n s).str = s :=
  snprintf_of_lt h

@[ext] theorem ext {a b : CBuf n} (h : a.str = b.str) : a = b := by
  cases a; cases b; cases h; rfl

/-- Copying a buffer into one at least as large keeps the string. -/
theorem snprintf_str {m : Nat} (b : CBuf n) (h : n ≤ m) : snprintf m b.str = b.str :=
  snprintf_of_lt (b.fits.trans_le h)

@[simp] theorem ofStr_str [NeZero n] (b : CBuf n) : ofStr n b.str = b :=
  CBuf.ext (b.snprintf_str le_rfl)

end CBuf

/-! The sizes of the program's buffers. -/

instance neZero2 : NeZero 2 := ⟨by decide⟩
instance neZero16 : NeZero 16 := ⟨by decide⟩
instance neZero32 : NeZero 32 := ⟨by decide⟩
instance neZero48 : NeZero 48 := ⟨by decide⟩
instance neZero64 : NeZero 64 := ⟨by decide⟩
instance neZero128 : NeZero 128 := ⟨by decide⟩
instance neZero256 : NeZero 256 := ⟨by decide⟩
instance neZero2048 : NeZero 2048 := ⟨by decide⟩
instance neZero4096 : NeZero 4096 := ⟨by decide⟩

/-! ## Bytes and searches -/

/-- The byte `/`. -/
abbrev slash : UInt8 := 47
/-- The byte `.`. -/
abbrev dot : UInt8 := 46
/-- The newline byte. -/
abbrev newline : UInt8 := 10
/-- The byte `@`. -/
abbrev atSign : UInt8 := 64
/-- The byte `-`. -/
abbrev dash : UInt8 := 45
/-- The byte `:`. -/
abbrev colon : UInt8 := 58

/-- `strstr(s, needle)`: the suffix of `s` at the first occurrence. -/
def strstr (s needle : CStr) : Option CStr := ListSearch.firstAt needle s

/-- `strrchr(s, c)`: the suffix of `s` at the last occurrence. -/
def strrchr (s : CStr) (c : UInt8) : Option CStr := ListSearch.lastAt c s

/-- `isdigit` of one byte. -/
def isDigit (b : UInt8) : Bool := 48 ≤ b && b ≤ 57

/-- `isspace` of one byte. -/
def isSpace (b : UInt8) : Bool := b = 32 || (9 ≤ b && b ≤ 13)

/-- `tolower` of one byte in the C locale. -/
def toLower (b : UInt8) : UInt8 := if 65 ≤ b && b ≤ 90 then b + 32 else b

/-- `strcasecmp(a, b) == 0`. -/
def strcaseEq (a b : CStr) : Bool := a.map toLower = b.map toLower

/-! ## Numbers -/

/-- The value of a run of decimal digits. -/
def digitsValue (s : CStr) : Nat := s.foldl (fun v b => v * 10 + (b - 48).toNat) 0

/-- `atoi`: blanks, a sign, digits; 0 where there are none. -/
def atoi (s : CStr) : Int :=
  match s.dropWhile isSpace with
  | 45 :: t => -digitsValue (t.takeWhile isDigit)
  | 43 :: t => digitsValue (t.takeWhile isDigit)
  | t => digitsValue (t.takeWhile isDigit)

/-- `%d` of a number that is not negative. -/
def dec (n : Nat) : CStr := (Nat.toDigits 10 n).map fun c => c.toNat.toUInt8

/-- `%0wd` of a number that is not negative. -/
def decPad (w n : Nat) : CStr := List.replicate (w - (dec n).length) 48 ++ dec n

/-- `%d` of an `int`. -/
def intText (n : Int) : CStr := if n < 0 then dash :: dec n.natAbs else dec n.natAbs

section
variable {n k : Nat} {b : UInt8}

theorem dec_eq (n : Nat) : dec n = (Nat.toDigits 10 n).map fun c => c.toNat.toUInt8 := rfl

/-- A digit as a byte. -/
theorem toNat_digit {c : Char} (h : c.isDigit = true) : c.toNat.toUInt8.toNat = c.toNat := by
  have hc : c.toNat ≤ 57 := by
    simp only [Char.isDigit, Bool.and_eq_true, decide_eq_true_eq] at h
    exact h.2
  simp only [Nat.toUInt8_eq, UInt8.toNat_ofNat']
  omega

theorem isDigit_of_mem_dec (h : b ∈ dec n) : isDigit b = true := by
  obtain ⟨c, hc, rfl⟩ := List.mem_map.1 h
  have hdigit := Nat.isDigit_of_mem_toDigits (by decide) (by decide) hc
  have hval := toNat_digit hdigit
  simp only [Char.isDigit, Bool.and_eq_true, decide_eq_true_eq] at hdigit
  simp only [isDigit, Bool.and_eq_true, decide_eq_true_eq, UInt8.le_iff_toNat_le, hval]
  exact hdigit

theorem isDigit_of_mem_decPad {w : Nat} (h : b ∈ decPad w n) : isDigit b = true := by
  unfold decPad at h
  rcases List.mem_append.1 h with h | h
  · rw [(List.mem_replicate.1 h).2]
    rfl
  · exact isDigit_of_mem_dec h

theorem digitsValue_dec (n : Nat) : digitsValue (dec n) = n := by
  have hstep : ∀ v, ∀ c ∈ Nat.toDigits 10 n,
      v * 10 + (c.toNat.toUInt8 - 48).toNat = 10 * v + (c.toNat - '0'.toNat) := by
    intro v c hc
    have hdigit := Nat.isDigit_of_mem_toDigits (by decide) (by decide) hc
    have hval := toNat_digit hdigit
    have hlow : 48 ≤ c.toNat := by
      simp only [Char.isDigit, Bool.and_eq_true, decide_eq_true_eq] at hdigit
      exact hdigit.1
    rw [UInt8.toNat_sub_of_le _ _ (UInt8.le_iff_toNat_le.2 (by rw [hval]; exact hlow)), hval,
      Nat.mul_comm]
    rfl
  rw [digitsValue, dec_eq, List.foldl_map, List.foldl_ext _ _ 0 hstep]
  exact Nat.ofDigitChars_ten_toDigits

theorem dec_injective : Function.Injective dec := fun n m h => by
  rw [← digitsValue_dec n, h, digitsValue_dec]

theorem length_dec_le (hk : 0 < k) : (dec n).length ≤ k ↔ n < 10 ^ k := by
  rw [dec_eq, List.length_map]
  exact Nat.length_toDigits_le_iff (by decide) hk

/-- Leading zeros do not count. -/
theorem digitsValue_decPad (w n : Nat) : digitsValue (decPad w n) = n := by
  have hzeros (k : Nat) : (List.replicate k (48 : UInt8)).foldl
      (fun v b => v * 10 + (b - 48).toNat) 0 = 0 := by
    induction k with
    | zero => rfl
    | succ k ih => exact ih
  unfold decPad digitsValue
  rw [List.foldl_append, hzeros]
  exact digitsValue_dec n

theorem length_decPad_le {w n k : Nat} (hw : w ≤ k) (hk : 0 < k) (hn : n < 10 ^ k) :
    (decPad w n).length ≤ k := by
  have hdec := (length_dec_le hk).2 hn
  unfold decPad
  rw [List.length_append, List.length_replicate]
  omega

theorem dec_ne_nil (n : Nat) : dec n ≠ [] := by simp [dec_eq, Nat.toDigits_ne_nil]

theorem not_mem_dec (h : isDigit b = false) : b ∉ dec n := fun hb => by
  rw [isDigit_of_mem_dec hb] at h
  cases h

theorem isSpace_of_isDigit (h : isDigit b = true) : isSpace b = false := by
  simp only [isDigit, isSpace, Bool.and_eq_true, decide_eq_true_eq, Bool.or_eq_false_iff,
    Bool.and_eq_false_iff, decide_eq_false_iff_not, UInt8.le_iff_toNat_le, ← UInt8.toNat_inj] at h ⊢
  simp only [UInt8.reduceToNat] at h ⊢
  omega

theorem atoi_digits {s : CStr} (h : ∀ b ∈ s, isDigit b = true) : atoi s = digitsValue s := by
  have htake : s.takeWhile isDigit = s := List.takeWhile_eq_self_iff.2 h
  cases s with
  | nil => rfl
  | cons b s =>
    have hdigit := h b List.mem_cons_self
    have hdrop : (b :: s).dropWhile isSpace = b :: s :=
      List.dropWhile_cons_of_neg (by rw [isSpace_of_isDigit hdigit]; exact Bool.false_ne_true)
    unfold atoi
    rw [hdrop]
    split
    · next heq =>
      cases heq
      exact absurd hdigit (by decide)
    · next heq =>
      cases heq
      exact absurd hdigit (by decide)
    · rw [htake]

end

/-! ## Paths -/

/-- The names a path walks through. Two paths with the same ones name the same file: repeated
and trailing slashes do not matter. -/
def pathComponents (path : CStr) : List CStr := SepText.components slash path

@[simp] theorem pathComponents_nil : pathComponents [] = [] := SepText.components_nil

theorem pathComponents_append_slash (a b : CStr) :
    pathComponents (a ++ slash :: b) = pathComponents a ++ pathComponents b :=
  SepText.components_append_cons a b

@[simp] theorem pathComponents_slash_cons (b : CStr) :
    pathComponents (slash :: b) = pathComponents b :=
  SepText.components_cons_sep b

/-- A single name. -/
theorem pathComponents_name {a : CStr} (h : slash ∉ a) (hne : a ≠ []) :
    pathComponents a = [a] :=
  SepText.components_eq_singleton h hne

end GfrGuard
