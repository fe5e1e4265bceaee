import GfrGuard.CString
import GfrGuard.Lib.JsonText

/-!
# `rguard_json_escape`

A text that someone else chose goes into the details of the log through this loop. It writes one
byte of the source as one, two or six bytes, and takes the next one only while there is room for the
longest form and the terminator. Writes go to an array and fail past its end, so that a result says
that all of them were inside (`rguardJsonEscape_eq`). What is written is the escaped form of a
prefix of the source (`escapedCount`), never a part of a form.
-/

namespace GfrGuard

/-! ## Writing to an array -/

/-- `dst[o] = c`, unless it is past the end. -/
def store {n : Nat} (dst : Vector UInt8 n) (o : Nat) (c : UInt8) : Option (Vector UInt8 n) :=
  if h : o < n then some (dst.set o c h) else none

/-- `dst[o++] = c` for one byte after the other. -/
def storeAll {n : Nat} : Vector UInt8 n → Nat → List UInt8 → Option (Vector UInt8 n × Nat)
  | dst, o, [] => some (dst, o)
  | dst, o, c :: cs => (store dst o c).bind fun dst => storeAll dst (o + 1) cs

/-- The string in an array. -/
def cstrOf {n : Nat} (dst : Vector UInt8 n) : CStr := dst.toList.takeWhile (· ≠ 0)

/-! ## The loop -/

/-- `hx[i]`. -/
def hxDigit (i : UInt8) : UInt8 := if i < 10 then 48 + i else 87 + i

/-- What is written for a byte. -/
def escapeByte (c : UInt8) : List UInt8 :=
  if c = JsonText.quote ∨ c = JsonText.backslash then [JsonText.backslash, c]
  else if c < 32 then [JsonText.backslash, 117, 48, 48, hxDigit (c >>> 4), hxDigit (c &&& 15)]
  else [c]

/-- The loop. An index is below the size of an object, so that `o + 7` does not wrap. -/
def escapeLoop {n : Nat} : Vector UInt8 n → Nat → CStr → Option (Vector UInt8 n × Nat)
  | dst, o, [] => some (dst, o)
  | dst, o, c :: src =>
    if o + 7 < n then
      (storeAll dst o (escapeByte c)).bind fun r => escapeLoop r.1 r.2 src
    else some (dst, o)

/-- `rguard_json_escape`. -/
def rguardJsonEscape {n : Nat} (dst : Vector UInt8 n) (src : CStr) : Option (Vector UInt8 n) :=
  (escapeLoop dst 0 src).bind fun r => store r.1 r.2 0

/-! ## What is written -/

/-- The escaped form of a text. -/
def escapeText (src : CStr) : CStr := src.flatMap escapeByte

/-- How many bytes of the source are written from an index on. -/
def escapedCount (n : Nat) : Nat → CStr → Nat
  | _, [] => 0
  | o, c :: src => if o + 7 < n then escapedCount n (o + (escapeByte c).length) src + 1 else 0

/-- What is written from an index on. -/
def escapedFrom (n o : Nat) (src : CStr) : CStr := escapeText (src.take (escapedCount n o src))

/-- The text in a buffer of `n` bytes after `rguard_json_escape`. -/
def jsonEscaped (n : Nat) (src : CStr) : CStr := escapedFrom n 0 src

section
variable {n o : Nat} {c : UInt8} {src cs : CStr} {dst : Vector UInt8 n}

theorem length_escapeByte_le (c : UInt8) : (escapeByte c).length ≤ 6 := by
  unfold escapeByte
  split_ifs <;> simp

theorem length_escapeByte_pos (c : UInt8) : 0 < (escapeByte c).length := by
  unfold escapeByte
  split_ifs <;> simp

theorem escapeText_cons (c : UInt8) (src : CStr) :
    escapeText (c :: src) = escapeByte c ++ escapeText src := List.flatMap_cons

theorem escapeText_append (s t : CStr) : escapeText (s ++ t) = escapeText s ++ escapeText t :=
  List.flatMap_append

theorem escapedCount_cons (h : o + 7 < n) (c : UInt8) (src : CStr) :
    escapedCount n o (c :: src) = escapedCount n (o + (escapeByte c).length) src + 1 := if_pos h

theorem escapedFrom_cons (h : o + 7 < n) (c : UInt8) (src : CStr) :
    escapedFrom n o (c :: src) = escapeByte c ++ escapedFrom n (o + (escapeByte c).length) src := by
  unfold escapedFrom
  rw [escapedCount_cons h, List.take_succ_cons, escapeText_cons]

theorem escapedFrom_full (h : ¬ o + 7 < n) (c : UInt8) (src : CStr) : escapedFrom n o (c :: src) = [] := by
  unfold escapedFrom escapedCount
  rw [if_neg h]
  rfl

/-- What is written ends before the last byte of the buffer. -/
theorem length_escapedFrom_lt (ho : o < n) (src : CStr) : o + (escapedFrom n o src).length < n := by
  induction src generalizing o with
  | nil => exact ho
  | cons c src ih =>
    by_cases hroom : o + 7 < n
    · have hbyte := length_escapeByte_le c
      have hrest := ih (o := o + (escapeByte c).length) (by omega)
      rw [escapedFrom_cons hroom, List.length_append]
      omega
    · rw [escapedFrom_full hroom]
      exact ho

/-- All of the source is written, or there is no room for six more bytes. -/
theorem escapedCount_spec (n o : Nat) (src : CStr) :
    escapedCount n o src = src.length ∨ n ≤ o + (escapedFrom n o src).length + 7 := by
  induction src generalizing o with
  | nil => exact .inl rfl
  | cons c src ih =>
    by_cases hroom : o + 7 < n
    · rw [escapedCount_cons hroom, escapedFrom_cons hroom, List.length_append, List.length_cons]
      rcases ih (o + (escapeByte c).length) with h | h
      · exact .inl (congrArg (· + 1) h)
      · exact .inr (by omega)
    · rw [escapedFrom_full hroom, List.length_nil]
      exact .inr (by omega)

/-! ## The array -/

theorem store_eq (h : o < n) (dst : Vector UInt8 n) (c : UInt8) : ∃ dst', store dst o c = some dst' ∧
    dst'.toList = dst.toList.take o ++ c :: dst.toList.drop (o + 1) := by
  refine ⟨dst.set o c h, dif_pos h, ?_⟩
  have hlen : o < dst.toList.length := by rwa [Vector.length_toList]
  rw [Vector.toList_set, List.set_eq_take_append_cons_drop, if_pos hlen]

theorem storeAll_eq (h : o + cs.length ≤ n) (dst : Vector UInt8 n) :
    ∃ dst', storeAll dst o cs = some (dst', o + cs.length) ∧
      dst'.toList = dst.toList.take o ++ cs ++ dst.toList.drop (o + cs.length) := by
  induction cs generalizing o dst with
  | nil =>
    refine ⟨dst, rfl, ?_⟩
    rw [List.append_nil, List.length_nil, Nat.add_zero, List.take_append_drop]
  | cons c cs ih =>
    rw [List.length_cons] at h
    obtain ⟨mid, hstore, hmid⟩ := store_eq (show o < n by omega) dst c
    obtain ⟨dst', hall, hdst⟩ := ih (o := o + 1) (by omega) mid
    have hlen : (dst.toList.take o).length = o := by
      rw [List.length_take, Vector.length_toList]
      omega
    refine ⟨dst', ?_, ?_⟩
    · unfold storeAll
      rw [hstore, Option.bind_some, hall, List.length_cons]
      congr 2
      omega
    · have htake : mid.toList.take (o + 1) = dst.toList.take o ++ [c] := by
        rw [hmid, List.take_append, hlen, List.take_of_length_le (by omega),
          show o + 1 - o = 1 by omega, List.take_succ_cons, List.take_zero]
      have hdrop : mid.toList.drop (o + 1 + cs.length) = dst.toList.drop (o + (cs.length + 1)) := by
        rw [hmid, List.drop_append, hlen, List.drop_of_length_le (by omega), List.nil_append,
          show o + 1 + cs.length - o = cs.length + 1 by omega, List.drop_succ_cons, List.drop_drop]
        congr 1
        omega
      rw [hdst, htake, hdrop, List.length_cons]
      simp

theorem escapeLoop_eq (ho : o < n) (dst : Vector UInt8 n) (src : CStr) :
    ∃ dst', escapeLoop dst o src = some (dst', o + (escapedFrom n o src).length) ∧
      dst'.toList = dst.toList.take o ++ escapedFrom n o src ++
        dst.toList.drop (o + (escapedFrom n o src).length) := by
  induction src generalizing o dst with
  | nil =>
    refine ⟨dst, rfl, ?_⟩
    simp [escapedFrom, escapedCount, escapeText]
  | cons c src ih =>
    unfold escapeLoop
    split
    · next hroom =>
      have hbyte := length_escapeByte_le c
      obtain ⟨mid, hstore, hmid⟩ := storeAll_eq (show o + (escapeByte c).length ≤ n by omega) dst
      obtain ⟨dst', hloop, hdst⟩ := ih (o := o + (escapeByte c).length) (by omega) mid
      have hlen : (dst.toList.take o ++ escapeByte c).length = o + (escapeByte c).length := by
        rw [List.length_append, List.length_take, Vector.length_toList]
        omega
      rw [hstore, Option.bind_some, hloop, escapedFrom_cons hroom, List.length_append]
      generalize escapedFrom n (o + (escapeByte c).length) src = text at hdst ⊢
      refine ⟨dst', by rw [Nat.add_assoc], ?_⟩
      have htake : mid.toList.take (o + (escapeByte c).length) = dst.toList.take o ++ escapeByte c := by
        rw [hmid, List.take_append_of_le_length hlen.ge, List.take_of_length_le hlen.le]
      have hdrop : mid.toList.drop (o + (escapeByte c).length + text.length) =
          dst.toList.drop (o + ((escapeByte c).length + text.length)) := by
        rw [hmid, List.drop_append, hlen, List.drop_of_length_le (by omega), List.nil_append,
          List.drop_drop, Nat.add_sub_cancel_left, Nat.add_assoc]
      rw [hdst, htake, hdrop, List.append_assoc _ _ text]
    · next hroom =>
      rw [escapedFrom_full hroom]
      refine ⟨dst, rfl, ?_⟩
      simp

/-- The source is escaped to the buffer up to what fits, and the rest of the buffer stays. -/
theorem rguardJsonEscape_eq (hn : 1 ≤ n) (dst : Vector UInt8 n) (src : CStr) :
    ∃ dst', rguardJsonEscape dst src = some dst' ∧
      dst'.toList = jsonEscaped n src ++ 0 :: dst.toList.drop ((jsonEscaped n src).length + 1) := by
  obtain ⟨mid, hloop, hmid⟩ := escapeLoop_eq (show 0 < n by omega) dst src
  have hlt : 0 + (jsonEscaped n src).length < n := length_escapedFrom_lt (by omega) src
  obtain ⟨dst', hstore, hdst⟩ := store_eq hlt mid 0
  refine ⟨dst', ?_, ?_⟩
  · unfold rguardJsonEscape
    rw [hloop, Option.bind_some]
    exact hstore
  · change mid.toList = _ ++ jsonEscaped n src ++ dst.toList.drop (0 + (jsonEscaped n src).length) at hmid
    rw [List.take_zero, List.nil_append, Nat.zero_add] at hmid
    rw [hdst, hmid, Nat.zero_add, List.take_left, List.drop_append,
      List.drop_of_length_le (by omega), List.nil_append, List.drop_drop, Nat.add_sub_cancel_left]

/-! ## The text -/

/-- The two digits of a control character. -/
theorem hxDigit_control (h : c < 32) : JsonText.isHex (hxDigit (c >>> 4)) = true ∧
    JsonText.isHex (hxDigit (c &&& 15)) = true ∧
      JsonText.hexValue (hxDigit (c >>> 4)) * 16 + JsonText.hexValue (hxDigit (c &&& 15)) = c.toNat := by
  have htable : ∀ i < 32, JsonText.isHex (hxDigit (i.toUInt8 >>> (4 : UInt8))) = true ∧
      JsonText.isHex (hxDigit (i.toUInt8 &&& 15)) = true ∧
        JsonText.hexValue (hxDigit (i.toUInt8 >>> (4 : UInt8))) * 16 + JsonText.hexValue (hxDigit (i.toUInt8 &&& 15)) =
          i.toUInt8.toNat := by decide
  have hrow := htable c.toNat (UInt8.lt_iff_toNat_lt.1 h)
  rwa [Nat.toUInt8_eq, UInt8.ofNat_toNat] at hrow

/-- The forms of a byte: one of the two that get a backslash, a control character, or itself. -/
theorem escapeByte_cases (c : UInt8) :
    (JsonText.shortEscape c = some c ∧ escapeByte c = [JsonText.backslash, c]) ∨
      (c < 32 ∧ escapeByte c =
        [JsonText.backslash, 117, 48, 48, hxDigit (c >>> 4), hxDigit (c &&& 15)]) ∨
      (JsonText.isPlain c = true ∧ escapeByte c = [c]) := by
  unfold escapeByte
  split_ifs with hshort hcontrol
  · refine .inl ⟨?_, rfl⟩
    unfold JsonText.shortEscape
    rw [if_pos (hshort.imp_right .inl)]
  · exact .inr (.inl ⟨hcontrol, rfl⟩)
  · refine .inr (.inr ⟨?_, rfl⟩)
    rw [not_or] at hshort
    simp only [JsonText.isPlain, Bool.and_eq_true, decide_eq_true_eq]
    exact ⟨⟨UInt8.not_lt.1 hcontrol, hshort.1⟩, hshort.2⟩

theorem body_escapeByte (c : UInt8) : JsonText.Body (escapeByte c) := by
  rcases escapeByte_cases c with ⟨hshort, heq⟩ | ⟨hcontrol, heq⟩ | ⟨hplain, heq⟩
  · rw [heq]
    exact .short (by rw [hshort]; rfl) .nil
  · obtain ⟨hhigh, hlow, -⟩ := hxDigit_control hcontrol
    rw [heq]
    exact .unicode (by decide) (by decide) hhigh hlow .nil
  · rw [heq]
    exact .plain hplain .nil

theorem unescape_escapeByte (c : UInt8) (s : CStr) :
    JsonText.unescape (escapeByte c ++ s) = (JsonText.unescape s).map (c :: ·) := by
  rcases escapeByte_cases c with ⟨hshort, heq⟩ | ⟨hcontrol, heq⟩ | ⟨hplain, heq⟩
  · rw [heq]
    exact JsonText.unescape_short hshort
  · obtain ⟨hhigh, hlow, hvalue⟩ := hxDigit_control hcontrol
    rw [heq]
    refine JsonText.unescape_unicode (by decide) (by decide) hhigh hlow ?_
      (UInt8.lt_trans hcontrol (by decide))
    rw [← hvalue, show JsonText.hexValue 48 = 0 by decide]
    omega
  · rw [heq]
    exact JsonText.unescape_plain hplain

theorem body_escapeText (src : CStr) : JsonText.Body (escapeText src) := by
  induction src with
  | nil => exact .nil
  | cons c src ih =>
    rw [escapeText_cons]
    exact (body_escapeByte c).append ih

theorem unescape_escapeText (src : CStr) : JsonText.unescape (escapeText src) = some src := by
  induction src with
  | nil => rfl
  | cons c src ih => rw [escapeText_cons, unescape_escapeByte, ih, Option.map_some]

/-- What the array holds is a string that ends inside it, and the bytes behind it stay. -/
theorem rguardJsonEscape_cstr (hn : 1 ≤ n) (dst : Vector UInt8 n) (src : CStr) :
    ∃ dst', rguardJsonEscape dst src = some dst' ∧ cstrOf dst' = jsonEscaped n src ∧
      dst'.toList = jsonEscaped n src ++ 0 :: dst.toList.drop ((jsonEscaped n src).length + 1) := by
  obtain ⟨dst', hescape, hdst⟩ := rguardJsonEscape_eq hn dst src
  have hzero : ∀ b ∈ jsonEscaped n src, (decide (b ≠ 0)) = true := fun b hb =>
    decide_eq_true fun h => (body_escapeText _).zero_not_mem (h ▸ hb)
  refine ⟨dst', hescape, ?_, hdst⟩
  rw [cstrOf, hdst, List.takeWhile_append_of_pos hzero]
  simp

end

/-- Every write is inside the buffer, which holds a terminated string then; it is the text of a JSON
string, and undone it is a prefix of the source. The prefix is all of the source where its escaped
form leaves more than six bytes. -/
theorem json_escape_bounded {n : Nat} (hn : 1 ≤ n) (dst : Vector UInt8 n) (src : CStr) :
    ∃ dst' k, rguardJsonEscape dst src = some dst' ∧ (cstrOf dst').length < n ∧
      dst'.toList = cstrOf dst' ++ 0 :: dst.toList.drop ((cstrOf dst').length + 1) ∧
      JsonText.Body (cstrOf dst') ∧ JsonText.unescape (cstrOf dst') = some (src.take k) ∧
      (((escapeText src).length : Int) < n - 6 → src.take k = src) := by
  obtain ⟨dst', hescape, hcstr, hdst⟩ := rguardJsonEscape_cstr hn dst src
  have hlt : 0 + (jsonEscaped n src).length < n := length_escapedFrom_lt (by omega) src
  refine ⟨dst', escapedCount n 0 src, hescape, ?_, ?_, ?_, ?_, fun hshort => ?_⟩
  · rw [hcstr]
    omega
  · rw [hcstr]
    exact hdst
  · rw [hcstr]
    exact body_escapeText _
  · rw [hcstr]
    exact unescape_escapeText _
  · have hsplit := List.take_append_drop (escapedCount n 0 src) src
    cases hrest : src.drop (escapedCount n 0 src) with
    | nil => rwa [hrest, List.append_nil] at hsplit
    | cons c rest =>
      have hpos := length_escapeByte_pos c
      have hlen : (escapeText src).length = (escapedFrom n 0 src).length + (escapeText (c :: rest)).length := by
        rw [← List.length_append, ← hrest, escapedFrom, ← escapeText_append, hsplit]
      rw [escapeText_cons, List.length_append] at hlen
      rcases escapedCount_spec n 0 src with hall | hfull
      · rw [hall, List.drop_length] at hrest
        cases hrest
      · omega

/-- `say "hi"` in a buffer of 32 bytes. -/
theorem json_escape_hi : 1 ≤ 32 ∧ ∃ dst' k,
    rguardJsonEscape (Vector.replicate 32 0xAA) (lit "say \"hi\"") = some dst' ∧ (cstrOf dst').length < 32 ∧
      dst'.toList = cstrOf dst' ++ 0 :: (Vector.replicate 32 (0xAA : UInt8)).toList.drop ((cstrOf dst').length + 1) ∧
      JsonText.Body (cstrOf dst') ∧ JsonText.unescape (cstrOf dst') = some ((lit "say \"hi\"").take k) ∧
      (((escapeText (lit "say \"hi\"")).length : Int) < (32 : Nat) - 6 →
        (lit "say \"hi\"").take k = lit "say \"hi\"") :=
  ⟨by decide, json_escape_bounded (by decide) _ _⟩

example : jsonEscaped 8 (lit "\"1234567890\"") = lit "\\\"" := by decide

end GfrGuard
