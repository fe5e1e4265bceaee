import Mathlib.Tactic.IntervalCases
import GfrGuard.Cjson

/-!
# What cJSON prints and reads back

The program reads a policy file, changes the document and prints it over the file. What is printed
is read back as it was (`cjson_round_trip`), whatever follows it, if the document is no deeper than
the parser goes, its strings are C strings and its numbers are kept (`NumberKept`). Every integer of
an `int` is kept; of other numbers the printer takes 15 digits for enough when they give about the
same number.
-/

namespace GfrGuard

open JsonText (quote backslash)

/-- At most so many bytes of a number, which starts as one. -/
def NumberBytes (n : Nat) (s : CStr) : Prop :=
  s.length ≤ n ∧ (∀ b ∈ s, isNumberByte b = true) ∧ ∃ b ∈ s.head?, b = dash ∨ isDigit b = true

/-- A number whose text is read as itself. -/
def NumberKept (q : Rat) : Prop := NumberBytes 63 (printNumber q) ∧ strtod (printNumber q) = some (q, [])

namespace Json

/-- A value that is read back when it is printed at a depth. -/
inductive Keeps : Nat → Json → Prop where
  | null {d : Nat} : Keeps d .null
  | bool {d : Nat} (b : Bool) : Keeps d (.bool b)
  | num {d : Nat} {q : Rat} (h : NumberKept q) : Keeps d (.num q)
  | str {d : Nat} {s : CStr} (h : 0 ∉ s) : Keeps d (.str s)
  | arr {d : Nat} {items : List Json} (hd : d < nestingLimit) (h : ∀ item ∈ items, Keeps (d + 1) item) :
    Keeps d (.arr items)
  | obj {d : Nat} {fields : List (CStr × Json)} (hd : d < nestingLimit) (hnames : ∀ f ∈ fields, 0 ∉ f.1)
    (h : ∀ f ∈ fields, Keeps (d + 1) f.2) : Keeps d (.obj fields)

end Json

/-- What is behind a number, as far as it ends there. -/
def EndsNumber (rest : CStr) : Prop := ∀ b ∈ rest.head?, isNumberByte b = false

section
variable {b : UInt8} {s t rest : CStr} {n d : Nat} {q : Rat}

/-! ## Blanks -/

theorem skipWhitespace_cons (h : 32 < b) (s : CStr) : skipWhitespace (b :: s) = b :: s :=
  List.dropWhile_cons_of_neg (by rw [decide_eq_true_eq, UInt8.not_le]; exact h)

theorem skipWhitespace_blank (h : b ≤ 32) (s : CStr) : skipWhitespace (b :: s) = skipWhitespace s :=
  List.dropWhile_cons_of_pos (decide_eq_true h)

theorem skipWhitespace_tabs (d : Nat) (s : CStr) : skipWhitespace (tabs d ++ s) = skipWhitespace s := by
  induction d with
  | zero => rfl
  | succ d ih =>
    rw [tabs, List.replicate_succ, List.cons_append, skipWhitespace_blank (by decide)]
    exact ih

/-! ## Strings -/

theorem scanString_plain (hquote : b ≠ quote) (hb : b ≠ backslash) (t : CStr) :
    scanString (b :: t) = (scanString t).map fun (n, skipped) => (n + 1, skipped) := by
  cases t with
  | nil => simp [scanString, hquote]
  | cons c t => rw [scanString, if_neg hquote, if_neg hb]

theorem scanString_escape (c : UInt8) (t : CStr) :
    scanString (backslash :: c :: t) = (scanString t).map fun (n, skipped) => (n + 2, skipped + 1) := by
  rw [scanString, if_neg (by decide), if_pos rfl]

theorem scanString_quote (t : CStr) : scanString (quote :: t) = some (0, 0) := by
  cases t with
  | nil => rfl
  | cons c t => rw [scanString, if_pos rfl]

theorem unescapeString_plain (hb : b ≠ backslash) (t : CStr) :
    unescapeString (b :: t) = (b :: (unescapeString t).1, (unescapeString t).2) := by
  rw [unescapeString.eq_def]
  dsimp only
  rw [if_pos hb]

theorem unescapeString_short {c v : UInt8} (hc : c ≠ 117) (hv : JsonText.shortEscape c = some v) (t : CStr) :
    unescapeString (backslash :: c :: t) = (v :: (unescapeString t).1, (unescapeString t).2) := by
  rw [unescapeString, if_neg (not_not.2 rfl), if_neg hc, hv]

/-- A digit of `%04x` is one, and no quote or backslash. -/
theorem hexText_spec (h : n < 16) :
    JsonText.isHex (hexText n) = true ∧ JsonText.hexValue (hexText n) = n ∧ hexText n ≠ quote ∧ hexText n ≠ backslash := by
  interval_cases n <;> decide

theorem unescapeString_unicode {v : UInt8} (hv : v < 32) (t : CStr) :
    unescapeString (backslash :: 117 :: 48 :: 48 :: hexText (v.toNat / 16) :: hexText (v.toNat % 16) :: t) =
      (v :: (unescapeString t).1, (unescapeString t).2) := by
  have hlt : v.toNat < 32 := UInt8.lt_iff_toNat_lt.1 hv
  obtain ⟨hhigh, hhighv, -⟩ := hexText_spec (n := v.toNat / 16) (by omega)
  obtain ⟨hlow, hlowv, -⟩ := hexText_spec (n := v.toNat % 16) (by omega)
  have hcode : parseHex4 (48 :: 48 :: hexText (v.toNat / 16) :: hexText (v.toNat % 16) :: t) = v.toNat := by
    have hzero : JsonText.isHex 48 = true ∧ JsonText.hexValue 48 = 0 := by decide
    unfold parseHex4
    simp only [List.take_succ_cons, List.take_zero, List.all_cons, List.all_nil, hzero.1, hhigh, hlow, Bool.and_self,
      if_true, List.foldl_cons, List.foldl_nil, hzero.2, hhighv, hlowv]
    omega
  have hbytes : utf8Bytes v.toNat = [v] := by
    unfold utf8Bytes
    rw [if_pos (by omega), Nat.toUInt8_eq, UInt8.ofNat_toNat]
  have hutf : utf16LiteralToUtf8
      (backslash :: 117 :: 48 :: 48 :: hexText (v.toNat / 16) :: hexText (v.toNat % 16) :: t) = some ([v], 6) := by
    unfold utf16LiteralToUtf8
    simp only [List.drop_succ_cons, List.drop_zero, hcode, List.length_cons, hbytes]
    rw [if_neg (by omega), if_neg (by omega), if_neg (by omega)]
  rw [unescapeString, if_neg (not_not.2 rfl), if_pos rfl, hutf]
  rfl

/-- What is printed for a byte is passed over the first time, and read as the byte the second time. -/
theorem printByte_spec (hb : b ≠ 0) (t : CStr) :
    (∃ k, scanString (printByte b ++ t) = (scanString t).map fun (n, skipped) =>
        (n + (printByte b).length, skipped + k)) ∧
      unescapeString (printByte b ++ t) = (b :: (unescapeString t).1, (unescapeString t).2) := by
  unfold printByte
  split_ifs with hplain hself h8 h12 h10 h13 h9
  · exact ⟨⟨0, scanString_plain hplain.2.1 hplain.2.2 t⟩, unescapeString_plain hplain.2.2 t⟩
  · refine ⟨⟨1, scanString_escape b t⟩, ?_⟩
    rcases hself with rfl | rfl
    · exact unescapeString_short (by decide) rfl t
    · exact unescapeString_short (by decide) rfl t
  · subst h8
    exact ⟨⟨1, scanString_escape _ t⟩, unescapeString_short (by decide) rfl t⟩
  · subst h12
    exact ⟨⟨1, scanString_escape _ t⟩, unescapeString_short (by decide) rfl t⟩
  · subst h10
    exact ⟨⟨1, scanString_escape _ t⟩, unescapeString_short (by decide) rfl t⟩
  · subst h13
    exact ⟨⟨1, scanString_escape _ t⟩, unescapeString_short (by decide) rfl t⟩
  · subst h9
    exact ⟨⟨1, scanString_escape _ t⟩, unescapeString_short (by decide) rfl t⟩
  · have hcontrol : b < 32 := by
      rw [not_or] at hself
      by_contra hlt
      exact hplain ⟨by rw [UInt8.not_lt] at hlt; exact UInt8.lt_of_lt_of_le (show (31 : UInt8) < 32 by decide) hlt, hself.2, hself.1⟩
    have hlt : b.toNat < 32 := UInt8.lt_iff_toNat_lt.1 hcontrol
    obtain ⟨-, -, hq, hs⟩ := hexText_spec (n := b.toNat / 16) (by omega)
    obtain ⟨-, -, hq', hs'⟩ := hexText_spec (n := b.toNat % 16) (by omega)
    refine ⟨⟨1, ?_⟩, unescapeString_unicode hcontrol t⟩
    simp only [List.cons_append, List.nil_append]
    rw [scanString_escape, scanString_plain (by decide) (by decide), scanString_plain (by decide) (by decide),
      scanString_plain hq hs, scanString_plain hq' hs']
    simp only [Option.map_map]
    rfl

theorem printed_spec (hs : 0 ∉ s) (t : CStr) :
    (∃ k, scanString (s.flatMap printByte ++ quote :: t) = some ((s.flatMap printByte).length, k)) ∧
      unescapeString (s.flatMap printByte) = (s, true) := by
  induction s with
  | nil => exact ⟨⟨0, scanString_quote t⟩, by rw [List.flatMap_nil, unescapeString]⟩
  | cons b s ih =>
    rw [List.mem_cons, not_or] at hs
    obtain ⟨⟨k, hscan⟩, hcopy⟩ := ih hs.2
    obtain ⟨⟨k', hscan'⟩, -⟩ := printByte_spec (Ne.symm hs.1) (s.flatMap printByte ++ quote :: t)
    have hcopy' := (printByte_spec (Ne.symm hs.1) (s.flatMap printByte)).2
    rw [List.flatMap_cons]
    refine ⟨⟨k + k', ?_⟩, ?_⟩
    · rw [List.append_assoc, hscan', hscan, Option.map_some, List.length_append, Nat.add_comm]
    · rw [hcopy', hcopy]

/-- A string is read back. -/
theorem parseString_printed (hs : 0 ∉ s) (rest : CStr) : parseString (printStringPtr s ++ rest) = some (s, rest) := by
  have hclean : s.takeWhile (· ≠ 0) = s := List.takeWhile_eq_self_iff.2 fun b hb => by
    rw [decide_eq_true_eq]
    rintro rfl
    exact hs hb
  obtain ⟨⟨k, hscan⟩, hcopy⟩ := printed_spec hs rest
  have htext : printStringPtr s ++ rest = quote :: (s.flatMap printByte ++ quote :: rest) := by
    unfold printStringPtr
    rw [hclean, List.cons_append, List.append_assoc, List.singleton_append]
  rw [htext, parseString, if_neg (not_not.2 rfl), hscan]
  dsimp only
  rw [List.take_left' rfl, hcopy]
  dsimp only
  rw [if_pos rfl, hclean, ← List.drop_drop, List.drop_left' rfl]
  rfl

/-! ## Numbers -/

theorem parseNumber_printed (h : NumberKept q) (hrest : EndsNumber rest) :
    parseNumber (printNumber q ++ rest) = some (.num q, rest) := by
  obtain ⟨⟨hlen, hbytes, -⟩, hvalue⟩ := h
  have htake : (printNumber q ++ rest).takeWhile isNumberByte = printNumber q := by
    rw [List.takeWhile_append_of_pos hbytes]
    cases rest with
    | nil => rw [List.takeWhile_nil, List.append_nil]
    | cons b rest =>
      rw [List.takeWhile_cons_of_neg (by rw [hrest b rfl]; exact Bool.false_ne_true), List.append_nil]
  unfold parseNumber
  dsimp only
  rw [htake, List.take_of_length_le hlen, hvalue, List.drop_left' rfl]
  rfl

theorem isNumberByte_of_isDigit (h : isDigit b = true) : isNumberByte b = true := by
  unfold isNumberByte
  simp [h]

/-- The digits of a number are read back. -/
theorem takeWhile_dec (n : Nat) : (dec n).takeWhile isDigit = dec n ∧ (dec n).dropWhile isDigit = [] :=
  ⟨List.takeWhile_eq_self_iff.2 fun _ hb => isDigit_of_mem_dec hb,
    List.dropWhile_eq_nil_iff.2 fun _ hb => isDigit_of_mem_dec hb⟩

theorem takeSign_dec (n : Nat) : takeSign (dec n) = (false, dec n) := by
  cases hdec : dec n with
  | nil => rfl
  | cons b t =>
    have hb : isDigit b = true := isDigit_of_mem_dec (n := n) (hdec ▸ List.mem_cons_self)
    have hsign : b ≠ dash ∧ b ≠ plus := by
      constructor <;> rintro rfl <;> cases hb
    rw [takeSign, if_neg hsign.1, if_neg hsign.2]

theorem strtod_intText {k : Int} (hk : |k| < 2 ^ 53) : strtod (intText k) = some ((k : Rat), []) := by
  have hunsigned : ∀ (negative : Bool) (n : Nat), takeSign (intText k) = (negative, dec n) →
      (if negative then -(n : Rat) else n) = k → strtod (intText k) = some ((k : Rat), []) := by
    intro negative n hsign hvalue
    unfold strtod
    rw [hsign]
    dsimp only
    rw [(takeWhile_dec n).1, (takeWhile_dec n).2, takeFraction]
    dsimp only
    rw [if_neg fun h => dec_ne_nil n h.1, takeExponent, List.append_nil, digitsValue_dec, List.length_nil]
    norm_num
    rw [hvalue]
    exact Binary64.round_intCast hk
  unfold intText at hunsigned ⊢
  by_cases hneg : k < 0
  · rw [if_pos hneg] at hunsigned ⊢
    refine hunsigned true k.natAbs ?_ ?_
    · rw [takeSign, if_pos rfl]
    · rw [if_pos rfl, ← Int.cast_natCast, ← Int.cast_neg, Int.ofNat_natAbs_of_nonpos hneg.le, neg_neg]
  · rw [if_neg hneg] at hunsigned ⊢
    refine hunsigned false k.natAbs (takeSign_dec _) ?_
    rw [if_neg Bool.false_ne_true, ← Int.cast_natCast, Int.natAbs_of_nonneg (Int.not_lt.1 hneg)]

theorem intText_numberBytes {k : Int} (hk : |k| < 10 ^ 10) : NumberBytes 11 (intText k) := by
  have hdigits : ∀ b ∈ intText k, b = dash ∨ isDigit b = true := by
    intro b hb
    unfold intText at hb
    split at hb
    · exact (List.mem_cons.1 hb).imp id isDigit_of_mem_dec
    · exact .inr (isDigit_of_mem_dec hb)
  refine ⟨?_, fun b hb => ?_, ?_⟩
  · have hlen : (dec k.natAbs).length ≤ 10 := (length_dec_le (by decide)).2 (by rw [abs_lt] at hk; omega)
    unfold intText
    split
    · rw [List.length_cons]
      omega
    · omega
  · rcases hdigits b hb with rfl | hdigit
    · rfl
    · exact isNumberByte_of_isDigit hdigit
  · cases htext : intText k with
    | nil =>
      unfold intText at htext
      split at htext
      · cases htext
      · exact absurd htext (dec_ne_nil _)
    | cons b t => exact ⟨b, rfl, hdigits b (htext ▸ List.mem_cons_self)⟩

/-- Every `int` is printed as one, and read back. -/
theorem printNumber_int {k : Int} (hlow : -2147483648 ≤ k) (hhigh : k ≤ 2147483647) :
    NumberBytes 11 (printNumber k) ∧ strtod (printNumber k) = some ((k : Rat), []) := by
  have hsmall : |k| < 2 ^ 53 := abs_lt.2 ⟨by omega, by omega⟩
  have hvalue : Json.valueInt (k : Rat) = k := by
    unfold Json.valueInt
    split
    · next h =>
      have : (2147483647 : Int) ≤ k := by exact_mod_cast h
      omega
    · split
      · next h =>
        have : k ≤ -2147483648 := by exact_mod_cast h
        omega
      · rw [Rat.num_intCast, Rat.den_intCast, Nat.cast_one, Int.tdiv_one]
  have htext : printNumber (k : Rat) = intText k := by
    unfold printNumber
    have habs : |(k : Rat)| < Binary64.infinite := by
      have hlt : |(k : Rat)| < 2 ^ 53 := by exact_mod_cast hsmall
      exact hlt.trans (pow_lt_pow_right₀ one_lt_two (by norm_num))
    rw [if_neg (not_le.2 habs), hvalue, if_pos rfl]
  rw [htext]
  exact ⟨intText_numberBytes (abs_lt.2 ⟨by omega, by omega⟩), strtod_intText hsmall⟩

theorem NumberBytes.mono {m n : Nat} {s : CStr} (h : NumberBytes m s) (hle : m ≤ n) : NumberBytes n s :=
  ⟨h.1.trans hle, h.2⟩

theorem numberKept_int {k : Int} (hlow : -2147483648 ≤ k) (hhigh : k ≤ 2147483647) : NumberKept k := by
  obtain ⟨hbytes, hvalue⟩ := printNumber_int hlow hhigh
  exact ⟨hbytes.mono (by decide), hvalue⟩

/-! ## Values -/

/-- A value is read back at a depth, with rounds enough. -/
def ReadBack (d : Nat) (v : Json) : Prop :=
  ∀ n rest, EndsNumber rest → (printValue d v).length ≤ n → parseValue n d (printValue d v ++ rest) = some (v, rest)

/-- The text of a value starts with an ASCII character, not with a blank or the end of an array. -/
def Headed (text : CStr) : Prop := ∃ b t, text = b :: t ∧ 32 < b ∧ b ≠ 93 ∧ b < 128

theorem Headed.skip (h : Headed s) (t : CStr) : skipWhitespace (s ++ t) = s ++ t := by
  obtain ⟨b, s, rfl, hb, -⟩ := h
  exact skipWhitespace_cons hb _

theorem Json.Keeps.headed {v : Json} (h : v.Keeps d) : Headed (printValue d v) := by
  cases h with
  | null => exact ⟨110, _, rfl, by decide, by decide, by decide⟩
  | bool b =>
    cases b with
    | true => exact ⟨116, _, rfl, by decide, by decide, by decide⟩
    | false => exact ⟨102, _, rfl, by decide, by decide, by decide⟩
  | num hkept =>
    obtain ⟨⟨-, -, b, hb, hkind⟩, -⟩ := hkept
    obtain ⟨t, ht⟩ := List.head?_eq_some_iff.1 hb
    refine ⟨b, t, by rw [printValue]; exact ht, ?_⟩
    rcases hkind with rfl | hdigit
    · exact ⟨by decide, by decide, by decide⟩
    · have hne : b ≠ 93 := by
        rintro rfl
        cases hdigit
      unfold isDigit at hdigit
      rw [Bool.and_eq_true, decide_eq_true_eq, decide_eq_true_eq] at hdigit
      exact ⟨UInt8.lt_of_lt_of_le (show (32 : UInt8) < 48 by decide) hdigit.1, hne,
        UInt8.lt_of_le_of_lt hdigit.2 (show (57 : UInt8) < 128 by decide)⟩
  | str => exact ⟨quote, _, by rw [printValue, printStringPtr], by decide, by decide, by decide⟩
  | arr => exact ⟨91, _, by rw [printValue], by decide, by decide, by decide⟩
  | obj => exact ⟨123, _, by rw [printValue], by decide, by decide, by decide⟩

theorem parseValue_cons (hn : b ≠ 110) (hf : b ≠ 102) (ht : b ≠ 116) (n d : Nat) (rest : CStr) :
    parseValue (n + 1) d (b :: rest) =
      if b = quote then (parseString (b :: rest)).map fun (str, rest) => (.str str, rest)
      else if b = dash ∨ isDigit b then parseNumber (b :: rest)
      else if b = 91 then
        if nestingLimit ≤ d then none
        else if (skipWhitespace rest).head? = some 93 then some (.arr [], (skipWhitespace rest).drop 1)
        else (parseElements n (d + 1) rest).map fun (items, rest) => (.arr items, rest)
      else if b = 123 then
        if nestingLimit ≤ d then none
        else if (skipWhitespace rest).head? = some 125 then some (.obj [], (skipWhitespace rest).drop 1)
        else (parseMembers n (d + 1) rest).map fun (fields, rest) => (.obj fields, rest)
      else none := by
  have hword : ∀ (c : UInt8) (w : CStr), b ≠ c → ¬ c :: w <+: b :: rest := fun c w hne h =>
    hne (List.cons_prefix_cons.1 h).1.symm
  rw [parseValue, if_neg (show ¬ lit "null" <+: b :: rest from hword 110 (lit "ull") hn),
    if_neg (show ¬ lit "false" <+: b :: rest from hword 102 (lit "alse") hf),
    if_neg (show ¬ lit "true" <+: b :: rest from hword 116 (lit "rue") ht)]

/-- The elements of an array are read back, after blanks. -/
theorem parseElements_printed {items : List Json} (hne : items ≠ [])
    (hitems : ∀ item ∈ items, ReadBack d item ∧ Headed (printValue d item))
    (hs : skipWhitespace s = printItems d items ++ 93 :: rest) (hn : (printItems d items).length < n) :
    parseElements n d s = some (items, rest) := by
  induction items generalizing n s with
  | nil => exact absurd rfl hne
  | cons item items ih =>
    cases n with
    | zero => omega
    | succ n =>
      rw [List.forall_mem_cons] at hitems
      rw [printItems, List.length_append, List.length_append] at hn
      rw [printItems, List.append_assoc, List.append_assoc] at hs
      rw [parseElements, hs]
      cases items with
      | nil =>
        have hread := hitems.1.1 n (93 :: rest) (fun b hb => by cases hb; rfl) (by omega)
        rw [List.isEmpty_nil, if_pos rfl, printItems, List.nil_append, List.nil_append, hread, Option.bind_some]
        dsimp only
        rw [skipWhitespace_cons (by decide)]
        rfl
      | cons next items =>
        have hread := hitems.1.1 n (44 :: 32 :: (printItems d (next :: items) ++ 93 :: rest))
          (fun b hb => by cases hb; rfl) (by omega)
        have hnext : skipWhitespace (32 :: (printItems d (next :: items) ++ 93 :: rest)) =
            printItems d (next :: items) ++ 93 :: rest := by
          rw [skipWhitespace_blank (by decide), printItems, List.append_assoc]
          exact (hitems.2 next List.mem_cons_self).2.skip _
        rw [List.isEmpty_cons, if_neg Bool.false_ne_true, List.cons_append, List.cons_append, List.nil_append, hread,
          Option.bind_some]
        dsimp only
        rw [skipWhitespace_cons (by decide)]
        dsimp only
        rw [if_pos rfl, ih (List.cons_ne_nil _ _) hitems.2 hnext (by
          rw [List.isEmpty_cons, if_neg Bool.false_ne_true] at hn
          simp only [List.length_cons, List.length_nil] at hn
          omega)]
        rfl

/-- The fields of an object are read back, after blanks. -/
theorem parseMembers_printed {fields : List (CStr × Json)} {e : Nat} (hne : fields ≠ [])
    (hnames : ∀ f ∈ fields, 0 ∉ f.1) (hfields : ∀ f ∈ fields, ReadBack d f.2 ∧ Headed (printValue d f.2))
    (hs : skipWhitespace s = skipWhitespace (printFields d fields ++ (tabs e ++ 125 :: rest)))
    (hn : (printFields d fields).length < n) : parseMembers n d s = some (fields, rest) := by
  induction fields generalizing n s with
  | nil => exact absurd rfl hne
  | cons field fields ih =>
    obtain ⟨name, item⟩ := field
    cases n with
    | zero => omega
    | succ n =>
      rw [List.forall_mem_cons] at hnames hfields
      have hitem : (printValue d item).length ≤ n := by
        rw [printFields] at hn
        simp only [List.length_append, List.length_cons] at hn
        omega
      have hfirst : skipWhitespace s = printStringPtr name ++ (colon :: 9 :: (printValue d item ++
          ((if fields.isEmpty then [] else [44]) ++ newline :: (printFields d fields ++ (tabs e ++ 125 :: rest))))) := by
        rw [hs, printFields]
        simp only [List.append_assoc, List.cons_append]
        rw [skipWhitespace_tabs]
        exact skipWhitespace_cons (show (32 : UInt8) < quote by decide) _
      rw [parseMembers, hfirst, parseString_printed hnames.1, Option.bind_some]
      dsimp only
      rw [skipWhitespace_cons (show (32 : UInt8) < colon by decide)]
      dsimp only
      rw [if_neg (not_not.2 rfl), skipWhitespace_blank (by decide), hfields.1.2.skip]
      cases fields with
      | nil =>
        rw [List.isEmpty_nil, if_pos rfl, List.nil_append, printFields, List.nil_append,
          hfields.1.1 n _ (fun b hb => by cases hb; rfl) hitem, Option.bind_some]
        dsimp only
        rw [skipWhitespace_blank (by decide), skipWhitespace_tabs, skipWhitespace_cons (by decide)]
        rfl
      | cons next fields =>
        rw [List.isEmpty_cons, if_neg Bool.false_ne_true, List.cons_append, List.nil_append,
          hfields.1.1 n _ (fun b hb => by cases hb; rfl) hitem, Option.bind_some]
        dsimp only
        rw [skipWhitespace_cons (by decide)]
        dsimp only
        rw [if_pos rfl, ih (List.cons_ne_nil _ _) hnames.2 hfields.2 (skipWhitespace_blank (by decide) _) (by
          rw [printFields] at hn
          simp only [List.length_append, List.length_cons] at hn
          omega)]
        rfl

/-- A value that keeps is read back. -/
theorem Json.Keeps.readBack {v : Json} (h : v.Keeps d) : ReadBack d v := by
  induction h with
  | null =>
    intro n rest _ hn
    rw [printValue] at hn ⊢
    cases n with
    | zero => exact absurd hn (by decide)
    | succ n => rfl
  | bool b =>
    intro n rest _ hn
    cases b with
    | true =>
      rw [printValue, if_pos rfl] at hn ⊢
      cases n with
      | zero => exact absurd hn (by decide)
      | succ n => rfl
    | false =>
      rw [printValue, if_neg Bool.false_ne_true] at hn ⊢
      cases n with
      | zero => exact absurd hn (by decide)
      | succ n => rfl
  | @num d q hkept =>
    intro n rest hrest hn
    have hnumber := parseNumber_printed hkept hrest
    obtain ⟨⟨-, -, b, hb, hkind⟩, -⟩ := hkept
    obtain ⟨t, ht⟩ := List.head?_eq_some_iff.1 hb
    rw [printValue] at hn ⊢
    rw [ht, List.cons_append] at hnumber ⊢
    rw [ht] at hn
    cases n with
    | zero => exact absurd hn (Nat.not_succ_le_zero _)
    | succ n =>
      have hne : b ≠ 110 ∧ b ≠ 102 ∧ b ≠ 116 ∧ b ≠ quote := by
        refine ⟨?_, ?_, ?_, ?_⟩ <;> rintro rfl <;> exact absurd hkind (by decide)
      rw [parseValue_cons hne.1 hne.2.1 hne.2.2.1, if_neg hne.2.2.2, if_pos hkind, hnumber]
  | @str d s hs =>
    intro n rest _ hn
    rw [printValue] at hn ⊢
    cases n with
    | zero =>
      unfold printStringPtr at hn
      exact absurd hn (Nat.not_succ_le_zero _)
    | succ n =>
      have hstring := parseString_printed hs rest
      unfold printStringPtr at hstring ⊢
      rw [List.cons_append] at hstring ⊢
      rw [parseValue_cons (by decide) (by decide) (by decide), if_pos rfl, hstring]
      rfl
  | @arr d items hd hitems ih =>
    intro n rest _ hn
    rw [printValue] at hn ⊢
    rw [List.length_cons, List.length_append] at hn
    cases n with
    | zero => omega
    | succ n =>
      rw [List.cons_append, List.append_assoc, List.singleton_append,
        parseValue_cons (by decide) (by decide) (by decide), if_neg (by decide), if_neg (by decide), if_pos rfl,
        if_neg (Nat.not_le.2 hd)]
      cases items with
      | nil =>
        rw [printItems, List.nil_append, skipWhitespace_cons (by decide)]
        rfl
      | cons item items =>
        have hall := fun v hv => And.intro (ih v hv) (hitems v hv).headed
        have hhead : skipWhitespace (printItems (d + 1) (item :: items) ++ 93 :: rest) =
            printItems (d + 1) (item :: items) ++ 93 :: rest := by
          rw [printItems, List.append_assoc]
          exact (hall item List.mem_cons_self).2.skip _
        have hopen : (printItems (d + 1) (item :: items) ++ 93 :: rest).head? ≠ some 93 := by
          obtain ⟨b, t, ht, -, hb, -⟩ := (hall item List.mem_cons_self).2
          rw [printItems, ht]
          exact fun h => hb (Option.some.inj h)
        rw [hhead, if_neg hopen, parseElements_printed (List.cons_ne_nil _ _) hall hhead (by
          simp only [List.length_singleton] at hn
          omega)]
        rfl
  | @obj d fields hd hnames hfields ih =>
    intro n rest _ hn
    rw [printValue] at hn ⊢
    rw [List.length_cons, List.length_cons, List.length_append] at hn
    cases n with
    | zero => omega
    | succ n =>
      rw [List.cons_append, List.cons_append, List.append_assoc, List.append_assoc, List.singleton_append,
        parseValue_cons (by decide) (by decide) (by decide), if_neg (by decide), if_neg (by decide),
        if_neg (by decide), if_pos rfl, if_neg (Nat.not_le.2 hd), skipWhitespace_blank (by decide)]
      cases fields with
      | nil =>
        rw [printFields, List.nil_append, skipWhitespace_tabs, skipWhitespace_cons (by decide)]
        rfl
      | cons field fields =>
        have hall := fun f hf => And.intro (ih f hf) (hfields f hf).headed
        have hopen : (skipWhitespace (printFields (d + 1) (field :: fields) ++ (tabs d ++ 125 :: rest))).head? ≠
            some 125 := by
          obtain ⟨name, item⟩ := field
          rw [printFields, List.append_assoc, skipWhitespace_tabs, List.append_assoc, printStringPtr, List.cons_append,
            skipWhitespace_cons (by decide)]
          exact fun h => absurd (Option.some.inj h) (by decide)
        rw [if_neg hopen, parseMembers_printed (List.cons_ne_nil _ _) hnames hall (skipWhitespace_blank (by decide) _) (by
          omega)]
        rfl

end

theorem Json.Keeps.parse_print {j : Json} (h : j.Keeps 0) {rest : CStr} (hrest : EndsNumber rest) :
    cjsonParse (cjsonPrint j ++ rest) = some j := by
  have hheaded := h.headed
  have hbom : skipUtf8Bom (cjsonPrint j ++ rest) = cjsonPrint j ++ rest := by
    obtain ⟨b, t, ht, -, -, hascii⟩ := hheaded
    unfold skipUtf8Bom
    rw [if_neg]
    rintro ⟨-, hmark⟩
    unfold cjsonPrint at hmark
    rw [ht] at hmark
    rw [(List.cons.inj hmark).1] at hascii
    exact absurd hascii (by decide)
  unfold cjsonParse
  rw [hbom]
  unfold cjsonPrint
  rw [hheaded.skip, h.readBack _ rest hrest (by rw [List.length_append]; omega)]
  rfl

/-- What is printed of a document is read back as it was, whatever is behind it that is no part of a
number, if the document is not too deep, its strings are C strings and its numbers are kept. -/
theorem cjson_round_trip (j : Json) (h : j.Keeps 0) (rest : CStr) (hrest : EndsNumber rest) :
    cjsonParse (cjsonPrint j ++ rest) = some j := h.parse_print hrest

/-- A policy with an address, a level and a weight. -/
theorem cjson_round_trip_sample :
    cjsonParse (cjsonPrint (.obj [(lit "ips", .arr [.str (lit "10.0.0.9"), .null]),
        (lit "enabled", .bool true), (lit "weight", .num ((-25 : Int) : Rat))]) ++ [newline]) =
      some (.obj [(lit "ips", .arr [.str (lit "10.0.0.9"), .null]),
        (lit "enabled", .bool true), (lit "weight", .num ((-25 : Int) : Rat))]) := by
  refine cjson_round_trip _ (.obj (by decide) (by decide) ?_) [newline] (by
    rintro _ ⟨⟩
    rfl)
  simp only [List.forall_mem_cons]
  refine ⟨.arr (by decide) ?_, .bool _, .num (numberKept_int (by decide) (by decide)), by simp⟩
  simp only [List.forall_mem_cons]
  exact ⟨.str (by decide), .null, by simp⟩

end GfrGuard
