import Mathlib.Data.List.DropRight
import GfrGuard.Json
import GfrGuard.Lib.Binary64
import GfrGuard.Lib.JsonText

/-!
# The texts of cJSON

`cJSON_Parse` and `cJSON_Print`, the texts taken as lists of bytes and the depth of nesting and the
rounds of the recursion counted. A string is gone over twice: once for its end and for how much is to be
allocated, once to copy it; the two may see different escapes, as a `\u` takes four bytes whatever
they are. Still nothing is written beyond what was allocated (`parse_string_in_bounds`).
-/

namespace GfrGuard

open JsonText (quote backslash)

/-! ## Numbers -/

/-- The byte `+`. -/
abbrev plus : UInt8 := 43

/-- A byte that `parse_number` copies. -/
def isNumberByte (b : UInt8) : Bool := isDigit b || b = plus || b = dash || b = dot || b = 101 || b = 69

/-- A sign, and what is behind it. -/
def takeSign (s : CStr) : Bool × CStr :=
  match s with
  | [] => (false, [])
  | b :: rest => if b = dash then (true, rest) else if b = plus then (false, rest) else (false, s)

/-- The digits after a point, and what is behind them; the point alone when there are none. -/
def takeFraction (s : CStr) : CStr × CStr :=
  match s with
  | [] => ([], [])
  | b :: rest => if b = dot then (rest.takeWhile isDigit, rest.dropWhile isDigit) else ([], s)

/-- An exponent, and what is behind it; none without a digit. -/
def takeExponent (s : CStr) : Int × CStr :=
  match s with
  | [] => (0, [])
  | b :: rest =>
    let (negative, digits) := takeSign rest
    if (b = 101 ∨ b = 69) ∧ digits.takeWhile isDigit ≠ [] then
      let e : Int := digitsValue (digits.takeWhile isDigit)
      (if negative then -e else e, digits.dropWhile isDigit)
    else (0, s)

/-- `strtod` of bytes of numbers: the value, and what is behind it. -/
def strtod (s : CStr) : Option (Rat × CStr) :=
  let (negative, body) := takeSign s
  let whole := body.takeWhile isDigit
  let (fraction, behind) := takeFraction (body.dropWhile isDigit)
  if whole = [] ∧ fraction = [] then none
  else
    let (e, rest) := takeExponent behind
    let v := (digitsValue (whole ++ fraction) : Rat) * 10 ^ (e - fraction.length)
    some (Binary64.round (if negative then -v else v), rest)

/-- `parse_number`: at most 63 bytes go to `strtod`. -/
def parseNumber (s : CStr) : Option (Json × CStr) :=
  let number := (s.takeWhile isNumberByte).take 63
  (strtod number).map fun (v, rest) => (.num v, rest ++ s.drop number.length)

/-- The digits without the zeros at the end. -/
def stripZeros (digits : CStr) : CStr := digits.rdropWhile (· = 48)

/-- A point and digits, or nothing. -/
def fractionText (digits : CStr) : CStr := if digits = [] then [] else dot :: digits

/-- The digits that `%1.*g` shows of a number, as an integer, and the exponent of the first of them. -/
def gDigits (precision : Nat) (q : Rat) : Nat × Int :=
  let m := (Binary64.digits precision q).toNat
  let x := Binary64.exponent 10 |q|
  if m = 10 ^ precision then (10 ^ (precision - 1), x + 1) else (m, x)

/-- Digits, laid out by the exponent of the first of them. -/
def gLayout (precision : Nat) (digits : CStr) (x : Int) : CStr :=
  if x < -4 ∨ precision ≤ x then
    digits.take 1 ++ (fractionText (digits.drop 1) ++ 101 :: (if x < 0 then dash else plus) :: decPad 2 x.natAbs)
  else if x < 0 then 48 :: fractionText (List.replicate (x.natAbs - 1) 48 ++ digits)
  else
    let padded := digits ++ List.replicate (x.toNat + 1 - digits.length) 48
    padded.take (x.toNat + 1) ++ fractionText (padded.drop (x.toNat + 1))

/-- `%1.*g` of a number that is not zero. -/
def gText (precision : Nat) (q : Rat) : CStr :=
  (if q < 0 then [dash] else []) ++
    gLayout precision (stripZeros (dec (gDigits precision q).1)) (gDigits precision q).2

/-- `compare_double`. -/
def compareDouble (a b : Rat) : Bool :=
  |Binary64.round (a - b)| ≤ Binary64.round (max |a| |b| * 2 ^ (-52 : Int))

/-- `print_number`. -/
def printNumber (q : Rat) : CStr :=
  if Binary64.infinite ≤ |q| then lit "null"
  else if q = Json.valueInt q then intText (Json.valueInt q)
  else
    -- 15 digits when they are enough
    match strtod (gText 15 q) with
    | some (v, _) => if compareDouble v q then gText 15 q else gText 17 q
    | none => gText 17 q

/-! ## Strings -/

/-- `parse_hex4`: zero when one of the bytes is no digit. -/
def parseHex4 (s : CStr) : Nat :=
  if (s.take 4).all JsonText.isHex then (s.take 4).foldl (fun h b => h * 16 + JsonText.hexValue b) 0 else 0

/-- A code point in UTF-8. -/
def utf8Bytes (c : Nat) : List UInt8 :=
  if c < 0x80 then [c.toUInt8]
  else if c < 0x800 then [(0xC0 + c / 64).toUInt8, (0x80 + c % 64).toUInt8]
  else if c < 0x10000 then
    [(0xE0 + c / 4096).toUInt8, (0x80 + c / 64 % 64).toUInt8, (0x80 + c % 64).toUInt8]
  else
    [(0xF0 + c / 262144).toUInt8, (0x80 + c / 4096 % 64).toUInt8, (0x80 + c / 64 % 64).toUInt8,
      (0x80 + c % 64).toUInt8]

/-- `utf16_literal_to_utf8` of what is left of a string: the bytes, and how many it took. -/
def utf16LiteralToUtf8 (input : CStr) : Option (List UInt8 × Nat) :=
  if input.length < 6 then none
  else
    let first := parseHex4 (input.drop 2)
    if 0xDC00 ≤ first ∧ first ≤ 0xDFFF then none
    else if 0xD800 ≤ first ∧ first ≤ 0xDBFF then
      let second := input.drop 6
      if second.length < 6 then none
      else if second.take 2 ≠ [backslash, 117] then none
      else
        let low := parseHex4 (second.drop 2)
        if low < 0xDC00 ∨ 0xDFFF < low then none
        else some (utf8Bytes (0x10000 + first % 1024 * 1024 + low % 1024), 12)
    else some (utf8Bytes first, 6)

/-- The first time over a string: its length up to the quote that ends it, and the escapes on the
way. -/
def scanString : CStr → Option (Nat × Nat)
  | [] => none
  | [b] => if b = quote then some (0, 0) else none
  | b :: c :: rest =>
    if b = quote then some (0, 0)
    else if b = backslash then (scanString rest).map fun (n, skipped) => (n + 2, skipped + 1)
    else (scanString (c :: rest)).map fun (n, skipped) => (n + 1, skipped)

/-- The second time over it: what is written, and that no escape was wrong. -/
def unescapeString (input : CStr) : List UInt8 × Bool :=
  match input with
  | [] => ([], true)
  | b :: rest =>
    if b ≠ backslash then
      let (out, ok) := unescapeString rest
      (b :: out, ok)
    else
      match rest with
      -- the quote that ends the string
      | [] => ([quote], true)
      | c :: rest =>
        if c = 117 then
          match utf16LiteralToUtf8 (b :: c :: rest) with
          | none => ([], false)
          | some (bytes, n) =>
            let (out, ok) := unescapeString (rest.drop (n - 2))
            (bytes ++ out, ok)
        else
          match JsonText.shortEscape c with
          | none => ([], false)
          | some v =>
            let (out, ok) := unescapeString rest
            (v :: out, ok)
termination_by input.length
decreasing_by all_goals simp_wf; all_goals omega

/-- `parse_string` of a text that starts with a quote: the string, and what is behind it. -/
def parseString (s : CStr) : Option (CStr × CStr) :=
  match s with
  | [] => none
  | b :: input =>
    if b ≠ quote then none
    else
      match scanString input with
      | none => none
      | some (n, _) =>
        let (out, ok) := unescapeString (input.take n)
        if ok then some (out.takeWhile (· ≠ 0), input.drop (n + 1)) else none

/-- A digit of `%04x`. -/
def hexText (n : Nat) : UInt8 := (if n < 10 then 48 + n else 87 + n).toUInt8

/-- What is printed for a byte of a string. -/
def printByte (b : UInt8) : CStr :=
  if 31 < b ∧ b ≠ quote ∧ b ≠ backslash then [b]
  else if b = backslash ∨ b = quote then [backslash, b]
  else if b = 8 then [backslash, 98]
  else if b = 12 then [backslash, 102]
  else if b = 10 then [backslash, 110]
  else if b = 13 then [backslash, 114]
  else if b = 9 then [backslash, 116]
  else [backslash, 117, 48, 48, hexText (b.toNat / 16), hexText (b.toNat % 16)]

/-- `print_string_ptr`. -/
def printStringPtr (s : CStr) : CStr := quote :: ((s.takeWhile (· ≠ 0)).flatMap printByte ++ [quote])

/-! ## Values -/

/-- `buffer_skip_whitespace`. -/
def skipWhitespace (s : CStr) : CStr := s.dropWhile (· ≤ 32)

/-- `CJSON_NESTING_LIMIT`. -/
def nestingLimit : Nat := 1000

mutual

/-- `parse_value`, with the bound on the rounds and the depth. -/
def parseValue : Nat → Nat → CStr → Option (Json × CStr)
  | 0, _, _ => none
  | n + 1, depth, s =>
    if lit "null" <+: s then some (.null, s.drop 4)
    else if lit "false" <+: s then some (.bool false, s.drop 5)
    else if lit "true" <+: s then some (.bool true, s.drop 4)
    else
      match s with
      | [] => none
      | b :: rest =>
        if b = quote then (parseString s).map fun (str, rest) => (.str str, rest)
        else if b = dash ∨ isDigit b then parseNumber s
        else if b = 91 then
          if nestingLimit ≤ depth then none
          else if (skipWhitespace rest).head? = some 93 then some (.arr [], (skipWhitespace rest).drop 1)
          else (parseElements n (depth + 1) rest).map fun (items, rest) => (.arr items, rest)
        else if b = 123 then
          if nestingLimit ≤ depth then none
          else if (skipWhitespace rest).head? = some 125 then some (.obj [], (skipWhitespace rest).drop 1)
          else (parseMembers n (depth + 1) rest).map fun (fields, rest) => (.obj fields, rest)
        else none

/-- The loop of `parse_array`. -/
def parseElements : Nat → Nat → CStr → Option (List Json × CStr)
  | 0, _, _ => none
  | n + 1, depth, s =>
    (parseValue n depth (skipWhitespace s)).bind fun (item, s) =>
      match skipWhitespace s with
      | [] => none
      | b :: rest =>
        if b = 44 then (parseElements n depth rest).map fun (items, rest) => (item :: items, rest)
        else if b = 93 then some ([item], rest)
        else none

/-- The loop of `parse_object`. -/
def parseMembers : Nat → Nat → CStr → Option (List (CStr × Json) × CStr)
  | 0, _, _ => none
  | n + 1, depth, s =>
    (parseString (skipWhitespace s)).bind fun (name, s) =>
      match skipWhitespace s with
      | [] => none
      | b :: rest =>
        if b ≠ colon then none
        else
          (parseValue n depth (skipWhitespace rest)).bind fun (item, s) =>
            match skipWhitespace s with
            | [] => none
            | b :: rest =>
              if b = 44 then (parseMembers n depth rest).map fun (fields, rest) => ((name, item) :: fields, rest)
              else if b = 125 then some ([(name, item)], rest)
              else none

end

/-- `skip_utf8_bom`. -/
def skipUtf8Bom (s : CStr) : CStr := if 4 ≤ s.length ∧ s.take 3 = [0xEF, 0xBB, 0xBF] then s.drop 3 else s

/-- `cJSON_Parse`: what is behind the value does not matter. -/
def cjsonParse (text : CStr) : Option Json :=
  (parseValue (2 * text.length + 2) 0 (skipWhitespace (skipUtf8Bom text))).map (·.1)

/-- The tabs before a line. -/
def tabs (depth : Nat) : CStr := List.replicate depth 9

mutual

/-- `print_value`, formatted. -/
def printValue (depth : Nat) : Json → CStr
  | .null => lit "null"
  | .bool b => if b then lit "true" else lit "false"
  | .num q => printNumber q
  | .str s => printStringPtr s
  | .arr items => 91 :: (printItems (depth + 1) items ++ [93])
  | .obj fields => 123 :: newline :: (printFields (depth + 1) fields ++ (tabs depth ++ [125]))

/-- The loop of `print_array`. -/
def printItems (depth : Nat) : List Json → CStr
  | [] => []
  | item :: items =>
    printValue depth item ++ ((if items.isEmpty then [] else [44, 32]) ++ printItems depth items)

/-- The loop of `print_object`. -/
def printFields (depth : Nat) : List (CStr × Json) → CStr
  | [] => []
  | (name, item) :: fields =>
    tabs depth ++ (printStringPtr name ++ (colon :: 9 :: (printValue depth item ++
      ((if fields.isEmpty then [] else [44]) ++ newline :: printFields depth fields))))

end

/-- `cJSON_Print`. -/
def cjsonPrint (j : Json) : CStr := printValue 0 j

/-! ## What is written for a string -/

/-- How many bytes the first time over a string allows for, its escapes taken where it sees them. -/
def allowedLength : CStr → Nat
  | [] => 0
  | [_] => 1
  | b :: c :: rest => if b = backslash then allowedLength rest + 1 else allowedLength (c :: rest) + 1

section
variable {b : UInt8} {s input : CStr} {n k skipped : Nat}

/-- A byte less is at most one less, wherever the escapes are seen then. -/
theorem allowedLength_cons (b : UInt8) (s : CStr) :
    allowedLength s ≤ allowedLength (b :: s) ∧ allowedLength (b :: s) ≤ allowedLength s + 1 := by
  induction s generalizing b with
  | nil => exact ⟨Nat.zero_le _, Nat.le_refl _⟩
  | cons c s ih =>
    have hc := ih c
    rw [allowedLength]
    split <;> omega

theorem allowedLength_drop_le (k : Nat) (s : CStr) : allowedLength (s.drop k) ≤ allowedLength s := by
  induction k generalizing s with
  | zero => exact Nat.le_refl _
  | succ k ih =>
    cases s with
    | nil => exact Nat.le_refl _
    | cons b s => exact (ih s).trans (allowedLength_cons b s).1

theorem allowedLength_of_ne (h : b ≠ backslash) (s : CStr) : allowedLength (b :: s) = allowedLength s + 1 := by
  cases s with
  | nil => rfl
  | cons c s => rw [allowedLength, if_neg h]

/-- Bytes that are no backslash are all allowed for. -/
theorem allowedLength_append (h : ∀ b ∈ input, b ≠ backslash) (s : CStr) :
    allowedLength (input ++ s) = input.length + allowedLength s := by
  induction input with
  | nil => rw [List.nil_append, List.length_nil, Nat.zero_add]
  | cons b input ih =>
    rw [List.forall_mem_cons] at h
    rw [List.cons_append, allowedLength_of_ne h.1, ih h.2, List.length_cons]
    omega

/-- What the first time over a string finds. -/
theorem scanString_spec (h : scanString input = some (n, skipped)) :
    n ≤ input.length ∧ allowedLength (input.take n) + skipped = n := by
  induction input using scanString.induct generalizing n skipped with
  | case1 => cases h
  | case2 =>
    cases h
    exact ⟨Nat.zero_le _, rfl⟩
  | case3 b hquote =>
    rw [scanString, if_neg hquote] at h
    cases h
  | case4 c rest =>
    rw [scanString, if_pos rfl] at h
    cases h
    exact ⟨Nat.zero_le _, rfl⟩
  | case5 c rest hquote ih =>
    rw [scanString, if_neg hquote, if_pos rfl] at h
    obtain ⟨⟨m, k⟩, hrest, heq⟩ := Option.map_eq_some_iff.1 h
    cases heq
    obtain ⟨hle, hsum⟩ := ih hrest
    refine ⟨Nat.succ_le_succ (Nat.succ_le_succ hle), ?_⟩
    rw [List.take_succ_cons, List.take_succ_cons, allowedLength, if_pos rfl]
    omega
  | case6 b c rest hquote hb ih =>
    rw [scanString, if_neg hquote, if_neg hb] at h
    obtain ⟨⟨m, k⟩, hrest, heq⟩ := Option.map_eq_some_iff.1 h
    cases heq
    obtain ⟨hle, hsum⟩ := ih hrest
    refine ⟨Nat.succ_le_succ hle, ?_⟩
    rw [List.take_succ_cons, allowedLength_of_ne hb]
    omega

theorem length_utf8Bytes_le (c : Nat) : (utf8Bytes c).length ≤ 4 := by
  unfold utf8Bytes
  split_ifs <;> simp

/-- Four digits are allowed for. -/
theorem allowedLength_hex (hlen : 4 ≤ s.length) (h : parseHex4 s ≠ 0) :
    4 + allowedLength (s.drop 4) ≤ allowedLength s := by
  unfold parseHex4 at h
  split at h
  · next hall =>
    have hplain : ∀ b ∈ s.take 4, b ≠ backslash := by
      rintro b hb rfl
      exact absurd (List.all_eq_true.1 hall _ hb) (by decide)
    have happ := allowedLength_append hplain (s.drop 4)
    rw [List.take_append_drop, List.length_take] at happ
    omega
  · exact absurd rfl h

/-- What a `\u` is written as is allowed for. -/
theorem utf16LiteralToUtf8_le {bytes : List UInt8} (h : utf16LiteralToUtf8 (backslash :: 117 :: s) = some (bytes, n)) :
    bytes.length + allowedLength (s.drop (n - 2)) ≤ allowedLength s + 1 := by
  unfold utf16LiteralToUtf8 at h
  split at h
  · cases h
  · next hlen =>
    rw [List.length_cons, List.length_cons] at hlen
    have hhex := allowedLength_hex (s := s) (by omega)
    rw [List.drop_succ_cons, List.drop_succ_cons, List.drop_zero] at h
    dsimp only at h
    split_ifs at h with hlow hhigh hshort hsecond hpair
    · -- a pair takes twelve bytes
      cases h
      have hbytes := length_utf8Bytes_le (0x10000 + parseHex4 s % 1024 * 1024 +
        parseHex4 (((backslash :: 117 :: s).drop 6).drop 2) % 1024)
      have hdrop := allowedLength_drop_le 6 (s.drop 4)
      rw [List.drop_drop] at hdrop
      have hdigits := hhex (by omega)
      show _ + allowedLength (s.drop (4 + 6)) ≤ _
      omega
    · cases h
      have hbytes := length_utf8Bytes_le (parseHex4 s)
      by_cases hzero : parseHex4 s = 0
      · have hdrop := allowedLength_drop_le 4 s
        rw [hzero] at hbytes ⊢
        show 1 + allowedLength (s.drop 4) ≤ _
        omega
      · have hdigits := hhex hzero
        show _ + allowedLength (s.drop 4) ≤ _
        omega

/-- What is written the second time is allowed for. -/
theorem length_unescapeString_le (input : CStr) : (unescapeString input).1.length ≤ allowedLength input := by
  fun_induction unescapeString input with
  | case1 => exact Nat.le_refl _
  | case2 b rest hb out ok hrest ih =>
    rw [hrest] at ih
    rw [allowedLength_of_ne hb]
    exact Nat.succ_le_succ ih
  | case3 => exact Nat.le_refl _
  | case4 => exact Nat.zero_le _
  | case5 b hb rest bytes n out ok hrest hbytes ih =>
    rw [not_not.1 hb] at hbytes ⊢
    rw [hrest] at ih
    have hle := utf16LiteralToUtf8_le hbytes
    dsimp only at ih ⊢
    rw [List.length_append, allowedLength, if_pos rfl]
    omega
  | case6 => exact Nat.zero_le _
  | case7 b hb c rest hc v hv out ok hrest ih =>
    rw [hrest] at ih
    rw [allowedLength, if_pos (not_not.1 hb)]
    exact Nat.succ_le_succ ih

end

/-- Whatever a text is, the string that is copied from it stays inside what was allocated for it. -/
theorem parse_string_in_bounds (input : CStr) (n skipped : Nat) (h : scanString input = some (n, skipped)) :
    skipped ≤ n ∧ (unescapeString (input.take n)).1.length + 1 ≤ (n + 1 - skipped) + 1 := by
  have hspec := (scanString_spec h).2
  have hle := length_unescapeString_le (input.take n)
  omega

/-- A text whose escapes are seen otherwise the second time, up to the quote after it. -/
theorem parse_string_in_bounds_sample :
    (unescapeString ((lit "\\u1\\\\\\\\\"").take 7)).1.length + 1 ≤ (7 + 1 - 3) + 1 :=
  (parse_string_in_bounds (lit "\\u1\\\\\\\\\"") 7 3 (by decide)).2

end GfrGuard
