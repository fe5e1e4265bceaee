import GfrGuard.CjsonRoundTrip
import GfrGuard.Inet

/-!
# Numbers as cJSON prints them

`print_number` shows 15 digits of a number when they give about the same number, 17 otherwise. The
text that `%g` lays out, with or without an exponent, stands for the digits it was made of
(`strtod_gText`). Seventeen digits tell a number from all others, so what is read back is never farther
off than `compare_double` allows (`number_reread`); and a number that came from a text of up to 15
digits is read back as itself (`decimal_kept`).
-/

namespace GfrGuard

open Binary64 (Held digits digitPlace)

section
variable {s t whole fraction tail : CStr} {b : UInt8} {q : Rat} {e : Int} {n p : Nat}

/-! ## Digits -/

theorem digitsValue_append (s t : CStr) : digitsValue (s ++ t) = digitsValue s * 10 ^ t.length + digitsValue t := by
  have hfrom : ∀ v : Nat, t.foldl (fun v b => v * 10 + (b - 48).toNat) v = v * 10 ^ t.length + digitsValue t := by
    unfold digitsValue
    induction t with
    | nil => simp
    | cons b t ih =>
      intro v
      rw [List.foldl_cons, List.foldl_cons, ih, ih (0 * 10 + _), List.length_cons]
      ring
  rw [digitsValue, List.foldl_append]
  exact hfrom _

theorem digitsValue_zeros (n : Nat) : digitsValue (List.replicate n 48) = 0 := by
  induction n with
  | zero => rfl
  | succ n ih =>
    rw [List.replicate_succ', digitsValue_append, ih]
    rfl

theorem digitsValue_zeros_append (n : Nat) (s : CStr) : digitsValue (List.replicate n 48 ++ s) = digitsValue s := by
  rw [digitsValue_append, digitsValue_zeros, Nat.zero_mul, Nat.zero_add]

/-- The zeros at the end are all that is taken. -/
theorem stripZeros_spec (s : CStr) : ∃ n, s = stripZeros s ++ List.replicate n 48 := by
  induction s using List.reverseRecOn with
  | nil => exact ⟨0, rfl⟩
  | append_singleton s b ih =>
    unfold stripZeros at ih ⊢
    rw [List.rdropWhile_concat]
    split
    · next hb =>
      obtain ⟨n, hn⟩ := ih
      refine ⟨n + 1, ?_⟩
      rw [List.replicate_succ', ← List.append_assoc, ← hn, of_decide_eq_true hb]
    · exact ⟨0, (List.append_nil _).symm⟩

theorem isDigit_of_mem_stripZeros (h : b ∈ stripZeros (dec n)) : isDigit b = true :=
  isDigit_of_mem_dec ((List.rdropWhile_prefix _ _).subset h)

/-! ## Reading a number -/

/-- A digit is not taken for a sign. -/
theorem takeSign_digit (h : isDigit b = true) (s : CStr) : takeSign (b :: s) = (false, b :: s) := by
  have hsign : b ≠ dash ∧ b ≠ plus := by
    constructor <;> rintro rfl <;> cases h
  rw [takeSign, if_neg hsign.1, if_neg hsign.2]

/-- What ends the digits of a number. -/
def EndsDigits (tail : CStr) : Prop := ∀ b ∈ tail.head?, isDigit b = false ∧ b ≠ dot

theorem takeWhile_digits (hs : ∀ b ∈ s, isDigit b = true) (ht : ∀ b ∈ t.head?, isDigit b = false) :
    (s ++ t).takeWhile isDigit = s ∧ (s ++ t).dropWhile isDigit = t := by
  rw [List.takeWhile_append_of_pos hs, List.dropWhile_append_of_pos hs]
  cases t with
  | nil => exact ⟨List.append_nil s, rfl⟩
  | cons b t =>
    have hb : ¬ isDigit b = true := by
      rw [ht b rfl]
      exact Bool.false_ne_true
    rw [List.takeWhile_cons_of_neg hb, List.dropWhile_cons_of_neg hb]
    exact ⟨List.append_nil s, rfl⟩

theorem takeFraction_fractionText (hfraction : ∀ b ∈ fraction, isDigit b = true) (htail : EndsDigits tail) :
    takeFraction (fractionText fraction ++ tail) = (fraction, tail) := by
  unfold fractionText
  split
  · next hnil =>
    subst hnil
    cases tail with
    | nil => rfl
    | cons b tail => rw [List.nil_append, takeFraction, if_neg (htail b rfl).2]
  · have hdigits := takeWhile_digits hfraction fun b hb => (htail b hb).1
    rw [List.cons_append, takeFraction, if_pos rfl, hdigits.1, hdigits.2]

/-- A number of a sign, digits, digits after a point and an exponent. -/
theorem strtod_parts (negative : Bool) (hne : whole ≠ []) (hwhole : ∀ b ∈ whole, isDigit b = true)
    (hfraction : ∀ b ∈ fraction, isDigit b = true) (htail : EndsDigits tail) (hexponent : takeExponent tail = (e, [])) :
    strtod ((if negative then [dash] else []) ++ (whole ++ (fractionText fraction ++ tail))) =
      some (Binary64.round (if negative then -(digitsValue (whole ++ fraction) * 10 ^ (e - fraction.length))
        else digitsValue (whole ++ fraction) * 10 ^ (e - fraction.length)), []) := by
  have hsign : takeSign ((if negative then [dash] else []) ++ (whole ++ (fractionText fraction ++ tail))) =
      (negative, whole ++ (fractionText fraction ++ tail)) := by
    cases negative with
    | true => rfl
    | false =>
      cases whole with
      | nil => exact absurd rfl hne
      | cons b whole => exact takeSign_digit (hwhole b List.mem_cons_self) _
  have hbehind : ∀ b ∈ (fractionText fraction ++ tail).head?, isDigit b = false := by
    unfold fractionText
    split
    · exact fun b hb => (htail b hb).1
    · rintro b ⟨⟩
      rfl
  obtain ⟨htake, hdrop⟩ := takeWhile_digits hwhole hbehind
  unfold strtod
  rw [hsign]
  dsimp only
  rw [htake, hdrop, takeFraction_fractionText hfraction htail]
  dsimp only
  rw [if_neg fun h => hne h.1, hexponent]

/-- The exponent that is shown. -/
theorem takeExponent_shown (x : Int) :
    takeExponent (101 :: (if x < 0 then dash else plus) :: decPad 2 x.natAbs) = (x, []) := by
  have hdigits : ∀ b ∈ decPad 2 x.natAbs, isDigit b = true := fun b hb => isDigit_of_mem_decPad hb
  have hvalue := digitsValue_decPad 2 x.natAbs
  have hne : decPad 2 x.natAbs ≠ [] := by
    unfold decPad
    exact List.append_ne_nil_of_right_ne_nil _ (dec_ne_nil _)
  have htake := List.takeWhile_eq_self_iff.2 hdigits
  have hdrop := List.dropWhile_eq_nil_iff.2 hdigits
  rw [takeExponent]
  by_cases hneg : x < 0
  · rw [if_pos hneg, takeSign, if_pos rfl]
    dsimp only
    rw [htake, hdrop, hvalue, if_pos ⟨.inl rfl, hne⟩, if_pos rfl, Int.ofNat_natAbs_of_nonpos hneg.le, neg_neg]
  · rw [if_neg hneg, takeSign, if_neg (by decide), if_pos rfl]
    dsimp only
    rw [htake, hdrop, hvalue, if_pos ⟨.inl rfl, hne⟩, if_neg Bool.false_ne_true,
      Int.natAbs_of_nonneg (Int.not_lt.1 hneg)]

/-! ## What `%g` shows -/

/-- An exponent that is shown, or none. -/
def ShownExponent (tail : CStr) (e : Int) : Prop :=
  tail = [] ∧ e = 0 ∨ tail = 101 :: (if e < 0 then dash else plus) :: decPad 2 e.natAbs

theorem ShownExponent.endsDigits (h : ShownExponent tail e) : EndsDigits tail := by
  rcases h with ⟨rfl, -⟩ | rfl
  · rintro b ⟨⟩
  · rintro b ⟨⟩
    decide

theorem ShownExponent.take (h : ShownExponent tail e) : takeExponent tail = (e, []) := by
  rcases h with ⟨rfl, rfl⟩ | rfl
  · rfl
  · exact takeExponent_shown e

/-- A text that stands for a number that is not negative: digits, a point and digits, an exponent. -/
structure ShowsNumber (s : CStr) (v : Rat) (whole fraction tail : CStr) (e : Int) : Prop where
  text : s = whole ++ (fractionText fraction ++ tail)
  ne : whole ≠ []
  digits : ∀ b ∈ whole, isDigit b = true
  places : ∀ b ∈ fraction, isDigit b = true
  exponent : ShownExponent tail e
  value : v = digitsValue (whole ++ fraction) * 10 ^ (e - fraction.length)

/-- What is shown of digits. -/
theorem gLayout_spec {d : CStr} (hne : d ≠ []) (hd : ∀ b ∈ d, isDigit b = true) (x : Int) :
    ∃ whole fraction tail e, ShowsNumber (gLayout p d x) (digitsValue d * 10 ^ (x - (d.length - 1))) whole fraction tail e ∧
      (whole = [48] ∨ whole.head? = d.head?) ∧
        (d.length ≤ p → tail = [] ∧ whole.length + fraction.length ≤ p + 4 ∨ e = x ∧ whole.length + fraction.length ≤ p) := by
  have hlen : 1 ≤ d.length := List.length_pos_iff.2 hne
  have hten : (10 : Rat) ≠ 0 := by norm_num
  unfold gLayout
  by_cases hexp : x < -4 ∨ p ≤ x
  · rw [if_pos hexp]
    refine ⟨d.take 1, d.drop 1, _, x, ⟨rfl, ?_, fun b hb => hd b (List.mem_of_mem_take hb),
      fun b hb => hd b (List.mem_of_mem_drop hb), .inr rfl, ?_⟩, .inr ?_, fun h => .inr ⟨rfl, ?_⟩⟩
    · rw [← List.length_pos_iff, List.length_take]
      omega
    · rw [List.take_append_drop, List.length_drop]
      push_cast [hlen]
      rfl
    · cases d with
      | nil => exact absurd rfl hne
      | cons b d => rfl
    · rw [List.length_take, List.length_drop]
      omega
  rw [if_neg hexp]
  rw [not_or, not_lt, not_le] at hexp
  by_cases hneg : x < 0
  · rw [if_pos hneg]
    refine ⟨[48], List.replicate (x.natAbs - 1) 48 ++ d, [], 0, ⟨?_, List.cons_ne_nil _ _,
      List.forall_mem_singleton.2 rfl, fun b hb => ?_,
      .inl ⟨rfl, rfl⟩, ?_⟩, .inl rfl, fun h => .inl ⟨rfl, ?_⟩⟩
    · rw [List.append_nil, List.singleton_append]
    · rcases List.mem_append.1 hb with hzero | hb
      · rw [List.eq_of_mem_replicate hzero]
        rfl
      · exact hd b hb
    · rw [List.singleton_append, ← List.cons_append, ← List.replicate_succ, digitsValue_zeros_append,
        List.length_append, List.length_replicate]
      congr 2
      omega
    · rw [List.length_append, List.length_replicate, List.length_singleton]
      omega
  · rw [if_neg hneg]
    obtain ⟨k, rfl⟩ := Int.eq_ofNat_of_zero_le (Int.not_lt.1 hneg)
    have hdigits : ∀ b ∈ d ++ List.replicate (k + 1 - d.length) 48, isDigit b = true := by
      intro b hb
      rcases List.mem_append.1 hb with hb | hzero
      · exact hd b hb
      · rw [List.eq_of_mem_replicate hzero]
        rfl
    rw [Int.toNat_natCast]
    dsimp only
    refine ⟨(d ++ List.replicate (k + 1 - d.length) 48).take (k + 1), (d ++ List.replicate (k + 1 - d.length) 48).drop (k + 1),
      [], 0, ⟨by rw [List.append_nil], ?_, fun b hb => hdigits b (List.mem_of_mem_take hb),
      fun b hb => hdigits b (List.mem_of_mem_drop hb), .inl ⟨rfl, rfl⟩, ?_⟩, .inr ?_, fun h => .inl ⟨rfl, ?_⟩⟩
    · rw [← List.length_pos_iff, List.length_take, List.length_append]
      omega
    · rw [List.take_append_drop, digitsValue_append, digitsValue_zeros, Nat.add_zero, List.length_drop, List.length_append,
        List.length_replicate, Nat.cast_mul, Nat.cast_pow, Nat.cast_ofNat, mul_assoc, ← zpow_natCast, ← zpow_add₀ hten]
      congr 2
      omega
    · cases d with
      | nil => exact absurd rfl hne
      | cons b d => rfl
    · rw [← List.length_append, List.take_append_drop, List.length_append, List.length_replicate]
      omega

/-- The digits that are shown are as many as asked for. -/
theorem gDigits_spec (hp : 1 ≤ p) (hq : q ≠ 0) :
    10 ^ (p - 1) ≤ (gDigits p q).1 ∧ (gDigits p q).1 < 10 ^ p ∧
      ((gDigits p q).1 : Rat) * 10 ^ ((gDigits p q).2 - (p - 1)) = digits p q * 10 ^ digitPlace p q ∧
        ((gDigits p q).2 = Binary64.exponent 10 |q| ∨ (gDigits p q).2 = Binary64.exponent 10 |q| + 1) := by
  obtain ⟨hlow, hhigh⟩ := Binary64.digits_bounds hp hq
  obtain ⟨m, hm⟩ := Int.eq_ofNat_of_zero_le ((by positivity : (0 : Int) ≤ 10 ^ (p - 1)).trans hlow)
  have hten : (10 : Rat) ≠ 0 := by norm_num
  rw [hm] at hlow hhigh ⊢
  have hlow : 10 ^ (p - 1) ≤ m := by exact_mod_cast hlow
  have hhigh : m ≤ 10 ^ p := by exact_mod_cast hhigh
  unfold gDigits
  dsimp only
  rw [hm]
  rw [Int.toNat_natCast]
  split
  · next hcarry =>
    refine ⟨le_rfl, Nat.pow_lt_pow_right (by norm_num) (by omega), ?_, .inr rfl⟩
    obtain ⟨k, rfl⟩ := Nat.exists_eq_add_of_le' hp
    subst hcarry
    unfold digitPlace
    push_cast
    rw [← zpow_natCast, ← zpow_natCast, ← zpow_add₀ hten, ← zpow_add₀ hten]
    congr 1
    push_cast
    ring
  · exact ⟨hlow, lt_of_le_of_ne hhigh ‹_›, rfl, .inl rfl⟩

/-- What `%g` shows of a number stands for its digits. -/
theorem gText_spec (hp : 1 ≤ p) (hq : q ≠ 0) : ∃ s whole fraction tail e,
    gText p q = (if q < 0 then [dash] else []) ++ s ∧
      ShowsNumber s (digits p q * 10 ^ digitPlace p q) whole fraction tail e ∧
        (whole = [48] ∨ ∃ b t, whole = b :: t ∧ b ≠ 48) ∧
          (tail = [] ∧ whole.length + fraction.length ≤ p + 4 ∨
            (e = Binary64.exponent 10 |q| ∨ e = Binary64.exponent 10 |q| + 1) ∧ whole.length + fraction.length ≤ p) := by
  obtain ⟨hlow, hhigh, hvalue, hx⟩ := gDigits_spec hp hq
  generalize hg : gDigits p q = g at *
  obtain ⟨m, x⟩ := g
  dsimp only at hlow hhigh hvalue hx
  obtain ⟨n, hn⟩ := stripZeros_spec (dec m)
  have hmpos : 0 < m := lt_of_lt_of_le (by positivity) hlow
  have hlen : (dec m).length = p := by
    refine le_antisymm ((length_dec_le hp).2 hhigh) ?_
    by_contra hshort
    rw [not_le] at hshort
    have hpos : 0 < (dec m).length := List.length_pos_iff.2 (dec_ne_nil m)
    have hlt : m < 10 ^ (p - 1) := (length_dec_le (by omega)).1 (by omega)
    omega
  have hne : stripZeros (dec m) ≠ [] := by
    intro hnil
    rw [hnil, List.nil_append] at hn
    have hzero := congrArg digitsValue hn
    rw [digitsValue_dec, digitsValue_zeros] at hzero
    omega
  have hdv : m = digitsValue (stripZeros (dec m)) * 10 ^ n := by
    conv_lhs => rw [← digitsValue_dec m, hn, digitsValue_append, digitsValue_zeros, Nat.add_zero, List.length_replicate]
  have hsum : (stripZeros (dec m)).length + n = p := by
    have hcongr := congrArg List.length hn
    rw [List.length_append, List.length_replicate] at hcongr
    omega
  obtain ⟨whole, fraction, tail, e, hshows, hwhole, hshort⟩ :=
    gLayout_spec (p := p) hne (fun b hb => isDigit_of_mem_stripZeros hb) x
  refine ⟨_, whole, fraction, tail, e, by rw [gText, hg], ?_, ?_, (hshort (by omega)).imp id fun h => ⟨?_, h.2⟩⟩
  · have hsame : (digitsValue (stripZeros (dec m)) : Rat) * 10 ^ (x - ((stripZeros (dec m)).length - 1)) =
        digits p q * 10 ^ digitPlace p q := by
      rw [← hvalue]
      conv_rhs => rw [hdv]
      push_cast
      rw [mul_assoc, ← zpow_natCast, ← zpow_add₀ (by norm_num)]
      congr 2
      omega
    rw [← hsame]
    exact hshows
  · refine hwhole.imp id fun hhead => ?_
    obtain ⟨b, t, hcons⟩ := List.exists_cons_of_ne_nil hne
    rw [hcons] at hhead
    obtain ⟨t', rfl⟩ := List.head?_eq_some_iff.1 hhead
    obtain ⟨c, r, hc, hne0⟩ := dec_cons hmpos
    rw [hcons, List.cons_append, hc] at hn
    exact ⟨b, t', rfl, (List.cons.inj hn).1 ▸ hne0⟩
  · rwa [h.1]

theorem strtod_gText (hp : 1 ≤ p) (hq : q ≠ 0) : strtod (gText p q) = some (Binary64.round
    (if q < 0 then -(digits p q * 10 ^ digitPlace p q) else digits p q * 10 ^ digitPlace p q), []) := by
  obtain ⟨s, whole, fraction, tail, e, htext, hshows, -⟩ := gText_spec hp hq
  have hparts := strtod_parts (decide (q < 0)) hshows.ne hshows.digits hshows.places hshows.exponent.endsDigits
    hshows.exponent.take
  rw [← hshows.value, ← hshows.text] at hparts
  simp only [decide_eq_true_eq] at hparts
  rw [htext, hparts]

/-! ## What is printed -/

theorem length_fractionText_le (s : CStr) : (fractionText s).length ≤ s.length + 1 := by
  unfold fractionText
  split
  · exact Nat.zero_le _
  · rw [List.length_cons]

theorem NumberBytes.sign (h : NumberBytes n s) (negative : Bool) :
    NumberBytes (n + 1) ((if negative then [dash] else []) ++ s) := by
  obtain ⟨hlen, hbytes, hhead⟩ := h
  cases negative with
  | false => exact ⟨Nat.le_succ_of_le hlen, hbytes, hhead⟩
  | true =>
    refine ⟨Nat.succ_le_succ hlen, fun b hb => ?_, dash, rfl, .inl rfl⟩
    rcases List.mem_cons.1 hb with rfl | hb
    · rfl
    · exact hbytes b hb

theorem ShowsNumber.numberBytes {v : Rat} (h : ShowsNumber s v whole fraction tail e) :
    NumberBytes (whole.length + fraction.length + tail.length + 1) s := by
  refine ⟨?_, fun b hb => ?_, ?_⟩
  · have hfraction := length_fractionText_le fraction
    rw [h.text, List.length_append, List.length_append]
    omega
  · rw [h.text, List.mem_append, List.mem_append] at hb
    rcases hb with hb | hb | hb
    · exact isNumberByte_of_isDigit (h.digits b hb)
    · unfold fractionText at hb
      split at hb
      · cases hb
      · rcases List.mem_cons.1 hb with rfl | hb
        · rfl
        · exact isNumberByte_of_isDigit (h.places b hb)
    · rcases h.exponent with ⟨rfl, -⟩ | rfl
      · cases hb
      · rcases List.mem_cons.1 hb with rfl | hb
        · rfl
        · rcases List.mem_cons.1 hb with rfl | hb
          · split <;> rfl
          · exact isNumberByte_of_isDigit (isDigit_of_mem_decPad hb)
  · obtain ⟨b, t, hcons⟩ := List.exists_cons_of_ne_nil h.ne
    refine ⟨b, ?_, .inr (h.digits b (hcons ▸ List.mem_cons_self))⟩
    rw [h.text, hcons]
    rfl

/-- What `%g` shows of a number that is neither too small nor too large. -/
theorem gText_numberBytes (hp : 1 ≤ p) (hlow : 10 ^ (-900 : Int) ≤ |q|) (hhigh : |q| < 10 ^ (900 : Int)) :
    NumberBytes (p + 7) (gText p q) := by
  have hten : 1 < 10 := by norm_num
  have hpos : 0 < |q| := lt_of_lt_of_le (zpow_pos (by norm_num) _) hlow
  have hmin : -900 ≤ Binary64.exponent 10 |q| := Binary64.le_exponent hten hpos (by exact_mod_cast hlow)
  have hmax : Binary64.exponent 10 |q| < 900 := Binary64.exponent_lt hten hpos (by exact_mod_cast hhigh)
  obtain ⟨s, whole, fraction, tail, e, htext, hshows, -, hlength⟩ := gText_spec hp (abs_pos.1 hpos)
  have hlen : whole.length + fraction.length + tail.length + 1 ≤ p + 6 := by
    rcases hlength with ⟨rfl, hlen⟩ | ⟨he, hlen⟩
    · rw [List.length_nil]
      omega
    · rcases hshows.exponent with ⟨rfl, -⟩ | rfl
      · rw [List.length_nil]
        omega
      · have hpad : (decPad 2 e.natAbs).length ≤ 3 := length_decPad_le (by decide) (by decide) (by omega)
        rw [List.length_cons, List.length_cons]
        omega
  have hbytes := hshows.numberBytes.sign (decide (q < 0))
  simp only [decide_eq_true_eq] at hbytes
  rw [htext]
  exact ⟨hbytes.1.trans (by omega), hbytes.2⟩

/-- A number a `double` holds is between these powers of ten. -/
theorem held_bounds (h : Held q) (hq : q ≠ 0) : 10 ^ (-900 : Int) ≤ |q| ∧ |q| < 10 ^ (900 : Int) := by
  have height : ∀ k : Nat, (2 : Rat) ^ (3 * k) ≤ 10 ^ k := by
    intro k
    rw [pow_mul]
    gcongr
    norm_num
  obtain ⟨n, hn⟩ := h.grid
  constructor
  · have hone : (1 : Rat) ≤ |(n : Rat)| := by
      have hne : n ≠ 0 := by
        rintro rfl
        rw [Int.cast_zero, zero_mul] at hn
        exact hq hn
      exact_mod_cast Int.one_le_abs hne
    calc (10 : Rat) ^ (-900 : Int) = (10 ^ 900)⁻¹ := by rw [zpow_neg, zpow_ofNat]
      _ ≤ (2 ^ (3 * 900))⁻¹ := inv_anti₀ (by positivity) (height 900)
      _ = 2 ^ (-2700 : Int) := by rw [zpow_neg, zpow_ofNat]
      _ ≤ 2 ^ Binary64.place q := zpow_le_zpow_right₀ one_le_two (le_trans (by norm_num) (le_max_right _ _))
      _ ≤ |(n : Rat)| * 2 ^ Binary64.place q := le_mul_of_one_le_left (Binary64.zpow_place_pos q).le hone
      _ = |(n : Rat) * 2 ^ Binary64.place q| := by rw [abs_mul, abs_of_pos (Binary64.zpow_place_pos q)]
      _ = |q| := by rw [← hn]
  · calc |q| < 2 ^ 1024 := h.2
      _ ≤ 2 ^ (3 * 900) := pow_le_pow_right₀ one_le_two (by norm_num)
      _ ≤ 10 ^ 900 := height 900
      _ = 10 ^ (900 : Int) := (zpow_ofNat _ _).symm

theorem compareDouble_self (v : Rat) : compareDouble v v = true := by
  have hzero : Binary64.round 0 = 0 := by exact_mod_cast Binary64.round_intCast (n := 0) (by norm_num)
  have hnonneg : 0 ≤ Binary64.round (max |v| |v| * 2 ^ (-52 : Int)) := Binary64.round_nonneg (by positivity)
  unfold compareDouble
  rw [sub_self, hzero, abs_zero]
  exact decide_eq_true hnonneg

/-- An `int` is printed by its value. -/
theorem valueInt_bounds (h : q = Json.valueInt q) :
    -2147483648 ≤ Json.valueInt q ∧ Json.valueInt q ≤ 2147483647 := by
  generalize hk : Json.valueInt q = k at h
  unfold Json.valueInt at hk
  rw [h] at hk
  split_ifs at hk with hhigh hlow
  · omega
  · omega
  · rw [not_le] at hhigh hlow
    have hlt : k < 2147483647 := by exact_mod_cast hhigh
    have hgt : -2147483648 < k := by exact_mod_cast hlow
    omega

/-- Seventeen digits are read as the number they were made of. -/
theorem strtod_gText_seventeen (h : Held q) (hq : q ≠ 0) : strtod (gText 17 q) = some (q, []) := by
  have hround := Binary64.round_digits h hq
  rw [strtod_gText (by decide) hq]
  split
  · next hneg => rw [Binary64.round_neg, hround, abs_of_neg hneg, neg_neg]
  · next hneg => rw [hround, abs_of_nonneg (not_lt.1 hneg)]

/-- How a number that is no `int` is printed. -/
theorem printNumber_of_ne (hfinite : |q| < Binary64.infinite) (hint : q ≠ Json.valueInt q) : ∃ v,
    strtod (gText 15 q) = some (v, []) ∧ printNumber q = if compareDouble v q then gText 15 q else gText 17 q := by
  have hq : q ≠ 0 := by
    rintro rfl
    exact hint rfl
  have hread := strtod_gText (p := 15) (by decide) hq
  refine ⟨_, hread, ?_⟩
  unfold printNumber
  rw [if_neg (not_le.2 hfinite), if_neg hint, hread]

/-- A number of up to fifteen digits is on the grid of its digits. -/
theorem exists_mul_digitPlace {m k : Int} (hm : |m| < 10 ^ 15) (hne : m ≠ 0) :
    ∃ n : Int, |(m : Rat) * 10 ^ k| = n * 10 ^ digitPlace 15 |(m : Rat) * 10 ^ k| := by
  have hpos : (0 : Rat) < 10 ^ k := zpow_pos (by norm_num) _
  have hmpos : (0 : Rat) < |(m : Rat)| := abs_pos.2 (Int.cast_ne_zero.2 hne)
  have hlt : |(m : Rat) * 10 ^ k| < ((10 : Nat) : Rat) ^ (15 + k) := by
    have hcast : |(m : Rat)| < 10 ^ 15 := by exact_mod_cast hm
    rw [Nat.cast_ofNat, zpow_add₀ (by norm_num), abs_mul, abs_of_pos hpos]
    exact mul_lt_mul_of_pos_right hcast hpos
  have hexp := Binary64.exponent_lt (by norm_num) (abs_pos.2 (mul_ne_zero (Int.cast_ne_zero.2 hne) hpos.ne')) hlt
  have hplace : digitPlace 15 |(m : Rat) * 10 ^ k| ≤ k := by
    unfold digitPlace
    rw [abs_abs]
    push_cast
    omega
  obtain ⟨n, hn⟩ := Binary64.exists_int_mul_zpow (by norm_num : 1 < 10) hplace
  rw [Nat.cast_ofNat] at hn
  refine ⟨|m| * n, ?_⟩
  conv_lhs => rw [abs_mul, abs_of_pos hpos, hn]
  push_cast
  ring

/-- The fifteen digits of such a number are read as it was. -/
theorem strtod_gText_fifteen {t : Rat} {n : Int} (hgrid : |t| = n * 10 ^ digitPlace 15 |t|) (hlow : 2 ^ (-1022 : Int) ≤ |t|)
    (hhigh : |t| < 2 ^ (1023 : Int)) :
    Held (Binary64.round t) ∧ Binary64.round t ≠ 0 ∧
      strtod (gText 15 (Binary64.round t)) = some (Binary64.round t, []) := by
  have hpos : 0 < |t| := lt_of_lt_of_le (zpow_pos two_pos _) hlow
  obtain ⟨-, hrpos, hrfinite⟩ := Binary64.abs_round_sub_le_div hpos hlow hhigh
  have habs := Binary64.abs_round t
  have hne : Binary64.round t ≠ 0 := abs_pos.1 (habs ▸ hrpos)
  have hsame := Binary64.digits_round hpos hgrid hlow hhigh
  have hdigits : digits 15 (Binary64.round |t|) * 10 ^ digitPlace 15 (Binary64.round |t|) =
      (digits 15 (Binary64.round t) * 10 ^ digitPlace 15 (Binary64.round t) : Rat) := by
    rw [← habs]
    unfold digits digitPlace
    rw [abs_abs]
  refine ⟨Binary64.held_round (habs ▸ hrfinite), hne, ?_⟩
  rw [strtod_gText (by decide) hne, ← hdigits, hsame]
  rcases le_or_gt 0 t with hsign | hsign
  · rw [if_neg (not_lt.2 (Binary64.round_nonneg hsign)), abs_of_nonneg hsign]
  · have hneg : Binary64.round t < 0 := by
      have hle := Binary64.round_nonneg (neg_nonneg.2 hsign.le)
      rw [Binary64.round_neg] at hle
      exact lt_of_le_of_ne (neg_nonneg.1 hle) hne
    rw [if_pos hneg, abs_of_neg hsign, neg_neg]

/-- A number whose fifteen digits are read as itself is kept. -/
theorem numberKept_fifteen (h : Held q) (hq : q ≠ 0) (hread : strtod (gText 15 q) = some (q, [])) : NumberKept q := by
  by_cases hint : q = Json.valueInt q
  · obtain ⟨hlow, hhigh⟩ := valueInt_bounds hint
    rw [hint]
    exact numberKept_int hlow hhigh
  · obtain ⟨hlow, hhigh⟩ := held_bounds h hq
    obtain ⟨v, hv, hprint⟩ := printNumber_of_ne h.2 hint
    obtain rfl : q = v := congrArg Prod.fst (Option.some.inj (hread.symm.trans hv))
    rw [if_pos (compareDouble_self q)] at hprint
    unfold NumberKept
    rw [hprint]
    exact ⟨(gText_numberBytes (by decide) hlow hhigh).mono (by decide), hread⟩

end

/-- What is printed of a number that a `double` holds fits in the 26 bytes it is put in, and is read as that number,
or as one that `compare_double` takes for it. -/
theorem number_reread (q : Rat) (h : Held q) :
    NumberBytes 25 (printNumber q) ∧
      ∃ v, strtod (printNumber q) = some (v, []) ∧ (v = q ∨ printNumber q = gText 15 q ∧ compareDouble v q = true) := by
  by_cases hint : q = Json.valueInt q
  · obtain ⟨hlow, hhigh⟩ := valueInt_bounds hint
    obtain ⟨hbytes, hvalue⟩ := printNumber_int hlow hhigh
    rw [← hint] at hbytes hvalue
    exact ⟨hbytes.mono (by decide), q, hvalue, .inl rfl⟩
  · have hq : q ≠ 0 := by
      rintro rfl
      exact hint rfl
    obtain ⟨hlow, hhigh⟩ := held_bounds h hq
    obtain ⟨v, hread, hprint⟩ := printNumber_of_ne h.2 hint
    by_cases hsame : compareDouble v q = true
    · rw [if_pos hsame] at hprint
      rw [hprint]
      exact ⟨(gText_numberBytes (by decide) hlow hhigh).mono (by decide), v, hread, .inr ⟨rfl, hsame⟩⟩
    · rw [if_neg hsame] at hprint
      rw [hprint]
      exact ⟨(gText_numberBytes (by decide) hlow hhigh).mono (by decide), q, strtod_gText_seventeen h hq, .inl rfl⟩

/-- The least number there is. -/
theorem number_reread_sample : NumberBytes 25 (printNumber (2 ^ (-1074 : Int))) :=
  (number_reread (2 ^ (-1074 : Int)) ⟨by decide +kernel, by decide +kernel⟩).1

/-- A number that is written with up to fifteen digits, neither too small nor too large, is printed so that it is read
as it was. -/
theorem decimal_kept (m k : Int) (hm : |m| < 10 ^ 15) (hlow : m = 0 ∨ 2 ^ (-1022 : Int) ≤ |(m : Rat) * 10 ^ k|)
    (hhigh : |(m : Rat) * 10 ^ k| < 2 ^ (1023 : Int)) : NumberKept (Binary64.round (m * 10 ^ k)) := by
  by_cases hne : m = 0
  · have hzero : Binary64.round ((m : Rat) * 10 ^ k) = ((0 : Int) : Rat) := by
      rw [hne, Int.cast_zero, zero_mul]
      exact_mod_cast Binary64.round_intCast (n := 0) (by norm_num)
    rw [hzero]
    exact numberKept_int (by decide) (by decide)
  · obtain ⟨n, hgrid⟩ := exists_mul_digitPlace (k := k) hm hne
    obtain ⟨hheld, hround, hread⟩ := strtod_gText_fifteen hgrid (hlow.resolve_left hne) hhigh
    exact numberKept_fifteen hheld hround hread

/-- A tenth, which no `double` is. -/
theorem decimal_kept_sample : NumberKept (Binary64.round ((1 : Int) * 10 ^ (-1 : Int))) :=
  decimal_kept 1 (-1) (by decide) (.inr (by decide +kernel)) (by decide +kernel)

end GfrGuard
