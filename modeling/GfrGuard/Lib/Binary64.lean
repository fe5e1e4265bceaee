import Mathlib.Data.Rat.Floor
import Mathlib.Data.Nat.Log
import Mathlib.Tactic.Positivity
import Mathlib.Tactic.FieldSimp

/-!
# Numbers of 64 bits

A number that is computed or read is rounded to the nearest of the numbers a `double` holds, of two
to the one with an even last place. These numbers are taken as rationals; what is beyond the largest
is infinite, and stands as the power of two where that begins (`infinite`). An integer of up to 53
bits is one of these numbers (`round_intCast`). The exponents of a number, to base two and to base ten,
are found by its numerator and denominator (`exponent`, `pow_exponent_le`).

A number is written with so many decimal digits (`digits`). Seventeen of them are read as the number they
were taken of (`round_digits`), and a number of fifteen is found again in what is read of it (`digits_round`).
-/

namespace Binary64

/-- The nearest integer, of two the even one. -/
def roundEven (q : Rat) : Int :=
  if q - ⌊q⌋ < 1 / 2 then ⌊q⌋
  else if 1 / 2 < q - ⌊q⌋ then ⌊q⌋ + 1
  else if ⌊q⌋ % 2 = 0 then ⌊q⌋
  else ⌊q⌋ + 1

/-- The exponent of a positive number: the largest power of the base that is not above it. -/
def exponent (base : Nat) (q : Rat) : Int :=
  let k := (Nat.log base q.num.natAbs : Int) - Nat.log base q.den
  if (base : Rat) ^ k ≤ q then k else k - 1

/-- What stands for an infinite number. -/
def infinite : Rat := 2 ^ 1024

/-- The place of the last bit of a number. -/
def place (q : Rat) : Int := max (exponent 2 |q| - 52) (-1074)

/-- The number a `double` holds for it. -/
def round (q : Rat) : Rat :=
  let r := (roundEven (q / 2 ^ place q) : Rat) * 2 ^ place q
  if infinite ≤ r then infinite else if r ≤ -infinite then -infinite else r

/-! ## Nearest integers -/

theorem roundEven_intCast (n : Int) : roundEven n = n := by
  unfold roundEven
  rw [Int.floor_intCast, sub_self, if_pos (by norm_num)]

theorem abs_roundEven_sub_le (q : Rat) : |(roundEven q : Rat) - q| ≤ 1 / 2 := by
  have hlow := Int.floor_le q
  have hhigh := Int.lt_floor_add_one q
  rw [abs_le]
  unfold roundEven
  split_ifs with h h' <;> push_cast <;> constructor <;> linarith

/-- An integer that is nearer than a half is the nearest. -/
theorem roundEven_of_near {q : Rat} {n : Int} (h : |q - n| < 1 / 2) : roundEven q = n := by
  have hround := abs_roundEven_sub_le q
  have hlt : |(roundEven q : Rat) - n| < 1 := by
    calc |(roundEven q : Rat) - n| = |((roundEven q : Rat) - q) + (q - n)| := by rw [sub_add_sub_cancel]
      _ ≤ |(roundEven q : Rat) - q| + |q - n| := abs_add_le _ _
      _ < 1 := by linarith
  have hint : |roundEven q - n| < 1 := by exact_mod_cast hlt
  exact sub_eq_zero.1 (Int.abs_lt_one_iff.1 hint)

theorem roundEven_neg (q : Rat) : roundEven (-q) = -roundEven q := by
  by_cases hint : (⌊q⌋ : Rat) = q
  · rw [← hint, ← Int.cast_neg, roundEven_intCast, roundEven_intCast]
  · have hlow : (⌊q⌋ : Rat) < q := lt_of_le_of_ne (Int.floor_le q) hint
    have hhigh := Int.lt_floor_add_one q
    have hfloor : ⌊-q⌋ = -⌊q⌋ - 1 := by
      rw [Int.floor_eq_iff]
      push_cast
      constructor <;> linarith
    unfold roundEven
    rw [hfloor]
    push_cast
    split_ifs <;> first | omega | (exfalso; linarith)

/-! ## Exponents -/

/-- The power of the exponent is not above the number. -/
theorem pow_exponent_le {base : Nat} {q : Rat} (hbase : 1 < base) (hq : 0 < q) : (base : Rat) ^ exponent base q ≤ q := by
  have hb : (0 : Rat) < base := by
    exact_mod_cast (Nat.lt_trans Nat.zero_lt_one hbase)
  unfold exponent
  dsimp only
  split
  · next h => exact h
  · have hnum : ((base ^ Nat.log base q.num.natAbs : Nat) : Rat) ≤ q.num := by
      have hpos : 0 < q.num := Rat.num_pos.2 hq
      have hle := Nat.pow_log_le_self base (Int.natAbs_ne_zero.2 hpos.ne')
      have hcast : ((base ^ Nat.log base q.num.natAbs : Nat) : Int) ≤ q.num := by omega
      exact_mod_cast hcast
    have hden : (q.den : Rat) ≤ ((base ^ (Nat.log base q.den + 1) : Nat) : Rat) := by
      exact_mod_cast (Nat.lt_pow_succ_log_self hbase q.den).le
    have hdpos : (0 : Rat) < q.den := by exact_mod_cast q.den_pos
    have hsplit : (base : Rat) ^ ((Nat.log base q.num.natAbs : Int) - Nat.log base q.den - 1) =
        ((base ^ Nat.log base q.num.natAbs : Nat) : Rat) / ((base ^ (Nat.log base q.den + 1) : Nat) : Rat) := by
      rw [sub_sub, zpow_sub₀ hb.ne', Nat.cast_pow, Nat.cast_pow, zpow_natCast]
      norm_cast
    calc (base : Rat) ^ ((Nat.log base q.num.natAbs : Int) - Nat.log base q.den - 1)
        = ((base ^ Nat.log base q.num.natAbs : Nat) : Rat) / ((base ^ (Nat.log base q.den + 1) : Nat) : Rat) := hsplit
      _ ≤ q.num / q.den := div_le_div₀ (le_trans (by positivity) hnum) hnum hdpos hden
      _ = q := Rat.num_div_den q

/-- The number is below the next power. -/
theorem lt_pow_exponent {base : Nat} {q : Rat} (hbase : 1 < base) (hq : 0 < q) :
    q < (base : Rat) ^ (exponent base q + 1) := by
  have hb : (0 : Rat) < base := by
    exact_mod_cast (Nat.lt_trans Nat.zero_lt_one hbase)
  unfold exponent
  dsimp only
  split
  · have hnum : (q.num : Rat) < ((base ^ (Nat.log base q.num.natAbs + 1) : Nat) : Rat) := by
      have hlt : q.num.natAbs < base ^ (Nat.log base q.num.natAbs + 1) := Nat.lt_pow_succ_log_self hbase _
      have hpos : 0 < q.num := Rat.num_pos.2 hq
      have hcast : q.num < ((base ^ (Nat.log base q.num.natAbs + 1) : Nat) : Int) := by omega
      exact_mod_cast hcast
    have hden : ((base ^ Nat.log base q.den : Nat) : Rat) ≤ q.den := by
      exact_mod_cast Nat.pow_log_le_self base q.den_pos.ne'
    have hpow : (0 : Rat) < ((base ^ Nat.log base q.den : Nat) : Rat) := by
      rw [Nat.cast_pow]
      positivity
    have hsplit : (base : Rat) ^ ((Nat.log base q.num.natAbs : Int) - Nat.log base q.den + 1) =
        ((base ^ (Nat.log base q.num.natAbs + 1) : Nat) : Rat) / ((base ^ Nat.log base q.den : Nat) : Rat) := by
      rw [sub_add_eq_add_sub, zpow_sub₀ hb.ne', Nat.cast_pow, Nat.cast_pow, zpow_natCast]
      norm_cast
    calc q = q.num / q.den := (Rat.num_div_den q).symm
      _ < ((base ^ (Nat.log base q.num.natAbs + 1) : Nat) : Rat) / ((base ^ Nat.log base q.den : Nat) : Rat) :=
        div_lt_div₀ hnum hden (le_trans (by positivity) hnum.le) hpow
      _ = _ := hsplit.symm
  · next h =>
    rw [sub_add_cancel]
    exact not_le.1 h

theorem le_exponent {base : Nat} {q : Rat} {k : Int} (hbase : 1 < base) (hq : 0 < q) (h : (base : Rat) ^ k ≤ q) :
    k ≤ exponent base q := by
  have hb : (1 : Rat) < base := by exact_mod_cast hbase
  exact Int.lt_add_one_iff.1 ((zpow_lt_zpow_iff_right₀ hb).1 (h.trans_lt (lt_pow_exponent hbase hq)))

theorem exponent_lt {base : Nat} {q : Rat} {k : Int} (hbase : 1 < base) (hq : 0 < q) (h : q < (base : Rat) ^ k) :
    exponent base q < k := by
  have hb : (1 : Rat) < base := by exact_mod_cast hbase
  exact (zpow_lt_zpow_iff_right₀ hb).1 ((pow_exponent_le hbase hq).trans_lt h)

theorem exponent_eq {base : Nat} {q : Rat} {k : Int} (hbase : 1 < base) (hq : 0 < q) (hlow : (base : Rat) ^ k ≤ q)
    (hhigh : q < (base : Rat) ^ (k + 1)) : exponent base q = k :=
  le_antisymm (Int.lt_add_one_iff.1 (exponent_lt hbase hq hhigh)) (le_exponent hbase hq hlow)

/-- A power is a multiple of a smaller one. -/
theorem exists_int_mul_zpow {base : Nat} {j k : Int} (hbase : 1 < base) (h : j ≤ k) :
    ∃ n : Int, (base : Rat) ^ k = n * (base : Rat) ^ j := by
  have hb : (base : Rat) ≠ 0 := by
    exact_mod_cast (Nat.lt_trans Nat.zero_lt_one hbase).ne'
  refine ⟨(base : Int) ^ (k - j).toNat, ?_⟩
  rw [Int.cast_pow, Int.cast_natCast, ← zpow_natCast, Int.toNat_of_nonneg (sub_nonneg.2 h), ← zpow_add₀ hb,
    sub_add_cancel]

/-! ## Rounding -/

/-- An integer of up to 53 bits is kept. -/
theorem round_intCast {n : Int} (h : |n| < 2 ^ 53) : round n = n := by
  have hplace : place n ≤ 0 := by
    unfold place
    refine max_le ?_ (by norm_num)
    by_cases hn : n = 0
    · subst hn
      decide
    · have hpos : (0 : Rat) < |(n : Rat)| := abs_pos.2 (Int.cast_ne_zero.2 hn)
      have hle := pow_exponent_le Nat.one_lt_two hpos
      have hlt : |(n : Rat)| < 2 ^ (53 : Int) := by exact_mod_cast h
      have hexp : exponent 2 |(n : Rat)| < 53 := (zpow_lt_zpow_iff_right₀ (by norm_num)).1 (lt_of_le_of_lt hle hlt)
      omega
  have hdiv : (n : Rat) / 2 ^ place n = ((n * 2 ^ (-place n).toNat : Int) : Rat) := by
    obtain ⟨k, hk⟩ := Int.eq_ofNat_of_zero_le (Int.neg_nonneg.2 hplace)
    rw [hk, Int.toNat_natCast, Int.cast_mul, Int.cast_pow, div_eq_mul_inv, ← zpow_neg, hk, zpow_natCast]
    norm_cast
  have hr : (roundEven ((n : Rat) / 2 ^ place n) : Rat) * 2 ^ place n = n := by
    rw [hdiv, roundEven_intCast, ← hdiv, div_mul_cancel₀]
    exact zpow_ne_zero _ two_ne_zero
  have habs : |(n : Rat)| < infinite := by
    have hlt : |(n : Rat)| < 2 ^ 53 := by exact_mod_cast h
    exact hlt.trans (pow_lt_pow_right₀ one_lt_two (by norm_num))
  unfold round
  dsimp only
  rw [hr, if_neg (not_le.2 (abs_lt.1 habs).2), if_neg (not_le.2 (abs_lt.1 habs).1)]

theorem round_neg (q : Rat) : round (-q) = -round q := by
  have hplace : place (-q) = place q := by
    unfold place
    rw [abs_neg]
  have hinf : (0 : Rat) < infinite := by
    unfold infinite
    positivity
  unfold round
  rw [hplace, neg_div, roundEven_neg]
  dsimp only
  rw [Int.cast_neg, neg_mul]
  generalize (roundEven (q / 2 ^ place q) : Rat) * 2 ^ place q = r
  split_ifs <;> linarith

theorem round_nonneg {q : Rat} (h : 0 ≤ q) : 0 ≤ round q := by
  have hinf : (0 : Rat) < infinite := by
    unfold infinite
    positivity
  have hpos : (0 : Rat) < 2 ^ place q := zpow_pos two_pos _
  have hnear := abs_le.1 (abs_roundEven_sub_le (q / 2 ^ place q))
  have hdiv : 0 ≤ q / 2 ^ place q := div_nonneg h hpos.le
  have hint : (-1 : Int) < roundEven (q / 2 ^ place q) := by
    have hlt : ((-1 : Int) : Rat) < roundEven (q / 2 ^ place q) := by
      push_cast
      linarith [hnear.1]
    exact_mod_cast hlt
  have hr : (0 : Rat) ≤ roundEven (q / 2 ^ place q) * 2 ^ place q := by
    have hcast : (0 : Rat) ≤ roundEven (q / 2 ^ place q) := by exact_mod_cast Int.add_one_le_iff.2 hint
    positivity
  unfold round
  dsimp only
  split_ifs <;> linarith

theorem abs_round (q : Rat) : |round q| = round |q| := by
  rcases le_total 0 q with h | h
  · rw [abs_of_nonneg h, abs_of_nonneg (round_nonneg h)]
  · have hneg := round_nonneg (neg_nonneg.2 h)
    rw [round_neg] at hneg
    rw [abs_of_nonpos h, round_neg, abs_of_nonpos (neg_nonneg.1 hneg)]

/-- A finite number is a multiple of its last place. -/
theorem round_eq {t : Rat} (h : |round t| < infinite) : round t = roundEven (t / 2 ^ place t) * 2 ^ place t := by
  rw [abs_lt] at h
  unfold round at h ⊢
  dsimp only at h ⊢
  split_ifs at h ⊢
  · exact absurd h.2 (lt_irrefl _)
  · exact absurd h.1 (lt_irrefl _)
  · rfl

/-- A finite number that a `double` holds. -/
def Held (q : Rat) : Prop := round q = q ∧ |q| < infinite

theorem Held.neg {q : Rat} (h : Held q) : Held (-q) := ⟨by rw [round_neg, h.1], by rw [abs_neg]; exact h.2⟩

theorem Held.grid {q : Rat} (h : Held q) : ∃ n : Int, q = n * 2 ^ place q := by
  have hround := round_eq (t := q) (by rw [h.1]; exact h.2)
  rw [h.1] at hround
  exact ⟨_, hround⟩

theorem zpow_place_pos (q : Rat) : (0 : Rat) < 2 ^ place q := zpow_pos two_pos _

/-- What is nearer to a number on the grid of its last place than half of it is rounded to that number. -/
theorem round_of_grid {t q : Rat} {n : Int} (hq : q = n * 2 ^ place t) (hfinite : |q| < infinite)
    (h : |t - q| < 2 ^ place t / 2) : round t = q := by
  have hpos := zpow_place_pos t
  have hnear : |t / 2 ^ place t - n| < 1 / 2 := by
    have hdiv : t / 2 ^ place t - n = (t - q) / 2 ^ place t := by
      rw [sub_div, hq, mul_div_cancel_right₀ _ hpos.ne']
    rw [hdiv, abs_div, abs_of_pos hpos, div_lt_iff₀ hpos]
    linarith
  have hr : (roundEven (t / 2 ^ place t) : Rat) * 2 ^ place t = q := by rw [roundEven_of_near hnear, hq]
  rw [abs_lt] at hfinite
  unfold round
  dsimp only
  rw [hr, if_neg (not_le.2 hfinite.2), if_neg (not_le.2 hfinite.1)]

/-- A multiple of its last place, or of a larger one, is kept. -/
theorem round_of_mul {q : Rat} {n k : Int} (hq : q = n * 2 ^ k) (hk : place q ≤ k) (hfinite : |q| < infinite) :
    round q = q := by
  obtain ⟨m, hm⟩ := exists_int_mul_zpow Nat.one_lt_two hk
  rw [Nat.cast_ofNat] at hm
  refine round_of_grid (n := n * m) ?_ hfinite ?_
  · rw [Int.cast_mul, mul_assoc, ← hm]
    exact hq
  · rw [sub_self, abs_zero]
    exact half_pos (zpow_place_pos q)

/-- What a number is rounded to is kept, if it is finite. -/
theorem held_round {t : Rat} (h : |round t| < infinite) : Held (round t) := by
  have hpos := zpow_place_pos t
  have hr := round_eq h
  refine ⟨?_, h⟩
  by_cases hzero : round t = 0
  · rw [hzero]
    exact_mod_cast round_intCast (n := 0) (by norm_num)
  have hbits : |t / 2 ^ place t| < 2 ^ 53 := by
    rw [abs_div, abs_of_pos hpos, div_lt_iff₀ hpos, ← zpow_natCast, ← zpow_add₀ two_ne_zero]
    by_cases ht : t = 0
    · rw [ht, abs_zero]
      exact zpow_pos two_pos _
    · refine (lt_pow_exponent Nat.one_lt_two (abs_pos.2 ht)).trans_le ?_
      rw [Nat.cast_ofNat]
      refine zpow_le_zpow_right₀ one_le_two ?_
      have hle := le_max_left (exponent 2 |t| - 52) (-1074)
      unfold place
      push_cast
      omega
  have hmost : |(roundEven (t / 2 ^ place t) : Rat)| ≤ 2 ^ 53 := by
    have hnear := abs_roundEven_sub_le (t / 2 ^ place t)
    have hlt : |(roundEven (t / 2 ^ place t) : Rat)| < 2 ^ 53 + 1 := by
      rw [abs_le] at hnear
      rw [abs_lt] at hbits ⊢
      constructor <;> linarith
    have hint : |roundEven (t / 2 ^ place t)| < 2 ^ 53 + 1 := by exact_mod_cast hlt
    exact_mod_cast Int.lt_add_one_iff.1 hint
  have hle : |round t| ≤ 2 ^ (53 + place t) := by
    rw [hr, abs_mul, abs_of_pos hpos, zpow_add₀ two_ne_zero]
    exact mul_le_mul_of_nonneg_right hmost hpos.le
  have hexp : exponent 2 |round t| < 54 + place t := by
    refine exponent_lt Nat.one_lt_two (abs_pos.2 hzero) (hle.trans_lt ?_)
    rw [Nat.cast_ofNat]
    exact zpow_lt_zpow_right₀ one_lt_two (by omega)
  have hmin : -1074 ≤ place t := le_max_right _ _
  rcases eq_or_lt_of_le hle with heq | hlt
  · -- the next power of two
    rcases abs_choice (round t) with habs | habs
    · refine round_of_mul (n := 1) (k := 53 + place t) (by rw [← heq, habs]; norm_num) ?_ h
      unfold place at hexp hmin ⊢
      omega
    · refine round_of_mul (n := -1) (k := 53 + place t) (by rw [← heq, habs]; norm_num) ?_ h
      unfold place at hexp hmin ⊢
      omega
  · have hexp : exponent 2 |round t| < 53 + place t := by
      refine exponent_lt Nat.one_lt_two (abs_pos.2 hzero) ?_
      rw [Nat.cast_ofNat]
      exact hlt
    refine round_of_mul hr ?_ h
    generalize place t = P at *
    unfold place
    omega

/-- What is near enough to a number is rounded to it. -/
theorem round_of_near_pos {t q : Rat} (hq : Held q) (hpos : 0 < q) (h : |t - q| < q / 2 ^ 54) : round t = q := by
  have hplace : place q = max (exponent 2 q - 52) (-1074) := by
    unfold place
    rw [abs_of_pos hpos]
  have hu := zpow_place_pos q
  obtain ⟨n, hn⟩ := hq.grid
  generalize hP : place q = P at *
  have hbelow : q < 2 ^ (exponent 2 q + 1) := lt_pow_exponent Nat.one_lt_two hpos
  have hn1 : (1 : Int) ≤ n := by
    have hprod : (0 : Rat) < n * 2 ^ P := hn ▸ hpos
    have hcast : (0 : Rat) < n := pos_of_mul_pos_left hprod hu.le
    exact_mod_cast hcast
  have hleast : (2 : Rat) ^ P ≤ q := by
    have hcast : (1 : Rat) ≤ n := by exact_mod_cast hn1
    rw [hn]
    nlinarith
  have hPe : P ≤ exponent 2 q := le_exponent Nat.one_lt_two hpos hleast
  have hscale : q ≤ 2 ^ 53 * 2 ^ P := by
    have hle : (2 : Rat) ^ (exponent 2 q + 1) ≤ 2 ^ (53 + P) := zpow_le_zpow_right₀ one_le_two (by omega)
    rw [zpow_add₀ two_ne_zero 53 P] at hle
    exact hbelow.le.trans hle
  have hnear : |t - q| < 2 ^ P / 2 := by
    refine h.trans_le ?_
    rw [div_le_div_iff₀ (by positivity) two_pos]
    linarith
  rw [abs_lt] at hnear
  have ht : 0 < t := by linarith
  -- nothing on the grid is between the two
  have hgrid : ∀ k : Int, P ≤ k → (q < 2 ^ k → q + 2 ^ P ≤ 2 ^ k) ∧ (2 ^ k < q → 2 ^ k + 2 ^ P ≤ q) := by
    intro k hk
    obtain ⟨m, hm⟩ := exists_int_mul_zpow Nat.one_lt_two hk
    rw [Nat.cast_ofNat] at hm
    rw [hm]
    constructor <;> intro hlt
    · rw [hn] at hlt ⊢
      have hint : n + 1 ≤ m := Int.add_one_le_iff.2 (by exact_mod_cast lt_of_mul_lt_mul_right hlt hu.le)
      have hcast : (n : Rat) + 1 ≤ m := by exact_mod_cast hint
      nlinarith
    · rw [hn] at hlt ⊢
      have hint : m + 1 ≤ n := Int.add_one_le_iff.2 (by exact_mod_cast lt_of_mul_lt_mul_right hlt hu.le)
      have hcast : (m : Rat) + 1 ≤ n := by exact_mod_cast hint
      nlinarith
  have hexp : exponent 2 t < exponent 2 q + 1 := by
    refine exponent_lt Nat.one_lt_two ht ?_
    have hup := (hgrid (exponent 2 q + 1) (by omega)).1 hbelow
    push_cast
    linarith
  have hq2 : q ≤ 2 ^ (exponent 2 t + 1) := by
    by_contra hlt
    rw [not_le] at hlt
    have htlt : t < 2 ^ (exponent 2 t + 1) := lt_pow_exponent Nat.one_lt_two ht
    have hhalf : ((2 : Nat) : Rat) ^ (P - 1) ≤ t := by
      rw [Nat.cast_ofNat, zpow_sub₀ two_ne_zero, zpow_one]
      linarith
    have hle := le_exponent Nat.one_lt_two ht hhalf
    have hdown := (hgrid (exponent 2 t + 1) (by omega)).2 hlt
    linarith
  have hplace' : place t = max (exponent 2 t - 52) (-1074) := by
    unfold place
    rw [abs_of_pos ht]
  obtain ⟨m, hm⟩ := exists_int_mul_zpow Nat.one_lt_two (show place t ≤ P by omega)
  rw [Nat.cast_ofNat] at hm
  refine round_of_grid (n := n * m) (by rw [hn, hm]; push_cast; ring) hq.2 (h.trans_le ?_)
  calc q / 2 ^ 54 ≤ 2 ^ (exponent 2 t + 1) / 2 ^ 54 := by gcongr
    _ = 2 ^ (exponent 2 t - 52) / 2 := by
      rw [show exponent 2 t + 1 = exponent 2 t - 52 + 53 by ring, zpow_add₀ two_ne_zero]
      norm_num
      ring
    _ ≤ 2 ^ place t / 2 := by
      have hle : (2 : Rat) ^ (exponent 2 t - 52) ≤ 2 ^ place t := zpow_le_zpow_right₀ one_le_two (by omega)
      linarith

theorem Held.abs {q : Rat} (h : Held q) : Held |q| := by
  rcases abs_choice q with habs | habs
  · rwa [habs]
  · rw [habs]
    exact h.neg

/-! ## Decimal digits -/

/-- The place of the last of so many digits. -/
def digitPlace (p : Nat) (q : Rat) : Int := exponent 10 |q| - (p - 1)

/-- So many digits of a number, as the nearest integer. -/
def digits (p : Nat) (q : Rat) : Int := roundEven (|q| / 10 ^ digitPlace p q)

theorem zpow_digitPlace_pos (p : Nat) (q : Rat) : (0 : Rat) < 10 ^ digitPlace p q := zpow_pos (by norm_num) _

theorem abs_digits_sub_le (p : Nat) (q : Rat) :
    abs (digits p q * 10 ^ digitPlace p q - |q|) ≤ 10 ^ digitPlace p q / 2 := by
  have hpos := zpow_digitPlace_pos p q
  have herr := abs_roundEven_sub_le (|q| / 10 ^ digitPlace p q)
  have hdiff : digits p q * 10 ^ digitPlace p q - |q| =
      (digits p q - |q| / 10 ^ digitPlace p q) * 10 ^ digitPlace p q := by
    rw [sub_mul, div_mul_cancel₀ _ hpos.ne']
  rw [hdiff, abs_mul, abs_of_pos hpos]
  unfold digits
  nlinarith

/-- A number between two powers of ten. -/
theorem exponent_ten {q : Rat} (hq : q ≠ 0) :
    (10 : Rat) ^ exponent 10 |q| ≤ |q| ∧ |q| < 10 ^ (exponent 10 |q| + 1) := by
  have hten : 1 < 10 := by norm_num
  have hpos := abs_pos.2 hq
  exact_mod_cast And.intro (pow_exponent_le hten hpos) (lt_pow_exponent hten hpos)

/-- There are as many digits as there should be, or the next power of ten. -/
theorem digits_bounds {p : Nat} {q : Rat} (hp : 1 ≤ p) (hq : q ≠ 0) :
    10 ^ (p - 1) ≤ digits p q ∧ digits p q ≤ 10 ^ p := by
  have hpos := zpow_digitPlace_pos p q
  obtain ⟨hlow, hhigh⟩ := exponent_ten hq
  have hten : (10 : Rat) ≠ 0 := by norm_num
  have hbottom : (10 : Rat) ^ (p - 1) ≤ |q| / 10 ^ digitPlace p q := by
    rw [le_div_iff₀ hpos, ← zpow_natCast, ← zpow_add₀ hten]
    refine le_of_eq_of_le ?_ hlow
    congr 1
    unfold digitPlace
    push_cast [hp]
    ring
  have htop : |q| / 10 ^ digitPlace p q < 10 ^ p := by
    rw [div_lt_iff₀ hpos, ← zpow_natCast, ← zpow_add₀ hten]
    refine hhigh.trans_eq ?_
    congr 1
    unfold digitPlace
    ring
  have herr := abs_le.1 (abs_roundEven_sub_le (|q| / 10 ^ digitPlace p q))
  unfold digits
  constructor
  · have hlt : ((10 ^ (p - 1) : Int) : Rat) < (roundEven (|q| / 10 ^ digitPlace p q) + 1 : Int) := by
      push_cast
      linarith [herr.1]
    exact Int.lt_add_one_iff.1 (by exact_mod_cast hlt)
  · have hlt : ((roundEven (|q| / 10 ^ digitPlace p q) : Int) : Rat) < (10 ^ p + 1 : Int) := by
      push_cast
      linarith [herr.2]
    exact Int.lt_add_one_iff.1 (by exact_mod_cast hlt)

/-- Seventeen digits tell a number from all others. -/
theorem round_digits {q : Rat} (hq : Held q) (hne : q ≠ 0) : round (digits 17 q * 10 ^ digitPlace 17 q) = |q| := by
  have hpos := abs_pos.2 hne
  refine round_of_near_pos hq.abs hpos ((abs_digits_sub_le 17 q).trans_lt ?_)
  have hunit : (10 : Rat) ^ digitPlace 17 q * 10 ^ 16 ≤ |q| := by
    rw [← zpow_natCast, ← zpow_add₀ (by norm_num)]
    refine le_of_eq_of_le ?_ (exponent_ten hne).1
    congr 1
    unfold digitPlace
    norm_num
  have hu := zpow_digitPlace_pos 17 q
  rw [div_lt_div_iff₀ two_pos (by positivity)]
  nlinarith

/-- A number that is neither too small nor too large is rounded by at most one part in `2 ^ 53`. -/
theorem abs_round_sub_le_div {t : Rat} (ht : 0 < t) (hlow : 2 ^ (-1022 : Int) ≤ t) (hhigh : t < 2 ^ (1023 : Int)) :
    |round t - t| ≤ t / 2 ^ 53 ∧ 0 < round t ∧ round t < infinite := by
  have hexp : -1022 ≤ exponent 2 t := le_exponent Nat.one_lt_two ht (by exact_mod_cast hlow)
  have hplace : place t = exponent 2 t - 52 := by
    unfold place
    rw [abs_of_pos ht]
    omega
  have hunit : (2 : Rat) ^ place t * 2 ^ 52 ≤ t := by
    rw [hplace, ← zpow_natCast, ← zpow_add₀ two_ne_zero]
    have hle := pow_exponent_le Nat.one_lt_two ht
    push_cast at hle ⊢
    rwa [sub_add_cancel]
  have hpos := zpow_place_pos t
  have hinf : infinite = 2 * 2 ^ (1023 : Int) := by
    unfold infinite
    rw [show (1023 : Int) = (1023 : Nat) from rfl, zpow_natCast, ← pow_succ']
  generalize (2 : Rat) ^ (1023 : Int) = top at hhigh hinf
  have herr := abs_roundEven_sub_le (t / 2 ^ place t)
  have hr : |(roundEven (t / 2 ^ place t) : Rat) * 2 ^ place t - t| ≤ t / 2 ^ 53 := by
    have hdiff : (roundEven (t / 2 ^ place t) : Rat) * 2 ^ place t - t =
        (roundEven (t / 2 ^ place t) - t / 2 ^ place t) * 2 ^ place t := by
      rw [sub_mul, div_mul_cancel₀ _ hpos.ne']
    rw [hdiff, abs_mul, abs_of_pos hpos, le_div_iff₀ (by positivity)]
    nlinarith
  unfold round
  dsimp only
  generalize (roundEven (t / 2 ^ place t) : Rat) * 2 ^ place t = r at hr ⊢
  have hr' := abs_le.1 hr
  have hsmall : t / 2 ^ 53 ≤ t / 2 := div_le_div_of_nonneg_left ht.le two_pos (by norm_num)
  rw [if_neg (by rw [hinf, not_le]; linarith), if_neg (by rw [hinf, not_le]; linarith)]
  exact ⟨hr, by linarith, by rw [hinf]; linarith⟩

/-- A number of up to fifteen digits that is neither too small nor too large is found again in what it is
rounded to. -/
theorem digits_round {t : Rat} {n : Int} (ht : 0 < t) (hgrid : t = n * 10 ^ digitPlace 15 t) (hlow : 2 ^ (-1022 : Int) ≤ t)
    (hhigh : t < 2 ^ (1023 : Int)) : digits 15 (round t) * 10 ^ digitPlace 15 (round t) = t := by
  obtain ⟨herr, hpos, -⟩ := abs_round_sub_le_div ht hlow hhigh
  have hten : (10 : Rat) ≠ 0 := by norm_num
  have hplace : digitPlace 15 t = exponent 10 t - 14 := by
    unfold digitPlace
    rw [abs_of_pos ht]
    norm_num
  obtain ⟨hbottom, htop⟩ := exponent_ten ht.ne'
  rw [abs_of_pos ht] at hbottom htop
  have hpow : ∀ j : Nat, (10 : Rat) ^ (digitPlace 15 t + j) = 10 ^ j * 10 ^ digitPlace 15 t := by
    intro j
    rw [zpow_add₀ hten, zpow_natCast, mul_comm]
  have hb14 := hpow 14
  have hb15 := hpow 15
  have hunit := zpow_digitPlace_pos 15 t
  rw [show digitPlace 15 t + (14 : Nat) = exponent 10 t by rw [hplace]; norm_num] at hb14
  rw [show digitPlace 15 t + (15 : Nat) = exponent 10 t + 1 by rw [hplace]; push_cast; ring] at hb15
  rw [hb14] at hbottom
  rw [hb15] at htop
  generalize hT : (10 : Rat) ^ digitPlace 15 t = T at *
  have hn14 : (10 : Rat) ^ 14 ≤ n := le_of_mul_le_mul_right (hgrid ▸ hbottom) hunit
  have hn15 : (n : Rat) < 10 ^ 15 := lt_of_mul_lt_mul_right (hgrid ▸ htop) hunit.le
  have hdist : |round t - t| < T / 8 := by
    refine herr.trans_lt ?_
    rw [div_lt_div_iff₀ (by positivity) (by norm_num)]
    nlinarith
  have hdist' := abs_lt.1 hdist
  generalize round t = v at *
  rcases le_or_gt (10 ^ 14 * T) v with hin | hout
  · -- as many digits
    have hnext : v < 10 ^ 15 * T := by
      have hint : n + 1 ≤ 10 ^ 15 := Int.add_one_le_iff.2 (by exact_mod_cast hn15)
      have hcast : (n : Rat) + 1 ≤ 10 ^ 15 := by exact_mod_cast hint
      nlinarith
    have hexp : exponent 10 v = exponent 10 t := by
      refine exponent_eq (by norm_num) hpos ?_ ?_
      · push_cast
        rw [hb14]
        exact hin
      · push_cast
        rw [hb15]
        exact hnext
    have hplace' : digitPlace 15 v = digitPlace 15 t := by
      unfold digitPlace
      rw [abs_of_pos hpos, abs_of_pos ht, hexp]
    have hdigits : digits 15 v = n := by
      unfold digits
      rw [hplace', hT, abs_of_pos hpos]
      refine roundEven_of_near ?_
      have hdiv : v / T - n = (v - t) / T := by rw [sub_div, hgrid, mul_div_cancel_right₀ _ hunit.ne']
      rw [hdiv, abs_div, abs_of_pos hunit, div_lt_iff₀ hunit]
      linarith
    rw [hplace', hT, hdigits, hgrid]
  · -- rounded below a power of ten
    have hn : (n : Rat) = 10 ^ 14 := by
      refine le_antisymm ?_ hn14
      have hlt : (n : Rat) < 10 ^ 14 + 1 := by
        refine lt_of_mul_lt_mul_right ?_ hunit.le
        rw [← hgrid]
        linarith
      have hint : n < 10 ^ 14 + 1 := by exact_mod_cast hlt
      exact_mod_cast Int.lt_add_one_iff.1 hint
    have hpred : (10 : Rat) ^ (exponent 10 t - 1) = 10 ^ 13 * T := by
      rw [zpow_sub₀ hten, zpow_one, hb14]
      ring
    have hexp : exponent 10 v = exponent 10 t - 1 := by
      refine exponent_eq (by norm_num) hpos ?_ ?_
      · push_cast
        rw [hpred]
        rw [hgrid, hn] at hdist'
        linarith
      · push_cast
        rw [sub_add_cancel, hb14]
        exact hout
    have hplace' : digitPlace 15 v = digitPlace 15 t - 1 := by
      unfold digitPlace
      rw [abs_of_pos hpos, abs_of_pos ht, hexp]
      ring
    have hT' : (10 : Rat) ^ digitPlace 15 v = T / 10 := by rw [hplace', zpow_sub₀ hten, zpow_one, hT]
    have hdigits : digits 15 v = 10 ^ 15 := by
      unfold digits
      rw [hT', abs_of_pos hpos]
      refine roundEven_of_near ?_
      have hdiv : v / (T / 10) - ((10 ^ 15 : Int) : Rat) = 10 * (v - t) / T := by
        rw [hgrid, hn]
        field_simp
        push_cast
        ring
      rw [hdiv, abs_div, abs_mul, abs_of_pos hunit, div_lt_iff₀ hunit, abs_of_pos (by norm_num : (0 : Rat) < 10)]
      have hsmall : t / 2 ^ 53 < T / 20 := by
        rw [hgrid, hn, div_lt_div_iff₀ (by positivity) (by norm_num)]
        linarith
      linarith
    rw [hT', hdigits, hgrid, hn]
    push_cast
    ring

end Binary64
