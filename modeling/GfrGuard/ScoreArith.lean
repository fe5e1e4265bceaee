import GfrGuard.Lib.CArith
import GfrGuard.ScoreLaws

/-!
# The arithmetic of the score

`scorer_calculate` adds products of 32-bit counters and weights as `long`, but takes the share of
identical writes in 32 bits. The expressions are given here as the source has them, each operation in
its type. The score is that of the same formula over the unbounded integers, with no operation that
leaves its type, exactly while the sum is below 2^63, the writes are fewer than 2^32 and a hundred
times the identical ones are too (`score_exact_iff`).
-/

namespace GfrGuard

open CArith

/-! ## The expressions -/

/-- `(long)counter * weight`. -/
def weighted (v w : Int) : Expr := .op .long .mul (.val v) (.val w)

/-- `score`, before the suppression. -/
def scoreSum (s : SessionState) (w : Weights) : Expr :=
  .sum .long (weighted s.modifiedCount.toNat w.modified)
    [weighted s.renameCount.toNat w.renameW, weighted s.deleteCount.toNat w.deleteW,
      weighted s.touchedDirs.toNat w.dirs, weighted s.extChangeCount.toNat w.extChange,
      weighted s.ransomExtCount.toNat w.ransomExt,
      weighted (if s.highEntropyCount ≠ 0 then 1 else 0) w.highEntropy,
      weighted (if s.yaraMatchCount ≠ 0 then 1 else 0) w.yaraMatch]

/-- `total_writes`. -/
def totalWrites (s : SessionState) : Expr :=
  .op .unsigned .add (.val s.modifiedCount.toNat) (.val s.contentSameCount.toNat)

/-- `pct_same`. -/
def pctSame (s : SessionState) : Expr :=
  .op .unsigned .div (.op .unsigned .mul (.val s.contentSameCount.toNat) (.val 100)) (totalWrites s)

/-- `(long)threshold - 1`. -/
def capBelow (threshold : Int) : Expr := .op .long .sub (.val threshold) (.val 1)

/-- `dims`. -/
def dimsSum (s : SessionState) : Expr :=
  .sum .int (.val (if 0 < s.modifiedCount then 1 else 0))
    [.val (if 0 < s.renameCount then 1 else 0), .val (if 0 < s.deleteCount then 1 else 0),
      .val (if 0 < s.touchedDirs then 1 else 0), .val (if 0 < s.extChangeCount then 1 else 0)]

/-- What `scorer_calculate` computes; the share only where there are identical writes, and of the two
caps at least as much as is reached. -/
def scoreSteps (s : SessionState) (c : Scoring) : List Expr :=
  [scoreSum s c.weights, totalWrites s] ++
    (if 0 < s.modifiedCount + s.contentSameCount ∧ 0 < s.contentSameCount then [pctSame s] else []) ++
    [capBelow c.thresholds.warn, dimsSum s, capBelow c.thresholds.critical]

/-! ## The formula over the unbounded integers -/

/-- The suppression. -/
def exactSuppress (s : SessionState) (t : Thresholds) (score : Int) : Int :=
  if 0 < (totalWrites s).exact ∧ 0 < s.contentSameCount then
    if 80 ≤ (pctSame s).exact then 0
    else if 50 ≤ (pctSame s).exact then min score (capBelow t.warn).exact
    else score
  else score

/-- The score. -/
def exactScore (s : SessionState) (c : Scoring) : Int :=
  let score := min (max (exactSuppress s c.thresholds (scoreSum s c.weights).exact) 0) 100
  let score := if s.DeleteOnly then min score 60 else score
  if (dimsSum s).exact = 1 ∧ s.ransomExtCount = 0 then min score (capBelow c.thresholds.critical).exact
  else score

/-- No operation wraps, overflows or divides by zero, and the score is that of the formula. -/
structure ScoreExact (s : SessionState) (p : Policy) : Prop where
  fits : ∀ e ∈ scoreSteps s p.scoring, e.Fits
  score : ((scorerCalculate s p).riskScore.toNat : Int) = exactScore s p.scoring

/-- Counters that leave room for the arithmetic. -/
structure SessionState.Room (s : SessionState) (w : Weights) : Prop where
  sum : rawScore s w < 2 ^ 63
  writes : s.modifiedCount.toNat + s.contentSameCount.toNat < 2 ^ 32
  share : s.contentSameCount.toNat * 100 < 2 ^ 32

/-! ## Weights of a policy file -/

/-- The weights, in the order of the sum. -/
def Weights.values (w : Weights) : List Int :=
  [w.modified, w.renameW, w.deleteW, w.dirs, w.extChange, w.ransomExt, w.highEntropy, w.yaraMatch]

/-- Weights that are `int` and not negative. -/
def Weights.Ints (w : Weights) : Prop := ∀ v ∈ w.values, 0 ≤ v ∧ v ≤ 2147483647

section
variable {env : ConfigEnv} {files : FileTexts} {path : CStr} {st : Settings} {s : SessionState}
  {c : Scoring} {t : Thresholds} {weights : Weights} {v w : Int} {p : Policy}

theorem valueInt_le (q : Rat) : Json.valueInt q ≤ 2147483647 := by
  unfold Json.valueInt
  split_ifs with hbig hsmall
  · exact le_rfl
  · decide
  · have hden : (0 : Int) < q.den := Int.natCast_pos.2 q.den_pos
    have hlt : q.num < 2147483647 * q.den := by
      simpa using (Rat.lt_iff q 2147483647).1 (Rat.not_le.1 hbig)
    have hle := Int.tdiv_le_tdiv hden hlt.le
    rwa [Int.mul_tdiv_cancel _ hden.ne'] at hle

theorem copyInt_le {node : Option Json} (hw : w ≤ 2147483647) : copyInt w node ≤ 2147483647 := by
  unfold copyInt
  split
  · exact valueInt_le _
  · exact hw

/-- A weight is an `int`, and not negative where the policy is accepted. -/
theorem weights_ints (h : configLoad env files path = some st) : st.policy.scoring.weights.Ints := by
  have hvalid := (sane_of_configLoad h).weights
  obtain ⟨root, -, rfl, -⟩ := configLoad_eq_some.1 h
  simp only [Weights.valid, Bool.and_eq_true, decide_eq_true_eq] at hvalid
  obtain ⟨⟨⟨⟨⟨⟨⟨hmod, hren⟩, hdel⟩, hdirs⟩, hext⟩, hran⟩, hent⟩, hyara⟩ := hvalid
  simp only [Weights.Ints, Weights.values, List.forall_mem_cons]
  exact ⟨⟨hmod, copyInt_le (by decide)⟩, ⟨hren, copyInt_le (by decide)⟩, ⟨hdel, copyInt_le (by decide)⟩,
    ⟨hdirs, copyInt_le (by decide)⟩, ⟨hext, copyInt_le (by decide)⟩, ⟨hran, copyInt_le (by decide)⟩,
    ⟨hent, copyInt_le (by decide)⟩, ⟨hyara, copyInt_le (by decide)⟩, fun v hv => by cases hv⟩

/-! ## The sum -/

theorem weighted_room (hv : 0 ≤ v ∧ v ≤ 4294967295) (hw : 0 ≤ w ∧ w ≤ 2147483647) :
    (weighted v w).Fits ∧ 0 ≤ (weighted v w).exact := by
  have hpos : 0 ≤ v * w := Int.mul_nonneg hv.1 hw.1
  have hle : v * w ≤ 4294967295 * 2147483647 := Int.mul_le_mul hv.2 hw.2 hw.1 (by decide)
  have hmin : IntType.long.min = -9223372036854775808 := rfl
  have hmax : IntType.long.max = 9223372036854775807 := rfl
  have hholds : IntType.long.Holds (v * w) := ⟨by omega, by omega⟩
  exact ⟨⟨trivial, trivial, fun h => (by cases h.1), hholds⟩, hpos⟩

theorem counter_room (c : UInt32) : 0 ≤ (c.toNat : Int) ∧ (c.toNat : Int) ≤ 4294967295 := by
  have := c.toNat_lt
  omega

theorem flag_room (q : Prop) [Decidable q] :
    0 ≤ (if q then 1 else 0 : Int) ∧ (if q then 1 else 0 : Int) ≤ 4294967295 := by
  split <;> decide

theorem exact_scoreSum : (scoreSum s weights).exact = rawScore s weights := by
  simp only [scoreSum, Expr.exact_sum, weighted, Expr.exact, Op.apply, List.map_cons, List.map_nil,
    List.sum_cons, List.sum_nil, rawScore]
  omega

/-- Products of a counter and a weight fit; the sum need not. -/
theorem fits_scoreSum_iff (hw : weights.Ints) :
    (scoreSum s weights).Fits ↔ rawScore s weights < 2 ^ 63 := by
  simp only [Weights.Ints, Weights.values, List.forall_mem_cons] at hw
  obtain ⟨hmod, hren, hdel, hdirs, hext, hran, hent, hyara, -⟩ := hw
  have hfirst := weighted_room (counter_room s.modifiedCount) hmod
  have hrest : ∀ x ∈ [weighted s.renameCount.toNat weights.renameW,
      weighted s.deleteCount.toNat weights.deleteW, weighted s.touchedDirs.toNat weights.dirs,
      weighted s.extChangeCount.toNat weights.extChange,
      weighted s.ransomExtCount.toNat weights.ransomExt,
      weighted (if s.highEntropyCount ≠ 0 then 1 else 0) weights.highEntropy,
      weighted (if s.yaraMatchCount ≠ 0 then 1 else 0) weights.yaraMatch],
      x.Fits ∧ 0 ≤ x.exact := by
    simp only [List.forall_mem_cons]
    exact ⟨weighted_room (counter_room _) hren, weighted_room (counter_room _) hdel,
      weighted_room (counter_room _) hdirs, weighted_room (counter_room _) hext,
      weighted_room (counter_room _) hran, weighted_room (flag_room _) hent,
      weighted_room (flag_room _) hyara, fun x hx => by cases hx⟩
  have hmax : IntType.long.max = 2 ^ 63 - 1 := rfl
  rw [scoreSum, Expr.fits_sum_iff hfirst.2 fun x hx => (hrest x hx).2, ← scoreSum, exact_scoreSum, hmax]
  constructor
  · rintro ⟨-, -, hle⟩
    have := hle (List.cons_ne_nil _ _)
    omega
  · exact fun h => ⟨hfirst.1, fun x hx => (hrest x hx).1, fun _ => by omega⟩

/-! ## The share of identical writes -/

theorem exact_totalWrites :
    (totalWrites s).exact = s.modifiedCount.toNat + s.contentSameCount.toNat := rfl

theorem exact_pctSame : (pctSame s).exact =
    ((s.contentSameCount.toNat * 100 / (s.modifiedCount.toNat + s.contentSameCount.toNat) : Nat) : Int) := by
  show ((s.contentSameCount.toNat : Int) * 100).tdiv (s.modifiedCount.toNat + s.contentSameCount.toNat) = _
  rw [Int.tdiv_eq_ediv_of_nonneg (by omega)]
  push_cast
  rfl

theorem fits_totalWrites_iff :
    (totalWrites s).Fits ↔ s.modifiedCount.toNat + s.contentSameCount.toNat < 2 ^ 32 := by
  have hmin : IntType.unsigned.min = 0 := rfl
  have hmax : IntType.unsigned.max = 4294967295 := rfl
  constructor
  · rintro ⟨-, -, -, -, hle⟩
    rw [hmax] at hle
    simp only [Op.apply, Expr.exact] at hle
    omega
  · intro h
    refine ⟨trivial, trivial, fun h => (by cases h.1), ?_, ?_⟩
    · simp only [Op.apply, Expr.exact]
      omega
    · simp only [Op.apply, Expr.exact]
      omega

theorem fits_pctSame_iff (h : (totalWrites s).Fits) (hpos : 0 < (totalWrites s).exact) :
    (pctSame s).Fits ↔ s.contentSameCount.toNat * 100 < 2 ^ 32 := by
  have hmin : IntType.unsigned.min = 0 := rfl
  have hmax : IntType.unsigned.max = 4294967295 := rfl
  constructor
  · rintro ⟨⟨-, -, -, -, hle⟩, -⟩
    rw [hmax] at hle
    simp only [Op.apply, Expr.exact] at hle
    omega
  · intro hlt
    have hmul : IntType.unsigned.Holds (s.contentSameCount.toNat * 100 : Int) := ⟨by omega, by omega⟩
    have hdiv : IntType.unsigned.Holds (pctSame s).exact := by
      have hle := Nat.div_le_self (s.contentSameCount.toNat * 100)
        (s.modifiedCount.toNat + s.contentSameCount.toNat)
      rw [exact_pctSame]
      refine ⟨Int.natCast_nonneg _, ?_⟩
      omega
    exact ⟨⟨trivial, trivial, fun h => (by cases h.1), hmul⟩, h, fun hzero => by omega, hdiv⟩

/-- The total that the source computes is that of the expression, wrapped. -/
theorem run_totalWrites :
    (totalWrites s).run = some ((s.modifiedCount + s.contentSameCount).toNat : Int) := by
  rw [UInt32.toNat_add]
  push_cast
  rfl

/-- The share that the source computes, where the total is not zero. -/
theorem run_pctSame (h : 0 < s.modifiedCount + s.contentSameCount) : (pctSame s).run =
    some ((s.contentSameCount * 100 / (s.modifiedCount + s.contentSameCount)).toNat : Int) := by
  have hpos : 0 < (s.modifiedCount + s.contentSameCount).toNat := UInt32.lt_iff_toNat_lt.1 h
  have hmul : (s.contentSameCount * 100).toNat = s.contentSameCount.toNat * 100 % 2 ^ 32 :=
    UInt32.toNat_mul _ _
  have hrun : (Expr.op .unsigned .mul (.val s.contentSameCount.toNat) (.val 100)).run =
      some ((s.contentSameCount * 100).toNat : Int) := by
    rw [hmul]
    push_cast
    rfl
  have hlt := (s.contentSameCount * 100 / (s.modifiedCount + s.contentSameCount)).toNat_lt
  rw [pctSame, Expr.run, hrun, run_totalWrites, Option.bind_some, Option.bind_some,
    if_neg fun hzero => by omega, Op.apply, Int.tdiv_eq_ediv_of_nonneg (Int.natCast_nonneg _)]
  rw [UInt32.toNat_div] at hlt ⊢
  rw [← Int.natCast_ediv]
  exact congrArg some (Int.emod_eq_of_lt (Int.natCast_nonneg _) (by exact_mod_cast hlt))

theorem totalWrites_pos_iff (hfits : (totalWrites s).Fits) :
    0 < (totalWrites s).exact ↔ 0 < s.modifiedCount + s.contentSameCount := by
  have htotal : (totalWrites s).exact = (s.modifiedCount + s.contentSameCount).toNat :=
    Option.some.inj ((Expr.run_of_fits hfits).symm.trans run_totalWrites)
  rw [htotal, UInt32.lt_iff_toNat_lt]
  exact Int.natCast_pos

/-- With room for its operations the suppression is that of the formula. -/
theorem suppressSame_eq (hfits : (totalWrites s).Fits)
    (hshare : s.contentSameCount.toNat * 100 < 2 ^ 32) :
    suppressSame s t v = exactSuppress s t v := by
  have hguard := totalWrites_pos_iff hfits
  unfold suppressSame exactSuppress
  dsimp only
  refine ite_congr (by rw [hguard]) (fun h => ?_) fun _ => rfl
  have hpct : (pctSame s).exact =
      (s.contentSameCount * 100 / (s.modifiedCount + s.contentSameCount)).toNat :=
    Option.some.inj ((Expr.run_of_fits ((fits_pctSame_iff hfits h.1).2 hshare)).symm.trans
      (run_pctSame (hguard.1 h.1)))
  have hle (k : UInt32) : k ≤ s.contentSameCount * 100 / (s.modifiedCount + s.contentSameCount) ↔
      (k.toNat : Int) ≤ (pctSame s).exact := by
    rw [hpct, UInt32.le_iff_toNat_le, Int.ofNat_le]
  exact ite_congr (propext (hle 80)) (fun _ => rfl) fun _ =>
    ite_congr (propext (hle 50)) (fun _ => rfl) fun _ => rfl

/-! ## The other sums -/

theorem fits_dimsSum : (dimsSum s).Fits := by
  have hpos : ∀ x ∈ [Expr.val (if 0 < s.renameCount then 1 else 0),
      .val (if 0 < s.deleteCount then 1 else 0), .val (if 0 < s.touchedDirs then 1 else 0),
      .val (if 0 < s.extChangeCount then 1 else 0)], x.Fits ∧ 0 ≤ x.exact := by
    simp only [List.forall_mem_cons]
    exact ⟨⟨trivial, (flag_room _).1⟩, ⟨trivial, (flag_room _).1⟩, ⟨trivial, (flag_room _).1⟩,
      ⟨trivial, (flag_room _).1⟩, fun x hx => by cases hx⟩
  have hfirst : 0 ≤ (Expr.val (if 0 < s.modifiedCount then 1 else 0)).exact := (flag_room _).1
  rw [dimsSum, Expr.fits_sum_iff hfirst fun x hx => (hpos x hx).2]
  refine ⟨trivial, fun x hx => (hpos x hx).1, fun _ => ?_⟩
  have hmax : IntType.int.max = 2147483647 := rfl
  simp only [Expr.exact_sum, Expr.exact, List.map_cons, List.map_nil, List.sum_cons, List.sum_nil]
  split_ifs <;> omega

theorem exact_dimsSum : (dimsSum s).exact = dimensions s := by
  simp only [dimsSum, Expr.exact_sum, Expr.exact, List.map_cons, List.map_nil, List.sum_cons,
    List.sum_nil, dimensions]
  push_cast
  omega

theorem fits_capBelow (hpos : 1 ≤ v) (hmax : v ≤ 100) : (capBelow v).Fits := by
  have hlong : IntType.long.Holds (v - 1) := by
    have hlow : IntType.long.min = -9223372036854775808 := rfl
    have hhigh : IntType.long.max = 9223372036854775807 := rfl
    exact ⟨by omega, by omega⟩
  exact ⟨trivial, trivial, fun h => (by cases h.1), hlong⟩

/-! ## The score -/

/-- The share is computed where there are identical writes, and without them has room. -/
theorem fits_share_iff (hwrites : (totalWrites s).Fits) :
    (∀ e ∈ if 0 < s.modifiedCount + s.contentSameCount ∧ 0 < s.contentSameCount then [pctSame s] else [],
      e.Fits) ↔ s.contentSameCount.toNat * 100 < 2 ^ 32 := by
  have hsame : 0 < s.contentSameCount ↔ 0 < s.contentSameCount.toNat := UInt32.lt_iff_toNat_lt
  by_cases hpos : 0 < s.contentSameCount.toNat
  · have htotal : 0 < (totalWrites s).exact := by
      rw [exact_totalWrites]
      omega
    rw [if_pos ⟨(totalWrites_pos_iff hwrites).1 htotal, hsame.2 hpos⟩, List.forall_mem_singleton,
      fits_pctSame_iff hwrites htotal]
  · rw [if_neg fun h => hpos (hsame.1 h.2)]
    exact iff_of_true (fun e he => by cases he) (by omega)

theorem fits_scoreSteps_iff (hsane : p.scoring.Sane) (hw : p.scoring.weights.Ints) :
    (∀ e ∈ scoreSteps s p.scoring, e.Fits) ↔ s.Room p.scoring.weights := by
  have hcrit := hsane.critical
  have hhigh := hsane.high
  have hwarn := hsane.warn
  have hmax := hsane.max
  have hcaps : ∀ e ∈ [capBelow p.scoring.thresholds.warn, dimsSum s,
      capBelow p.scoring.thresholds.critical], e.Fits := by
    simp only [List.forall_mem_cons]
    exact ⟨fits_capBelow hwarn (by omega), fits_dimsSum, fits_capBelow (by omega) hmax,
      fun e he => by cases he⟩
  rw [scoreSteps, List.forall_mem_append, List.forall_mem_append, List.forall_mem_cons,
    List.forall_mem_singleton, and_iff_left hcaps, fits_scoreSum_iff hw]
  constructor
  · rintro ⟨⟨hsum, hwrites⟩, hshare⟩
    exact ⟨hsum, fits_totalWrites_iff.1 hwrites, (fits_share_iff hwrites).1 hshare⟩
  · rintro ⟨hsum, hwrites, hshare⟩
    have hfits := fits_totalWrites_iff.2 hwrites
    exact ⟨⟨hsum, hfits⟩, (fits_share_iff hfits).2 hshare⟩

/-- The score and the steps to it are exact where the counters leave room, and only there. -/
theorem score_exact_iff (h : configLoad env files path = some st) (s : SessionState) :
    ScoreExact s st.policy ↔ s.Room st.policy.scoring.weights := by
  have hsane := sane_of_configLoad h
  have hfits := fits_scoreSteps_iff (s := s) hsane (weights_ints h)
  refine ⟨fun hexact => hfits.1 hexact.fits, fun hroom => ⟨hfits.2 hroom, ?_⟩⟩
  rw [riskScore_toNat hsane, exactScore]
  dsimp only
  rw [suppressSame_eq (fits_totalWrites_iff.2 hroom.writes) hroom.share, ← exact_scoreSum]
  simp only [exact_dimsSum, Nat.cast_eq_one]
  rfl

/-- Eight of ten writes that are identical, by default. -/
theorem score_exact_same : ScoreExact { SessionState.zero with modifiedCount := 2, contentSameCount := 8 }
    (docSettings emptyText (.obj [])).policy :=
  (score_exact_iff configLoad_empty _).2 ⟨by decide, by decide, by decide⟩

/-- From 42949673 identical writes on a hundred times their number wraps. Next to ten other writes the
share is then taken to be nothing, and the score is that of the ten. -/
theorem score_inexact :
    ¬ ∀ (env : ConfigEnv) (files : FileTexts) (path : CStr) (st : Settings) (s : SessionState),
      configLoad env files path = some st → ScoreExact s st.policy := by
  intro h
  have hexact := (h _ _ _ _ { SessionState.zero with
    modifiedCount := 10, renameCount := 10, contentSameCount := 42949673 } configLoad_empty).score
  revert hexact
  decide

end

end GfrGuard
