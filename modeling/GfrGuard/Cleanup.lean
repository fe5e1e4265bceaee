import GfrGuard.Lib.Calendar
import GfrGuard.Daemon

/-!
# The cleanup of restored rows

`db_cleanup_restored` compares the text `gfrguard-recover` wrote, with a `T` between date and clock,
with the text SQLite computes, with a blank there. As text the first is after the second on the same
day whatever the clock says, so what counts is the day (`iso8601_lt_datetime_iff`), and a row of the
first day that is old enough stays (`cleanup_restored_iff`).
-/

namespace GfrGuard

open Calendar (Date)

/-! ## Times as text -/

/-- A local time. The clock of the system starts in 1970, and SQLite's calendar ends with the year 9999. -/
structure LocalTime where
  date : Date
  hour : Nat
  minute : Nat
  second : Nat
  year_ge : 1000 ≤ date.year
  year_le : date.year ≤ 9999
  hour_lt : hour < 24
  minute_lt : minute < 60
  second_lt : second < 60

/-- The seconds since midnight. -/
def LocalTime.secs (t : LocalTime) : Nat := t.hour * 3600 + t.minute * 60 + t.second

/-- The seconds of a time, counted from the day before the first of January of the year 1. -/
def LocalTime.instant (t : LocalTime) : Int := t.date.number * 86400 + t.secs

/-- `%Y-%m-%d`. -/
def dateText (d : Date) : CStr := decPadInt 4 d.year ++ dash :: (decPad 2 d.month ++ dash :: decPad 2 d.day)

/-- `%H:%M:%S`. -/
def clockText (t : LocalTime) : CStr :=
  decPad 2 t.hour ++ colon :: (decPad 2 t.minute ++ colon :: decPad 2 t.second)

/-- `iso8601_now` at a time. -/
def iso8601Now (t : LocalTime) : CStr := dateText t.date ++ 84 :: clockText t

/-- SQLite's `datetime('now', 'localtime', '-n days')`: nothing before the start of the Julian days. -/
def datetimeDaysAgo (now : LocalTime) (n : Nat) : Option CStr :=
  let date := Date.pred^[n] now.date
  if (date.number + 1721424) * 86400 + 43200 + now.secs < 0 then none
  else some (dateText date ++ 32 :: clockText now)

/-! ## The cleanup -/

/-- The row matches the `WHERE` of the cleanup; a comparison with `NULL` does not hold. -/
def cleansUp (cutoff : Option CStr) (pf : ProtectedFile) : Bool :=
  pf.restoreStatus = lit "restored" &&
    match pf.restoredAt, cutoff with
    | some restoredAt, some cutoff => restoredAt < cutoff
    | _, _ => false

/-- `db_cleanup_restored`: the rows left, and how many were deleted. -/
def dbCleanupRestored (rows : List ProtectedFile) (now : LocalTime) (olderThanDays : Int) :
    Option (List ProtectedFile × Nat) :=
  if olderThanDays < 0 then none
  else
    let cutoff := datetimeDaysAgo now olderThanDays.toNat
    some (rows.filter fun pf => !cleansUp cutoff pf, rows.countP (cleansUp cutoff))

section
variable {a b c d : CStr} {n m w : Nat} {t now : LocalTime} {date : Date}

/-! ## The order of texts -/

theorem append_lt_append_iff (h : a.length = b.length) : a ++ c < b ++ d ↔ a < b ∨ a = b ∧ c < d := by
  induction a generalizing b with
  | nil =>
    obtain rfl := List.length_eq_zero_iff.1 h.symm
    simp
  | cons x a ih =>
    cases b with
    | nil => cases h
    | cons y b =>
      rw [List.cons_append, List.cons_append, List.cons_lt_cons_iff, List.cons_lt_cons_iff, ih (Nat.succ.inj h),
        List.cons.injEq]
      tauto

theorem digitChar_lt (hn : n < 10) (hm : m < 10) :
    n.digitChar.toNat.toUInt8 < m.digitChar.toNat.toUInt8 ↔ n < m := by
  have hdigits : ∀ n < 10, ∀ m < 10, n.digitChar.toNat.toUInt8 < m.digitChar.toNat.toUInt8 ↔ n < m := by decide
  exact hdigits n hn m hm

theorem length_decPad (hw : 0 < w) (h : n < 10 ^ w) : (decPad w n).length = w := by
  have hlen := (length_dec_le hw).2 h
  unfold decPad
  rw [List.length_append, List.length_replicate]
  omega

theorem dec_of_lt (h : n < 10) : dec n = [n.digitChar.toNat.toUInt8] := by
  rw [dec_eq, Nat.toDigits_of_lt_base h]
  rfl

/-- The last digit of a padded number. -/
theorem decPad_succ (hw : 0 < w) (n : Nat) :
    decPad (w + 1) n = decPad w (n / 10) ++ [(n % 10).digitChar.toNat.toUInt8] := by
  rcases Nat.lt_or_ge n 10 with hlt | hge
  · have hzero : dec 0 = [48] := by decide
    obtain ⟨k, rfl⟩ : ∃ k, w = k + 1 := ⟨w - 1, by omega⟩
    unfold decPad
    rw [Nat.div_eq_of_lt hlt, Nat.mod_eq_of_lt hlt, dec_of_lt hlt, hzero]
    simp [List.replicate_succ']
  · have hlast : dec n = dec (n / 10) ++ [(n % 10).digitChar.toNat.toUInt8] := by
      rw [dec_eq, Nat.toDigits_of_base_le (by decide) hge, List.map_append]
      rfl
    unfold decPad
    rw [hlast, List.length_append, List.length_singleton, Nat.add_sub_add_right, List.append_assoc]

/-- Numbers of the same width are in the order of their texts. -/
theorem decPad_lt_iff (hw : 0 < w) (hn : n < 10 ^ w) (hm : m < 10 ^ w) : decPad w n < decPad w m ↔ n < m := by
  induction w generalizing n m with
  | zero => exact absurd hw (lt_irrefl 0)
  | succ w ih =>
    rcases Nat.eq_zero_or_pos w with rfl | hw
    · have hone : ∀ k < 10, decPad 1 k = [k.digitChar.toNat.toUInt8] := by
        intro k hk
        unfold decPad
        rw [dec_of_lt hk]
        rfl
      rw [hone n hn, hone m hm, List.cons_lt_cons_iff, digitChar_lt hn hm]
      simp
    · have hn' : n / 10 < 10 ^ w := by
        rw [Nat.pow_succ] at hn
        omega
      have hm' : m / 10 < 10 ^ w := by
        rw [Nat.pow_succ] at hm
        omega
      have hlen : (decPad w (n / 10)).length = (decPad w (m / 10)).length := by
        rw [length_decPad hw hn', length_decPad hw hm']
      have heq : decPad w (n / 10) = decPad w (m / 10) ↔ n / 10 = m / 10 := by
        constructor
        · intro h
          have hlt := ih hw hn' hm'
          have hgt := ih hw hm' hn'
          rw [h] at hlt hgt
          have hself := List.lt_irrefl (decPad w (m / 10))
          rw [iff_false_left hself] at hlt hgt
          omega
        · exact fun h => by rw [h]
      have hdigit : (n % 10).digitChar.toNat.toUInt8 < (m % 10).digitChar.toNat.toUInt8 ↔ n % 10 < m % 10 :=
        digitChar_lt (Nat.mod_lt n (by decide)) (Nat.mod_lt m (by decide))
      rw [decPad_succ hw, decPad_succ hw, append_lt_append_iff hlen, ih hw hn' hm', heq, List.cons_lt_cons_iff, hdigit]
      simp only [List.not_lt_nil, and_false, or_false]
      omega

theorem decPad_eq_iff (hw : 0 < w) (hn : n < 10 ^ w) (hm : m < 10 ^ w) : decPad w n = decPad w m ↔ n = m := by
  refine ⟨fun h => ?_, fun h => by rw [h]⟩
  have hlt := decPad_lt_iff hw hn hm
  have hgt := decPad_lt_iff hw hm hn
  rw [h, iff_false_left (List.lt_irrefl _)] at hlt
  rw [h, iff_false_left (List.lt_irrefl _)] at hgt
  omega

/-! ## Dates -/

theorem month_lt (date : Date) : date.month < 10 ^ 2 := date.month_le.trans_lt (by decide)

theorem day_lt (date : Date) : date.day < 10 ^ 2 := by
  have hday := date.day_le
  have hmonth : Calendar.monthDays date.year date.month ≤ 31 := by
    unfold Calendar.monthDays
    split
    · split <;> decide
    · split <;> decide
  omega

theorem dateText_of_nonneg (h : 0 ≤ date.year) :
    dateText date = decPad 4 date.year.natAbs ++ dash :: (decPad 2 date.month ++ dash :: decPad 2 date.day) := by
  unfold dateText decPadInt
  rw [if_neg (not_lt.2 h)]

theorem length_dateText (h : 0 ≤ date.year) (hlt : date.year ≤ 9999) : (dateText date).length = 10 := by
  rw [dateText_of_nonneg h]
  have hyear := length_decPad (w := 4) (by decide) (show date.year.natAbs < 10 ^ 4 by omega)
  have hmonth := length_decPad (w := 2) (by decide) (month_lt date)
  have hday := length_decPad (w := 2) (by decide) (day_lt date)
  simp [hyear, hmonth, hday]

/-- Dates with four digits of the year are in the order of their texts. -/
theorem dateText_lt_iff {date' : Date} (h : 0 ≤ date.year) (hlt : date.year ≤ 9999) (h' : 0 ≤ date'.year)
    (hlt' : date'.year ≤ 9999) : dateText date < dateText date' ↔ date.number < date'.number := by
  have hyear : date.year.natAbs < 10 ^ 4 := by omega
  have hyear' : date'.year.natAbs < 10 ^ 4 := by omega
  have hlen₁ : (decPad 4 date.year.natAbs).length = (decPad 4 date'.year.natAbs).length := by
    rw [length_decPad (by decide) hyear, length_decPad (by decide) hyear']
  have hlen₂ : (decPad 2 date.month).length = (decPad 2 date'.month).length := by
    rw [length_decPad (by decide) (month_lt date), length_decPad (by decide) (month_lt date')]
  rw [Date.number_lt_iff, dateText_of_nonneg h, dateText_of_nonneg h', append_lt_append_iff hlen₁,
    decPad_lt_iff (by decide) hyear hyear', decPad_eq_iff (by decide) hyear hyear', List.cons_lt_cons_self,
    append_lt_append_iff hlen₂, decPad_lt_iff (by decide) (month_lt date) (month_lt date'),
    decPad_eq_iff (by decide) (month_lt date) (month_lt date'), List.cons_lt_cons_self,
    decPad_lt_iff (by decide) (day_lt date) (day_lt date')]
  unfold Date.Before
  omega

theorem exists_cons_decPad (w n : Nat) : ∃ first rest, decPad w n = first :: rest ∧ isDigit first = true := by
  have hdigits : ∀ b ∈ decPad w n, isDigit b = true := by
    intro b hb
    rcases List.mem_append.1 hb with hb | hb
    · rw [List.eq_of_mem_replicate hb]
      rfl
    · exact isDigit_of_mem_dec hb
  cases h : decPad w n with
  | nil => exact absurd (List.append_eq_nil_iff.1 h).2 (dec_ne_nil n)
  | cons first rest => exact ⟨first, rest, rfl, hdigits first (by rw [h]; exact List.mem_cons_self)⟩

/-- A time of `gfrguard-recover` is before a time of SQLite, as texts, when its day is. -/
theorem iso8601_lt_datetime_iff (hdate : date.year ≤ 9999) (clock : CStr) :
    iso8601Now t < dateText date ++ 32 :: clock ↔ t.date.number < date.number := by
  have hyear := t.year_ge
  unfold iso8601Now
  rcases lt_or_ge date.year 0 with hneg | hpos
  · -- a minus sign is before every digit
    obtain ⟨first, rest, hfirst, hdigit⟩ := exists_cons_decPad 4 t.date.year.natAbs
    have hdash : ¬ first < dash ∧ first ≠ dash := by
      unfold isDigit at hdigit
      rw [Bool.and_eq_true, decide_eq_true_eq, UInt8.le_iff_toNat_le] at hdigit
      refine ⟨fun h => ?_, fun h => ?_⟩
      · have hlow := UInt8.lt_iff_toNat_lt.1 h
        exact absurd (hdigit.1.trans_lt hlow) (by decide)
      · rw [h] at hdigit
        exact absurd hdigit.1 (by decide)
    have htext : dateText date =
        dash :: (decPad 3 date.year.natAbs ++ dash :: (decPad 2 date.month ++ dash :: decPad 2 date.day)) := by
      unfold dateText decPadInt
      rw [if_pos hneg]
      rfl
    have hlater : ¬ t.date.number < date.number := by
      rw [Date.number_lt_iff]
      unfold Date.Before
      omega
    rw [dateText_of_nonneg (by omega), hfirst, htext, List.cons_append, List.cons_append, List.cons_append,
      List.cons_lt_cons_iff]
    exact iff_of_false (fun h => h.elim hdash.1 fun h => hdash.2 h.1) hlater
  · have hlen : (dateText t.date).length = (dateText date).length := by
      rw [length_dateText (by omega) t.year_le, length_dateText hpos hdate]
    rw [append_lt_append_iff hlen, dateText_lt_iff (by omega) t.year_le hpos hdate, List.cons_lt_cons_iff]
    have hblank : ¬ (84 : UInt8) < 32 ∧ (84 : UInt8) ≠ 32 := by decide
    simp [hblank]

/-! ## Old rows -/

variable {restored : ProtectedFile → Option LocalTime} {pf : ProtectedFile} {rows : List ProtectedFile}

/-- The row was restored, more than so many days ago; `restored` tells when. -/
def Overdue (restored : ProtectedFile → Option LocalTime) (now : LocalTime) (n : Nat) (pf : ProtectedFile) : Bool :=
  pf.restoreStatus = lit "restored" && (restored pf).any fun t => t.instant + 86400 * n < now.instant

/-- The cleanup deletes the overdue rows, and says how many. -/
def CleansOverdue (rows : List ProtectedFile) (restored : ProtectedFile → Option LocalTime) (now : LocalTime)
    (n : Nat) : Prop :=
  dbCleanupRestored rows now n =
    some (rows.filter fun pf => !Overdue restored now n pf, rows.countP (Overdue restored now n))

/-- The row was restored on the very day that was so many days ago, before this time of the day. -/
def EarlierThatDay (restored : ProtectedFile → Option LocalTime) (now : LocalTime) (n : Nat) (pf : ProtectedFile) :
    Prop :=
  pf.restoreStatus = lit "restored" ∧
    ∃ t, restored pf = some t ∧ t.date.number = now.date.number - n ∧ t.secs < now.secs

theorem LocalTime.secs_lt (t : LocalTime) : t.secs < 86400 := by
  have hhour := t.hour_lt
  have hminute := t.minute_lt
  have hsecond := t.second_lt
  unfold secs
  omega

/-- What the cleanup finds: the rows of an earlier day. -/
theorem cleansUp_iff (hwritten : pf.restoredAt = (restored pf).map iso8601Now) :
    cleansUp (datetimeDaysAgo now n) pf = true ↔
      pf.restoreStatus = lit "restored" ∧ ∃ t, restored pf = some t ∧ t.date.number < now.date.number - n := by
  have hnumber := Date.number_pred_iterate now.date n
  have hyear : (Date.pred^[n] now.date).year ≤ 9999 := by
    by_contra hlate
    have hbefore : now.date.Before (Date.pred^[n] now.date) := .inl (by have := now.year_le; omega)
    have := hbefore.number_lt
    omega
  unfold cleansUp datetimeDaysAgo
  rw [Bool.and_eq_true, decide_eq_true_eq, hwritten]
  refine and_congr_right fun _ => ?_
  cases restored pf with
  | none => simp
  | some t =>
    have hsome : (∃ t', some t = some t' ∧ t'.date.number < now.date.number - n) ↔
        t.date.number < (Date.pred^[n] now.date).number := by
      rw [hnumber]
      simp
    rw [hsome]
    by_cases hbegin : ((Date.pred^[n] now.date).number + 1721424) * 86400 + 43200 + now.secs < 0
    · -- before the Julian days nothing is older
      have hlater : ¬ t.date.number < (Date.pred^[n] now.date).number := by
        have hfirst := Calendar.daysBeforeYear_mono t.year_ge
        have hpos := t.date.lt_number
        have hmillennium : Calendar.daysBeforeYear 1000 = 364877 := by decide
        omega
      rw [if_pos hbegin]
      exact iff_of_false Bool.false_ne_true hlater
    · rw [if_neg hbegin]
      exact decide_eq_true_iff.trans (iso8601_lt_datetime_iff hyear _)

theorem overdue_iff :
    Overdue restored now n pf = true ↔ pf.restoreStatus = lit "restored" ∧ ∃ t, restored pf = some t ∧
      (t.date.number < now.date.number - n ∨ t.date.number = now.date.number - n ∧ t.secs < now.secs) := by
  have hinstant : ∀ t : LocalTime, t.instant + 86400 * n < now.instant ↔
      t.date.number < now.date.number - n ∨ t.date.number = now.date.number - n ∧ t.secs < now.secs := by
    intro t
    have hsecs := t.secs_lt
    have hnow := now.secs_lt
    unfold LocalTime.instant
    omega
  unfold Overdue
  rw [Bool.and_eq_true, decide_eq_true_eq, Option.any_eq_true]
  simp only [decide_eq_true_eq, hinstant]

/-- A row is overdue when the cleanup finds it, or when it was restored earlier on the first day. -/
theorem overdue_iff_cleansUp (hwritten : pf.restoredAt = (restored pf).map iso8601Now) :
    Overdue restored now n pf = true ↔
      cleansUp (datetimeDaysAgo now n) pf = true ∨ EarlierThatDay restored now n pf := by
  rw [overdue_iff, cleansUp_iff hwritten]
  unfold EarlierThatDay
  rw [← and_or_left, ← exists_or]
  simp only [← and_or_left]

/-- The cleanup deletes the overdue rows, and counts them, exactly when none of them was restored
on the first day of the time it looks back. -/
theorem cleanup_restored_iff (hwritten : ∀ pf ∈ rows, pf.restoredAt = (restored pf).map iso8601Now)
    (now : LocalTime) (n : Nat) :
    CleansOverdue rows restored now n ↔ ∀ pf ∈ rows, ¬ EarlierThatDay restored now n pf := by
  have hsame : ∀ pf ∈ rows, (cleansUp (datetimeDaysAgo now n) pf = Overdue restored now n pf ↔
      ¬ EarlierThatDay restored now n pf) := by
    intro pf hpf
    rw [Bool.eq_iff_iff, overdue_iff_cleansUp (hwritten pf hpf), cleansUp_iff (hwritten pf hpf)]
    constructor
    · rintro h hearly
      obtain ⟨-, t, ht, hlt⟩ := h.2 (.inr hearly)
      obtain ⟨-, t', ht', heq, -⟩ := hearly
      rw [ht, Option.some.injEq] at ht'
      rw [ht', heq] at hlt
      exact lt_irrefl _ hlt
    · exact fun hnot => (or_iff_left hnot).symm
  unfold CleansOverdue dbCleanupRestored
  rw [if_neg (not_lt.2 (Int.natCast_nonneg n)), Int.toNat_natCast]
  dsimp only
  constructor
  · intro h pf hpf
    obtain ⟨hrows, -⟩ := Prod.mk.inj (Option.some.inj h)
    have hmem : pf ∈ rows.filter (fun pf => !cleansUp (datetimeDaysAgo now n) pf) ↔
        pf ∈ rows.filter (fun pf => !Overdue restored now n pf) := by rw [hrows]
    rw [List.mem_filter, List.mem_filter, and_congr_right_iff] at hmem
    exact (hsame pf hpf).1 (Bool.not_inj (Bool.eq_iff_iff.2 (hmem hpf)))
  · intro h
    have heq : ∀ pf ∈ rows, cleansUp (datetimeDaysAgo now n) pf = Overdue restored now n pf :=
      fun pf hpf => (hsame pf hpf).2 (h pf hpf)
    have hfilter : rows.filter (fun pf => !cleansUp (datetimeDaysAgo now n) pf) =
        rows.filter (fun pf => !Overdue restored now n pf) := List.filter_congr fun pf hpf => by rw [heq pf hpf]
    have hcount : rows.countP (cleansUp (datetimeDaysAgo now n)) = rows.countP (Overdue restored now n) :=
      List.countP_congr fun pf hpf => by rw [heq pf hpf]
    rw [hfilter, hcount]

end

/-! ## A morning a week ago -/

/-- A morning of July. -/
def julyMorning (day hour : Nat) (hday : 0 < day) (hlast : day ≤ 31) (hhour : hour < 24) : LocalTime where
  date := ⟨2026, 7, day, Nat.succ_pos 6, by decide, hday, hlast⟩
  hour := hour
  minute := 0
  second := 0
  year_ge := (by decide : (1000 : Int) ≤ 2026)
  year_le := (by decide : (2026 : Int) ≤ 9999)
  hour_lt := hhour
  minute_lt := by decide
  second_lt := by decide

/-- A row restored at ten in the morning of the twelfth. -/
def restoredRow : ProtectedFile where
  id := 1
  eventId := lit "evt-20260712-001"
  originalPath := lit "/share/a.txt"
  backupPath := lit "/backup/a.txt"
  shareName := lit "share"
  username := lit "alice"
  clientIp := lit "10.0.0.5"
  inode := 1
  mtime := 0
  fileSize := 0
  fileUid := 0
  fileGid := 0
  fileMode := 0
  opType := 0
  protectedAt := lit "2026-07-12T09:00:00"
  restoreStatus := lit "restored"
  restoredAt := some (lit "2026-07-12T10:00:00")

def restoredThen (_ : ProtectedFile) : Option LocalTime :=
  some (julyMorning 12 10 (by decide) (by decide) (by decide))

theorem restoredThen_written : ∀ pf ∈ [restoredRow], pf.restoredAt = (restoredThen pf).map iso8601Now := by
  intro pf hpf
  cases List.mem_singleton.1 hpf
  decide

/-- On the twentieth the row of the twelfth is more than a week old. -/
theorem cleanup_restored_week :
    CleansOverdue [restoredRow] restoredThen (julyMorning 20 9 (by decide) (by decide) (by decide)) 7 ↔
      ∀ pf ∈ [restoredRow],
        ¬ EarlierThatDay restoredThen (julyMorning 20 9 (by decide) (by decide) (by decide)) 7 pf :=
  cleanup_restored_iff restoredThen_written _ 7

/-- On the nineteenth at noon it is, too, and stays. -/
theorem cleanup_misses_that_day :
    ¬ CleansOverdue [restoredRow] restoredThen (julyMorning 19 12 (by decide) (by decide) (by decide)) 7 := by
  unfold CleansOverdue
  decide

end GfrGuard
