import Mathlib.Data.List.Infix

/-!
# Substring search

The two C searches over a list of symbols, each returning the suffix a pointer would
point at: `firstAt` is `strstr` (first occurrence of a word), `lastAt` is `strrchr` (last
occurrence of a symbol). A search either fails, and then the word is no infix
(`firstAt_eq_none_iff`), or splits the text at the first occurrence
(`firstAt_eq_some_iff`).
-/

namespace ListSearch

variable {α : Type*} [DecidableEq α]

/-! ## First occurrence of a word -/

/-- The suffix of the text at the first occurrence of `w`. -/
def firstAt (w : List α) : List α → Option (List α)
  | [] => if w = [] then some [] else none
  | c :: text => if w <+: c :: text then some (c :: text) else firstAt w text

/-- The search fails exactly when the word does not occur. -/
theorem firstAt_eq_none_iff {w : List α} {text : List α} :
    firstAt w text = none ↔ ¬ w <:+: text := by
  induction text with
  | nil => simp [firstAt]
  | cons c text ih =>
    rw [firstAt, List.infix_cons_iff]
    by_cases h : w <+: c :: text
    · simp [h]
    · simp [h, ih]

/-- A successful search splits the text at an occurrence of the word before which no other
occurrence starts. -/
theorem firstAt_eq_some_iff {w : List α} {text s : List α} :
    firstAt w text = some s ↔
      ∃ p, text = p ++ s ∧ w <+: s ∧ ∀ q t, p = q ++ t → t ≠ [] → ¬ w <+: t ++ s := by
  induction text with
  | nil =>
    simp only [firstAt]
    constructor
    · intro h
      split at h
      · next hw => cases h; exact ⟨[], rfl, by simp [hw], by simp⟩
      · cases h
    · rintro ⟨p, hp, hw, -⟩
      obtain ⟨rfl, rfl⟩ := List.nil_eq_append_iff.1 hp
      simp [List.prefix_nil.1 hw]
  | cons c text ih =>
    rw [firstAt]
    by_cases h : w <+: c :: text
    · rw [if_pos h]
      constructor
      · rintro ⟨⟩
        exact ⟨[], rfl, h, by simp⟩
      · rintro ⟨p, hp, -, hfirst⟩
        cases p with
        | nil => simp [hp]
        | cons d p =>
          refine absurd ?_ (hfirst [] (d :: p) rfl (by simp))
          rwa [← hp]
    · rw [if_neg h, ih]
      constructor
      · rintro ⟨p, rfl, hw, hfirst⟩
        refine ⟨c :: p, rfl, hw, fun q t hqt ht => ?_⟩
        cases q with
        | nil => cases hqt; exact h
        | cons d q => cases hqt; exact hfirst q t rfl ht
      · rintro ⟨p, hp, hw, hfirst⟩
        cases p with
        | nil => subst hp; exact absurd hw h
        | cons d p =>
          cases hp
          exact ⟨p, rfl, hw, fun q t hqt ht => hfirst (c :: q) t (by rw [hqt]; rfl) ht⟩

/-- An occurrence of `w ++ [c]` is the first one exactly when the word does not occur in the
text up to it, less its own last symbol. -/
theorem firstAt_append_iff {w p r : List α} {c : α} :
    firstAt (w ++ [c]) (p ++ ((w ++ [c]) ++ r)) = some ((w ++ [c]) ++ r) ↔
      ¬ (w ++ [c]) <:+: p ++ w := by
  rw [firstAt_eq_some_iff]
  constructor
  · rintro ⟨p', hp', -, hfirst⟩ ⟨q, u, hqu⟩
    obtain rfl : p = p' := List.append_cancel_right hp'
    -- an occurrence inside `p ++ w` starts inside `p`
    have hq : q.length < p.length := by
      have := congrArg List.length hqu
      simp only [List.length_append, List.length_singleton] at this
      omega
    have hqw : q <+: p ++ w := ⟨(w ++ [c]) ++ u, by rw [← hqu]; simp⟩
    have hqp : q <+: p := List.prefix_of_prefix_length_le hqw (List.prefix_append _ _) hq.le
    obtain ⟨t, rfl⟩ := hqp
    refine hfirst q t rfl (by rintro rfl; simp at hq) ⟨u ++ c :: r, ?_⟩
    have : (w ++ [c]) ++ u = t ++ w := by simpa using hqu
    calc (w ++ [c]) ++ (u ++ c :: r) = ((w ++ [c]) ++ u) ++ c :: r := by simp
      _ = t ++ ((w ++ [c]) ++ r) := by rw [this]; simp
  · intro h
    refine ⟨p, rfl, List.prefix_append _ _, fun q t hp ht hpre => ?_⟩
    subst hp
    -- an earlier occurrence starts inside `p`, hence ends inside `p ++ w`
    have htw : t ++ w <+: t ++ ((w ++ [c]) ++ r) := ⟨c :: r, by simp⟩
    have hlen : (w ++ [c]).length ≤ (t ++ w).length := by
      have := List.length_pos_of_ne_nil ht
      simp only [List.length_append, List.length_singleton]
      omega
    obtain ⟨u, hu⟩ := List.prefix_of_prefix_length_le hpre htw hlen
    exact h ⟨q, u, by rw [List.append_assoc, hu, List.append_assoc]⟩

/-! ## Last occurrence of a symbol -/

/-- The suffix of the text at the last occurrence of `c`. -/
def lastAt (c : α) : List α → Option (List α)
  | [] => none
  | d :: text =>
    match lastAt c text with
    | some s => some s
    | none => if d = c then some (d :: text) else none

/-- The search fails exactly when the symbol does not occur. -/
theorem lastAt_eq_none_iff {c : α} {text : List α} : lastAt c text = none ↔ c ∉ text := by
  induction text with
  | nil => simp [lastAt]
  | cons d text ih =>
    rw [lastAt]
    cases hs : lastAt c text with
    | some s =>
      have hmem : c ∈ text := by
        by_contra hc
        simp [ih.2 hc] at hs
      simp [hmem]
    | none =>
      have hmem := ih.1 hs
      by_cases hd : d = c
      · simp [hd]
      · simp [hd, hmem, Ne.symm hd]

/-- A found last occurrence: what precedes it, the symbol, and a tail without the symbol. -/
theorem lastAt_eq_some {c : α} {text s : List α} (h : lastAt c text = some s) :
    ∃ p r, text = p ++ c :: r ∧ s = c :: r ∧ c ∉ r := by
  induction text with
  | nil => simp [lastAt] at h
  | cons d text ih =>
    rw [lastAt] at h
    cases hs : lastAt c text with
    | some s' =>
      rw [hs] at h; cases h
      obtain ⟨p, r, rfl, hsr, hr⟩ := ih hs
      exact ⟨d :: p, r, rfl, hsr, hr⟩
    | none =>
      rw [hs] at h
      by_cases hd : d = c
      · simp only [hd, if_true, Option.some.injEq] at h
        exact ⟨[], text, by simp [hd], h.symm, lastAt_eq_none_iff.1 hs⟩
      · simp [hd] at h

/-- The last occurrence is the one no other follows. -/
theorem lastAt_append {c : α} {r : List α} (p : List α) (hr : c ∉ r) :
    lastAt c (p ++ c :: r) = some (c :: r) := by
  induction p with
  | nil => rw [List.nil_append, lastAt, lastAt_eq_none_iff.2 hr, if_pos rfl]
  | cons d p ih => rw [List.cons_append, lastAt, ih]

/-! ## Two parts joined by a symbol -/

/-- Two joins are one text when they join the same parts, or when the first part of one goes on
into the second part of the other, past a symbol there. -/
theorem join_eq_join_iff {β : Type*} {c : β} {a b a' b' : List β} : a ++ c :: b = a' ++ c :: b' ↔
    (a = a' ∧ b = b') ∨ (∃ w, a' = a ++ c :: w ∧ b = w ++ c :: b') ∨
      ∃ w, a = a' ++ c :: w ∧ b' = w ++ c :: b := by
  constructor
  · intro h
    rcases List.append_eq_append_iff.1 h with ⟨as, ha, hb⟩ | ⟨as, ha, hb⟩
    · cases as with
      | nil => cases hb; exact .inl ⟨by simpa using ha.symm, rfl⟩
      | cons d w => cases hb; exact .inr (.inl ⟨w, ha, rfl⟩)
    · cases as with
      | nil => cases hb; exact .inl ⟨by simpa using ha, rfl⟩
      | cons d w => cases hb; exact .inr (.inr ⟨w, ha, rfl⟩)
  · rintro (⟨rfl, rfl⟩ | ⟨w, rfl, rfl⟩ | ⟨w, rfl, rfl⟩)
    · rfl
    · simp
    · simp

/-- Joins whose second parts are free of the symbol have the same parts. -/
theorem join_eq_join_iff_of_not_mem {β : Type*} {c : β} {a b a' b' : List β} (hb : c ∉ b) (hb' : c ∉ b') :
    a ++ c :: b = a' ++ c :: b' ↔ a = a' ∧ b = b' := by
  rw [join_eq_join_iff, or_iff_left]
  rintro (⟨w, -, rfl⟩ | ⟨w, -, rfl⟩)
  · exact hb (by simp)
  · exact hb' (by simp)

end ListSearch
