import Mathlib.Logic.Function.Basic
import Mathlib.Order.Basic
import Mathlib.Data.Nat.Find

/-!
# Open addressing

A table of slots, each free or holding a key, searched along a probe sequence of the key.
`Placed` is the invariant under which the search is a lookup: from the start of its own
probe sequence a key is reached over used slots that hold other keys. It makes keys unique
and the search exact (`Placed.search_eq_hit`), and it survives filling the hole a search
ended at (`Placed.insert`) and overwriting any slot of a full table (`Placed.replace`).
Slots never become free again.
-/

namespace OpenAddressing

variable {ι κ : Type*} [DecidableEq κ]

/-- Where a search ends: at a slot with the key, at a free slot, or nowhere. -/
inductive Found (ι : Type*) where
  | hit (i : ι)
  | hole (i : ι)
  | full

/-- Search for `k` along `probe`, from position `p` on and over at most `fuel` slots. -/
def search (probe : Nat → ι) (keyAt : ι → Option κ) (k : κ) : (fuel p : Nat) → Found ι
  | 0, _ => .full
  | fuel + 1, p =>
    match keyAt (probe p) with
    | none => .hole (probe p)
    | some k' => if k' = k then .hit (probe p) else search probe keyAt k fuel (p + 1)

/-- The slot at position `q` is used, by another key than `k`. -/
def Passed (probe : Nat → ι) (keyAt : ι → Option κ) (k : κ) (q : Nat) : Prop :=
  keyAt (probe q) ≠ none ∧ keyAt (probe q) ≠ some k

/-- A search passes used slots of other keys until it stops, for one of three reasons. -/
inductive SearchSpec (probe : Nat → ι) (keyAt : ι → Option κ) (k : κ) (n : Nat) :
    Found ι → Prop
  | hit (p : Nat) (hp : p < n) (hkey : keyAt (probe p) = some k)
      (hpass : ∀ q < p, Passed probe keyAt k q) : SearchSpec probe keyAt k n (.hit (probe p))
  | hole (p : Nat) (hp : p < n) (hfree : keyAt (probe p) = none)
      (hpass : ∀ q < p, Passed probe keyAt k q) : SearchSpec probe keyAt k n (.hole (probe p))
  | full (hpass : ∀ q < n, Passed probe keyAt k q) : SearchSpec probe keyAt k n .full

/-- The search meets its specification. -/
theorem searchSpec (probe : Nat → ι) (keyAt : ι → Option κ) (k : κ) (n : Nat) :
    SearchSpec probe keyAt k n (search probe keyAt k n 0) := by
  suffices h : ∀ fuel p, p + fuel = n → (∀ q < p, Passed probe keyAt k q) →
      SearchSpec probe keyAt k n (search probe keyAt k fuel p) from
    h n 0 (Nat.zero_add n) (fun q hq => absurd hq q.not_lt_zero)
  intro fuel
  induction fuel with
  | zero =>
    intro p hp hpass
    exact .full (by simpa [← hp] using hpass)
  | succ fuel ih =>
    intro p hp hpass
    rw [search]
    cases hkey : keyAt (probe p) with
    | none => exact .hole p (by omega) hkey hpass
    | some k' =>
      dsimp only
      by_cases hk : k' = k
      · subst hk
        rw [if_pos rfl]
        exact .hit p (by omega) hkey hpass
      · rw [if_neg hk]
        refine ih (p + 1) (by omega) fun q hq => ?_
        rcases Nat.lt_succ_iff_lt_or_eq.1 hq with hq | rfl
        · exact hpass q hq
        · exact ⟨by simp [hkey], by simp [hkey, hk]⟩

/-! ## The invariant -/

/-- Every key is reached from the start of its probe sequence over used slots that hold
other keys. -/
def Placed (probe : κ → Nat → ι) (n : Nat) (keyAt : ι → Option κ) : Prop :=
  ∀ i k, keyAt i = some k →
    ∃ p < n, probe k p = i ∧ ∀ q < p, Passed (probe k) keyAt k q

variable {probe : κ → Nat → ι} {n : Nat} {keyAt : ι → Option κ} {i : ι} {k : κ}

omit [DecidableEq κ] in
/-- An empty table is well placed. -/
theorem placed_empty : Placed probe n (fun _ => none : ι → Option κ) :=
  fun _ _ h => nomatch h

/-- The search for a key of the table ends at its slot. -/
theorem Placed.search_eq_hit (h : Placed probe n keyAt) (hk : keyAt i = some k) :
    search (probe k) keyAt k n 0 = .hit i := by
  obtain ⟨p, hp, rfl, hpass⟩ := h i k hk
  have hspec := searchSpec (probe k) keyAt k n
  generalize search (probe k) keyAt k n 0 = found at hspec
  cases hspec with
  | hit p' hp' hkey hpass' =>
    rcases lt_trichotomy p p' with hlt | rfl | hgt
    · exact absurd hk (hpass' p hlt).2
    · rfl
    · exact absurd hkey (hpass p' hgt).2
  | hole p' hp' hfree hpass' =>
    rcases lt_trichotomy p p' with hlt | rfl | hgt
    · exact absurd hk (hpass' p hlt).2
    · exact absurd (hk.symm.trans hfree) (by simp)
    · exact absurd hfree (hpass p' hgt).1
  | full hpass' => exact absurd hk (hpass' p hp).2

/-- Two slots never hold the same key. -/
theorem Placed.unique (h : Placed probe n keyAt) {j : ι} (hi : keyAt i = some k)
    (hj : keyAt j = some k) : i = j := by
  have := (h.search_eq_hit hi).symm.trans (h.search_eq_hit hj)
  cases this; rfl

/-! ## Keeping it -/

variable [DecidableEq ι]

omit [DecidableEq κ] in
/-- A slot passed on the way to a key is still passed after some slot took another key. -/
private theorem passed_update {k' : κ} {q : Nat} (hk : k' ≠ k)
    (hpass : Passed (probe k') keyAt k' q) :
    Passed (probe k') (Function.update keyAt i (some k)) k' q := by
  unfold Passed
  by_cases hq : probe k' q = i
  · simp [hq, Ne.symm hk]
  · simpa [Passed, Function.update_of_ne hq] using hpass

/-- Filling the hole a search ended at keeps the table well placed. -/
theorem Placed.insert (h : Placed probe n keyAt)
    (hs : search (probe k) keyAt k n 0 = .hole i) :
    Placed probe n (Function.update keyAt i (some k)) := by
  intro j k' hj
  by_cases hji : j = i
  · subst hji
    rw [Function.update_self, Option.some.injEq] at hj
    subst hj
    have hspec := searchSpec (probe k) keyAt k n
    rw [hs] at hspec
    cases hspec with
    | hole p hp hfree hpass =>
      refine ⟨p, hp, rfl, fun q hq => ?_⟩
      have hne : probe k q ≠ probe k p := fun heq => (hpass q hq).1 (heq ▸ hfree)
      simpa [Passed, Function.update_of_ne hne] using hpass q hq
  · rw [Function.update_of_ne hji] at hj
    have hk : k' ≠ k := by
      rintro rfl
      rw [h.search_eq_hit hj] at hs
      cases hs
    obtain ⟨p, hp, hpi, hpass⟩ := h j k' hj
    exact ⟨p, hp, hpi, fun q hq => passed_update hk (hpass q hq)⟩

/-- Overwriting a slot of a full table with a key the search did not find keeps the table
well placed, when every probe sequence reaches every slot. -/
theorem Placed.replace (h : Placed probe n keyAt) (hcover : ∀ k i, ∃ p < n, probe k p = i)
    (hs : search (probe k) keyAt k n 0 = .full) :
    Placed probe n (Function.update keyAt i (some k)) := by
  have hpass : ∀ q < n, Passed (probe k) keyAt k q := by
    have hspec := searchSpec (probe k) keyAt k n
    rw [hs] at hspec
    cases hspec with
    | full hpass => exact hpass
  intro j k' hj
  by_cases hji : j = i
  · subst hji
    rw [Function.update_self, Option.some.injEq] at hj
    subst hj
    have hex : ∃ p, p < n ∧ probe k p = j := by simpa using hcover k j
    classical
    -- the first position of the overwritten slot: no earlier one was overwritten
    refine ⟨Nat.find hex, (Nat.find_spec hex).1, (Nat.find_spec hex).2, fun q hq => ?_⟩
    have hqn : q < n := hq.trans (Nat.find_spec hex).1
    have hne : probe k q ≠ j := fun heq => Nat.find_min hex hq ⟨hqn, heq⟩
    simpa [Passed, Function.update_of_ne hne] using hpass q hqn
  · rw [Function.update_of_ne hji] at hj
    have hk : k' ≠ k := by
      rintro rfl
      rw [h.search_eq_hit hj] at hs
      cases hs
    obtain ⟨p, hp, hpi, hpass'⟩ := h j k' hj
    exact ⟨p, hp, hpi, fun q hq => passed_update hk (hpass' q hq)⟩

end OpenAddressing
