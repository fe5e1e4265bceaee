import GfrGuard.Lib.Runs
import Mathlib.Logic.Function.Basic

/-!
# Restoring from first copies

A live table is changed by changes and removals, which first save the value they destroy, by
creations, which are noted, and by writes to keys with a copy or a note, which save nothing
more. The first copy of a key wins. To restore is to take the noted
keys away and to put the saved values back. Every run can be restored exactly when it saves
no value of a key that was not there at the start (`restore_run_iff`).
-/

namespace FirstCopy

/-- The live table, the first copies and the keys noted as created. -/
structure State (κ υ : Type*) where
  live : κ → Option υ
  saved : κ → Option υ
  made : κ → Bool

/-- What is done to a key. -/
inductive Op (κ υ : Type*) where
  /-- Save the value of a key that is there, then replace or remove it. -/
  | change (k : κ) (v : Option υ)
  /-- Create a key that is not there. -/
  | create (k : κ) (v : υ)
  /-- Replace the value of a key that has a copy or was created. -/
  | write (k : κ) (v : υ)

variable {κ υ : Type*} [DecidableEq κ] {orig : κ → Option υ} {s : State κ υ}

namespace State

/-- The table before the first operation. -/
def start (live : κ → Option υ) : State κ υ := ⟨live, fun _ => none, fun _ => false⟩

/-- A change of a key, with its first copy. -/
def change (s : State κ υ) (k : κ) (v : Option υ) : State κ υ where
  live := Function.update s.live k v
  saved := Function.update s.saved k ((s.saved k).or (s.live k))
  made := s.made

/-- A creation. -/
def create (s : State κ υ) (k : κ) (v : υ) : State κ υ where
  live := Function.update s.live k (some v)
  saved := s.saved
  made := Function.update s.made k true

/-- A write. -/
def write (s : State κ υ) (k : κ) (v : υ) : State κ υ where
  live := Function.update s.live k (some v)
  saved := s.saved
  made := s.made

/-- The key is known to a restore: it has a copy or was created. -/
def covered (s : State κ υ) (k : κ) : Bool := (s.saved k).isSome || s.made k

/-- The table with the created keys taken away and the saved values put back. -/
def restore (s : State κ υ) (k : κ) : Option υ :=
  (s.saved k).or (if s.made k then none else s.live k)

end State

/-- One operation; it has no effect where it does not apply. -/
def step (s : State κ υ) : Op κ υ → State κ υ
  | .change k v => if (s.live k).isSome then s.change k v else s
  | .create k v => if (s.live k).isSome then s else s.create k v
  | .write k v => if (s.live k).isSome && s.covered k then s.write k v else s

/-- The operation saves a value only for a key that was there at the start. -/
def SavesOld (orig : κ → Option υ) (s : State κ υ) : Op κ υ → Prop
  | .change k _ => (s.live k).isSome → (orig k).isSome
  | .create _ _ | .write _ _ => True

/-- What holds of every key throughout a run. -/
structure Inv (orig : κ → Option υ) (s : State κ υ) : Prop where
  saved : ∀ k v, s.saved k = some v → orig k = some v ∨ orig k = none
  untouched : ∀ k, s.saved k = none → s.made k = false → s.live k = orig k
  made : ∀ k, s.saved k = none → s.made k = true → orig k = none

omit [DecidableEq κ] in
theorem inv_start (orig : κ → Option υ) : Inv orig (State.start orig) :=
  ⟨fun _ _ h => (by cases h), fun _ _ _ => rfl, fun _ _ h => (by cases h)⟩

/-- Every operation keeps the invariant. -/
theorem Inv.step (h : Inv orig s) (op : Op κ υ) : Inv orig (step s op) := by
  cases op with
  | change k v =>
    simp only [FirstCopy.step]
    split
    · next hlive =>
      obtain ⟨x, hx⟩ := Option.isSome_iff_exists.1 hlive
      -- a value saved now is the one from the start, unless the key was created
      have hnew : ∀ y, (s.saved k).or (s.live k) = some y → orig k = some y ∨ orig k = none := by
        intro y hy
        cases hs : s.saved k with
        | some z =>
          rw [hs] at hy
          cases hy
          exact h.saved k y hs
        | none =>
          rw [hs, Option.none_or] at hy
          cases hm : s.made k with
          | true => exact .inr (h.made k hs hm)
          | false => exact .inl ((h.untouched k hs hm).symm.trans hy)
      refine ⟨fun k' y hy => ?_, fun k' hs hm => ?_, fun k' hs hm => ?_⟩ <;>
        by_cases hk : k' = k <;> simp only [State.change] at *
      · subst hk
        rw [Function.update_self] at hy
        exact hnew y hy
      · rw [Function.update_of_ne hk] at hy
        exact h.saved k' y hy
      · subst hk
        rw [Function.update_self, hx] at hs
        simp at hs
      · rw [Function.update_of_ne hk] at hs ⊢
        exact h.untouched k' hs hm
      · subst hk
        rw [Function.update_self, hx] at hs
        simp at hs
      · rw [Function.update_of_ne hk] at hs
        exact h.made k' hs hm
    · exact h
  | create k v =>
    simp only [FirstCopy.step]
    split
    · exact h
    · next hlive =>
      have hnone : s.live k = none := by simpa using hlive
      refine ⟨h.saved, fun k' hs hm => ?_, fun k' hs hm => ?_⟩ <;>
        by_cases hk : k' = k <;> simp only [State.create] at *
      · subst hk
        rw [Function.update_self] at hm
        cases hm
      · rw [Function.update_of_ne hk] at hm ⊢
        exact h.untouched k' hs hm
      · subst hk
        cases hmade : s.made k' with
        | true => exact h.made k' hs hmade
        | false => exact (h.untouched k' hs hmade).symm.trans hnone
      · rw [Function.update_of_ne hk] at hm
        exact h.made k' hs hm
  | write k v =>
    simp only [FirstCopy.step]
    split
    · next hcond =>
      refine ⟨h.saved, fun k' hs hm => ?_, h.made⟩
      have hk : k' ≠ k := by
        rintro rfl
        simp only [State.write] at hs hm
        simp [State.covered, hs, hm] at hcond
      simp only [State.write] at *
      rw [Function.update_of_ne hk]
      exact h.untouched k' hs hm
    · exact h

omit [DecidableEq κ] in
/-- The start is restored exactly when only keys that were there have a copy. -/
theorem Inv.restore_eq_iff (h : Inv orig s) :
    s.restore = orig ↔ ∀ k, (s.saved k).isSome → (orig k).isSome := by
  constructor
  · intro heq k hk
    obtain ⟨v, hv⟩ := Option.isSome_iff_exists.1 hk
    rw [← heq, State.restore, hv]
    rfl
  · intro hold
    funext k
    rw [State.restore]
    cases hs : s.saved k with
    | some v =>
      rcases h.saved k v hs with ho | ho
      · exact ho.symm
      · have := hold k (by rw [hs]; rfl)
        rw [ho] at this
        cases this
    | none =>
      cases hm : s.made k with
      | true => exact (h.made k hs hm).symm
      | false => exact h.untouched k hs hm

/-- An operation saves a value of the key it changes, when there is one, and of no other. -/
theorem isSome_saved_step (s : State κ υ) (op : Op κ υ) (k : κ) :
    ((step s op).saved k).isSome ↔
      (s.saved k).isSome ∨ (s.live k).isSome ∧ ∃ v, op = .change k v := by
  cases op with
  | change k' v =>
    simp only [step]
    by_cases hlive : (s.live k').isSome
    · rw [if_pos hlive]
      simp only [State.change]
      by_cases hk : k = k'
      · subst hk
        simp [Option.isSome_or, hlive]
      · rw [Function.update_of_ne hk]
        refine ⟨.inl, fun h => h.resolve_right fun ⟨_, _, hop⟩ => hk ?_⟩
        cases hop
        rfl
    · rw [if_neg hlive]
      refine ⟨.inl, fun h => h.resolve_right fun ⟨hsome, _, hop⟩ => hlive ?_⟩
      cases hop
      exact hsome
  | create k' v =>
    simp only [step]
    split <;> simp [State.create]
  | write k' v =>
    simp only [step]
    split <;> simp [State.write]

/-- Copies are never dropped. -/
theorem isSome_saved_run {k : κ} (h : (s.saved k).isSome) (ops : List (Op κ υ)) :
    ((Runs.run step s ops).saved k).isSome :=
  Runs.run_invariant (fun s => (s.saved k).isSome = true)
    (fun s op h => (isSome_saved_step s op k).2 (.inl h)) h ops

/-- A run has copies only of keys that were there exactly when it saves no other. -/
theorem savesOld_iff (s : State κ υ) (hold : ∀ k, (s.saved k).isSome → (orig k).isSome)
    (ops : List (Op κ υ)) :
    (∀ k, ((Runs.run step s ops).saved k).isSome → (orig k).isSome) ↔
      Runs.AllSteps step (SavesOld orig) s ops := by
  induction ops generalizing s with
  | nil => exact iff_of_true hold trivial
  | cons op ops ih =>
    have hstep : SavesOld orig s op ↔
        ∀ k, ((step s op).saved k).isSome → (orig k).isSome := by
      constructor
      · intro hop k hk
        rcases (isSome_saved_step s op k).1 hk with hk | ⟨hlive, v, rfl⟩
        · exact hold k hk
        · exact hop hlive
      · intro h
        cases op with
        | change k v => exact fun hlive => h k ((isSome_saved_step s _ k).2 (.inr ⟨hlive, v, rfl⟩))
        | create k v => trivial
        | write k v => trivial
    rw [Runs.run_cons, Runs.allSteps_cons, hstep]
    constructor
    · intro h
      have hold' := fun k hk => h k (isSome_saved_run (s := step s op) hk ops)
      exact ⟨hold', (ih _ hold').1 h⟩
    · exact fun h => (ih _ h.1).2 h.2

/-- A run can be undone exactly when every value it saves is of a key that was there at the
start. -/
theorem restore_run_iff (orig : κ → Option υ) (ops : List (Op κ υ)) :
    (Runs.run step (State.start orig) ops).restore = orig ↔
      Runs.AllSteps step (SavesOld orig) (State.start orig) ops := by
  rw [(Runs.run_invariant (Inv orig) (fun _ op h => h.step op) (inv_start orig) ops).restore_eq_iff,
    savesOld_iff _ (fun _ h => by cases h)]

end FirstCopy
