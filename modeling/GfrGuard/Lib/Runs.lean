import Mathlib.Data.List.Basic

/-!
# Runs of a step function

A system takes one event after another; `run` is the state it ends in. `AllSteps P` says
that every step of a run satisfies `P`, seen in the state before it. The induction over a
run is made here once: an invariant that every step keeps holds at the end
(`run_invariant`), also when the steps keep it only under a condition that the run meets
(`run_invariant_of_allSteps`), and conditions that agree wherever the invariant holds agree
on runs (`allSteps_congr`). Where every step is matched by a run of another system, so is
every run (`exists_run`). `outputs` collects what the steps of a run emit; what latches a
state that emits nothing is emitted at most once (`length_outputs_le_one`).
-/

namespace Runs

variable {σ ε : Type*} {step : σ → ε → σ} {s : σ} {e : ε} {es : List ε}
  {P Q : σ → ε → Prop}

/-- The state after a list of events. -/
def run (step : σ → ε → σ) (s : σ) (es : List ε) : σ := es.foldl step s

@[simp] theorem run_nil : run step s [] = s := rfl

@[simp] theorem run_cons : run step s (e :: es) = run step (step s e) es := rfl

theorem run_append {es' : List ε} : run step s (es ++ es') = run step (run step s es) es' :=
  List.foldl_append

/-- Every step of the run satisfies `P` in the state it is taken from. -/
def AllSteps (step : σ → ε → σ) (P : σ → ε → Prop) : σ → List ε → Prop
  | _, [] => True
  | s, e :: es => P s e ∧ AllSteps step P (step s e) es

/-- Whether every step of a run satisfies a decidable condition, by recursion on the run. -/
def decidableAllSteps [∀ s e, Decidable (P s e)] : ∀ s es, Decidable (AllSteps step P s es)
  | _, [] => inferInstanceAs (Decidable True)
  | s, e :: es =>
    have := decidableAllSteps (step s e) es
    inferInstanceAs (Decidable (P s e ∧ AllSteps step P (step s e) es))

instance [∀ s e, Decidable (P s e)] : Decidable (AllSteps step P s es) := decidableAllSteps s es

@[simp] theorem allSteps_nil : AllSteps step P s [] := trivial

@[simp] theorem allSteps_cons :
    AllSteps step P s (e :: es) ↔ P s e ∧ AllSteps step P (step s e) es := Iff.rfl

theorem allSteps_append {es' : List ε} :
    AllSteps step P s (es ++ es') ↔ AllSteps step P s es ∧ AllSteps step P (run step s es) es' := by
  induction es generalizing s with
  | nil => simp
  | cons e es ih => simp [ih, and_assoc]

theorem allSteps_and :
    AllSteps step (fun s e => P s e ∧ Q s e) s es ↔ AllSteps step P s es ∧ AllSteps step Q s es := by
  induction es generalizing s with
  | nil => simp
  | cons e es ih =>
    simp only [allSteps_cons, ih]
    exact and_and_and_comm

/-- A condition on the events alone holds on every step. -/
theorem allSteps_of_forall {p : ε → Prop} (h : ∀ e ∈ es, p e) :
    AllSteps step (fun _ e => p e) s es := by
  induction es generalizing s with
  | nil => trivial
  | cons e es ih =>
    exact ⟨h e List.mem_cons_self, ih fun e he => h e (List.mem_cons_of_mem _ he)⟩

/-- An invariant that every step keeps holds at the end of every run. -/
theorem run_invariant (Inv : σ → Prop) (hstep : ∀ s e, Inv s → Inv (step s e)) (h : Inv s) (es : List ε) :
    Inv (run step s es) := by
  induction es generalizing s with
  | nil => exact h
  | cons e es ih => exact ih (hstep s e h)

/-- An invariant that the steps keep while `P` holds is kept by the runs that meet `P`. -/
theorem run_invariant_of_allSteps (Inv : σ → Prop) (hstep : ∀ s e, Inv s → P s e → Inv (step s e)) (h : Inv s)
    (hP : AllSteps step P s es) : Inv (run step s es) := by
  induction es generalizing s with
  | nil => exact h
  | cons e es ih => exact ih (hstep s e h hP.1) hP.2

/-- A condition that every state with the invariant meets holds on every step of a run. -/
theorem allSteps_of_invariant (Inv : σ → Prop) (hP : ∀ s e, Inv s → P s e)
    (hstep : ∀ s e, Inv s → Inv (step s e)) (h : Inv s) : AllSteps step P s es := by
  induction es generalizing s with
  | nil => trivial
  | cons e es ih => exact ⟨hP s e h, ih (hstep s e h)⟩

/-- What follows from the invariant and `P` holds on every step of a run that meets `P`, when the
steps keep the invariant while `P` holds. -/
theorem allSteps_imp (Inv : σ → Prop) (hPQ : ∀ s e, Inv s → P s e → Q s e)
    (hstep : ∀ s e, Inv s → P s e → Inv (step s e)) (h : Inv s) (hP : AllSteps step P s es) :
    AllSteps step Q s es := by
  induction es generalizing s with
  | nil => trivial
  | cons e es ih => exact ⟨hPQ s e h hP.1, ih (hstep s e h hP.1) hP.2⟩

/-- A run that does not end in a bad state has no step that leads to one, when bad states with the
invariant stay bad. -/
theorem allSteps_of_not_bad_of_invariant (Inv Bad : σ → Prop)
    (hinv : ∀ s e, Inv s → Inv (step s e)) (hkeep : ∀ s e, Inv s → Bad s → Bad (step s e))
    (hP : ∀ s e, Inv s → ¬ P s e → Bad (step s e)) (h : Inv s) (hend : ¬ Bad (run step s es)) :
    AllSteps step P s es := by
  induction es generalizing s with
  | nil => trivial
  | cons e es ih =>
    refine ⟨Classical.byContradiction fun hnot => ?_, ih (hinv s e h) hend⟩
    have hbad := run_invariant (fun s => Inv s ∧ Bad s)
      (fun s e hs => ⟨hinv s e hs.1, hkeep s e hs.1 hs.2⟩) ⟨hinv s e h, hP s e h hnot⟩ es
    exact hend hbad.2

/-- A run that does not end in a bad state has no step that leads to one, when bad states stay
bad. -/
theorem allSteps_of_not_bad (Bad : σ → Prop) (hkeep : ∀ s e, Bad s → Bad (step s e))
    (hP : ∀ s e, ¬ P s e → Bad (step s e)) (hend : ¬ Bad (run step s es)) : AllSteps step P s es :=
  allSteps_of_not_bad_of_invariant (fun _ => True) Bad (fun _ _ _ => trivial)
    (fun s e _ => hkeep s e) (fun s e _ => hP s e) trivial hend

/-- Conditions that agree in every state with the invariant agree on every run. -/
theorem allSteps_congr (Inv : σ → Prop) (hstep : ∀ s e, Inv s → Inv (step s e)) (h : Inv s)
    (hPQ : ∀ s e, Inv s → (P s e ↔ Q s e)) :
    AllSteps step P s es ↔ AllSteps step Q s es := by
  induction es generalizing s with
  | nil => rfl
  | cons e es ih => rw [allSteps_cons, allSteps_cons, hPQ s e h, ih (hstep s e h)]

/-- Conditions that agree while an invariant holds, which the steps that meet them keep, agree on
every run. -/
theorem allSteps_congr_of_kept (Inv : σ → Prop) (hPQ : ∀ s e, Inv s → (P s e ↔ Q s e))
    (hstep : ∀ s e, Inv s → P s e → Inv (step s e)) (h : Inv s) :
    AllSteps step P s es ↔ AllSteps step Q s es := by
  induction es generalizing s with
  | nil => rfl
  | cons e es ih =>
    rw [allSteps_cons, allSteps_cons, ← hPQ s e h]
    exact and_congr_right fun hP => ih (hstep s e h hP)

/-- Where a condition says exactly which steps keep a property, as long as the run meets another one
too, every step of a run meets it exactly when every state of the run has the property. -/
theorem allSteps_iff_states_of_allSteps {F : σ → ε → Prop} (Inv Good : σ → Prop)
    (hinv : ∀ s e, Inv s → F s e → P s e → Inv (step s e))
    (hkeeps : ∀ s e, Inv s → F s e → Good s → (P s e ↔ Good (step s e))) (h : Inv s)
    (hgood : Good s) (hF : AllSteps step F s es) :
    AllSteps step P s es ↔ ∀ pre, pre <+: es → Good (run step s pre) := by
  induction es generalizing s with
  | nil =>
    refine iff_of_true trivial fun pre hpre => ?_
    rw [List.prefix_nil.1 hpre]
    exact hgood
  | cons e es ih =>
    rw [allSteps_cons]
    constructor
    · rintro ⟨hP, hrest⟩ pre hpre
      have hnext := (hkeeps s e h hF.1 hgood).1 hP
      rcases List.prefix_cons_iff.1 hpre with rfl | ⟨pre', rfl, hpre'⟩
      · exact hgood
      · exact (ih (hinv s e h hF.1 hP) hnext hF.2).1 hrest pre' hpre'
    · intro hall
      have hnext : Good (step s e) := hall [e] (List.cons_prefix_cons.2 ⟨rfl, List.nil_prefix⟩)
      have hP := (hkeeps s e h hF.1 hgood).2 hnext
      refine ⟨hP, (ih (hinv s e h hF.1 hP) hnext hF.2).2 fun pre hpre => ?_⟩
      exact hall (e :: pre) (List.cons_prefix_cons.2 ⟨rfl, hpre⟩)

/-- Where a condition says exactly which steps keep a property, every step of a run meets it
exactly when every state of the run has the property. -/
theorem allSteps_iff_states (Inv Good : σ → Prop) (hinv : ∀ s e, Inv s → Inv (step s e))
    (hkeeps : ∀ s e, Inv s → Good s → (P s e ↔ Good (step s e))) (h : Inv s) (hgood : Good s) :
    AllSteps step P s es ↔ ∀ pre, pre <+: es → Good (run step s pre) :=
  allSteps_iff_states_of_allSteps Inv Good (fun s e h _ _ => hinv s e h)
    (fun s e h _ => hkeeps s e h) h hgood (allSteps_of_forall fun _ _ => trivial)

/-- Where a condition says exactly which steps keep a preorder, every step of a run meets it exactly
when the states of the run stand in the preorder, each with every later one. -/
theorem allSteps_iff_between (R : σ → σ → Prop) (hrefl : ∀ s, R s s)
    (htrans : ∀ a b c, R a b → R b c → R a c) (hP : ∀ s e, P s e ↔ R s (step s e)) :
    AllSteps step P s es ↔
      ∀ pre mid, pre ++ mid <+: es → R (run step s pre) (run step s (pre ++ mid)) := by
  constructor
  · intro h pre mid hpre
    obtain ⟨rest, rfl⟩ := hpre
    rw [List.append_assoc, allSteps_append, allSteps_append] at h
    rw [run_append]
    have hmid := h.2.1
    clear h
    generalize run step s pre = t at hmid
    induction mid generalizing t with
    | nil => exact hrefl t
    | cons e mid ih => exact htrans _ _ _ ((hP t e).1 hmid.1) (ih _ hmid.2)
  · intro h
    induction es generalizing s with
    | nil => trivial
    | cons e es ih =>
      refine ⟨(hP s e).2 (h [] [e] (List.cons_prefix_cons.2 ⟨rfl, List.nil_prefix⟩)), ih ?_⟩
      intro pre mid hpre
      exact h (e :: pre) mid (List.cons_prefix_cons.2 ⟨rfl, hpre⟩)

/-- Two systems whose steps do the same exactly where a condition holds, and are seen to differ where
it does not: every step of a run meets it exactly when both systems show the same all along. -/
theorem allSteps_iff_lockstep {ω : Type*} {step' : σ → ε → σ} (view : σ → ω)
    (hsame : ∀ s e, P s e → step s e = step' s e)
    (hseen : ∀ s e, view (step s e) = view (step' s e) → P s e) :
    AllSteps step P s es ↔
      ∀ pre, pre <+: es → view (run step s pre) = view (run step' s pre) := by
  constructor
  · intro h pre hpre
    obtain ⟨rest, rfl⟩ := hpre
    have hP := (allSteps_append.1 h).1
    clear h
    induction pre generalizing s with
    | nil => rfl
    | cons e pre ih =>
      rw [run_cons, run_cons, ← hsame s e hP.1]
      exact ih hP.2
  · intro h
    induction es generalizing s with
    | nil => trivial
    | cons e es ih =>
      have hP : P s e := hseen s e (h [e] (List.cons_prefix_cons.2 ⟨rfl, List.nil_prefix⟩))
      refine ⟨hP, ih fun pre hpre => ?_⟩
      have hnext := h (e :: pre) (List.cons_prefix_cons.2 ⟨rfl, hpre⟩)
      rwa [run_cons, run_cons, ← hsame s e hP] at hnext

/-- Every step that meets `H` is matched by a run of the other system that keeps the states
related, and meets `P` exactly when all steps of that run meet `Q`: so it is for runs. -/
theorem exists_run {σ' ε' : Type*} {step' : σ' → ε' → σ'} {s' : σ'} {H : σ → ε → Prop}
    {Q' : σ' → ε' → Prop} (Rel : σ → σ' → Prop)
    (hstep : ∀ s s' e, Rel s s' → H s e →
      ∃ es', Rel (step s e) (run step' s' es') ∧ (P s e ↔ AllSteps step' Q' s' es'))
    (h : Rel s s') (hH : AllSteps step H s es) :
    ∃ es', Rel (run step s es) (run step' s' es') ∧
      (AllSteps step P s es ↔ AllSteps step' Q' s' es') := by
  induction es generalizing s s' with
  | nil => exact ⟨[], h, Iff.rfl⟩
  | cons e es ih =>
    obtain ⟨es1, hrel, hiff⟩ := hstep s s' e h hH.1
    obtain ⟨es2, hrel', hiff'⟩ := ih hrel hH.2
    refine ⟨es1 ++ es2, ?_, ?_⟩
    · rw [run_append]
      exact hrel'
    · rw [allSteps_append, allSteps_cons, hiff, hiff']

/-- When the events that `q` selects keep two states related and the others change nothing
that the relation sees, a run is related to the run of the selected events alone. -/
theorem run_filter {σ' : Type*} {step' : σ' → ε → σ'} {s' : σ'} {p : ε → Prop} (q : ε → Bool)
    (Rel : σ → σ' → Prop) (hseen : ∀ s s' e, Rel s s' → p e → q e → Rel (step s e) (step' s' e))
    (hunseen : ∀ s s' e, Rel s s' → p e → q e = false → Rel (step s e) s') (h : Rel s s')
    (hp : ∀ e ∈ es, p e) : Rel (run step s es) (run step' s' (es.filter q)) := by
  induction es generalizing s s' with
  | nil => exact h
  | cons e es ih =>
    have he := hp e List.mem_cons_self
    have hes : ∀ e ∈ es, p e := fun e he => hp e (List.mem_cons_of_mem _ he)
    cases hq : q e with
    | true =>
      rw [List.filter_cons_of_pos hq]
      exact ih (hseen s s' e h he hq) hes
    | false =>
      rw [List.filter_cons_of_neg (by rw [hq]; exact Bool.false_ne_true)]
      exact ih (hunseen s s' e h he hq) hes

/-! ## Outputs -/

variable {β : Type*} {out : σ → ε → List β}

/-- What the steps of a run emit, each seen in the state it is taken from. -/
def outputs (step : σ → ε → σ) (out : σ → ε → List β) : σ → List ε → List β
  | _, [] => []
  | s, e :: es => out s e ++ outputs step out (step s e) es

@[simp] theorem outputs_nil : outputs step out s [] = [] := rfl

@[simp] theorem outputs_cons :
    outputs step out s (e :: es) = out s e ++ outputs step out (step s e) es := rfl

theorem outputs_append {es' : List ε} :
    outputs step out s (es ++ es') =
      outputs step out s es ++ outputs step out (run step s es) es' := by
  induction es generalizing s with
  | nil => simp
  | cons e es ih => simp [ih]

theorem outputs_concat : outputs step out s (es ++ [e]) =
    outputs step out s es ++ out (run step s es) e := by
  rw [outputs_append, outputs_cons, outputs_nil, List.append_nil]

/-- What is emitted is emitted by one of the steps. -/
theorem mem_outputs {b : β} (h : b ∈ outputs step out s es) : ∃ e ∈ es, ∃ s', b ∈ out s' e := by
  induction es generalizing s with
  | nil => cases h
  | cons e es ih =>
    rw [outputs_cons, List.mem_append] at h
    rcases h with h | h
    · exact ⟨e, List.mem_cons_self, s, h⟩
    · obtain ⟨e', he', s', hb⟩ := ih h
      exact ⟨e', List.mem_cons_of_mem e he', s', hb⟩

/-- An invariant of the state and of what has been emitted so far, kept by the steps that
meet `P`. -/
theorem run_invariant_outputs (out : σ → ε → List β) (Inv : List β → σ → Prop)
    (hstep : ∀ l s e, Inv l s → P s e → Inv (l ++ out s e) (step s e)) {l : List β}
    (h : Inv l s) (hP : AllSteps step P s es) :
    Inv (l ++ outputs step out s es) (run step s es) := by
  induction es generalizing l s with
  | nil => rw [outputs_nil, List.append_nil]; exact h
  | cons e es ih =>
    have hnext := ih (hstep l s e h hP.1) hP.2
    rw [List.append_assoc] at hnext
    exact hnext

/-- From a latched state on nothing is emitted, when latched states emit nothing and stay
latched. -/
theorem outputs_eq_nil (Inv Latch : σ → Prop) (hinv : ∀ s e, Inv s → Inv (step s e))
    (hkeep : ∀ s e, Inv s → Latch s → Latch (step s e) ∧ out s e = []) (h : Inv s)
    (hl : Latch s) (es : List ε) : outputs step out s es = [] := by
  induction es generalizing s with
  | nil => rfl
  | cons e es ih =>
    obtain ⟨hl', hout⟩ := hkeep s e h hl
    rw [outputs_cons, hout, ih (hinv s e h) hl', List.append_nil]

/-- At most one thing is emitted, when a step emits at most one and latches by it. -/
theorem length_outputs_le_one (Inv Latch : σ → Prop) (hinv : ∀ s e, Inv s → Inv (step s e))
    (hkeep : ∀ s e, Inv s → Latch s → Latch (step s e) ∧ out s e = [])
    (hlatch : ∀ s e, Inv s → out s e = [] ∨ (out s e).length = 1 ∧ Latch (step s e))
    (h : Inv s) (es : List ε) : (outputs step out s es).length ≤ 1 := by
  induction es generalizing s with
  | nil => exact Nat.zero_le 1
  | cons e es ih =>
    rw [outputs_cons, List.length_append]
    rcases hlatch s e h with hout | ⟨hone, hl⟩
    · rw [hout, List.length_nil, Nat.zero_add]
      exact ih (hinv s e h)
    · rw [outputs_eq_nil Inv Latch hinv hkeep (hinv s e h) hl es, List.length_nil]
      exact Nat.le_of_eq hone

end Runs
