import GfrGuard.Lib.Runs
import Mathlib.Data.List.Induction
import Mathlib.Logic.Function.Basic

/-!
# Calls with sections

Any number of calls work on a shared state, each by steps of its own, in any order. What a call
does to the shared state it does in a section, from the step that enters it to the one that
leaves it. A `Serial` description says what a call does when its section is alone: the abstract
value it finds, what holds while it is inside, and the operation on the value it has performed
when it is complete. When no step is taken inside or into a section while another call is inside
its own (`Alone`), the value at the end is that of the completed operations one after another, in
the order of their completion (`Serial.run`). What one of them has left there is then still there
unless one that completed later undid it (`Serial.keptSince_of`).
-/

namespace Sections

variable {ι σ π ε α : Type*}

/-- The steps of a call, the places inside its section, and the places where it is complete. -/
structure Code (ι σ π ε : Type*) where
  step : ι → ε → σ → π → σ × π
  inside : π → Bool
  complete : π → Bool

/-- The shared state, the place of each call, and the calls that are complete, in the order of
their completion. -/
structure World (ι σ π : Type*) where
  shared : σ
  pc : ι → π
  log : List ι

/-- A call takes a step. -/
def Code.move [DecidableEq ι] (c : Code ι σ π ε) (w : World ι σ π) (e : ι × ε) : World ι σ π :=
  let next := c.step e.1 e.2 w.shared (w.pc e.1)
  { shared := next.1
    pc := Function.update w.pc e.1 next.2
    log := if c.complete (w.pc e.1) = false ∧ c.complete next.2 = true then w.log ++ [e.1] else w.log }

/-- Nobody is inside a section. -/
def Code.Quiet (c : Code ι σ π ε) (w : World ι σ π) : Prop := ∀ i, c.inside (w.pc i) = false

/-- The step is taken inside or into a section. -/
def Code.touches (c : Code ι σ π ε) (w : World ι σ π) (e : ι × ε) : Bool :=
  c.inside (w.pc e.1) || c.inside (c.step e.1 e.2 w.shared (w.pc e.1)).2

/-- A step inside or into a section is taken while every other call is outside. -/
def Code.Alone (c : Code ι σ π ε) (w : World ι σ π) (e : ι × ε) : Prop :=
  c.touches w e = true → ∀ j, j ≠ e.1 → c.inside (w.pc j) = false

/-- What a call does when its section is alone, in steps that meet `Ok`. What is said of a call
may depend on the calls that were complete when it entered its section. -/
structure Serial (c : Code ι σ π ε) (α : Type*) where
  /-- The operation a complete call has performed. -/
  op : ι → α → α
  /-- What a complete call promises of the values before and after it. -/
  Post : List ι → ι → α → α → Prop
  /-- What is assumed of a step. -/
  Ok : List ι → ι → ε → σ → π → Prop
  /-- The shared state stands for the value. -/
  Rest : α → σ → Prop
  /-- Inside a section that was entered with the value. -/
  Hold : List ι → ι → α → σ → π → Prop
  inside_not_complete : ∀ {p}, c.inside p = true → c.complete p = false
  outside : ∀ {i e s p}, c.inside p = false → c.inside (c.step i e s p).2 = false →
    (c.step i e s p).1 = s ∧ (c.complete p = false → c.complete (c.step i e s p).2 = true →
      ∀ l a, op i a = a ∧ Post l i a a ∧ ∀ j s p, Hold l j a s p → Hold (l ++ [i]) j a s p)
  enter : ∀ {l i e s p a}, Ok l i e s p → c.inside p = false →
    c.inside (c.step i e s p).2 = true → Rest a s → Hold l i a (c.step i e s p).1 (c.step i e s p).2
  stay : ∀ {l i e s p a}, Ok l i e s p → c.inside p = true →
    c.inside (c.step i e s p).2 = true → Hold l i a s p →
    Hold l i a (c.step i e s p).1 (c.step i e s p).2
  leave : ∀ {l i e s p a}, Ok l i e s p → c.inside p = true →
    c.inside (c.step i e s p).2 = false → Hold l i a s p →
    if c.complete (c.step i e s p).2 = true then
      Rest (op i a) (c.step i e s p).1 ∧ Post l i a (op i a)
    else Rest a (c.step i e s p).1

section
variable {c : Code ι σ π ε} {w : World ι σ π} {e : ι × ε} {i j : ι} {a : α}

theorem Code.move_pc_self [DecidableEq ι] (c : Code ι σ π ε) (w : World ι σ π) (e : ι × ε) :
    (c.move w e).pc e.1 = (c.step e.1 e.2 w.shared (w.pc e.1)).2 :=
  Function.update_self ..

theorem Code.move_pc_of_ne [DecidableEq ι] (hne : j ≠ e.1) : (c.move w e).pc j = w.pc j :=
  Function.update_of_ne hne ..

/-- The completed calls are those the log names, each once. -/
def Code.Logs (c : Code ι σ π ε) (w : World ι σ π) : Prop :=
  w.log.Nodup ∧ ∀ i, i ∈ w.log ↔ c.complete (w.pc i) = true

/-- What is complete stays so. -/
theorem Code.Logs.move [DecidableEq ι] (h : c.Logs w)
    (hstable : ∀ {i e s p}, c.complete p = true → c.complete (c.step i e s p).2 = true) (e : ι × ε) :
    c.Logs (c.move w e) := by
  obtain ⟨hnodup, hlog⟩ := h
  have hself := c.move_pc_self w e
  have hothers : ∀ j, j ≠ e.1 → (c.move w e).pc j = w.pc j := fun j hj => Code.move_pc_of_ne hj
  have hnext : (c.move w e).log = if c.complete (w.pc e.1) = false ∧
      c.complete (c.step e.1 e.2 w.shared (w.pc e.1)).2 = true then w.log ++ [e.1] else w.log := rfl
  unfold Logs
  rw [hnext]
  split
  · next hdone =>
    have hnew : e.1 ∉ w.log := fun hmem => Bool.false_ne_true (hdone.1.symm.trans ((hlog _).1 hmem))
    refine ⟨List.nodup_append.2 ⟨hnodup, List.nodup_cons.2 ⟨List.not_mem_nil, List.nodup_nil⟩, fun a ha b hb hab => ?_⟩,
      fun j => ?_⟩
    · rw [List.mem_singleton.1 hb] at hab
      exact hnew (hab ▸ ha)
    rw [List.mem_append, List.mem_singleton]
    by_cases hj : j = e.1
    · rw [hj, hself, hdone.2]
      exact iff_of_true (.inr rfl) rfl
    · rw [hothers j hj, hlog, or_iff_left hj]
  · next hdone =>
    refine ⟨hnodup, fun j => ?_⟩
    by_cases hj : j = e.1
    · rw [hj, hself, hlog]
      cases hp : c.complete (w.pc e.1) with
      | true => exact iff_of_true rfl (hstable hp)
      | false => exact iff_of_false Bool.false_ne_true fun h => hdone ⟨hp, h⟩
    · rw [hothers j hj, hlog]

namespace Serial

variable (S : Serial c α)

/-- The value after operations one after another. -/
def value (a : α) (log : List ι) : α := log.foldl (fun a i => S.op i a) a

theorem value_concat (a : α) (log : List ι) (i : ι) : S.value a (log ++ [i]) = S.op i (S.value a log) := by
  unfold value
  rw [List.foldl_append]
  rfl

/-- Every complete call keeps its promise, of the values before it and after it. -/
def Promises (a : α) (log : List ι) : Prop :=
  ∀ pre i post, log = pre ++ i :: post → S.Post pre i (S.value a pre) (S.value a (pre ++ [i]))

/-- A property of the value that a call has left holds after the calls that completed since,
unless one of them undid it. -/
def KeptSince (a : α) (log : List ι) (i : ι) (Q : α → Prop) : Prop :=
  Q (S.value a log) ∨ ∃ pre j post, log = pre ++ j :: post ∧ i ∈ pre ∧ Q (S.value a pre) ∧
    ¬ Q (S.value a (pre ++ [j]))

/-- The section that is open, if one is, is the only one, and the shared state stands for the
value of the completed operations otherwise. -/
structure Inv (a : α) (w : World ι σ π) : Prop where
  promises : S.Promises a w.log
  place : c.Quiet w ∧ S.Rest (S.value a w.log) w.shared ∨
    ∃ i, c.inside (w.pc i) = true ∧ S.Hold w.log i (S.value a w.log) w.shared (w.pc i) ∧
      ∀ j, j ≠ i → c.inside (w.pc j) = false

/-! ## The completed calls -/

theorem Promises.concat {log : List ι} (h : S.Promises a log)
    (hi : S.Post log i (S.value a log) (S.op i (S.value a log))) : S.Promises a (log ++ [i]) := by
  intro pre j post hlog
  rcases List.eq_nil_or_concat post with rfl | ⟨post, k, rfl⟩
  · obtain ⟨rfl, hij⟩ := List.append_inj' hlog rfl
    cases hij
    rwa [S.value_concat]
  · rw [List.concat_eq_append, ← List.cons_append, ← List.append_assoc] at hlog
    exact h pre j post (List.append_inj' hlog rfl).1

/-- What a complete call leaves is kept but for the calls that complete after it. -/
theorem keptSince_of {log pre post : List ι} {Q : α → Prop} (hlog : log = pre ++ i :: post)
    (hQ : Q (S.value a (pre ++ [i]))) : S.KeptSince a log i Q := by
  subst hlog
  induction post using List.reverseRecOn with
  | nil => exact .inl hQ
  | append_singleton post j ih =>
    have hsplit : pre ++ i :: (post ++ [j]) = (pre ++ i :: post) ++ [j] := by
      rw [List.append_assoc, List.cons_append]
    have hmem : i ∈ pre ++ i :: post := List.mem_append_right _ List.mem_cons_self
    rcases ih with hlast | ⟨pre', k, post', hpost, hmem', hbefore, hafter⟩
    · by_cases hj : Q (S.value a (pre ++ i :: (post ++ [j])))
      · exact .inl hj
      · refine .inr ⟨pre ++ i :: post, j, [], hsplit, hmem, hlast, ?_⟩
        rwa [← hsplit]
    · refine .inr ⟨pre', k, post' ++ [j], ?_, hmem', hbefore, hafter⟩
      rw [hsplit, hpost, List.append_assoc, List.cons_append]

/-! ## One step -/

variable {S} [DecidableEq ι]

/-- A call outside its section that stays outside. -/
theorem Inv.outside (h : S.Inv a w) (hp : c.inside (w.pc e.1) = false)
    (hp' : c.inside (c.step e.1 e.2 w.shared (w.pc e.1)).2 = false) : S.Inv a (c.move w e) := by
  obtain ⟨hshared, hop⟩ := S.outside hp hp'
  have hlog : S.Promises a (c.move w e).log ∧ S.value a (c.move w e).log = S.value a w.log ∧
      ∀ j s p, S.Hold w.log j (S.value a w.log) s p →
        S.Hold (c.move w e).log j (S.value a w.log) s p := by
    unfold Code.move
    dsimp only
    split
    · next hdone =>
      obtain ⟨hsame, hpost, hothers⟩ := hop hdone.1 hdone.2 w.log (S.value a w.log)
      exact ⟨h.promises.concat S (by rwa [hsame]), by rw [S.value_concat, hsame], hothers⟩
    · exact ⟨h.promises, rfl, fun _ _ _ => id⟩
  have hpc (j : ι) : c.inside ((c.move w e).pc j) = c.inside (w.pc j) := by
    by_cases hj : j = e.1
    · rw [hj, c.move_pc_self, hp, hp']
    · rw [Code.move_pc_of_ne hj]
  have hsame : (c.move w e).shared = w.shared := hshared
  refine ⟨hlog.1, ?_⟩
  rcases h.place with ⟨hquiet, hrest⟩ | ⟨i, hi, hhold, halone⟩
  · exact .inl ⟨fun j => (hpc j).trans (hquiet j), by rwa [hlog.2.1, hsame]⟩
  · have hne : i ≠ e.1 := fun heq => Bool.false_ne_true (hp.symm.trans (heq ▸ hi))
    refine .inr ⟨i, (hpc i).trans hi, ?_, fun j hj => (hpc j).trans (halone j hj)⟩
    rw [hlog.2.1, hsame, Code.move_pc_of_ne hne]
    exact hlog.2.2 i _ _ hhold

/-- A step into the section, or inside it. -/
theorem Inv.inside (h : S.Inv a w) (hothers : ∀ j, j ≠ e.1 → c.inside (w.pc j) = false)
    (hp' : c.inside (c.step e.1 e.2 w.shared (w.pc e.1)).2 = true)
    (hhold : S.Hold w.log e.1 (S.value a w.log) (c.step e.1 e.2 w.shared (w.pc e.1)).1
      (c.step e.1 e.2 w.shared (w.pc e.1)).2) : S.Inv a (c.move w e) := by
  have hlog : (c.move w e).log = w.log :=
    if_neg fun hdone => Bool.false_ne_true ((S.inside_not_complete hp').symm.trans hdone.2)
  have hself := c.move_pc_self w e
  refine ⟨by rw [hlog]; exact h.promises, .inr ⟨e.1, by rw [hself, hp'], ?_, fun j hj => ?_⟩⟩
  · rw [hlog, hself]
    exact hhold
  · rw [Code.move_pc_of_ne hj]
    exact hothers j hj

/-- A step out of the section. -/
theorem Inv.leave (h : S.Inv a w) (hothers : ∀ j, j ≠ e.1 → c.inside (w.pc j) = false)
    (hok : S.Ok w.log e.1 e.2 w.shared (w.pc e.1)) (hp : c.inside (w.pc e.1) = true)
    (hp' : c.inside (c.step e.1 e.2 w.shared (w.pc e.1)).2 = false)
    (hhold : S.Hold w.log e.1 (S.value a w.log) w.shared (w.pc e.1)) : S.Inv a (c.move w e) := by
  have hleave := S.leave hok hp hp' hhold
  have hquiet : c.Quiet (c.move w e) := fun j => by
    by_cases hj : j = e.1
    · rw [hj, c.move_pc_self, hp']
    · rw [Code.move_pc_of_ne hj]
      exact hothers j hj
  have hlog : (c.move w e).log = if c.complete (c.step e.1 e.2 w.shared (w.pc e.1)).2 = true then
      w.log ++ [e.1] else w.log := by
    unfold Code.move
    dsimp only
    rw [S.inside_not_complete hp]
    simp
  split at hleave
  · next hdone =>
    rw [if_pos hdone] at hlog
    refine ⟨by rw [hlog]; exact h.promises.concat S hleave.2, .inl ⟨hquiet, ?_⟩⟩
    rw [hlog, S.value_concat]
    exact hleave.1
  · next hdone =>
    rw [if_neg hdone] at hlog
    refine ⟨by rw [hlog]; exact h.promises, .inl ⟨hquiet, ?_⟩⟩
    rw [hlog]
    exact hleave

theorem Inv.move (h : S.Inv a w) (halone : c.Alone w e) (hok : S.Ok w.log e.1 e.2 w.shared (w.pc e.1)) :
    S.Inv a (c.move w e) := by
  unfold Code.Alone Code.touches at halone
  cases hp : c.inside (w.pc e.1) with
  | false =>
    cases hp' : c.inside (c.step e.1 e.2 w.shared (w.pc e.1)).2 with
    | false => exact h.outside hp hp'
    | true =>
      have hothers := halone (by rw [hp', Bool.or_true])
      refine h.inside hothers hp' (S.enter hok hp hp' ?_)
      rcases h.place with ⟨-, hrest⟩ | ⟨i, hi, -⟩
      · exact hrest
      · by_cases hie : i = e.1
        · cases hp.symm.trans (hie ▸ hi)
        · cases (hothers i hie).symm.trans hi
  | true =>
    have hothers := halone (by rw [hp, Bool.true_or])
    have hhold : S.Hold w.log e.1 (S.value a w.log) w.shared (w.pc e.1) := by
      rcases h.place with ⟨hquiet, -⟩ | ⟨i, hi, hhold, -⟩
      · cases (hquiet e.1).symm.trans hp
      · by_cases hie : i = e.1
        · rwa [hie] at hhold
        · cases (hothers i hie).symm.trans hi
    cases hp' : c.inside (c.step e.1 e.2 w.shared (w.pc e.1)).2 with
    | true => exact h.inside hothers hp' (S.stay hok hp hp' hhold)
    | false => exact h.leave hothers hok hp hp' hhold

variable (S)

/-- A run in which no step is taken inside or into a section while another is open ends, when
nobody is inside, in the value of the completed operations one after another, each of which has
kept its promise. -/
theorem run {es : List (ι × ε)} (hquiet : c.Quiet w) (hlog : w.log = []) (hrest : S.Rest a w.shared)
    (hrun : Runs.AllSteps c.move
      (fun w e => c.Alone w e ∧ S.Ok w.log e.1 e.2 w.shared (w.pc e.1)) w es)
    (hend : c.Quiet (Runs.run c.move w es)) :
    S.Promises a (Runs.run c.move w es).log ∧
      S.Rest (S.value a (Runs.run c.move w es).log) (Runs.run c.move w es).shared := by
  have hpromises : S.Promises a w.log := fun pre i post h => by
    rw [hlog] at h
    cases pre <;> cases h
  have hinv : S.Inv a (Runs.run c.move w es) :=
    Runs.run_invariant_of_allSteps (S.Inv a) (fun _ _ h hstep => h.move hstep.1 hstep.2)
      ⟨hpromises, .inl ⟨hquiet, by rw [hlog]; exact hrest⟩⟩ hrun
  refine ⟨hinv.promises, ?_⟩
  rcases hinv.place with ⟨-, h⟩ | ⟨i, hi, -⟩
  · exact h
  · cases (hend i).symm.trans hi

end Serial

end

end Sections
