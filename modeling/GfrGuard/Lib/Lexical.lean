import Mathlib.Data.List.Infix

/-!
# Lexical normal forms of paths

A path is a list of components, two of which say where to go: `here` stays and `up` goes to the
parent. What is left without them is a number of steps up and the names below (`NormalPath`); at the
root no step leads up. The normal form of a joined path is that of its second part applied to that of
the first (`normalize_append`), and it lies below the first exactly when the second comes down again
by the names it left, and on (`below_append_iff`).
-/

namespace LexicalPath

variable {α : Type*}

/-- Steps up, and the names below. -/
structure NormalPath (α : Type*) where
  ups : Nat
  names : List α
deriving DecidableEq

namespace NormalPath

/-- The path that goes nowhere. -/
def start : NormalPath α := ⟨0, []⟩

/-- A relative path from here. -/
def append (rooted : Bool) (p q : NormalPath α) : NormalPath α where
  ups := if rooted ∨ q.ups ≤ p.names.length then p.ups else p.ups + (q.ups - p.names.length)
  names := p.names.take (p.names.length - q.ups) ++ q.names

/-- The path lies below the directory. -/
structure Below (dir p : NormalPath α) : Prop where
  ups : p.ups = dir.ups
  names : dir.names <+: p.names
  proper : dir.names ≠ p.names

/-- The relative path goes no further up than the names of the directory, and comes down again by
those it left, and on. -/
def StaysBelow (rooted : Bool) (dir q : NormalPath α) : Prop :=
  (rooted = true ∨ q.ups ≤ dir.names.length) ∧
    dir.names.drop (dir.names.length - q.ups) <+: q.names ∧
      dir.names.drop (dir.names.length - q.ups) ≠ q.names

theorem append_start (rooted : Bool) (p : NormalPath α) : p.append rooted start = p := by
  unfold append start
  simp

/-- What a relative path leads to lies below the directory exactly when it stays below. -/
theorem below_append_iff (rooted : Bool) (p q : NormalPath α) :
    p.Below (p.append rooted q) ↔ StaysBelow rooted p q := by
  have hsplit := List.take_append_drop (p.names.length - q.ups) p.names
  have hprefix : p.names <+: (p.append rooted q).names ↔
      p.names.drop (p.names.length - q.ups) <+: q.names := by
    conv_lhs => lhs; rw [← hsplit]
    exact List.prefix_append_right_inj _
  have hproper : p.names ≠ (p.append rooted q).names ↔
      p.names.drop (p.names.length - q.ups) ≠ q.names := by
    conv_lhs => lhs; rw [← hsplit]
    exact not_congr (List.append_right_inj _)
  have hups : (p.append rooted q).ups = p.ups ↔ rooted = true ∨ q.ups ≤ p.names.length := by
    unfold append
    dsimp only
    split
    · next h => exact iff_of_true rfl h
    · next h => exact iff_of_false (by omega) h
  unfold StaysBelow
  rw [← hprefix, ← hproper, ← hups]
  exact ⟨fun h => ⟨h.ups, h.names, h.proper⟩, fun h => ⟨h.1, h.2.1, h.2.2⟩⟩

/-- The parent directory; that of the root is the root. -/
def parent (rooted : Bool) (p : NormalPath α) : NormalPath α :=
  if p.names = [] then { p with ups := if rooted then p.ups else p.ups + 1 }
  else { p with names := p.names.dropLast }

/-- A step up from a joined path. -/
theorem parent_append (rooted : Bool) (p q : NormalPath α) :
    (p.append rooted q).parent rooted = p.append rooted (q.parent false) := by
  by_cases hq : q.names = []
  · have hparent : q.parent false = ⟨q.ups + 1, []⟩ := by
      unfold parent
      rw [if_pos hq, hq]
      rfl
    rw [hparent]
    unfold parent append
    simp only [hq, List.append_nil]
    by_cases hroom : p.names.length ≤ q.ups
    · -- the names are used up
      have htake : p.names.length - q.ups = 0 := by omega
      have htake' : p.names.length - (q.ups + 1) = 0 := by omega
      rw [htake, htake', if_pos List.take_zero]
      cases rooted with
      | true => simp
      | false =>
        have hnext : ¬ q.ups + 1 ≤ p.names.length := by omega
        simp only [Bool.false_eq_true, false_or, hnext, if_false, NormalPath.mk.injEq, and_true]
        split <;> omega
    · have hnonempty : p.names.take (p.names.length - q.ups) ≠ [] := by
        intro hnil
        have hlen := congrArg List.length hnil
        rw [List.length_take, List.length_nil] at hlen
        omega
      have hfits : q.ups ≤ p.names.length := by omega
      have hfits' : q.ups + 1 ≤ p.names.length := by omega
      have hlast : (p.names.take (p.names.length - q.ups)).dropLast =
          p.names.take (p.names.length - (q.ups + 1)) := by
        rw [List.dropLast_eq_take, List.length_take, List.take_take]
        congr 1
        omega
      rw [if_neg hnonempty, if_pos (.inr hfits), if_pos (.inr hfits'), hlast]
  · have hnonempty : p.names.take (p.names.length - q.ups) ++ q.names ≠ [] :=
      List.append_ne_nil_of_right_ne_nil _ hq
    unfold parent append
    dsimp only
    rw [if_neg hnonempty, if_neg hq, List.dropLast_append_of_ne_nil hq]

variable [DecidableEq α]

instance (dir p : NormalPath α) : Decidable (dir.Below p) :=
  decidable_of_iff (p.ups = dir.ups ∧ dir.names <+: p.names ∧ dir.names ≠ p.names)
    ⟨fun h => ⟨h.1, h.2.1, h.2.2⟩, fun h => ⟨h.ups, h.names, h.proper⟩⟩

instance (rooted : Bool) (dir q : NormalPath α) : Decidable (StaysBelow rooted dir q) :=
  inferInstanceAs (Decidable (_ ∧ _))

/-- One more component. -/
def step (here up : α) (rooted : Bool) (p : NormalPath α) (c : α) : NormalPath α :=
  if c = here then p
  else if c = up then p.parent rooted
  else { p with names := p.names ++ [c] }

theorem step_append (here up : α) (rooted : Bool) (p q : NormalPath α) (c : α) :
    (p.append rooted q).step here up rooted c = p.append rooted (q.step here up false c) := by
  unfold step
  split
  · rfl
  · split
    · exact parent_append rooted p q
    · unfold append
      simp only [List.append_assoc]

end NormalPath

open NormalPath

/-- The normal form of a path. -/
def normalize [DecidableEq α] (here up : α) (rooted : Bool) (path : List α) : NormalPath α :=
  path.foldl (step here up rooted) start

/-- The second part of a path is applied to the first. -/
theorem normalize_append [DecidableEq α] (here up : α) (rooted : Bool) (a b : List α) :
    normalize here up rooted (a ++ b) =
      (normalize here up rooted a).append rooted (normalize here up false b) := by
  have hfold (p q : NormalPath α) : b.foldl (step here up rooted) (p.append rooted q) =
      p.append rooted (b.foldl (step here up false) q) := by
    induction b generalizing q with
    | nil => rfl
    | cons c b ih => rw [List.foldl_cons, List.foldl_cons, step_append, ih]
  unfold normalize
  rw [List.foldl_append, ← hfold, append_start]

section
variable [DecidableEq α] {here up : α} {path : List α}

/-- A path without steps up leads to the names in it. -/
theorem normalize_of_not_mem (rooted : Bool) (h : up ∉ path) :
    normalize here up rooted path = ⟨0, path.filter (· ≠ here)⟩ := by
  induction path using List.reverseRecOn with
  | nil => rfl
  | append_singleton path c ih =>
    rw [List.mem_append, List.mem_singleton, not_or] at h
    have hone : normalize here up rooted (path ++ [c]) = (normalize here up rooted path).step here up rooted c := by
      rw [normalize, List.foldl_append, List.foldl_cons, List.foldl_nil, ← normalize]
    rw [hone, ih h.1, step, List.filter_append]
    split
    · next hc => simp [hc]
    · next hc => rw [if_neg (Ne.symm h.2), List.filter_cons_of_pos (by simpa using hc), List.filter_nil]

/-- A step up at the end of such a path takes away its last name, or leads to the parent. -/
theorem normalize_append_up (h : up ∉ path) (hne : up ≠ here) :
    normalize here up false (path ++ [up]) =
      if ∀ c ∈ path, c = here then ⟨1, []⟩ else ⟨0, (path.filter (· ≠ here)).dropLast⟩ := by
  have hone : normalize here up false (path ++ [up]) = (normalize here up false path).step here up false up := by
    rw [normalize, List.foldl_append, List.foldl_cons, List.foldl_nil, ← normalize]
  have hnil : path.filter (· ≠ here) = [] ↔ ∀ c ∈ path, c = here := by
    rw [List.filter_eq_nil_iff]
    simp
  rw [hone, normalize_of_not_mem false h, step, if_neg hne, if_pos rfl, parent]
  simp only [hnil]
  split
  · next hall => rw [hnil.2 hall]; rfl
  · rfl

/-- The names of a directory are kept by a path from there that has no step up but at its end, unless
it leads to the parent. -/
theorem names_prefix_append_iff {dir : NormalPath α} (hdir : dir.names ≠ []) (hup : up ∉ path.dropLast)
    (hne : up ≠ here) :
    dir.names <+: (dir.append true (normalize here up false path)).names ↔
      ¬ ∃ n, path = List.replicate n here ++ [up] := by
  have hkeeps (names : List α) : dir.names <+: (dir.append true ⟨0, names⟩).names := by
    unfold NormalPath.append
    rw [Nat.sub_zero, List.take_length]
    exact List.prefix_append _ _
  by_cases hend : path.getLast? = some up
  · obtain ⟨init, rfl⟩ := List.getLast?_eq_some_iff.1 hend
    rw [List.dropLast_concat] at hup
    have hall : (∃ n, init ++ [up] = List.replicate n here ++ [up]) ↔ ∀ c ∈ init, c = here := by
      simp only [List.append_left_inj]
      refine ⟨?_, fun h => ⟨init.length, List.eq_replicate_of_mem h⟩⟩
      rintro ⟨n, rfl⟩ c hc
      exact List.eq_of_mem_replicate hc
    rw [normalize_append_up hup hne, hall]
    split
    · next h =>
      refine iff_of_false (fun hprefix => ?_) (not_not.2 h)
      have hle := hprefix.length_le
      unfold NormalPath.append at hle
      rw [List.append_nil, List.length_take] at hle
      have hpos := List.length_pos_of_ne_nil hdir
      dsimp only at hle
      omega
    · next h => exact iff_of_true (hkeeps _) h
  · have hout : up ∉ path := by
      intro hmem
      cases hl : path.getLast? with
      | none =>
        rw [List.getLast?_eq_none_iff.1 hl] at hmem
        cases hmem
      | some c =>
        obtain ⟨init, rfl⟩ := List.getLast?_eq_some_iff.1 hl
        rw [List.dropLast_concat] at hup
        rcases List.mem_append.1 hmem with h | h
        · exact hup h
        · exact hend (by rw [hl, List.mem_singleton.1 h])
    rw [normalize_of_not_mem false hout]
    refine iff_of_true (hkeeps _) ?_
    rintro ⟨n, rfl⟩
    exact hout (List.mem_append_right _ List.mem_cons_self)

end

end LexicalPath
