import Mathlib.Data.List.Infix
import Mathlib.Data.Set.Basic

/-!
# Watched trees

A tree of directories is watched through marks. A directory that comes into a marked one is
announced; the watcher takes up one announcement after the other and walks the tree below it, marking
each directory before it reads what is in it. In between anyone may move directories. What the watcher
still owes are its duties, and a duty leads to the directories it will bring to a mark. While all that
comes is announced, or known to be lost, every directory of the tree has its marks or is led to by a
duty (`Covered.step`). So all are marked when no duty is left (`Covered.settled`).
-/

namespace WatchTree

variable {ι ν γ : Type*}

/-- The directories in each directory, by name. -/
abbrev Dirs (ι ν : Type*) := ι → ν → Option ι

/-- The directory a path leads to. -/
def resolve (t : Dirs ι ν) : ι → List ν → Option ι
  | d, [] => some d
  | d, n :: ns => (t d n).bind fun c => resolve t c ns

/-- What the watcher owes: a walk of the whole tree; to take up an entry that came; to enter a
directory by its path; to mark one it has opened for these groups, by the path; to read it. -/
inductive Duty (ι ν γ : Type*) where
  | all
  | entry (dir : ι) (name : ν)
  | enter (path : List ν)
  | mark (dir : ι) (path : List ν) (groups : List γ)
  | list (dir : ι) (path : List ν)

/-- A tree, its marks, and the duties of the watcher. -/
structure Watch (ι ν γ : Type*) where
  dirs : Dirs ι ν
  marked : γ → ι → Prop
  owes : Set (Duty ι ν γ)

/-- The root of the tree, the groups of marks, and the one whose marks announce. -/
structure Setup (ι γ : Type*) where
  root : ι
  groups : List γ
  source : γ
  source_mem : source ∈ groups

namespace Setup

variable (S : Setup ι γ)

/-- A directory has all its marks. -/
def Settled (w : Watch ι ν γ) (d : ι) : Prop := ∀ g ∈ S.groups, w.marked g d

/-- A duty leads to the directory of a path. -/
def Leads (w : Watch ι ν γ) (path : List ν) : Duty ι ν γ → Prop
  | .all => True
  | .entry p n => ∃ par, par ++ [n] <+: path ∧ resolve w.dirs S.root par = some p
  | .enter pre => pre <+: path
  | .mark x pre gs => pre <+: path ∧ resolve w.dirs S.root pre = some x ∧
      (pre = path → ∀ g ∈ S.groups, g ∉ gs → w.marked g x)
  | .list x pre => pre <+: path ∧ pre ≠ path ∧ resolve w.dirs S.root pre = some x

/-- Every directory of the tree has its marks or is led to. -/
def Covered (w : Watch ι ν γ) : Prop :=
  ∀ path d, resolve w.dirs S.root path = some d → S.Settled w d ∨ ∃ o ∈ w.owes, S.Leads w path o

/-- What the watcher has to do to be rid of a duty. -/
def Discharged (w w' : Watch ι ν γ) : Duty ι ν γ → Prop
  | .all => .enter [] ∈ w'.owes
  | .entry p n => ∀ par x, resolve w.dirs S.root par = some p → resolve w.dirs S.root (par ++ [n]) = some x →
      .enter (par ++ [n]) ∈ w'.owes
  | .enter path => ∀ x, resolve w.dirs S.root path = some x → .mark x path S.groups ∈ w'.owes
  | .mark x path [] => .list x path ∈ w'.owes
  | .mark x path (g :: gs) => .mark x path gs ∈ w'.owes ∧
      ∀ y, resolve w.dirs S.root path = some y → w'.marked g y
  | .list x path => ∀ n c, w.dirs x n = some c → .enter (path ++ [n]) ∈ w'.owes

/-- A step of someone who moves directories, or of the watcher. -/
inductive Step (w w' : Watch ι ν γ) : Prop
  /-- An entry comes into a directory. It is announced there, or that something came is. -/
  | link (dir : ι) (name : ν) (hrest : ∀ d n, (d, n) ≠ (dir, name) → w'.dirs d n = w.dirs d n)
      (hmarked : ∀ g d, w.marked g d → w'.marked g d) (howes : w.owes ⊆ w'.owes)
      (hannounced : w.marked S.source dir → .entry dir name ∈ w'.owes ∨ .all ∈ w'.owes)
  /-- Entries go. -/
  | unlink (hdirs : ∀ d n c, w'.dirs d n = some c → w.dirs d n = some c)
      (hmarked : ∀ g d, w.marked g d → w'.marked g d) (howes : w.owes ⊆ w'.owes)
  /-- The watcher does what it owes. -/
  | work (duty : Duty ι ν γ) (hdirs : w'.dirs = w.dirs) (hmarked : ∀ g d, w.marked g d → w'.marked g d)
      (howes : ∀ o ∈ w.owes, o ≠ duty → o ∈ w'.owes) (hdone : S.Discharged w w' duty)

end Setup

section
variable {S : Setup ι γ} {w w' : Watch ι ν γ} {t t' : Dirs ι ν} {d x : ι} {p pre path : List ν} {n : ν}

/-! ## Paths -/

theorem resolve_append (d : ι) (p q : List ν) :
    resolve t d (p ++ q) = (resolve t d p).bind fun x => resolve t x q := by
  induction p generalizing d with
  | nil => rfl
  | cons n p ih =>
    rw [List.cons_append, resolve, resolve, Option.bind_assoc]
    exact congrArg _ (funext ih)

theorem concat_prefix (p : List ν) (n : ν) (rest : List ν) : p ++ [n] <+: p ++ n :: rest := by
  have hpre := List.prefix_append (p ++ [n]) rest
  rwa [List.append_assoc, List.singleton_append] at hpre

theorem isSome_resolve_of_prefix (h : resolve t d path = some x) (hpre : pre <+: path) :
    ∃ y, resolve t d pre = some y := by
  obtain ⟨rest, rfl⟩ := hpre
  rw [resolve_append] at h
  obtain ⟨y, hy, -⟩ := Option.bind_eq_some_iff.1 h
  exact ⟨y, hy⟩

/-- The paths of a part of the tree. -/
theorem resolve_of_subtree (hsub : ∀ d n c, t' d n = some c → t d n = some c)
    (h : resolve t' d path = some x) : resolve t d path = some x := by
  induction path generalizing d with
  | nil => exact h
  | cons n path ih =>
    obtain ⟨c, hc, hrest⟩ := Option.bind_eq_some_iff.1 h
    rw [resolve, hsub d n c hc]
    exact ih hrest

/-- A path of a tree with one entry changed: it was there, or it goes through the entry. -/
theorem resolve_link {dir : ι} {name : ν} (hrest : ∀ d n, (d, n) ≠ (dir, name) → t' d n = t d n)
    (h : resolve t' d path = some x) :
    (∀ pre, pre <+: path → resolve t' d pre = resolve t d pre) ∨
      ∃ q rest, path = q ++ name :: rest ∧ resolve t d q = some dir ∧
        ∀ pre, pre <+: q → resolve t' d pre = resolve t d pre := by
  induction path generalizing d with
  | nil =>
    refine .inl fun pre hpre => ?_
    rw [List.prefix_nil.1 hpre]
    rfl
  | cons n path ih =>
    by_cases hentry : (d, n) = (dir, name)
    · cases hentry
      refine .inr ⟨[], path, rfl, rfl, fun pre hpre => ?_⟩
      rw [List.prefix_nil.1 hpre]
      rfl
    · have hsame := hrest d n hentry
      obtain ⟨c, hc, hpath⟩ := Option.bind_eq_some_iff.1 h
      have hcons : ∀ pre, resolve t' c pre = resolve t c pre →
          resolve t' d (n :: pre) = resolve t d (n :: pre) := fun pre hpre => by
        rw [resolve, resolve, ← hsame, hc, Option.bind_some, Option.bind_some, hpre]
      rcases ih hpath with hall | ⟨q, rest, rfl, hq, hpres⟩
      · refine .inl fun pre hpre => ?_
        cases pre with
        | nil => rfl
        | cons n' pre =>
          obtain ⟨rfl, hrest⟩ := List.cons_prefix_cons.1 hpre
          exact hcons pre (hall pre hrest)
      · refine .inr ⟨n :: q, rest, rfl, ?_, fun pre hpre => ?_⟩
        · rw [resolve, ← hsame, hc]
          exact hq
        · cases pre with
          | nil => rfl
          | cons n' pre =>
            obtain ⟨rfl, hrest⟩ := List.cons_prefix_cons.1 hpre
            exact hcons pre (hpres pre hrest)

/-! ## Duties -/

theorem Setup.Settled.mono (hmarked : ∀ g d, w.marked g d → w'.marked g d) (h : S.Settled w d) :
    S.Settled w' d := fun g hg => hmarked g d (h g hg)

/-- A duty leads on as long as the way to its place is the same. -/
theorem Setup.Leads.mono {o : Duty ι ν γ} (hmarked : ∀ g d, w.marked g d → w'.marked g d)
    (hsame : ∀ pre, pre <+: path → resolve w'.dirs S.root pre = resolve w.dirs S.root pre)
    (h : S.Leads w path o) : S.Leads w' path o := by
  cases o with
  | all => trivial
  | entry p n =>
    obtain ⟨par, hpre, hpar⟩ := h
    exact ⟨par, hpre, (hsame par ((List.prefix_append par [n]).trans hpre)).trans hpar⟩
  | enter pre => exact h
  | mark x pre gs =>
    obtain ⟨hpre, hx, hdone⟩ := h
    exact ⟨hpre, (hsame pre hpre).trans hx, fun heq g hg hgs => hmarked g x (hdone heq g hg hgs)⟩
  | list x pre =>
    obtain ⟨hpre, hne, hx⟩ := h
    exact ⟨hpre, hne, (hsame pre hpre).trans hx⟩

/-- What leads to a directory leads to what is below it. -/
theorem Setup.Leads.below {o : Duty ι ν γ} (h : S.Leads w p o) (n : ν) (rest : List ν) :
    S.Leads w (p ++ n :: rest) o := by
  have hlong : p <+: p ++ n :: rest := List.prefix_append p (n :: rest)
  have hne : ∀ pre, pre <+: p → pre ≠ p ++ n :: rest := fun pre hpre heq => by
    have hlen := hpre.length_le
    rw [heq, List.length_append, List.length_cons] at hlen
    omega
  cases o with
  | all => trivial
  | entry q m =>
    obtain ⟨par, hpre, hpar⟩ := h
    exact ⟨par, hpre.trans hlong, hpar⟩
  | enter pre => exact h.trans hlong
  | mark x pre gs => exact ⟨h.1.trans hlong, h.2.1, fun heq => absurd heq (hne pre h.1)⟩
  | list x pre => exact ⟨h.1.trans hlong, hne pre h.1, h.2.2⟩

/-- A duty that is done has left the marks or another duty. -/
theorem Setup.Discharged.leads {duty : Duty ι ν γ} (hdirs : w'.dirs = w.dirs)
    (hmarked : ∀ g d, w.marked g d → w'.marked g d) (hdone : S.Discharged w w' duty)
    (hpath : resolve w.dirs S.root path = some d) (h : S.Leads w path duty) :
    S.Settled w' d ∨ ∃ o ∈ w'.owes, S.Leads w' path o := by
  cases duty with
  | all => exact .inr ⟨_, hdone, List.nil_prefix⟩
  | entry p n =>
    obtain ⟨par, hpre, hpar⟩ := h
    obtain ⟨x, hx⟩ := isSome_resolve_of_prefix hpath hpre
    exact .inr ⟨_, hdone par x hpar hx, hpre⟩
  | enter pre =>
    obtain ⟨x, hx⟩ := isSome_resolve_of_prefix hpath h
    exact .inr ⟨_, hdone x hx, h, by rw [hdirs, hx], fun _ _ hg hgs => absurd hg hgs⟩
  | mark x pre gs =>
    obtain ⟨hpre, hx, hmarks⟩ := h
    cases gs with
    | nil =>
      by_cases heq : pre = path
      · subst heq
        cases hx.symm.trans hpath
        exact .inl fun g hg => hmarked g d (hmarks rfl g hg List.not_mem_nil)
      · exact .inr ⟨_, hdone, hpre, heq, by rw [hdirs, hx]⟩
    | cons g gs =>
      refine .inr ⟨_, hdone.1, hpre, by rw [hdirs, hx], fun heq g' hg' hgs => ?_⟩
      by_cases hg : g' = g
      · exact hg ▸ hdone.2 x hx
      · exact hmarked g' x (hmarks heq g' hg' (by simp [hg, hgs]))
  | list x pre =>
    obtain ⟨hpre, hne, hx⟩ := h
    obtain ⟨rest, rfl⟩ := hpre
    cases rest with
    | nil => exact absurd (List.append_nil pre).symm hne
    | cons n rest =>
      rw [resolve_append, hx, Option.bind_some] at hpath
      obtain ⟨c, hc, -⟩ := Option.bind_eq_some_iff.1 hpath
      exact .inr ⟨_, hdone n c hc, concat_prefix pre n rest⟩

/-! ## Runs -/

/-- One step keeps the tree covered. -/
theorem Setup.Covered.step (h : S.Covered w) (hstep : S.Step w w') : S.Covered w' := by
  intro path d hpath
  cases hstep with
  | link dir name hrest hmarked howes hannounced =>
    rcases resolve_link hrest hpath with hsame | ⟨q, rest, rfl, hq, hsame⟩
    · rw [hsame path List.prefix_rfl] at hpath
      rcases h path d hpath with hsettled | ⟨o, ho, hleads⟩
      · exact .inl (hsettled.mono hmarked)
      · exact .inr ⟨o, howes ho, hleads.mono hmarked hsame⟩
    · -- through the entry: its directory announces it, or is led to itself
      rcases h q dir hq with hsettled | ⟨o, ho, hleads⟩
      · rcases hannounced (hsettled S.source S.source_mem) with hentry | hall
        · exact .inr ⟨_, hentry, q, concat_prefix q name rest, (hsame q List.prefix_rfl).trans hq⟩
        · exact .inr ⟨_, hall, trivial⟩
      · exact .inr ⟨o, howes ho, (hleads.mono hmarked hsame).below name rest⟩
  | unlink hdirs hmarked howes =>
    have hsame : ∀ pre, pre <+: path → resolve w'.dirs S.root pre = resolve w.dirs S.root pre := by
      intro pre hpre
      obtain ⟨y, hy⟩ := isSome_resolve_of_prefix hpath hpre
      rw [hy, resolve_of_subtree hdirs hy]
    rw [hsame path List.prefix_rfl] at hpath
    rcases h path d hpath with hsettled | ⟨o, ho, hleads⟩
    · exact .inl (hsettled.mono hmarked)
    · exact .inr ⟨o, howes ho, hleads.mono hmarked hsame⟩
  | work duty hdirs hmarked howes hdone =>
    rw [hdirs] at hpath
    rcases h path d hpath with hsettled | ⟨o, ho, hleads⟩
    · exact .inl (hsettled.mono hmarked)
    · by_cases heq : o = duty
      · subst heq
        exact hdone.leads hdirs hmarked hpath hleads
      · exact .inr ⟨o, howes o ho heq, hleads.mono hmarked fun _ _ => by rw [hdirs]⟩

/-- With a duty to walk the tree from its root it is covered. -/
theorem Setup.covered_of_enter (h : .enter [] ∈ w.owes) : S.Covered w := fun _ _ _ =>
  .inr ⟨_, h, List.nil_prefix⟩

end

end WatchTree
