import Mathlib.Data.List.Infix
import Mathlib.Data.List.Basic
import Mathlib.Logic.Function.Basic

/-!
# Trees with symbolic links

A tree maps places, the names from the root to them, to what stands there, which may be a link to
another path. A path is walked step by step: links on the way are followed, one at the end where
it is asked for, and no more than a number of them (`walk`). Where no link stands on the way a
path leads to the place it spells (`walk_eq_spelled`).
-/

/-- A step of a path. -/
inductive PathStep (ν : Type*) where
  /-- `.` -/
  | here
  /-- `..` -/
  | up
  | name (n : ν)
  deriving DecidableEq

/-- What stands at a place. -/
inductive LinkNode (ν β : Type*) where
  | file (content : β)
  | dir
  /-- A link to a path from the root, or from the directory of the link. -/
  | link (absolute : Bool) (target : List (PathStep ν))
  /-- A device, a socket or a pipe. -/
  | other
  deriving DecidableEq

/-- A tree with links. -/
structure LinkTree (ν β : Type*) where
  node : List ν → Option (LinkNode ν β)

namespace LinkTree

variable {ν β : Type*}

/-- What stands at a place; the root is a directory. -/
def lookup (t : LinkTree ν β) (loc : List ν) : Option (LinkNode ν β) :=
  if loc = [] then some .dir else t.node loc

/-- The place a path spells, links and `..` aside. -/
def spelled (steps : List (PathStep ν)) : List ν :=
  steps.filterMap fun
    | .name n => some n
    | _ => none

/-- Walk from a directory; a link that is followed is left to `jump`. -/
def walkWith (t : LinkTree ν β) (follow : Bool) (jump : List ν → List (PathStep ν) → Option (List ν)) :
    List ν → List (PathStep ν) → Option (List ν)
  | cur, [] => some cur
  | cur, .here :: rest => walkWith t follow jump cur rest
  | cur, .up :: rest => walkWith t follow jump cur.dropLast rest
  | cur, .name n :: rest =>
    match t.lookup (cur ++ [n]) with
    | some .dir => walkWith t follow jump (cur ++ [n]) rest
    | some (.link absolute target) =>
      if rest = [] ∧ follow = false then some (cur ++ [n])
      else jump (if absolute then [] else cur) (target ++ rest)
    -- nothing there, or no directory: the path ends here or leads nowhere
    | _ => if rest = [] then some (cur ++ [n]) else none

/-- Where a path leads that is walked from a directory, following at most so many links. The place
need not have anything on it, but its directory is there. -/
def walk (t : LinkTree ν β) (follow : Bool) : Nat → List ν → List (PathStep ν) → Option (List ν)
  | 0 => walkWith t follow fun _ _ => none
  | k + 1 => walkWith t follow (walk t follow k)

/-- What stands in one tree stands in the other, the content of files aside. -/
def Extends (t t' : LinkTree ν β) : Prop :=
  ∀ loc n, t.lookup loc = some n →
    t'.lookup loc = some n ∨ ∃ c c', n = .file c ∧ t'.lookup loc = some (.file c')

/-- Above what stands in the tree are directories. -/
def Grounded (t : LinkTree ν β) : Prop :=
  ∀ p loc, p <+: loc → p ≠ loc → (t.lookup loc).isSome → t.lookup p = some .dir

/-- What is no directory stands at a place, with directories on the way. -/
structure Leaf (t : LinkTree ν β) (loc : List ν) (n : LinkNode ν β) : Prop where
  node : t.lookup loc = some n
  not_dir : n ≠ .dir
  way : ∀ p, p <+: loc → p ≠ loc → t.lookup p = some .dir

/-- There are directories all the way to a place. -/
def Opens (t : LinkTree ν β) (loc : List ν) : Prop := ∀ p, p <+: loc → t.lookup p = some .dir

/-- No link stands at the places on the way. -/
def NoLinks (t : LinkTree ν β) (way : List (PathStep ν)) : Prop :=
  ∀ pre, pre <+: way → ∀ absolute target, t.lookup (spelled pre) ≠ some (.link absolute target)

section
variable {t t' : LinkTree ν β} {follow : Bool} {steps way pre : List (PathStep ν)} {step : PathStep ν}
  {cur loc : List ν} {k : Nat} {jump : List ν → List (PathStep ν) → Option (List ν)}

/-! ## What a path spells -/

@[simp] theorem spelled_nil : spelled ([] : List (PathStep ν)) = [] := rfl

@[simp] theorem spelled_here (steps : List (PathStep ν)) : spelled (.here :: steps) = spelled steps := rfl

@[simp] theorem spelled_name (n : ν) (steps : List (PathStep ν)) :
    spelled (.name n :: steps) = n :: spelled steps := rfl

theorem spelled_append (steps steps' : List (PathStep ν)) :
    spelled (steps ++ steps') = spelled steps ++ spelled steps' := List.filterMap_append ..

theorem spelled_isPrefix (h : pre <+: steps) : spelled pre <+: spelled steps := h.filterMap _

/-- There are no more links on a part of a way. -/
theorem NoLinks.of_isPrefix (h : NoLinks t way) (hsteps : steps <+: way) : NoLinks t steps :=
  fun pre hpre => h pre (hpre.trans hsteps)

/-! ## Walking where no link stands -/

/-- Without `..`, and without links before its last step, a path that is not followed at its end
leads to the place it spells or nowhere. -/
theorem walkWith_eq_spelled (hup : .up ∉ steps)
    (hlinks : ∀ pre, pre <+: steps → pre ≠ steps → ∀ absolute target,
      t.lookup (cur ++ spelled pre) ≠ some (.link absolute target))
    (h : walkWith t false jump cur steps = some loc) : loc = cur ++ spelled steps := by
  induction steps generalizing cur with
  | nil =>
    cases h
    rw [spelled_nil, List.append_nil]
  | cons step rest ih =>
    rw [List.mem_cons, not_or] at hup
    have hnext : ∀ {cur'} , (∀ pre, cur ++ spelled (step :: pre) = cur' ++ spelled pre) →
        ∀ pre, pre <+: rest → pre ≠ rest → ∀ absolute target,
          t.lookup (cur' ++ spelled pre) ≠ some (.link absolute target) := fun hcur pre hpre hne => by
      rw [← hcur]
      exact hlinks (step :: pre) (List.cons_prefix_cons.2 ⟨rfl, hpre⟩)
        fun heq => hne (List.cons.inj heq).2
    cases step with
    | here => exact ih hup.2 (hnext fun _ => rfl) h
    | up => exact absurd rfl hup.1
    | name n =>
      have hcur (pre : List (PathStep ν)) :
          cur ++ spelled (.name n :: pre) = (cur ++ [n]) ++ spelled pre := by
        rw [spelled_name, List.append_assoc, List.singleton_append]
      unfold walkWith at h
      rw [hcur]
      split at h
      · exact ih hup.2 (hnext hcur) h
      · next absolute target hlink =>
        split at h
        · next hlast =>
          cases h
          rw [hlast.1, spelled_nil, List.append_nil]
        · next hlast =>
          have hrest : rest ≠ [] := fun h0 => hlast ⟨h0, rfl⟩
          refine absurd hlink ?_
          have := hlinks [.name n] (List.cons_prefix_cons.2 ⟨rfl, List.nil_prefix⟩)
            (fun heq => hrest (List.cons.inj heq).2.symm) absolute target
          rwa [hcur, spelled_nil, List.append_nil] at this
      · split at h
        · next hlast =>
          cases h
          rw [hlast, spelled_nil, List.append_nil]
        · cases h

theorem walk_eq_spelled (hup : .up ∉ way ++ [step]) (hlinks : NoLinks t way)
    (h : walk t false k [] (way ++ [step]) = some loc) : loc = spelled (way ++ [step]) := by
  have hclear : ∀ pre, pre <+: way ++ [step] → pre ≠ way ++ [step] → ∀ absolute target,
      t.lookup ([] ++ spelled pre) ≠ some (.link absolute target) := fun pre hpre hne => by
    rw [List.nil_append]
    exact hlinks pre ((List.prefix_concat_iff.1 hpre).resolve_left hne)
  cases k <;> exact walkWith_eq_spelled hup hclear h

/-- The same for a path without steps at the end. -/
theorem walk_eq_spelled_way (hup : .up ∉ way) (hlinks : NoLinks t way)
    (h : walk t false k [] way = some loc) : loc = spelled way := by
  have hclear : ∀ pre, pre <+: way → pre ≠ way → ∀ absolute target,
      t.lookup ([] ++ spelled pre) ≠ some (.link absolute target) := fun pre hpre _ => hlinks pre hpre
  cases k <;> exact walkWith_eq_spelled hup hclear h

/-- A path that ends in `.` leads to a directory. -/
theorem walkWith_here (hup : .up ∉ way) (hcur : t.lookup cur = some .dir)
    (hlinks : ∀ pre, pre <+: way → ∀ absolute target,
      t.lookup (cur ++ spelled pre) ≠ some (.link absolute target))
    (h : walkWith t follow jump cur (way ++ [.here]) = some loc) : t.lookup loc = some .dir := by
  induction way generalizing cur with
  | nil =>
    cases h
    exact hcur
  | cons step rest ih =>
    rw [List.mem_cons, not_or] at hup
    cases step with
    | here =>
      exact ih hup.2 hcur (fun pre hpre => hlinks (.here :: pre) (List.cons_prefix_cons.2 ⟨rfl, hpre⟩)) h
    | up => exact absurd rfl hup.1
    | name n =>
      have hcur' (pre : List (PathStep ν)) :
          cur ++ spelled (.name n :: pre) = (cur ++ [n]) ++ spelled pre := by
        rw [spelled_name, List.append_assoc, List.singleton_append]
      rw [List.cons_append] at h
      unfold walkWith at h
      split at h
      · next hdir =>
        refine ih hup.2 hdir (fun pre hpre => ?_) h
        rw [← hcur']
        exact hlinks (.name n :: pre) (List.cons_prefix_cons.2 ⟨rfl, hpre⟩)
      · next absolute target hlink =>
        refine absurd hlink ?_
        have := hlinks [.name n] (List.cons_prefix_cons.2 ⟨rfl, List.nil_prefix⟩) absolute target
        rwa [hcur', spelled_nil, List.append_nil] at this
      · split at h
        · next hlast => simp at hlast
        · cases h

theorem walk_here (hup : .up ∉ way) (hlinks : NoLinks t way)
    (h : walk t follow k [] (way ++ [.here]) = some loc) : t.lookup loc = some .dir := by
  have hroot : t.lookup ([] : List ν) = some .dir := if_pos rfl
  cases k <;> exact walkWith_here hup hroot (fun pre hpre => hlinks pre hpre) h

/-! ## Paths of names -/

@[simp] theorem spelled_map_name (names : List ν) : spelled (names.map PathStep.name) = names := by
  induction names with
  | nil => rfl
  | cons n names ih => rw [List.map_cons, spelled_name, ih]

/-- Names lead to their place over directories; a link there is in the way where it is followed. -/
theorem walkWith_names {names : List ν} (hne : names ≠ [])
    (hdirs : ∀ p, p <+: names → p ≠ [] → p ≠ names → t.lookup (cur ++ p) = some .dir)
    (hlast : follow = true → ∀ absolute target, t.lookup (cur ++ names) ≠ some (.link absolute target)) :
    walkWith t follow jump cur (names.map PathStep.name) = some (cur ++ names) := by
  induction names generalizing cur with
  | nil => exact absurd rfl hne
  | cons n rest ih =>
    by_cases hrest : rest = []
    · subst hrest
      rw [List.map_singleton]
      unfold walkWith
      split
      · rfl
      · next absolute target hlink =>
        cases follow with
        | false => exact if_pos ⟨rfl, rfl⟩
        | true => exact absurd hlink (hlast rfl absolute target)
      · exact if_pos rfl
    · have hfirst : t.lookup (cur ++ [n]) = some .dir :=
        hdirs [n] (List.cons_prefix_cons.2 ⟨rfl, List.nil_prefix⟩) (List.cons_ne_nil _ _)
          fun h => hrest (List.cons.inj h).2.symm
      rw [List.map_cons]
      unfold walkWith
      rw [hfirst]
      have hstep := @ih (cur ++ [n]) hrest (fun p hp hpne hpr => ?_) fun hf absolute target => ?_
      · rw [List.append_assoc, List.singleton_append] at hstep
        exact hstep
      · rw [List.append_assoc, List.singleton_append]
        exact hdirs (n :: p) (List.cons_prefix_cons.2 ⟨rfl, hp⟩) (List.cons_ne_nil _ _)
          fun h => hpr (List.cons.inj h).2
      · rw [List.append_assoc, List.singleton_append]
        exact hlast hf absolute target

theorem walk_names {names : List ν} (hne : names ≠ [])
    (hdirs : ∀ p, p <+: names → p ≠ names → t.lookup p = some .dir)
    (hlast : follow = true → ∀ absolute target, t.lookup names ≠ some (.link absolute target)) :
    walk t follow k [] (names.map PathStep.name) = some names := by
  cases k <;> exact walkWith_names hne (fun p hp _ hpn => hdirs p hp hpn) hlast

/-! ## Trees that grow -/

theorem Extends.refl (t : LinkTree ν β) : Extends t t := fun _ _ h => .inl h

theorem Extends.trans {t'' : LinkTree ν β} (h : Extends t t') (h' : Extends t' t'') : Extends t t'' := by
  intro loc n hn
  rcases h loc n hn with hsame | ⟨c, c', hfile, hfile'⟩
  · exact h' loc n hsame
  · rcases h' loc _ hfile' with hsame | ⟨c₁, c₂, heq, hfile''⟩
    · exact .inr ⟨c, c', hfile, hsame⟩
    · exact .inr ⟨c, c₂, hfile, hfile''⟩

/-- A walk that does not follow its end sees nothing of a file but that it ends there. -/
theorem walkWith_extends {jump' : List ν → List (PathStep ν) → Option (List ν)} (h : Extends t t')
    (hjump : ∀ cur steps, jump cur steps = some loc → jump' cur steps = some loc)
    (hwalk : walkWith t false jump cur steps = some loc) : walkWith t' false jump' cur steps = some loc := by
  induction steps generalizing cur with
  | nil => exact hwalk
  | cons step rest ih =>
    cases step with
    | here => exact ih hwalk
    | up => exact ih hwalk
    | name n =>
      unfold walkWith at hwalk ⊢
      cases hn : t.lookup (cur ++ [n]) with
      | none =>
        -- the walk ends where nothing stands, whatever has come there
        rw [hn] at hwalk
        obtain ⟨rfl, hend⟩ := Option.ite_none_right_eq_some.1 hwalk
        split
        · exact hend
        · exact (if_pos ⟨rfl, rfl⟩).trans hend
        · exact (if_pos rfl).trans hend
      | some node =>
        rw [hn] at hwalk
        rcases h _ _ hn with hsame | ⟨c, c', rfl, hfile⟩
        · rw [hsame]
          cases node with
          | file c => exact hwalk
          | other => exact hwalk
          | dir => exact ih hwalk
          | link absolute target =>
            dsimp only at hwalk ⊢
            split at hwalk
            · next hlast => rw [if_pos hlast]; exact hwalk
            · next hlast => rw [if_neg hlast]; exact hjump _ _ hwalk
        · rw [hfile]
          exact hwalk

/-- A path leads to the same place in a tree that grew. -/
theorem walk_extends (h : Extends t t') (hwalk : walk t false k cur steps = some loc) :
    walk t' false k cur steps = some loc := by
  induction k generalizing cur steps with
  | zero =>
    unfold walk at hwalk ⊢
    exact walkWith_extends h (fun _ _ => id) hwalk
  | succ k ih => exact walkWith_extends h (fun _ _ => ih) hwalk

/-! ## Trees that change elsewhere -/

/-- The last name of a path that is not followed is where it ends. -/
@[simp] theorem walkWith_name (n : ν) : walkWith t false jump cur [.name n] = some (cur ++ [n]) := by
  unfold walkWith
  split
  · rfl
  · exact if_pos ⟨rfl, rfl⟩
  · exact if_pos rfl

/-- A path that is walked over directories alone leads to the same place where some of them are gone,
or to nothing. -/
theorem walkWith_lost {loc' : List ν}
    (hlost : ∀ p, Opens t p → t'.lookup p = some .dir ∨ t'.lookup p = none) (hcur : Opens t cur)
    (hwalk : walkWith t false (fun _ _ => none) cur steps = some loc)
    (hwalk' : walkWith t' false jump cur steps = some loc') : loc' = loc ∨ t'.lookup loc' = none := by
  induction steps generalizing cur with
  | nil => exact .inl (Option.some.inj (hwalk'.symm.trans hwalk))
  | cons step rest ih =>
    cases step with
    | here => exact ih hcur hwalk hwalk'
    | up => exact ih (fun p hp => hcur p (hp.trans (List.dropLast_prefix cur))) hwalk hwalk'
    | name n =>
      by_cases hrest : rest = []
      · subst hrest
        rw [walkWith_name] at hwalk hwalk'
        exact .inl (Option.some.inj (hwalk'.symm.trans hwalk))
      · unfold walkWith at hwalk hwalk'
        split at hwalk
        · next hdir =>
          have hopens : Opens t (cur ++ [n]) := fun p hp => by
            rcases List.prefix_concat_iff.1 hp with rfl | hp
            · exact hdir
            · exact hcur p hp
          rcases hlost _ hopens with hkept | hnone
          · rw [hkept] at hwalk'
            exact ih hopens hwalk hwalk'
          · rw [hnone] at hwalk'
            exact absurd (Option.ite_none_right_eq_some.1 hwalk').1 hrest
        · rw [if_neg fun h => hrest h.1] at hwalk
          cases hwalk
        · rw [if_neg hrest] at hwalk
          cases hwalk

/-- A path leads to the same place when something else changes that no path goes through. -/
theorem walkWith_avoid {jump' : List ν → List (PathStep ν) → Option (List ν)} {b : List ν}
    (hsame : ∀ p, p ≠ b → t'.lookup p = t.lookup p) (hdir : t.lookup b ≠ some .dir)
    (hlink : ∀ absolute target, t.lookup b ≠ some (.link absolute target))
    (hjump : ∀ cur steps, jump cur steps = some loc → jump' cur steps = some loc) (hne : loc ≠ b)
    (hwalk : walkWith t false jump cur steps = some loc) : walkWith t' false jump' cur steps = some loc := by
  induction steps generalizing cur with
  | nil => exact hwalk
  | cons step rest ih =>
    cases step with
    | here => exact ih hwalk
    | up => exact ih hwalk
    | name n =>
      by_cases hb : cur ++ [n] = b
      · -- the path would end there
        unfold walkWith at hwalk
        rw [hb] at hwalk
        split at hwalk
        · next h => exact absurd h hdir
        · next absolute target h => exact absurd h (hlink absolute target)
        · obtain ⟨-, hend⟩ := Option.ite_none_right_eq_some.1 hwalk
          exact absurd (Option.some.inj hend).symm hne
      · unfold walkWith at hwalk ⊢
        rw [hsame _ hb]
        split at hwalk
        · next h => exact ih hwalk
        · next h =>
          split at hwalk
          · next hlast => rw [if_pos hlast]; exact hwalk
          · next hlast => rw [if_neg hlast]; exact hjump _ _ hwalk
        · exact hwalk

theorem walk_avoid {b : List ν} (hsame : ∀ p, p ≠ b → t'.lookup p = t.lookup p)
    (hdir : t.lookup b ≠ some .dir) (hlink : ∀ absolute target, t.lookup b ≠ some (.link absolute target))
    (hne : loc ≠ b) (hwalk : walk t false k cur steps = some loc) : walk t' false k cur steps = some loc := by
  induction k generalizing cur steps with
  | zero =>
    unfold walk at hwalk ⊢
    exact walkWith_avoid hsame hdir hlink (fun _ _ => id) hne hwalk
  | succ k ih => exact walkWith_avoid hsame hdir hlink (fun _ _ => ih) hne hwalk

/-! ## Grounded trees -/

/-- Nothing is below what is no directory. -/
theorem Grounded.below (h : Grounded t) (hdir : t.lookup loc ≠ some .dir) {rest : List ν} (hrest : rest ≠ []) :
    t.lookup (loc ++ rest) = none := by
  by_contra hne
  refine hdir (h loc (loc ++ rest) (List.prefix_append _ _) (fun heq => hrest ?_) (Option.isSome_iff_ne_none.2 hne))
  exact List.append_cancel_left (heq.symm.trans (List.append_nil loc).symm)

/-! ## Leaves -/

section
variable {n : LinkNode ν β}

/-- A leaf stays when nothing changes on the way to it. -/
theorem Leaf.congr (h : Leaf t loc n) (hsame : ∀ p, p <+: loc → t'.lookup p = t.lookup p) : Leaf t' loc n where
  node := (hsame loc (List.prefix_refl loc)).trans h.node
  not_dir := h.not_dir
  way p hp hne := (hsame p hp).trans (h.way p hp hne)

/-- Another place without a directory is not on the way. -/
theorem Leaf.not_isPrefix (h : Leaf t loc n) {p : List ν} (hdir : t.lookup p ≠ some .dir) (hne : p ≠ loc) :
    ¬ p <+: loc := fun hp => hdir (h.way p hp hne)

theorem Leaf.not_isPrefix_of_free (h : Leaf t loc n) {p : List ν} (hfree : t.lookup p = none) : ¬ p <+: loc := by
  refine h.not_isPrefix (by rw [hfree]; exact nofun) ?_
  rintro rfl
  rw [h.node] at hfree
  cases hfree

/-- An empty directory is not on the way. -/
theorem Leaf.not_isPrefix_of_empty (h : Leaf t loc n) {p : List ν} (hdir : t.lookup p = some .dir)
    (hempty : ∀ name rest, t.node (p ++ name :: rest) = none) : ¬ p <+: loc := by
  rintro ⟨rest, rfl⟩
  have hnode := h.node
  cases rest with
  | nil =>
    rw [List.append_nil, hdir] at hnode
    exact h.not_dir (Option.some.inj hnode).symm
  | cons name rest =>
    rw [LinkTree.lookup, if_neg (by simp), hempty] at hnode
    cases hnode

/-- Changing a place that is not on the way. -/
theorem Leaf.update [DecidableEq ν] (h : Leaf t loc n) {p : List ν} (hp : ¬ p <+: loc)
    (v : Option (LinkNode ν β)) : Leaf ⟨Function.update t.node p v⟩ loc n := by
  refine h.congr fun p' hp' => ?_
  unfold LinkTree.lookup
  dsimp only
  rw [Function.update_of_ne (by rintro rfl; exact hp hp')]

end

end

end LinkTree
