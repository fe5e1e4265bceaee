import Mathlib.Logic.Function.Basic
import Mathlib.Data.List.Infix
import GfrGuard.Protocol

/-!
# The file tree

A tree maps the names a path walks through to what stands there. The system calls of the
module, the daemon and the recovery tool act on it; what can fail for a reason outside the
tree (permissions, space) fails by an outcome passed in. Metadata other than kind and size
is left out, and no symbolic link stands on a path. `Fs.Grows` is what creating a file does:
nothing that was there changes.
-/

namespace GfrGuard

/-- The content of a file. -/
abbrev Content := List UInt8

/-- What stands at a place of the tree. -/
inductive Node where
  | regular (content : Content)
  | directory
  /-- A device, a socket or a pipe. -/
  | other
deriving DecidableEq

/-- A place of the tree: the names from the root to it. -/
abbrev Loc := List CStr

instance : LawfulBEq Loc := inferInstance

/-- A file tree. -/
structure Fs where
  node : Loc → Option Node

namespace Fs

/-- The tree with only the root. -/
def empty : Fs := ⟨fun _ => none⟩

/-- What stands at a place; the root is a directory. -/
def lookup (fs : Fs) (loc : Loc) : Option Node := if loc = [] then some .directory else fs.node loc

/-- Put a node at a place. -/
def put (fs : Fs) (loc : Loc) (n : Node) : Fs := ⟨Function.update fs.node loc (some n)⟩

/-- Take away what stands at a place. -/
def remove (fs : Fs) (loc : Loc) : Fs := ⟨Function.update fs.node loc none⟩

/-- `stat(path)`: an empty or overlong path fails, and so does a trailing slash after anything
but a directory. -/
def stat (fs : Fs) (path : CStr) : Option Node :=
  if path = [] ∨ pathMax ≤ path.length then none
  else if path.getLast? = some slash ∧ fs.lookup (pathComponents path) ≠ some .directory then none
  else fs.lookup (pathComponents path)

/-- `mkdir`: nothing to do when the name exists (`EEXIST`), else the parent must be a
directory. -/
def mkdir (fs : Fs) (loc : Loc) (ok : Bool) : Option Fs :=
  match fs.lookup loc with
  | some _ => some fs
  | none =>
    if ok && fs.lookup loc.dropLast = some .directory then some (fs.put loc .directory) else none

/-- The loop of `mkdir_p`: it stops at the first failure. -/
def mkdirAll (ok : Loc → Bool) : Fs → List Loc → Bool × Fs
  | fs, [] => (true, fs)
  | fs, loc :: locs =>
    match fs.mkdir loc (ok loc) with
    | none => (false, fs)
    | some fs => mkdirAll ok fs locs

/-- `mkdir_p`: the directories on the way to a path, and the path itself. -/
def mkdirP (fs : Fs) (path : CStr) (ok : Loc → Bool) : Bool × Fs :=
  mkdirAll ok fs (pathComponents (snprintf pathMax path)).inits.tail

/-- The directory part of a path: what precedes its last slash. -/
def parentPath (path : CStr) : CStr :=
  match strrchr path slash with
  | none => path
  | some s => path.take (path.length - s.length)

/-! ## Lookups -/

variable {fs fs' fs'' : Fs} {loc loc' b : Loc} {n : Node}

@[simp] theorem node_put_self (fs : Fs) (loc : Loc) (n : Node) :
    (fs.put loc n).node loc = some n := Function.update_self ..

theorem node_put_of_ne (h : loc' ≠ loc) (n : Node) : (fs.put loc n).node loc' = fs.node loc' :=
  Function.update_of_ne h ..

@[simp] theorem node_remove_self (fs : Fs) (loc : Loc) : (fs.remove loc).node loc = none :=
  Function.update_self ..

theorem node_remove_of_ne (h : loc' ≠ loc) : (fs.remove loc).node loc' = fs.node loc' :=
  Function.update_of_ne h ..

theorem lookup_of_ne_nil (h : loc ≠ []) : fs.lookup loc = fs.node loc := if_neg h

theorem lookup_eq_regular {c : Content} (h : fs.lookup loc = some (.regular c)) :
    fs.node loc = some (.regular c) := by
  unfold lookup at h
  split at h
  · cases h
  · exact h

/-- What `stat` finds stands at the place the path names. -/
theorem lookup_of_stat {path : CStr} (h : fs.stat path = some n) :
    fs.lookup (pathComponents path) = some n := by
  unfold stat at h
  split_ifs at h
  exact h

/-- A path whose last byte is not a slash and that fits is looked up. -/
theorem stat_eq_lookup {path : CStr} (hne : path ≠ []) (hfits : path.length < pathMax)
    (hlast : path.getLast? ≠ some slash) : fs.stat path = fs.lookup (pathComponents path) := by
  unfold stat
  rw [if_neg (by rintro (h | h) <;> [exact hne h; omega]), if_neg fun h => hlast h.1]

/-! ## Growth -/

/-- The second tree has everything the first one has, and what it has in addition are
directories on the way to `b`. -/
def AddsDirs (b : Loc) (fs fs' : Fs) : Prop :=
  ∀ loc, fs'.node loc = fs.node loc ∨
    fs.node loc = none ∧ loc <+: b ∧ fs'.node loc = some .directory

/-- The second tree has everything the first one has, and what it has in addition are
directories on the way to `b`, and something at `b`. -/
def Grows (b : Loc) (fs fs' : Fs) : Prop :=
  ∀ loc, fs'.node loc = fs.node loc ∨
    fs.node loc = none ∧ loc <+: b ∧ (loc = b ∨ fs'.node loc = some .directory)

theorem AddsDirs.refl (b : Loc) (fs : Fs) : AddsDirs b fs fs := fun _ => .inl rfl

theorem AddsDirs.trans (h : AddsDirs b fs fs') (h' : AddsDirs b fs' fs'') :
    AddsDirs b fs fs'' := fun loc => by
  rcases h' loc with h1 | ⟨h1, hb, hdir⟩
  · rw [h1]; exact h loc
  · rcases h loc with h2 | ⟨-, -, h2⟩
    · exact .inr ⟨h2 ▸ h1, hb, hdir⟩
    · rw [h1] at h2; cases h2

theorem AddsDirs.grows (h : AddsDirs b fs fs') {b' : Loc} (hb : b <+: b') : Grows b' fs fs' :=
  fun loc => (h loc).imp_right fun ⟨hn, hp, hdir⟩ => ⟨hn, hp.trans hb, .inr hdir⟩

theorem AddsDirs.mono (h : AddsDirs b fs fs') {b' : Loc} (hb : b <+: b') : AddsDirs b' fs fs' :=
  fun loc => (h loc).imp_right fun ⟨hn, hp, hdir⟩ => ⟨hn, hp.trans hb, hdir⟩

theorem Grows.refl (b : Loc) (fs : Fs) : Grows b fs fs := fun _ => .inl rfl

theorem Grows.trans (h : Grows b fs fs') (h' : Grows b fs' fs'') : Grows b fs fs'' := fun loc => by
  rcases h' loc with h1 | ⟨h1, hb, hadd⟩
  · rw [h1]; exact h loc
  · rcases h loc with h2 | ⟨hn, -, -⟩
    · exact .inr ⟨h2 ▸ h1, hb, hadd⟩
    · exact .inr ⟨hn, hb, hadd⟩

/-- What stands somewhere stays. -/
theorem Grows.keeps (h : Grows b fs fs') (hn : fs.node loc = some n) : fs'.node loc = some n := by
  rcases h loc with h1 | ⟨h1, _⟩
  · rw [h1, hn]
  · rw [hn] at h1; cases h1

/-- Off the way to `b` nothing is added. -/
theorem Grows.eq_off_way (h : Grows b fs fs') (hloc : ¬ loc <+: b) :
    fs'.node loc = fs.node loc :=
  (h loc).resolve_right fun hb => hloc hb.2.1

theorem AddsDirs.eq_off_way (h : AddsDirs b fs fs') (hloc : ¬ loc <+: b) :
    fs'.node loc = fs.node loc :=
  (h.grows (List.prefix_refl b)).eq_off_way hloc

theorem grows_put (hn : fs.node loc = none) (n : Node) : Grows loc fs (fs.put loc n) := fun l => by
  by_cases hl : l = loc
  · subst hl; exact .inr ⟨hn, List.prefix_refl _, .inl rfl⟩
  · exact .inl (node_put_of_ne hl n)

theorem mkdir_addsDirs {ok : Bool} (h : fs.mkdir loc ok = some fs') : AddsDirs loc fs fs' := by
  unfold mkdir at h
  split at h
  · cases h; exact AddsDirs.refl _ _
  · next hnone =>
    split at h
    · cases h
      have hn : fs.node loc = none := by
        unfold lookup at hnone
        split at hnone
        · cases hnone
        · exact hnone
      intro l
      by_cases hl : l = loc
      · subst hl; exact .inr ⟨hn, List.prefix_refl _, node_put_self ..⟩
      · exact .inl (node_put_of_ne hl _)
    · cases h

/-- The loop of `mkdir_p` only adds directories on the way. -/
theorem mkdirAll_addsDirs (ok : Loc → Bool) (fs : Fs) (locs : List Loc)
    (hlocs : ∀ l ∈ locs, l <+: b) : AddsDirs b fs (mkdirAll ok fs locs).2 := by
  induction locs generalizing fs with
  | nil => exact AddsDirs.refl _ _
  | cons l locs ih =>
    unfold mkdirAll
    split
    · exact AddsDirs.refl _ _
    · next fs' hmk =>
      have hl := (mkdir_addsDirs hmk).mono (hlocs l List.mem_cons_self)
      exact hl.trans (ih fs' fun l' hl' => hlocs l' (List.mem_cons_of_mem _ hl'))

theorem mkdirP_addsDirs {path : CStr} (hfits : path.length < pathMax) (ok : Loc → Bool) (fs : Fs) :
    AddsDirs (pathComponents path) fs (fs.mkdirP path ok).2 := by
  unfold mkdirP
  rw [snprintf_of_lt hfits]
  exact mkdirAll_addsDirs ok fs _ fun l hl => (List.mem_inits l _).1 (List.mem_of_mem_tail hl)

end Fs

end GfrGuard
