import GfrGuard.QuarantineKept

/-!
# Canonical paths

On a path in canonical form with no link above its last component, the system calls of the recovery
tool work at the place the path spells. Each lemma says what one call leaves of the tree when nothing
outside of the tree makes it fail.
-/

namespace GfrGuard

namespace Linked

open LinkTree

/-- A path in canonical form that fits: absolute, without dots and without a slash at its end. -/
structure Canonical (path : CStr) : Prop where
  head : path.head? = some slash
  last : path.getLast? ≠ some slash
  here : lit "." ∉ pathComponents path
  up : lit ".." ∉ pathComponents path
  fits : path.length < pathMax

section
variable {io : LinkedIo} {t : Links} {s : Traced} {path old new : CStr} {p loc : Loc}
  {n : LinkNode CStr Content} {content : Content}

/-! ## The place of a path -/

theorem Canonical.ne_nil (h : Canonical path) : path ≠ [] := by
  rintro rfl
  exact absurd h.head nofun

theorem Canonical.pathSteps_eq (h : Canonical path) : pathSteps path = (pathComponents path).map .name := by
  refine List.map_congr_left fun c hc => ?_
  unfold pathStep
  rw [if_neg (by rintro rfl; exact h.here hc), if_neg (by rintro rfl; exact h.up hc)]

theorem Canonical.walkSteps_eq (h : Canonical path) : walkSteps path = (pathComponents path).map .name := by
  rw [walkSteps, if_neg h.last, List.append_nil, h.pathSteps_eq]

theorem Canonical.literalLoc_eq (h : Canonical path) : literalLoc path = pathComponents path := by
  rw [literalLoc, h.walkSteps_eq, spelled_map_name]

/-- The path names one thing more than its directory part. -/
theorem Canonical.parent (h : Canonical path) :
    ∃ name, pathComponents path = pathComponents (Fs.parentPath path) ++ [name] :=
  pathComponents_parentPath (slash_mem_of_head h.head) h.last

theorem Canonical.place_ne_nil (h : Canonical path) : pathComponents path ≠ [] := by
  obtain ⟨name, hname⟩ := h.parent
  rw [hname]
  simp

/-- The places above a path are those of its directory part. -/
theorem Canonical.above_iff (h : Canonical path) :
    p <+: pathComponents path ∧ p ≠ pathComponents path ↔ p <+: pathComponents (Fs.parentPath path) := by
  obtain ⟨name, hname⟩ := h.parent
  rw [hname, List.prefix_concat_iff]
  constructor
  · rintro ⟨rfl | hp, hne⟩
    · exact absurd rfl hne
    · exact hp
  · refine fun hp => ⟨.inr hp, ?_⟩
    rintro rfl
    have hlen := hp.length_le
    rw [List.length_append, List.length_singleton] at hlen
    omega

theorem Canonical.wayTo_eq (h : Canonical path) :
    wayTo path = (pathComponents (Fs.parentPath path)).map .name := by
  obtain ⟨name, hname⟩ := h.parent
  refine List.map_congr_left fun c hc => ?_
  have hmem : c ∈ pathComponents path := hname ▸ List.mem_append_left _ hc
  unfold pathStep
  rw [if_neg (by rintro rfl; exact h.here hmem), if_neg (by rintro rfl; exact h.up hmem)]

/-- No link is on the way where nothing but directories is. -/
theorem Canonical.noLinks (h : Canonical path)
    (habove : ∀ p, p <+: pathComponents path → p ≠ pathComponents path →
      t.lookup p = none ∨ t.lookup p = some .dir) : NoLinks t (wayTo path) := by
  intro pre hpre absolute target
  rw [h.wayTo_eq] at hpre
  have hspelled := spelled_isPrefix hpre
  rw [spelled_map_name] at hspelled
  obtain ⟨hp, hne⟩ := h.above_iff.2 hspelled
  rcases habove _ hp hne with hnone | hdir
  · rw [hnone]
    exact nofun
  · rw [hdir]
    exact nofun

theorem Canonical.endsInDots (h : Canonical path) : endsInDots path = false := by
  unfold Linked.endsInDots
  rw [Bool.or_eq_false_iff, decide_eq_false_iff_not, decide_eq_false_iff_not]
  exact ⟨fun hl => h.here (List.mem_of_getLast? hl), fun hl => h.up (List.mem_of_getLast? hl)⟩

/-- The tool accepts a canonical path. -/
theorem Canonical.valid (h : Canonical path) : validRestorePath path = true :=
  validRestorePath_of_dots h.head h.up

theorem Canonical.follow {last : Bool} (h : Canonical path)
    (hdirs : ∀ p, p <+: pathComponents path → p ≠ pathComponents path → t.lookup p = some .dir)
    (hlast : last = true → ∀ absolute target, t.lookup (pathComponents path) ≠ some (.link absolute target)) :
    follow io t path last ((pathComponents path).map .name) = some (pathComponents path) := by
  unfold Linked.follow
  rw [if_neg (by rintro (hnil | hlong) <;> [exact h.ne_nil hnil; exact Nat.not_le.2 h.fits hlong]), if_pos h.head]
  exact walk_names h.place_ne_nil hdirs hlast

theorem Canonical.entry (h : Canonical path)
    (hdirs : ∀ p, p <+: pathComponents path → p ≠ pathComponents path → t.lookup p = some .dir) :
    entry io t path = some (pathComponents path) := by
  rw [Linked.entry, h.pathSteps_eq]
  exact h.follow hdirs fun hlast => absurd hlast Bool.false_ne_true

theorem Canonical.find (h : Canonical path)
    (hdirs : ∀ p, p <+: pathComponents path → p ≠ pathComponents path → t.lookup p = some .dir) :
    find io t path false = some (pathComponents path) := by
  rw [Linked.find, h.walkSteps_eq]
  exact h.follow hdirs fun hlast => absurd hlast Bool.false_ne_true

/-- What is found at the path stands at its place, where no link is above. -/
theorem Canonical.lstat_eq (h : Canonical path) (hground : Grounded t) (hway : NoLinks t (wayTo path)) :
    lstat io t path = t.lookup (pathComponents path) := by
  cases hn : t.lookup (pathComponents path) with
  | some n =>
    rw [lstat, h.find fun p hp hne => hground p _ hp hne (by rw [hn]; rfl), Option.bind_some, hn]
  | none =>
    cases hfind : Linked.find io t path false with
    | none => rw [lstat, hfind, Option.bind_none]
    | some loc =>
      have hup : .up ∉ walkSteps path := by
        rw [h.walkSteps_eq]
        simp
      rw [lstat, hfind, Option.bind_some, find_eq h.head hup hway hfind, h.literalLoc_eq, hn]

/-- What stands at the path is found, its end followed, unless it is a link. -/
theorem Canonical.find_end (h : Canonical path)
    (hdirs : ∀ p, p <+: pathComponents path → p ≠ pathComponents path → t.lookup p = some .dir)
    (hlink : ∀ absolute target, t.lookup (pathComponents path) ≠ some (.link absolute target)) :
    Linked.find io t path true = some (pathComponents path) := by
  rw [Linked.find, h.walkSteps_eq]
  exact h.follow hdirs fun _ => hlink

/-- A file at the path is found, its end followed. -/
theorem Canonical.stat_file (h : Canonical path) (hground : Grounded t)
    (hfile : t.lookup (pathComponents path) = some (.file content)) : stat io t path = some (.file content) := by
  rw [stat, h.find_end (fun p hp hne => hground p _ hp hne (by rw [hfile]; rfl)) (by rw [hfile]; exact nofun),
    Option.bind_some, hfile]

/-! ## Making directories -/

theorem mkdirAll_append (s : Traced) (ls ls' : List (List (PathStep CStr))) (h : (mkdirAll io s ls).1 = true) :
    mkdirAll io s (ls ++ ls') = mkdirAll io (mkdirAll io s ls).2 ls' := by
  induction ls generalizing s with
  | nil => rfl
  | cons l ls ih =>
    cases hmk : mkdir io s l with
    | mk made s' =>
      cases made with
      | false =>
        simp only [mkdirAll, hmk] at h
        cases h
      | true =>
        simp only [mkdirAll, hmk, List.cons_append] at h ⊢
        exact ih s' h

/-- Directories came to stand on the way where nothing stood. -/
def MadeWay (way : Loc) (t t' : Links) : Prop :=
  ∀ p, t'.lookup p = t.lookup p ∨ t.lookup p = none ∧ t'.lookup p = some .dir ∧ p <+: way

theorem MadeWay.madeDirs {way : Loc} {t' : Links} (h : MadeWay way t t') : MadeDirs t t' := fun p =>
  (h p).imp_right fun h => ⟨h.1, h.2.1⟩

/-- One directory on the way. -/
theorem mkdir_names (hok : ∀ l, io.mkdirOk l = true) (hloc : loc ≠ [])
    (hdirs : ∀ p, p <+: loc → p ≠ loc → s.tree.lookup p = some .dir)
    (hfree : s.tree.lookup loc = none ∨ s.tree.lookup loc = some .dir) :
    (mkdir io s (loc.map .name)).1 = true ∧ (mkdir io s (loc.map .name)).2.tree.lookup loc = some .dir ∧
      MadeWay loc s.tree (mkdir io s (loc.map .name)).2.tree := by
  have hwalk : s.tree.walk false 40 [] (loc.map .name) = some loc := walk_names hloc hdirs nofun
  unfold mkdir
  rw [hwalk]
  rcases hfree with hnone | hdir
  · simp only [hnone, Option.isSome_none, Bool.false_eq_true, if_false, hok, if_true]
    refine ⟨trivial, lookup_put_self hloc _, fun p => ?_⟩
    by_cases hp : p = loc
    · subst hp
      exact .inr ⟨hnone, lookup_put_self hloc _, List.prefix_refl p⟩
    · exact .inl (lookup_put_of_ne hp _)
  · simp only [hdir, Option.isSome_some, if_true]
    exact ⟨trivial, trivial, fun p => .inl rfl⟩

/-- The whole way, where nothing but directories is on it. -/
theorem mkdirAll_names (hok : ∀ l, io.mkdirOk l = true) (s : Traced) (way : Loc)
    (hway : ∀ p, p <+: way → s.tree.lookup p = none ∨ s.tree.lookup p = some .dir) :
    (mkdirAll io s (way.map PathStep.name).inits.tail).1 = true ∧
      (∀ p, p <+: way → (mkdirAll io s (way.map PathStep.name).inits.tail).2.tree.lookup p = some .dir) ∧
      MadeWay way s.tree (mkdirAll io s (way.map PathStep.name).inits.tail).2.tree := by
  induction way using List.reverseRecOn with
  | nil =>
    refine ⟨rfl, fun p hp => ?_, fun p => .inl rfl⟩
    rw [List.prefix_nil.1 hp]
    rfl
  | append_singleton way x ih =>
    obtain ⟨hmade, hdirs, hchange⟩ := ih fun p hp => hway p (hp.trans (List.prefix_append _ _))
    have hinits : ((way ++ [x]).map PathStep.name).inits.tail =
        (way.map PathStep.name).inits.tail ++ [(way ++ [x]).map PathStep.name] := by
      rw [List.map_append, List.map_singleton, List.inits_append,
        List.tail_append_of_ne_nil (by cases way <;> simp)]
      rfl
    rw [hinits, mkdirAll_append _ _ _ hmade]
    generalize (mkdirAll io s (way.map PathStep.name).inits.tail).2 = s₁ at hdirs hchange
    have hlonger : ¬ way ++ [x] <+: way := fun h => by
      have hlen := h.length_le
      rw [List.length_append, List.length_singleton] at hlen
      omega
    have hfree : s₁.tree.lookup (way ++ [x]) = none ∨ s₁.tree.lookup (way ++ [x]) = some .dir := by
      rcases hchange (way ++ [x]) with hsame | ⟨-, -, hp⟩
      · rw [hsame]
        exact hway _ (List.prefix_refl _)
      · exact absurd hp hlonger
    obtain ⟨hone, hlast, hchange'⟩ := mkdir_names hok (by simp)
      (fun p hp hne => hdirs p ((List.prefix_concat_iff.1 hp).resolve_left hne)) hfree
    have hrun : mkdirAll io s₁ [(way ++ [x]).map PathStep.name] =
        (true, (mkdir io s₁ ((way ++ [x]).map .name)).2) := by
      unfold mkdirAll
      split
      · next h => rw [h] at hone; cases hone
      · next h => rw [h]; rfl
    rw [hrun]
    refine ⟨rfl, fun p hp => ?_, fun p => ?_⟩
    · rcases List.prefix_concat_iff.1 hp with rfl | hp
      · exact hlast
      · exact hchange'.madeDirs.some (hdirs p hp)
    · rcases hchange' p with hsame | ⟨hnone, hdir, hp⟩
      · rw [hsame]
        exact (hchange p).imp_right fun ⟨hnone, hdir, hp⟩ =>
          ⟨hnone, hdir, hp.trans (List.prefix_append _ _)⟩
      · rcases hchange p with hsame | ⟨-, hdir', -⟩
        · exact .inr ⟨hsame ▸ hnone, hdir, hp⟩
        · rw [hnone] at hdir'
          cases hdir'

/-- The directories above a canonical path. -/
theorem Canonical.mkdirP (h : Canonical path) (hok : ∀ l, io.mkdirOk l = true)
    (hway : ∀ p, p <+: pathComponents path → p ≠ pathComponents path →
      s.tree.lookup p = none ∨ s.tree.lookup p = some .dir) :
    (∀ p, p <+: pathComponents path → p ≠ pathComponents path →
      (mkdirP io s (Fs.parentPath path)).2.tree.lookup p = some .dir) ∧
    MadeWay (pathComponents (Fs.parentPath path)) s.tree (mkdirP io s (Fs.parentPath path)).2.tree := by
  have hsteps : pathSteps (Fs.parentPath path) = (pathComponents (Fs.parentPath path)).map .name := h.wayTo_eq
  have hfits : (Fs.parentPath path).length < pathMax := (parentPath_isPrefix path).length_le.trans_lt h.fits
  unfold Linked.mkdirP
  rw [snprintf_of_lt hfits, hsteps]
  obtain ⟨-, hdirs, hmade⟩ := mkdirAll_names hok s (pathComponents (Fs.parentPath path)) fun p hp =>
    hway p (h.above_iff.2 hp).1 (h.above_iff.2 hp).2
  exact ⟨fun p hp hne => hdirs p (h.above_iff.1 ⟨hp, hne⟩), hmade⟩

/-! ## Moving, copying and removing -/

/-- A rename to a free place. -/
theorem Canonical.rename (hold : Canonical old) (hnew : Canonical new) (hok : ∀ src dst, io.renameOk src dst = true)
    (hn : s.tree.lookup (pathComponents old) = some n)
    (hdirs : ∀ p, p <+: pathComponents old → p ≠ pathComponents old → s.tree.lookup p = some .dir)
    (hdirs' : ∀ p, p <+: pathComponents new → p ≠ pathComponents new → s.tree.lookup p = some .dir)
    (hfree : s.tree.lookup (pathComponents new) = none)
    (hapart : Apart (pathComponents old) (pathComponents new)) :
    rename io s old new = (true, s.change [pathComponents old, pathComponents new]
      (moveTree s.tree (pathComponents old) (pathComponents new))) := by
  have hne : pathComponents old ≠ pathComponents new := fun h => hapart.1 (h ▸ List.prefix_refl _)
  unfold Linked.rename
  rw [hold.entry hdirs]
  dsimp only
  rw [hn]
  dsimp only
  rw [hold.endsInDots, hnew.endsInDots, if_neg (by simp [hold.last]), hnew.entry hdirs', hnew.find hdirs', ite_self]
  dsimp only
  rw [if_neg hne, if_neg (by simp [hapart.1, hapart.2, hok]), hfree]
  cases n <;> rfl

/-- A copy over a file or to a free place. -/
theorem Canonical.copyFile (hold : Canonical old) (hnew : Canonical new) (hcreate : ∀ l, io.createOk l = true)
    (hcopy : io.copyOk = true) (hsource : s.tree.lookup (pathComponents old) = some (.file content))
    (hdirs : ∀ p, p <+: pathComponents old → p ≠ pathComponents old → s.tree.lookup p = some .dir)
    (hdirs' : ∀ p, p <+: pathComponents new → p ≠ pathComponents new → s.tree.lookup p = some .dir)
    (hkind : s.tree.lookup (pathComponents new) = none ∨ ∃ c, s.tree.lookup (pathComponents new) = some (.file c))
    (hne : pathComponents old ≠ pathComponents new) :
    ∃ s', copyFile io old new s = (true, s') ∧ s'.tree = put s.tree (pathComponents new) (.file content) := by
  have hread : lstat io s.tree old = some (.file content) := by
    rw [lstat, hold.find hdirs, Option.bind_some, hsource]
  have hagain : lstat io (put s.tree (pathComponents new) (.file [])) old = some (.file content) := by
    rw [lstat, Linked.find, follow_extends (extends_put hkind []) (hold.find hdirs), Option.bind_some,
      lookup_put_of_ne hne, hsource]
  unfold Linked.copyFile
  rw [hread]
  dsimp only
  rw [hnew.endsInDots, if_neg Bool.false_ne_true, hnew.find hdirs']
  dsimp only
  rcases hkind with hnone | ⟨c, hfile⟩
  · rw [hnone]
    simp only [hcreate, Bool.not_true, Bool.and_false, Bool.false_eq_true, if_false, Traced.change, hagain, hcopy,
      if_true]
    exact ⟨_, rfl, put_put ..⟩
  · rw [hfile]
    simp only [reduceCtorEq, decide_false, Bool.false_and, Bool.false_eq_true, if_false, Traced.change, hagain, hcopy,
      if_true]
    exact ⟨_, rfl, put_put ..⟩

theorem Canonical.unlink (h : Canonical path) (hok : ∀ l, io.unlinkOk l = true)
    (hn : s.tree.lookup (pathComponents path) = some n) (hdir : n ≠ .dir)
    (hdirs : ∀ p, p <+: pathComponents path → p ≠ pathComponents path → s.tree.lookup p = some .dir) :
    unlink io s path = (true, s.change [pathComponents path] (remove s.tree (pathComponents path))) := by
  unfold Linked.unlink
  rw [h.entry hdirs]
  dsimp only
  rw [hn]
  have hlast : (decide (path.getLast? ≠ some slash) && io.unlinkOk (pathComponents path)) = true := by
    simp [h.last, hok]
  rw [hlast]
  cases n with
  | dir => exact absurd rfl hdir
  | file c => rfl
  | link absolute target => rfl
  | other => rfl

end

end Linked

end GfrGuard
