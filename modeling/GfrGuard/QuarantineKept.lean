import GfrGuard.Confined
import GfrGuard.Lib.Runs

/-!
# What the quarantine keeps

`quarantine_unique` tries the plain name of a slot and the numbers 1 to 99. While one of them fits
and is free, a move to the quarantine replaces nothing there, and a run of `restore_one` and
`delete_created_one` keeps every file of the quarantine, as long as no path or preimage leads to one
of them (`quarantine_kept`). The hundredth copy of a path replaces the one before it
(`quarantine_not_kept`).
-/

namespace GfrGuard

namespace Linked

open LinkTree

/-- A file, a link or a device stands in the quarantine. -/
structure InQuarantine (t : Links) (q : Loc) (n : LinkNode CStr Content) : Prop where
  leaf : Leaf t q n
  below : quarantineDir <+: q

/-- Nothing of the quarantine is overwritten or removed. -/
def KeepsQuarantine (t t' : Links) : Prop := ∀ q n, InQuarantine t q n → InQuarantine t' q n

/-! ## When a call takes nothing away -/

section
variable (io : LinkedIo)

/-- One of the names that `quarantine_unique` tries fits and is free. -/
def FreeSlot (t : Links) (slot : CStr) : Prop :=
  lstat io t slot = none ∨ ∃ i, 1 ≤ i ∧ i < 100 ∧ (slot ++ dot :: dec i).length < pathMax ∧
    lstat io t (slot ++ dot :: dec i) = none

/-- What the path names holds nothing of the quarantine, or is a directory that has the slot below it
and so cannot be moved there. -/
def SourceSpares (t : Links) (path slot : CStr) : Prop :=
  ∀ src, entry io t path = some src →
    (∀ q n, InQuarantine t q n → ¬ src <+: q) ∨
      t.lookup src = some .dir ∧ ∀ new, Numbered slot new → ∀ dst, entry io t new = some dst → src <+: dst

/-- A move to the quarantine takes nothing away there, seen when the directory of the slot was made.
A directory that is moved takes the place of an empty directory at most. -/
structure MoveSpares (s : Traced) (path slot : CStr) (isRegular : Bool) : Prop where
  source : SourceSpares io (mkdirP io s (Fs.parentPath slot)).2.tree path slot
  slot : FreeSlot io (mkdirP io s (Fs.parentPath slot)).2.tree slot ∨
    isRegular = false ∧ ∃ src, entry io (mkdirP io s (Fs.parentPath slot)).2.tree path = some src ∧
      (mkdirP io s (Fs.parentPath slot)).2.tree.lookup src = some .dir

/-- What stood at a path went to the quarantine, and the directory of the path was made. -/
def cleared (eventId path : CStr) (s : Traced) : Traced :=
  (mkdirP io (quarantineCurrent io eventId path s) (Fs.parentPath (snprintf pathMax path))).2

/-- A row that is restored takes nothing from the quarantine: the file it moves there finds a free
slot, and neither the path that is overwritten nor the preimage that is removed leads to a file of
the quarantine. -/
structure RestoreSpares (s : Traced) (pf : ProtectedFile) : Prop where
  move : ∀ cur, lstat io s.tree pf.originalPath = some cur →
    (quarantineFor pf.eventId pf.originalPath).length < pathMax →
      MoveSpares io s pf.originalPath (quarantineFor pf.eventId pf.originalPath) (isRegular cur)
  path : ∀ q n, InQuarantine (cleared io pf.eventId pf.originalPath s).tree q n →
    find io (cleared io pf.eventId pf.originalPath s).tree pf.originalPath false ≠ some q
  backup : ∀ q n, InQuarantine (cleared io pf.eventId pf.originalPath s).tree q n →
    entry io (cleared io pf.eventId pf.originalPath s).tree pf.backupPath ≠ some q

/-- A created file that is deleted takes nothing from the quarantine. -/
structure DeleteSpares (s : Traced) (eventId path : CStr) : Prop where
  move : ∀ content, lstat io s.tree path = some (.file content) →
    MoveSpares io s path (slotBase eventId path) true
  link : ∀ absolute target, lstat io s.tree path = some (.link absolute target) →
    ∀ q n, InQuarantine s.tree q n → entry io s.tree path ≠ some q

end

/-! ## Runs -/

/-- A call of `restore_one` or `delete_created_one`, with the outcomes of its system calls. -/
inductive RecoverCall where
  | restore (io : LinkedIo) (pf : ProtectedFile)
  | delete (io : LinkedIo) (eventId : CStr) (cf : CreatedFile)

/-- One call. -/
def recoverStep (s : LinkedState) : RecoverCall → LinkedState
  | .restore io pf => restoreOne io s pf
  | .delete io eventId cf => deleteCreatedOne io eventId s cf

/-- The call takes nothing from the quarantine. -/
def SparesQuarantine (s : LinkedState) : RecoverCall → Prop
  | .restore io pf =>
    pf.restoreStatus = lit "pending" → validRestorePath pf.originalPath = true →
      (stat io s.fs.tree pf.backupPath).isSome → RestoreSpares io s.fs pf
  | .delete io eventId cf => validRestorePath cf.filePath = true → DeleteSpares io s.fs eventId cf.filePath

section
variable {io : LinkedIo} {t t' t'' : Links} {s : Traced} {path slot new target source : CStr}
  {src dst loc q : Loc} {n node : LinkNode CStr Content}

/-! ## Files of the quarantine -/

theorem KeepsQuarantine.refl (t : Links) : KeepsQuarantine t t := fun _ _ => id

theorem KeepsQuarantine.trans (h : KeepsQuarantine t t') (h' : KeepsQuarantine t' t'') :
    KeepsQuarantine t t'' := fun q n hq => h' q n (h q n hq)

/-- Changing a place that is not on the way to a file of the quarantine. -/
theorem InQuarantine.update (h : InQuarantine t q n) (hloc : ¬ loc <+: q)
    (v : Option (LinkNode CStr Content)) : InQuarantine ⟨Function.update t.node loc v⟩ q n :=
  ⟨h.leaf.update hloc v, h.below⟩

/-! ## What stands where -/

theorem ne_nil_of_file {c : Content} (h : t.lookup loc = some (.file c)) : loc ≠ [] := by
  rintro rfl
  cases h

theorem lookup_put_self (h : loc ≠ []) (n : LinkNode CStr Content) : (put t loc n).lookup loc = some n := by
  rw [LinkTree.lookup, if_neg h]
  exact Function.update_self ..

theorem lookup_put_of_ne {p : Loc} (h : p ≠ loc) (n : LinkNode CStr Content) :
    (put t loc n).lookup p = t.lookup p := by
  unfold LinkTree.lookup put
  dsimp only
  rw [Function.update_of_ne h]

theorem lookup_remove_of_ne {p : Loc} (h : p ≠ loc) : (remove t loc).lookup p = t.lookup p := by
  unfold LinkTree.lookup remove
  dsimp only
  rw [Function.update_of_ne h]

theorem lookup_remove_self (h : loc ≠ []) : (remove t loc).lookup loc = none := by
  rw [LinkTree.lookup, if_neg h]
  exact Function.update_self ..

theorem lookup_moveTree_below (hdst : dst ≠ []) (rest : Loc) :
    (moveTree t src dst).lookup (dst ++ rest) = t.node (src ++ rest) := by
  rw [LinkTree.lookup, if_neg fun h => hdst (List.append_eq_nil_iff.1 h).1]
  unfold moveTree
  dsimp only
  rw [if_pos (List.prefix_append dst rest), List.drop_left]

theorem lookup_moveTree_source {p : Loc} (hsrc : src <+: p) (hdst : ¬ dst <+: p) (hp : p ≠ []) :
    (moveTree t src dst).lookup p = none := by
  rw [LinkTree.lookup, if_neg hp]
  unfold moveTree
  dsimp only
  rw [if_neg hdst, if_pos hsrc]

theorem lookup_moveTree_of_not_isPrefix {p : Loc} (hsrc : ¬ src <+: p) (hdst : ¬ dst <+: p) :
    (moveTree t src dst).lookup p = t.lookup p := by
  unfold LinkTree.lookup moveTree
  dsimp only
  rw [if_neg hdst, if_neg hsrc]

/-- Moving what stands elsewhere to a place that is not on the way. -/
theorem leaf_moveTree (h : Leaf t q n) (hsrc : ¬ src <+: q) (hdst : ¬ dst <+: q) :
    Leaf (moveTree t src dst) q n :=
  h.congr fun _ hp =>
    lookup_moveTree_of_not_isPrefix (fun hs => hsrc (hs.trans hp)) fun hd => hdst (hd.trans hp)

/-- What is no directory, link or device is a file, or nothing. -/
theorem none_or_file (hdir : t.lookup loc = some .dir → False) (hother : t.lookup loc = some .other → False)
    (hlink : ∀ absolute target, t.lookup loc = some (.link absolute target) → False) :
    t.lookup loc = none ∨ ∃ c, t.lookup loc = some (.file c) := by
  cases hloc : t.lookup loc with
  | none => exact .inl rfl
  | some node =>
    cases node with
    | file c => exact .inr ⟨c, rfl⟩
    | dir => exact absurd hloc hdir
    | link absolute target => exact absurd hloc (hlink absolute target)
    | other => exact absurd hloc hother

/-! ## Directories that are made -/

/-- Directories came to stand where nothing stood. -/
def MadeDirs (t t' : Links) : Prop :=
  ∀ p, t'.lookup p = t.lookup p ∨ t.lookup p = none ∧ t'.lookup p = some .dir

theorem MadeDirs.refl (t : Links) : MadeDirs t t := fun _ => .inl rfl

theorem MadeDirs.trans (h : MadeDirs t t') (h' : MadeDirs t' t'') : MadeDirs t t'' := by
  intro p
  rcases h p with hsame | ⟨hnone, hdir⟩
  · rw [← hsame]
    exact h' p
  · rcases h' p with hsame' | ⟨hnone', -⟩
    · exact .inr ⟨hnone, hsame'.trans hdir⟩
    · rw [hdir] at hnone'
      cases hnone'

/-- What stands stays. -/
theorem MadeDirs.some (h : MadeDirs t t') (hn : t.lookup loc = some n) : t'.lookup loc = some n := by
  rcases h loc with hsame | ⟨hnone, -⟩
  · exact hsame.trans hn
  · rw [hn] at hnone
    cases hnone

theorem MadeDirs.leaf (h : MadeDirs t t') (hq : Leaf t q n) : Leaf t' q n :=
  ⟨h.some hq.node, hq.not_dir, fun p hp hne => h.some (hq.way p hp hne)⟩

theorem MadeDirs.noLinks {way : List (PathStep CStr)} (h : MadeDirs t t') (hway : NoLinks t way) :
    NoLinks t' way := by
  intro pre hpre absolute target
  rcases h (spelled pre) with hsame | ⟨-, hdir⟩
  · rw [hsame]
    exact hway pre hpre absolute target
  · rw [hdir]
    exact nofun

theorem mkdir_madeDirs (steps : List (PathStep CStr)) : MadeDirs s.tree (mkdir io s steps).2.tree := by
  unfold mkdir
  split
  · exact .refl _
  · next loc _ =>
    split
    · exact .refl _
    · next hfree =>
      split
      · intro p
        by_cases hp : p = loc
        · subst hp
          have hnone : s.tree.lookup p = none := by simpa using hfree
          have hne : p ≠ [] := by
            rintro rfl
            cases hnone
          exact .inr ⟨hnone, lookup_put_self hne _⟩
        · exact .inl (lookup_put_of_ne hp _)
      · exact .refl _

theorem mkdirAll_madeDirs (prefixes : List (List (PathStep CStr))) :
    MadeDirs s.tree (mkdirAll io s prefixes).2.tree := by
  induction prefixes generalizing s with
  | nil => exact .refl _
  | cons steps rest ih =>
    have hfirst : MadeDirs s.tree (mkdir io s steps).2.tree := mkdir_madeDirs steps
    unfold mkdirAll
    split
    · next s' hmk =>
      rw [hmk] at hfirst
      exact hfirst
    · next s' hmk =>
      rw [hmk] at hfirst
      exact hfirst.trans ih

theorem mkdirP_madeDirs (path : CStr) : MadeDirs s.tree (mkdirP io s path).2.tree := mkdirAll_madeDirs _

/-! ## System calls -/

theorem mkdirP_keeps (path : CStr) : KeepsQuarantine s.tree (mkdirP io s path).2.tree :=
  fun _ _ hq => ⟨(mkdirP_madeDirs path).leaf hq.leaf, hq.below⟩

/-- A rename to a free name takes nothing from the quarantine. -/
theorem rename_keeps (hsource : SourceSpares io s.tree path slot) (hnew : Numbered slot new)
    (hslot : lstat io s.tree new = none ∨
      ∃ src, entry io s.tree path = some src ∧ s.tree.lookup src = some .dir) :
    KeepsQuarantine s.tree (rename io s path new).2.tree := by
  intro q n hq
  rcases rename_cases s path new with hsame | ⟨src, dst, node, hmoves, hroom, hmoved⟩
  · rw [hsame]
    exact hq
  · obtain ⟨hsrc, hnode, -, htarget, houtside, -⟩ := hmoves
    have hspared : ¬ src <+: q := by
      rcases hsource src hsrc with hfree | ⟨hdir, hbelow⟩
      · exact hfree q n hq
      · rcases htarget with ⟨-, hdst⟩ | ⟨hnot, -⟩
        · exact absurd (hbelow new hnew dst hdst) houtside
        · exact absurd (Option.some.inj (hnode.symm.trans hdir)) hnot
    have hclear : ¬ dst <+: q := by
      rcases htarget with ⟨hdir, -⟩ | ⟨hnot, hdst, -⟩
      · rcases hroom hdir with hfree | ⟨hempty, hnone⟩
        · exact hq.leaf.not_isPrefix_of_free hfree
        · exact hq.leaf.not_isPrefix_of_empty hempty hnone
      · rcases hslot with hfree | ⟨src', hsrc', hdir⟩
        · rw [lstat, hdst, Option.bind_some] at hfree
          exact hq.leaf.not_isPrefix_of_free hfree
        · obtain rfl := Option.some.inj (hsrc.symm.trans hsrc')
          exact absurd (Option.some.inj (hnode.symm.trans hdir)) hnot
    rw [hmoved]
    exact ⟨leaf_moveTree hq.leaf hspared hclear, hq.below⟩

/-- A rename that fails changes nothing. -/
theorem rename_failed {s' : Traced} (h : rename io s path new = (false, s')) : s' = s := by
  rcases rename_cases s path new with hsame | ⟨src, dst, n, -, -, hmoved⟩
  · rw [h] at hsame
    exact hsame
  · rw [h] at hmoved
    cases hmoved

theorem put_put (t : Links) (loc : Loc) (n n' : LinkNode CStr Content) : put (put t loc n) loc n' = put t loc n' := by
  unfold put
  dsimp only
  rw [Function.update_idem]

/-- A copy changes nothing or the content of its target. -/
theorem copyFile_cases (io : LinkedIo) (source target : CStr) (s : Traced) :
    copyFile io source target s = (false, s) ∨ ∃ loc content,
      find io s.tree target false = some loc ∧
        (s.tree.lookup loc = none ∨ ∃ c, s.tree.lookup loc = some (.file c)) ∧
        (copyFile io source target s).2.tree = put s.tree loc (.file content) ∧
        (lstat io s.tree source).isSome := by
  unfold copyFile
  split
  · exact .inl rfl
  · exact .inl rfl
  · exact .inl rfl
  · next hsource =>
    split
    · exact .inl rfl
    · split
      · exact .inl rfl
      · next loc hloc =>
        split
        · exact .inl rfl
        · exact .inl rfl
        · exact .inl rfl
        · next hdir hother hlink =>
          dsimp only
          split
          · exact .inl rfl
          · have hkind := none_or_file hdir hother hlink
            have hsome : (lstat io s.tree source).isSome := by rw [hsource]; rfl
            refine .inr ⟨loc, ?_⟩
            split
            · split
              · exact ⟨_, hloc, hkind, put_put .., hsome⟩
              · exact ⟨_, hloc, hkind, put_put .., hsome⟩
            · exact ⟨_, hloc, hkind, rfl, hsome⟩

theorem copyFile_keeps
    (htarget : ∀ q n, InQuarantine s.tree q n → find io s.tree target false ≠ some q) :
    KeepsQuarantine s.tree (copyFile io source target s).2.tree := by
  intro q n hq
  rcases copyFile_cases io source target s with hsame | ⟨loc, content, hloc, hkind, htree, -⟩
  · rw [hsame]
    exact hq
  · rw [htree]
    refine hq.update (hq.leaf.not_isPrefix ?_ ?_) _
    · rcases hkind with hnone | ⟨c, hfile⟩
      · rw [hnone]; exact nofun
      · rw [hfile]; exact nofun
    · rintro rfl
      exact htarget _ _ hq hloc

theorem extends_put (hkind : t.lookup loc = none ∨ ∃ c, t.lookup loc = some (.file c)) (content : Content) :
    Extends t (put t loc (.file content)) := by
  intro p n hp
  by_cases hne : p = loc
  · subst hne
    rcases hkind with hnone | ⟨c, hfile⟩
    · rw [hnone] at hp
      cases hp
    · rw [hfile] at hp
      exact .inr ⟨c, content, (Option.some.inj hp).symm, lookup_put_self (ne_nil_of_file hfile) _⟩
  · exact .inl ((lookup_put_of_ne hne _).trans hp)

theorem copyFile_extends (io : LinkedIo) (source target : CStr) (s : Traced) :
    Extends s.tree (copyFile io source target s).2.tree := by
  rcases copyFile_cases io source target s with hsame | ⟨loc, content, -, hkind, htree, -⟩
  · rw [hsame]
    exact .refl _
  · rw [htree]
    exact extends_put hkind content

/-- A path leads to the same place in a tree that grew. -/
theorem follow_extends {steps : List (PathStep CStr)} (h : Extends t t')
    (hfollow : follow io t path false steps = some loc) : follow io t' path false steps = some loc := by
  unfold follow at hfollow ⊢
  obtain ⟨hpath, hwalk⟩ := Option.ite_none_left_eq_some.1 hfollow
  rw [if_neg hpath]
  exact walk_extends h hwalk

/-- Without a slash at its end a path leads to its entry. -/
theorem find_eq_entry (hlast : path.getLast? ≠ some slash) : find io t path false = entry io t path := by
  rw [find, entry, walkSteps, if_neg hlast, List.append_nil]

/-- A path that can be unlinked has an entry that is looked up. -/
theorem entry_of_lstat (hlast : path.getLast? ≠ some slash) (h : (lstat io t path).isSome) :
    ∃ loc, entry io t path = some loc := by
  rw [lstat, find_eq_entry hlast] at h
  obtain ⟨n, hn⟩ := Option.isSome_iff_exists.1 h
  obtain ⟨loc, hloc, -⟩ := Option.bind_eq_some_iff.1 hn
  exact ⟨loc, hloc⟩

/-- What is unlinked is no directory, and its path has no slash at its end. -/
theorem unlink_cases (s : Traced) (path : CStr) : (unlink io s path).2 = s ∨
    ∃ loc, path.getLast? ≠ some slash ∧ entry io s.tree path = some loc ∧ s.tree.lookup loc ≠ some .dir ∧
      (unlink io s path).2.tree = remove s.tree loc := by
  rcases unlink_outcome io s path with hnone | ⟨loc, hlast, hloc, hdir, hgone⟩
  · rw [hnone]
    exact .inl rfl
  · rw [hgone]
    exact .inr ⟨loc, hlast, hloc, hdir, rfl⟩

theorem InQuarantine.unlink (h : InQuarantine s.tree q n)
    (hpath : path.getLast? ≠ some slash → ∀ loc, entry io s.tree path = some loc → loc ≠ q) :
    InQuarantine (unlink io s path).2.tree q n := by
  rcases unlink_cases s path with hsame | ⟨loc, hlast, hloc, hdir, htree⟩
  · rw [hsame]
    exact h
  · rw [htree]
    exact h.update (h.leaf.not_isPrefix hdir (hpath hlast loc hloc)) _

theorem rmdir_keeps (path : CStr) : KeepsQuarantine s.tree (rmdir io s path).2.tree := by
  intro q n hq
  rcases rmdir_outcome io s path with hnone | ⟨loc, -, hdir, hempty, hgone⟩
  · rw [hnone]
    exact hq
  · rw [hgone]
    exact hq.update (hq.leaf.not_isPrefix_of_empty hdir hempty) _

/-! ## Slots -/

/-- The numbers before one that fits fit too. -/
theorem length_slot_le {i j : Nat} (h : j ≤ i) :
    (slot ++ dot :: dec j).length ≤ (slot ++ dot :: dec i).length := by
  have hpos : 0 < (dec i).length := List.length_pos_of_ne_nil (dec_ne_nil i)
  have hi : i < 10 ^ (dec i).length := (length_dec_le hpos).1 (Nat.le_refl _)
  have hj : (dec j).length ≤ (dec i).length := (length_dec_le hpos).2 (by omega)
  simp only [List.length_append, List.length_cons]
  omega

/-- The loop stops at a free name when it comes to one that fits. -/
theorem uniqueSlot_free {path : CStr} {a k i : Nat} (ha : a ≤ i) (hi : i < a + k)
    (hfits : (slot ++ dot :: dec i).length < pathMax) (hfree : lstat io t (slot ++ dot :: dec i) = none) :
    lstat io t (uniqueSlot io t slot path (List.range' a k)) = none := by
  induction k generalizing a path with
  | zero => omega
  | succ k ih =>
    rw [List.range'_succ]
    unfold uniqueSlot
    dsimp only
    rw [if_neg (Nat.not_le.2 ((length_slot_le ha).trans_lt hfits))]
    split
    · next hnone => exact hnone
    · next htaken =>
      have hne : a ≠ i := by
        rintro rfl
        exact htaken hfree
      exact ih (by omega) (by omega)

theorem quarantineUnique_free (h : FreeSlot io t slot) : lstat io t (quarantineUnique io t slot) = none := by
  unfold quarantineUnique
  split
  · next hfree => exact hfree
  · next htaken =>
    obtain ⟨i, hpos, hi, hfits, hfree⟩ := h.resolve_left htaken
    exact uniqueSlot_free hpos (by omega) hfits hfree

/-! ## The rows -/

theorem moveToQuarantine_keeps {isRegular : Bool} (hlen : slot.length < pathMax)
    (h : MoveSpares io s path slot isRegular) :
    KeepsQuarantine s.tree (moveToQuarantine io path slot isRegular s).2.tree := by
  obtain ⟨hsource, hslot⟩ := h
  have hmade : KeepsQuarantine s.tree (mkdirP io s (Fs.parentPath slot)).2.tree := mkdirP_keeps _
  refine hmade.trans ?_
  unfold moveToQuarantine
  dsimp only
  generalize (mkdirP io s (Fs.parentPath slot)).2 = s₁ at hsource hslot ⊢
  have hnew : Numbered slot (quarantineUnique io s₁.tree slot) := quarantineUnique_eq io s₁.tree hlen
  have hfree := hslot.imp_left quarantineUnique_free
  generalize quarantineUnique io s₁.tree slot = new at hnew hfree ⊢
  have hrename : KeepsQuarantine s₁.tree (rename io s₁ path new).2.tree :=
    rename_keeps hsource hnew (hfree.imp_right And.right)
  split
  · next s₂ hmoved =>
    rw [hmoved] at hrename
    exact hrename
  · next s₂ hfailed =>
    obtain rfl := rename_failed hfailed
    split
    · next hregular =>
      have hnone := hfree.resolve_right fun h => by
        rw [hregular] at h
        exact absurd h.1 (by decide)
      have hcopy : KeepsQuarantine s₂.tree (copyFile io path new s₂).2.tree :=
        copyFile_keeps fun q n hq hfind => by
          rw [lstat, hfind, Option.bind_some, hq.leaf.node] at hnone
          cases hnone
      have hgrows := copyFile_extends io path new s₂
      have hread := copyFile_cases io path new s₂
      split
      · next s₃ hcopied =>
        rw [hcopied] at hcopy
        exact hcopy
      · next s₃ hcopied =>
        rw [hcopied] at hcopy hgrows hread
        intro q n hq
        refine (hcopy q n hq).unlink fun hlast loc hloc => ?_
        -- the path was read, so it still names what it named before the copy
        obtain ⟨-, -, -, -, -, hsome⟩ := hread.resolve_left nofun
        obtain ⟨src, hsrc⟩ := entry_of_lstat hlast hsome
        obtain rfl := Option.some.inj (hloc.symm.trans (follow_extends hgrows hsrc))
        rcases hsource loc hsrc with hspared | ⟨hdir, -⟩
        · rintro rfl
          exact hspared loc n hq (List.prefix_refl loc)
        · rintro rfl
          rw [hq.leaf.node] at hdir
          exact hq.leaf.not_dir (Option.some.inj hdir)
    · exact .refl _

theorem quarantineCurrent_keeps {eventId : CStr}
    (h : ∀ cur, lstat io s.tree path = some cur → (quarantineFor eventId path).length < pathMax →
      MoveSpares io s path (quarantineFor eventId path) (isRegular cur)) :
    KeepsQuarantine s.tree (quarantineCurrent io eventId path s).tree := by
  unfold quarantineCurrent
  split
  · exact .refl _
  · next cur hcur =>
    split
    · exact .refl _
    · next hfits => exact moveToQuarantine_keeps (Nat.not_le.1 hfits) (h cur hcur (Nat.not_le.1 hfits))

theorem cleared_keeps {pf : ProtectedFile} (h : RestoreSpares io s pf) :
    KeepsQuarantine s.tree (cleared io pf.eventId pf.originalPath s).tree :=
  (quarantineCurrent_keeps h.move).trans (mkdirP_keeps _)

theorem restoreOne_keeps {st : LinkedState} {pf : ProtectedFile}
    (h : SparesQuarantine st (.restore io pf)) :
    KeepsQuarantine st.fs.tree (restoreOne io st pf).fs.tree := by
  unfold restoreOne
  dsimp only
  split
  · exact .refl _
  · next hpending =>
    split
    · exact .refl _
    · next hgood =>
      simp only [Bool.or_eq_true, Bool.not_eq_true', Option.isNone_iff_eq_none, not_or,
        Bool.not_eq_false] at hgood
      have hspares : RestoreSpares io st.fs pf :=
        h (not_not.1 hpending) hgood.1 (Option.isSome_iff_ne_none.2 hgood.2)
      have hcleared := cleared_keeps hspares
      obtain ⟨-, hpath, hbackup⟩ := hspares
      unfold cleared at hcleared hpath hbackup
      generalize (mkdirP io (quarantineCurrent io pf.eventId pf.originalPath st.fs)
        (Fs.parentPath (snprintf pathMax pf.originalPath))).2 = s₁ at hcleared hpath hbackup ⊢
      have hcopy : KeepsQuarantine s₁.tree (copyFile io pf.backupPath pf.originalPath s₁).2.tree :=
        copyFile_keeps hpath
      have hgrows := copyFile_extends io pf.backupPath pf.originalPath s₁
      have hread := copyFile_cases io pf.backupPath pf.originalPath s₁
      split
      · next s₂ hcopied =>
        rw [hcopied] at hcopy
        exact hcleared.trans hcopy
      · next s₂ hcopied =>
        rw [hcopied] at hcopy hgrows hread
        refine hcleared.trans fun q n hq => (hcopy q n hq).unlink fun hlast loc hloc => ?_
        obtain ⟨-, -, -, -, -, hsome⟩ := hread.resolve_left nofun
        obtain ⟨src, hsrc⟩ := entry_of_lstat hlast hsome
        obtain rfl := Option.some.inj (hloc.symm.trans (follow_extends hgrows hsrc))
        rintro rfl
        exact hbackup loc n hq hsrc

theorem deleteCreatedOne_keeps {st : LinkedState} {eventId : CStr} {cf : CreatedFile}
    (h : SparesQuarantine st (.delete io eventId cf)) :
    KeepsQuarantine st.fs.tree (deleteCreatedOne io eventId st cf).fs.tree := by
  unfold deleteCreatedOne
  dsimp only
  split
  · exact .refl _
  · next hvalid =>
    have hspares : DeleteSpares io st.fs eventId cf.filePath := h (by simpa using hvalid)
    have hdone (r : Bool × Traced) (hr : KeepsQuarantine st.fs.tree r.2.tree) :
        KeepsQuarantine st.fs.tree (if r.1 then { st with fs := r.2, deleted := st.deleted + 1 }
          else { st with fs := r.2, deleteFailed := st.deleteFailed + 1 } : LinkedState).fs.tree := by
      split <;> exact hr
    split
    · exact .refl _
    · next content hfile =>
      exact hdone _ (moveToQuarantine_keeps (length_snprintf_lt (by decide) _) (hspares.move content hfile))
    · next absolute target hlink =>
      refine hdone _ fun q n hq => hq.unlink fun _ loc hloc => ?_
      rintro rfl
      exact hspares.link absolute target hlink loc n hq hloc
    · exact hdone _ (rmdir_keeps _)
    · exact .refl _

/-- Restoring and deleting keep every file of the quarantine, in every run whose calls find a free slot
for what they move there and are led to no file of the quarantine. -/
theorem quarantine_kept (st : LinkedState) (calls : List RecoverCall)
    (h : Runs.AllSteps recoverStep SparesQuarantine st calls) (pre mid : List RecoverCall)
    (hpre : pre ++ mid <+: calls) :
    KeepsQuarantine (Runs.run recoverStep st pre).fs.tree (Runs.run recoverStep st (pre ++ mid)).fs.tree := by
  have hsteps : Runs.AllSteps recoverStep
      (fun st call => KeepsQuarantine st.fs.tree (recoverStep st call).fs.tree) st calls := by
    refine Runs.allSteps_imp (fun _ => True) (fun st call _ hcall => ?_) (fun _ _ _ _ => trivial) trivial h
    cases call with
    | restore io pf => exact restoreOne_keeps hcall
    | delete io eventId cf => exact deleteCreatedOne_keeps hcall
  exact (Runs.allSteps_iff_between (fun st st' : LinkedState => KeepsQuarantine st.fs.tree st'.fs.tree)
    (fun st => .refl _) (fun _ _ _ => KeepsQuarantine.trans) (fun _ _ => Iff.rfl)).1 hsteps pre mid hpre

/-- A path that leads apart from the quarantine takes nothing away there. -/
theorem SourceSpares.of_apart
    (h : ∀ src, entry io t path = some src → ¬ src <+: quarantineDir ∧ ¬ quarantineDir <+: src) :
    SourceSpares io t path slot := by
  intro src hsrc
  refine .inl fun q n hq hp => ?_
  rcases List.prefix_or_prefix_of_prefix hp hq.below with hle | hle
  · exact (h src hsrc).1 hle
  · exact (h src hsrc).2 hle

end

/-! ## A slot for every number -/

/-- The directory of the slots for `/a/f`. -/
def slotDir : Loc := quarantineDir ++ [lit "e", lit "a"]

example : pathComponents (Fs.parentPath (quarantineFor (lit "e") (lit "/a/f"))) = slotDir := by decide

/-- A tree with the file `/a/f`, its preimage, and earlier copies under some names. -/
def takenLinks (taken : CStr → Bool) : Links where
  node loc :=
    if loc = [lit "a", lit "f"] then some (.file (lit "new"))
    else if loc = [lit "bk", lit "f"] then some (.file (lit "good"))
    else if loc ∈ slotDir.inits ++ [[lit "a"], [lit "bk"]] then some .dir
    else if loc.dropLast = slotDir ∧ loc.getLast?.any taken then some (.file (lit "old"))
    else none

/-- The state before the recovery. -/
def takenState (taken : CStr → Bool) : LinkedState :=
  ⟨⟨takenLinks taken, []⟩, ⟨[], [], [], 0, 0, 0⟩, 0, 0, 0, 0, 0⟩

theorem takenLinks_way {taken : CStr → Bool} {p : Loc} (h : p <+: slotDir) :
    (takenLinks taken).lookup p = some .dir := by
  have hmem : p ∈ slotDir.inits := (List.mem_inits _ _).2 h
  have hfiles : ∀ p ∈ slotDir.inits, p ≠ [lit "a", lit "f"] ∧ p ≠ [lit "bk", lit "f"] := by decide
  unfold LinkTree.lookup takenLinks
  dsimp only
  rw [if_neg (hfiles p hmem).1, if_neg (hfiles p hmem).2, if_pos (List.mem_append_left _ hmem), ite_self]

/-- An earlier copy is in the quarantine. -/
theorem takenLinks_inQuarantine {taken : CStr → Bool} {name : CStr}
    (h : (takenLinks taken).lookup (slotDir ++ [name]) = some (.file (lit "old"))) :
    InQuarantine (takenLinks taken) (slotDir ++ [name]) (.file (lit "old")) where
  below := (List.prefix_append _ _).trans (List.prefix_append _ _)
  leaf := ⟨h, nofun, fun _ hp hne => takenLinks_way ((List.prefix_concat_iff.1 hp).resolve_left hne)⟩

/-- The file is restored. -/
def sampleRestore : RecoverCall := .restore sampleIo (sampleRow (lit "e") (lit "/a/f"))

/-- The file is deleted as a created one. -/
def sampleDelete : RecoverCall := .delete sampleIo (lit "e") (sampleCreated (lit "/a/f"))

/-- One earlier copy leaves room for two more. -/
theorem sampleCalls_spare : Runs.AllSteps recoverStep SparesQuarantine (takenState (· = lit "f"))
    [sampleRestore, sampleDelete] := by
  have hfar {src : Loc} (h : some src = some [lit "a", lit "f"]) :
      ¬ src <+: quarantineDir ∧ ¬ quarantineDir <+: src := by
    rw [Option.some.inj h]
    decide +kernel
  have hout {t : Links} {q : Loc} {n : LinkNode CStr Content} (hq : InQuarantine t q n) {o : Option Loc}
      (ho : o.any (quarantineDir <+: ·) = false) : o ≠ some q := by
    rintro rfl
    rw [Option.any_some, decide_eq_false_iff_not] at ho
    exact ho hq.below
  refine ⟨fun _ _ _ => ⟨fun cur hcur _ => ⟨.of_apart fun src hsrc => ?_, .inl (.inr ⟨1, ?_⟩)⟩, ?_, ?_⟩,
    fun _ => ⟨fun content _ => ⟨.of_apart fun src hsrc => ?_, .inl (.inr ⟨2, ?_⟩)⟩, ?_⟩, trivial⟩
  · exact hfar (hsrc.symm.trans (by decide +kernel))
  · exact ⟨by decide, by decide, by decide +kernel, by decide +kernel⟩
  · exact fun q n hq => hout hq (by decide +kernel)
  · exact fun q n hq => hout hq (by decide +kernel)
  · exact hfar (hsrc.symm.trans (by decide +kernel))
  · exact ⟨by decide, by decide, by decide +kernel, by decide +kernel⟩
  · exact fun _ _ _ q n hq => hout hq (by decide +kernel)

/-- An earlier copy stays, and two more get numbers. -/
theorem quarantine_kept_sample :
    KeepsQuarantine (Runs.run recoverStep (takenState (· = lit "f")) []).fs.tree
      (Runs.run recoverStep (takenState (· = lit "f")) ([] ++ [sampleRestore, sampleDelete])).fs.tree :=
  quarantine_kept (takenState (· = lit "f")) [sampleRestore, sampleDelete] sampleCalls_spare []
    [sampleRestore, sampleDelete] (List.prefix_refl _)

/-- A file that is quarantined when all hundred names are taken replaces the last of them. -/
theorem quarantine_not_kept :
    ¬ ∀ (st : LinkedState) (calls pre mid : List RecoverCall), pre ++ mid <+: calls →
      KeepsQuarantine (Runs.run recoverStep st pre).fs.tree
        (Runs.run recoverStep st (pre ++ mid)).fs.tree := by
  intro h
  have hkept := h (takenState fun name => name.head? = (lit "f").head?) _ []
    [.delete sampleIo (lit "e") (sampleCreated (lit "/a/f"))] (List.prefix_refl _)
    (slotDir ++ [lit "f.99"]) (.file (lit "old")) (takenLinks_inQuarantine (by decide +kernel))
  have hold := hkept.leaf.node
  revert hold
  decide +kernel

end Linked

end GfrGuard
