import GfrGuard.Recover
import GfrGuard.Backup

/-!
# What a restore does to the share

The share, its preimages and the quarantine of the event stand apart in the tree (`Apart`).
Deleting the created files empties their places and nothing else of the share; restoring
puts every preimage back (`restoreEvent_node`), whatever becomes of the quarantined files.
-/

namespace GfrGuard

/-! ## Places apart -/

/-- Neither place lies inside the other. -/
def Apart (a b : Loc) : Prop := ¬ a <+: b ∧ ¬ b <+: a

instance (a b : Loc) : Decidable (Apart a b) := inferInstanceAs (Decidable (_ ∧ _))

section
variable {a b b' l : Loc}

theorem Apart.symm (h : Apart a b) : Apart b a := ⟨h.2, h.1⟩

/-- Nothing is inside both. -/
theorem Apart.not_isPrefix (h : Apart a b) (ha : a <+: l) : ¬ b <+: l := fun hb =>
  (List.prefix_or_prefix_of_prefix ha hb).elim h.1 h.2

theorem Apart.extend (h : Apart a b) (hb : b <+: b') : Apart a b' :=
  ⟨fun ha => h.not_isPrefix ha hb, fun hb' => h.2 (hb.trans hb')⟩

/-- What is inside one is not on the way to what is inside the other. -/
theorem Apart.not_on_way (h : Apart a b) (ha : a <+: l) (hb : b <+: b') : ¬ l <+: b' := fun hl =>
  h.not_isPrefix (ha.trans hl) hb

theorem Apart.ne (h : Apart a b) (ha : a <+: l) (hb : b <+: b') : l ≠ b' := fun hl =>
  h.not_on_way ha hb (hl ▸ List.prefix_refl l)

end

/-! ## Making directories -/

namespace Fs

theorem mkdirAll_append (ok : Loc → Bool) (fs : Fs) (ls ls' : List Loc) :
    mkdirAll ok fs (ls ++ ls') =
      if (mkdirAll ok fs ls).1 then mkdirAll ok (mkdirAll ok fs ls).2 ls' else mkdirAll ok fs ls := by
  induction ls generalizing fs with
  | nil => simp [mkdirAll]
  | cons l ls ih =>
    rcases hmk : fs.mkdir l (ok l) with _ | fs'
    · simp [mkdirAll, hmk]
    · simp only [List.cons_append, mkdirAll, hmk]
      exact ih fs'

/-- Where nothing but directories stands on the way, the whole way is made. -/
theorem mkdirAll_inits {ok : Loc → Bool} (hok : ∀ l, ok l = true) (fs : Fs) (b : Loc)
    (hway : ∀ a, a <+: b → a ≠ [] → fs.node a = none ∨ fs.node a = some .directory) :
    (mkdirAll ok fs b.inits.tail).1 = true ∧
      ∀ a, a <+: b → (mkdirAll ok fs b.inits.tail).2.lookup a = some .directory := by
  induction b using List.reverseRecOn with
  | nil =>
    refine ⟨rfl, fun a ha => ?_⟩
    rw [List.prefix_nil.1 ha]
    rfl
  | append_singleton b x ih =>
    obtain ⟨hmade, hdirs⟩ := ih fun a ha => hway a (ha.trans (List.prefix_append _ _))
    have hinits : (b ++ [x]).inits.tail = b.inits.tail ++ [b ++ [x]] := by
      rw [List.inits_append, List.tail_append_of_ne_nil (by cases b <;> simp)]
      rfl
    have hadds := mkdirAll_addsDirs (b := b) ok fs b.inits.tail fun l hl =>
      (List.mem_inits l _).1 (List.mem_of_mem_tail hl)
    generalize hr : mkdirAll ok fs b.inits.tail = r at hmade hdirs hadds
    obtain ⟨made, fs1⟩ := r
    obtain rfl : made = true := hmade
    -- the last directory: there already, or made now
    have hlast : ∃ fs2, fs1.mkdir (b ++ [x]) (ok (b ++ [x])) = some fs2 ∧
        fs2.lookup (b ++ [x]) = some .directory ∧ AddsDirs (b ++ [x]) fs1 fs2 := by
      have hnode : fs1.node (b ++ [x]) = none ∨ fs1.node (b ++ [x]) = some .directory := by
        have hlonger : ¬ b ++ [x] <+: b := fun h => by
          have := h.length_le
          rw [List.length_append, List.length_singleton] at this
          omega
        rw [hadds.eq_off_way hlonger]
        exact hway _ (List.prefix_refl _) (by simp)
      unfold mkdir
      rw [lookup_of_ne_nil (by simp)]
      rcases hnode with hnone | hdir
      · have hparent : fs1.lookup (b ++ [x]).dropLast = some .directory := by
          rw [List.dropLast_concat]
          exact hdirs b (List.prefix_refl b)
        refine ⟨fs1.put (b ++ [x]) .directory, ?_, ?_, ?_⟩
        · rw [hnone]
          dsimp only
          rw [if_pos (by rw [hok, hparent]; rfl)]
        · rw [lookup_of_ne_nil (by simp), node_put_self]
        · intro l
          by_cases hl : l = b ++ [x]
          · subst hl
            exact .inr ⟨hnone, List.prefix_refl _, node_put_self ..⟩
          · exact .inl (node_put_of_ne hl _)
      · exact ⟨fs1, by rw [hdir], by rw [lookup_of_ne_nil (by simp), hdir], AddsDirs.refl _ _⟩
    obtain ⟨fs2, hmk, hthere, hadds2⟩ := hlast
    rw [hinits, mkdirAll_append, hr]
    simp only [if_true, mkdirAll, hmk, true_and]
    intro a ha
    rcases List.prefix_concat_iff.1 ha with rfl | ha
    · exact hthere
    · have hdir := hdirs a ha
      unfold lookup at hdir ⊢
      split
      · rfl
      · next hne =>
        rw [if_neg hne] at hdir
        exact (hadds2.grows (List.prefix_refl _)).keeps hdir

/-- A path that fits and does not end in a slash is looked up at its place. -/
theorem stat_of_place {fs : Fs} {path : CStr} {loc : Loc} (hcomps : pathComponents path = loc)
    (hloc : loc ≠ []) (hfits : path.length < pathMax) (hlast : path.getLast? ≠ some slash) :
    fs.stat path = fs.node loc := by
  have hne : path ≠ [] := by
    rintro rfl
    rw [pathComponents_nil] at hcomps
    exact hloc hcomps.symm
  rw [stat_eq_lookup hne hfits hlast, hcomps, lookup_of_ne_nil hloc]

end Fs

/-! ## The quarantine -/

/-- Where the files of an event are quarantined. -/
def quarantineLoc (eventId : CStr) : Loc := pathComponents (quarantinePath ++ slash :: eventId)

/-- A file keeps its whole path below the quarantine of the event. -/
theorem pathComponents_quarantineFor (eventId path : CStr) :
    pathComponents (quarantineFor eventId path) = quarantineLoc eventId ++ pathComponents path := by
  rw [quarantineFor, pathComponents_append_slash, quarantineLoc]
  congr 1
  split
  · next h =>
    cases path with
    | nil => cases h
    | cons c path =>
      obtain rfl : c = slash := Option.some.inj h
      exact (pathComponents_slash_cons path).symm
  · rfl

/-- Whatever is appended to a quarantine path, it stays below the quarantine. -/
theorem quarantineLoc_isPrefix (eventId path suffix : CStr) :
    quarantineLoc eventId <+: pathComponents (quarantineFor eventId path ++ suffix) := by
  rw [quarantineFor, List.append_assoc, List.cons_append, pathComponents_append_slash]
  exact List.prefix_append _ _

/-- The slot chosen extends the path. -/
theorem uniqueSlot_isPrefix (fs : Fs) {base : CStr} (hbase : base.length < pathMax) {path : CStr}
    (hpath : base <+: path) (is : List Nat) : base <+: uniqueSlot fs base path is := by
  induction is generalizing path with
  | nil => exact hpath
  | cons i is ih =>
    unfold uniqueSlot
    dsimp only
    split
    · exact List.prefix_take_iff.2 ⟨List.prefix_append _ _, by omega⟩
    · split
      · exact List.prefix_append _ _
      · exact ih (List.prefix_append _ _)

theorem quarantineUnique_isPrefix (fs : Fs) {path : CStr} (hpath : path.length < pathMax) :
    path <+: quarantineUnique fs path := by
  unfold quarantineUnique
  split
  · exact List.prefix_refl _
  · exact uniqueSlot_isPrefix fs hpath (List.prefix_refl _) _

/-! ## Moving a file away -/

/-- A copy changes nothing but its target. -/
theorem copyFile_frame (io : RecoverIo) (src dst : CStr) (fs : Fs) {loc : Loc}
    (hloc : loc ≠ pathComponents dst) : (copyFile io src dst fs).2.node loc = fs.node loc := by
  unfold copyFile
  dsimp only
  split
  · rfl
  · rfl
  · split
    · rfl
    · split
      · split <;> rw [Fs.node_put_of_ne hloc, Fs.node_put_of_ne hloc]
      · exact Fs.node_put_of_ne hloc _

/-- An unlink changes nothing but the place of its path. -/
theorem Fs.unlink_frame {fs fs' : Fs} {path : CStr} {ok : Bool} (h : fs.unlink path ok = some fs') :
    fs'.node (pathComponents path) = none ∧
      ∀ loc, loc ≠ pathComponents path → fs'.node loc = fs.node loc := by
  unfold Fs.unlink at h
  split at h
  · cases h
  · cases h
  · split at h
    · cases h
      exact ⟨Fs.node_remove_self .., fun loc hloc => Fs.node_remove_of_ne hloc⟩
    · cases h

/-- The rename of a file changes nothing but the two places. -/
theorem Fs.rename_frame {fs fs' : Fs} {old new : CStr} {ok : Bool} {r : Rmdir} {n : Node}
    (h : fs.rename old new ok r = some fs') (hold : fs.stat old = some n) (hn : n ≠ .directory) :
    (∀ loc, loc ≠ pathComponents old → loc ≠ pathComponents new → fs'.node loc = fs.node loc) ∧
      (pathComponents old ≠ pathComponents new → fs'.node (pathComponents old) = none) := by
  unfold Fs.rename at h
  dsimp only at h
  rw [hold] at h
  dsimp only at h
  split at h
  · cases h
  · split at h
    · next hsame =>
      cases h
      exact ⟨fun _ _ _ => rfl, fun hne => absurd hsame hne⟩
    · split at h
      · exact absurd rfl hn
      · cases h
      · split at h
        · cases h
        · cases h
          refine ⟨fun loc h1 h2 => ?_, fun hne => ?_⟩
          · rw [Fs.node_put_of_ne h2, Fs.node_remove_of_ne h1]
          · rw [Fs.node_put_of_ne hne, Fs.node_remove_self]

/-- The directories a quarantine path needs. -/
theorem mkdirP_parent_addsDirs {path : CStr} (hfits : path.length < pathMax) (ok : Loc → Bool)
    (fs : Fs) :
    Fs.AddsDirs (pathComponents path) fs (fs.mkdirP (Fs.parentPath path) ok).2 :=
  (Fs.mkdirP_parentPath_addsDirs hfits ok fs).mono (pathComponents_parentPath_isPrefix path)

section
variable {io : RecoverIo} {fs : Fs} {path qpath : CStr} {isReg : Bool} {n : Node}

/-- What stands at a path other than a directory is a node of the tree. -/
theorem Fs.node_of_stat (hcur : fs.stat path = some n) (hn : n ≠ .directory) :
    fs.node (pathComponents path) = some n := by
  have hlook := Fs.lookup_of_stat hcur
  unfold Fs.lookup at hlook
  split at hlook
  · cases hlook
    exact absurd rfl hn
  · exact hlook

/-- Moving a file to the quarantine adds directories on the way to the quarantine path,
changes what is below `base`, and leaves the file's place as it was or empty. -/
theorem moveToQuarantine_frame (io : RecoverIo) (isReg : Bool) {base : Loc} (hfits : qpath.length < pathMax)
    (hbase : ∀ suffix, base <+: pathComponents (qpath ++ suffix))
    (hfile : ¬ base <+: pathComponents path) (hcur : fs.stat path = some n)
    (hn : n ≠ .directory) :
    (∀ loc, loc ≠ pathComponents path → ¬ base <+: loc → ¬ loc <+: pathComponents qpath →
      (moveToQuarantine io path qpath isReg fs).2.node loc = fs.node loc) ∧
    ((moveToQuarantine io path qpath isReg fs).2.node (pathComponents path) = some n ∨
      (moveToQuarantine io path qpath isReg fs).2.node (pathComponents path) = none) := by
  have hnode := Fs.node_of_stat hcur hn
  have hadds := (mkdirP_parent_addsDirs hfits io.mkdirOk fs).grows (List.prefix_refl _)
  unfold moveToQuarantine
  dsimp only
  generalize (fs.mkdirP (Fs.parentPath qpath) io.mkdirOk).2 = fs1 at hadds
  have hnode1 := hadds.keeps hnode
  obtain ⟨suffix, hq⟩ := quarantineUnique_isPrefix fs1 hfits
  rw [← hq]
  have hqbase := hbase suffix
  generalize qpath ++ suffix = q at hqbase
  have hapart : pathComponents path ≠ pathComponents q := fun h => hfile (h ▸ hqbase)
  have hother : ∀ {loc}, ¬ base <+: loc → loc ≠ pathComponents q := fun hloc h => hloc (h ▸ hqbase)
  split
  · next fs2 hrename =>
    obtain ⟨hframe, hgone⟩ := Fs.rename_frame hrename (hadds.stat hcur) hn
    refine ⟨fun loc hloc hb hway => ?_, .inr (hgone hapart)⟩
    rw [hframe loc hloc (hother hb), hadds.eq_off_way hway]
  · split
    · have hcopy : ∀ {loc}, loc ≠ pathComponents q →
          (copyFile io path q fs1).2.node loc = fs1.node loc := copyFile_frame io path q fs1
      generalize copyFile io path q fs1 = copied at hcopy
      obtain ⟨ok, fs2⟩ := copied
      -- the copy leaves the file and all but the target as they were
      have hkept : (∀ loc, loc ≠ pathComponents path → ¬ base <+: loc →
          ¬ loc <+: pathComponents qpath → fs2.node loc = fs.node loc) ∧
          (fs2.node (pathComponents path) = some n ∨ fs2.node (pathComponents path) = none) :=
        ⟨fun loc _ hb hway => by rw [hcopy (hother hb), hadds.eq_off_way hway],
          .inl ((hcopy hapart).trans hnode1)⟩
      cases ok with
      | false => exact hkept
      | true =>
        dsimp only
        split
        · next fs3 hunlink =>
          obtain ⟨hgone, hframe⟩ := Fs.unlink_frame hunlink
          exact ⟨fun loc hloc hb hway => (hframe loc hloc).trans (hkept.1 loc hloc hb hway),
            .inr hgone⟩
        · exact hkept
    · exact ⟨fun loc _ _ hway => hadds.eq_off_way hway, .inl hnode1⟩

/-- The system calls a restore cannot do without succeed; renames may cross file systems. -/
structure RecoverIo.Succeeds (io : RecoverIo) : Prop where
  mkdirOk : ∀ l, io.mkdirOk l = true
  createOk : io.createOk = true
  copyOk : io.copyOk = true
  unlinkOk : io.unlinkOk = true

theorem Fs.stat_congr {fs fs' : Fs} {path : CStr}
    (h : fs'.lookup (pathComponents path) = fs.lookup (pathComponents path)) :
    fs'.stat path = fs.stat path := by
  unfold Fs.stat
  rw [h]

theorem Fs.lookup_congr {fs fs' : Fs} {loc : Loc} (h : fs'.node loc = fs.node loc) :
    fs'.lookup loc = fs.lookup loc := by
  unfold Fs.lookup
  rw [h]

/-- A copy over a target that can be written. -/
theorem copyFile_copies (hio : io.Succeeds) {src dst : CStr} {content : Content}
    (hsrc : fs.stat src = some (.regular content)) (hdst : fs.canOverwrite dst true = true)
    (hne : pathComponents src ≠ pathComponents dst) :
    ∃ fs', copyFile io src dst fs = (true, fs') ∧
      fs'.node (pathComponents dst) = some (.regular content) := by
  have hagain : (fs.put (pathComponents dst) (.regular [])).stat src = some (.regular content) := by
    rw [Fs.stat_congr (Fs.lookup_congr (Fs.node_put_of_ne hne _)), hsrc]
  refine ⟨_, ?_, Fs.node_put_self (fs.put (pathComponents dst) (.regular [])) _ (.regular content)⟩
  unfold copyFile
  rw [hsrc, hio.createOk, hdst]
  dsimp only
  rw [hagain]
  simp [hio.copyOk]

/-- A file is moved to a quarantine place that is free, with nothing but directories on the
way. -/
theorem moveToQuarantine_moves (hio : io.Succeeds) {content : Content} {q : Loc}
    (hq : pathComponents qpath = q) (hfits : qpath.length < pathMax) (hslash : slash ∈ qpath)
    (hlast : qpath.getLast? ≠ some slash)
    (hway : ∀ a, a <+: q → a ≠ [] → a ≠ q → fs.node a = none ∨ fs.node a = some .directory)
    (hfree : fs.node q = none) (hcur : fs.stat path = some (.regular content)) :
    ∃ fs', moveToQuarantine io path qpath true fs = (true, fs') ∧
      fs'.node (pathComponents path) = none ∧ fs'.node q = some (.regular content) ∧
      ∀ l, l ≠ pathComponents path → l ≠ q → fs'.node l = fs.node l ∨
        fs.node l = none ∧ l <+: q ∧ fs'.node l = some .directory := by
  obtain ⟨name, hname⟩ := pathComponents_parentPath hslash hlast
  rw [hq] at hname
  have hqne : q ≠ [] := by rw [hname]; simp
  have hdrop : q.dropLast = pathComponents (Fs.parentPath qpath) := by
    rw [hname, List.dropLast_concat]
  have hshort : ∀ {a : Loc}, a <+: pathComponents (Fs.parentPath qpath) → a <+: q ∧ a ≠ q :=
    fun {a} ha => by
      refine ⟨ha.trans (by rw [hname]; exact List.prefix_append _ _), ?_⟩
      rintro rfl
      have := ha.length_le
      rw [hname, List.length_append, List.length_singleton] at this
      omega
  have hparent := (parentPath_isPrefix qpath).length_le.trans_lt hfits
  -- the directories of the quarantine path
  have hadds := Fs.mkdirP_addsDirs hparent io.mkdirOk fs
  have hmade : (fs.mkdirP (Fs.parentPath qpath) io.mkdirOk).2.lookup q.dropLast =
      some .directory := by
    unfold Fs.mkdirP
    rw [snprintf_of_lt hparent, hdrop]
    exact (Fs.mkdirAll_inits hio.mkdirOk fs _ fun a ha hne =>
      hway a (hshort ha).1 hne (hshort ha).2).2 _ (List.prefix_refl _)
  unfold moveToQuarantine
  dsimp only
  generalize (fs.mkdirP (Fs.parentPath qpath) io.mkdirOk).2 = fs1 at hadds hmade
  have hadded : ∀ l, l ≠ q → fs1.node l = fs.node l ∨
      fs.node l = none ∧ l <+: q ∧ fs1.node l = some .directory := fun l _ =>
    (hadds l).imp_right fun ⟨hn, hp, hd⟩ => ⟨hn, (hshort hp).1, hd⟩
  have hfree1 : fs1.node q = none := by
    rw [hadds.eq_off_way fun h => (hshort h).2 rfl, hfree]
  have hcur1 : fs1.stat path = some (.regular content) :=
    (hadds.grows (List.prefix_refl _)).stat hcur
  have hne : pathComponents path ≠ q := by
    intro h
    have := Fs.node_of_stat hcur1 (by simp)
    rw [h, hfree1] at this
    cases this
  have hslot : quarantineUnique fs1 qpath = qpath := by
    unfold quarantineUnique
    rw [Fs.stat_of_place hq hqne hfits hlast, hfree1, if_pos rfl]
  rw [hslot]
  cases hrename : io.renameOk path with
  | true =>
    have hmoved : fs1.rename path qpath true io.rmdir =
        some ((fs1.remove (pathComponents path)).put q (.regular content)) := by
      unfold Fs.rename
      dsimp only
      rw [hcur1, hq]
      dsimp only
      rw [Fs.lookup_of_ne_nil hqne, hfree1, if_neg (by simp [hmade, hfits]), if_neg hne]
      dsimp only
      rw [if_neg hlast]
    rw [hmoved]
    refine ⟨_, rfl, ?_, Fs.node_put_self .., fun l hl hlq => ?_⟩
    · rw [Fs.node_put_of_ne hne, Fs.node_remove_self]
    · rw [Fs.node_put_of_ne hlq, Fs.node_remove_of_ne hl]
      exact hadded l hlq
  | false =>
    have hnot : fs1.rename path qpath false io.rmdir = none := by
      unfold Fs.rename
      dsimp only
      rw [hcur1]
      simp
    have hopen : fs1.canOverwrite qpath true = true := by
      have hpne : qpath ≠ [] := List.ne_nil_of_mem hslash
      simp only [Fs.canOverwrite, hq, Fs.lookup_of_ne_nil hqne, hfree1, hmade]
      simp [hpne, hfits, hlast]
    have hframe : ∀ {l}, l ≠ q → (copyFile io path qpath fs1).2.node l = fs1.node l :=
      fun hl => copyFile_frame io path qpath fs1 (by rwa [hq])
    obtain ⟨fs2, hcopy, hcopied⟩ := copyFile_copies hio hcur1 hopen (by rwa [hq])
    rw [hq] at hcopied
    rw [hcopy] at hframe
    have hcur2 : fs2.stat path = some (.regular content) := by
      rw [Fs.stat_congr (Fs.lookup_congr (hframe hne)), hcur1]
    have hunlink : fs2.unlink path io.unlinkOk = some (fs2.remove (pathComponents path)) := by
      unfold Fs.unlink
      rw [hcur2, hio.unlinkOk]
      rfl
    rw [hnot]
    dsimp only
    rw [if_pos rfl, hcopy]
    dsimp only
    rw [hunlink]
    refine ⟨_, rfl, Fs.node_remove_self .., ?_, fun l hl hlq => ?_⟩
    · rw [Fs.node_remove_of_ne hne.symm, hcopied]
    · rw [Fs.node_remove_of_ne hl]
      exact (hframe hlq).symm ▸ hadded l hlq

end

end GfrGuard
