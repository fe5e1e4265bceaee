import GfrGuard.RecoverSpec

/-!
# The two phases of a restore

First the created files go to the quarantine (`Deleting`), then the preimages come back
(`Restoring`). Each invariant says what stands in the share and in the store after some of
the rows; the rows name files of the share (`SharePath`), none of which lies below another.
-/

namespace GfrGuard

/-! ## Files of the share -/

/-- A path that names the place `l` of the share, and that the tool can quarantine. -/
structure SharePath (root : Loc) (eventId path : CStr) (l : Loc) : Prop where
  comps : pathComponents path = root ++ l
  ne : l ≠ []
  valid : validRestorePath path = true
  last : path.getLast? ≠ some slash
  qfits : (quarantineFor eventId path).length < pathMax

/-- The share, its preimages and the quarantine of the event stand apart. -/
structure Layout (root backups : Loc) (eventId : CStr) : Prop where
  rootBackups : Apart root backups
  rootQuarantine : Apart root (quarantineLoc eventId)
  backupsQuarantine : Apart backups (quarantineLoc eventId)

/-- Places of files of the share: directories above, a file or nothing there. -/
structure FilePlaces (root : Loc) (fs : Fs) (S : Loc → Prop) : Prop where
  dirs : ∀ l, S l → ∀ x, x <+: l → x ≠ l → fs.node (root ++ x) = some .directory
  file : ∀ l, S l → fs.node (root ++ l) = none ∨ ∃ c, fs.node (root ++ l) = some (.regular c)

section
variable {root backups : Loc} {eventId path : CStr} {l l' : Loc} {fs fs0 : Fs} {S : Loc → Prop}
  {io : RecoverIo}

/-- No file lies below another. -/
theorem FilePlaces.eq_of_isPrefix (h : FilePlaces root fs S) (hl : S l) (hl' : S l')
    (hp : l <+: l') : l = l' := by
  by_contra hne
  have hdir := h.dirs l' hl' l hp hne
  rcases h.file l hl with hnone | ⟨c, hc⟩
  · rw [hnone] at hdir; cases hdir
  · rw [hc] at hdir; cases hdir

theorem SharePath.path_ne_nil (h : SharePath root eventId path l) : path ≠ [] := by
  rintro rfl
  have := h.comps
  rw [pathComponents_nil] at this
  exact h.ne (List.append_eq_nil_iff.1 this.symm).2

theorem SharePath.place_ne_nil (h : SharePath root eventId path l) : root ++ l ≠ [] := fun h0 =>
  h.ne (List.append_eq_nil_iff.1 h0).2

theorem SharePath.unique (h : SharePath root eventId path l) (h' : SharePath root eventId path l') :
    l = l' :=
  List.append_cancel_left (h.comps.symm.trans h'.comps)

/-- The path starts with its slash. -/
theorem SharePath.eq_cons (h : SharePath root eventId path l) :
    ∃ rel, path = slash :: rel ∧ rel ≠ [] := by
  have hhead : path.head? = some slash := by
    have := h.valid
    unfold validRestorePath at this
    simp only [Bool.and_eq_true, decide_eq_true_eq] at this
    exact this.1.1
  cases hpath : path with
  | nil => exact absurd hpath h.path_ne_nil
  | cons c rel =>
    rw [hpath] at hhead
    obtain rfl : c = slash := Option.some.inj hhead
    refine ⟨rel, rfl, ?_⟩
    rintro rfl
    have := h.last
    rw [hpath] at this
    exact this rfl

theorem SharePath.quarantineFor_eq (h : SharePath root eventId path l) :
    ∃ rel, path = slash :: rel ∧
      quarantineFor eventId path = quarantinePath ++ slash :: eventId ++ slash :: rel := by
  obtain ⟨rel, rfl, -⟩ := h.eq_cons
  exact ⟨rel, rfl, rfl⟩

theorem SharePath.fits (h : SharePath root eventId path l) : path.length < pathMax := by
  obtain ⟨rel, rfl, hq⟩ := h.quarantineFor_eq
  have := h.qfits
  rw [hq] at this
  simp only [List.length_append, List.length_cons] at this ⊢
  omega

theorem SharePath.slash_mem (h : SharePath root eventId path l) : slash ∈ path := by
  obtain ⟨rel, rfl, -⟩ := h.eq_cons
  exact List.mem_cons_self

theorem SharePath.stat (h : SharePath root eventId path l) (fs : Fs) :
    fs.stat path = fs.node (root ++ l) :=
  Fs.stat_of_place h.comps h.place_ne_nil h.fits h.last

/-- The quarantine path of a file does not end in a slash either. -/
theorem SharePath.quarantineFor_last (h : SharePath root eventId path l) :
    slash ∈ quarantineFor eventId path ∧ (quarantineFor eventId path).getLast? ≠ some slash := by
  obtain ⟨rel, rfl, hrel⟩ := h.eq_cons
  have hq : quarantineFor eventId (slash :: rel) =
      quarantinePath ++ slash :: eventId ++ slash :: rel := rfl
  have hlast := h.last
  rw [List.getLast?_cons, List.getLast?_eq_getLast_of_ne_nil hrel] at hlast
  refine ⟨by rw [hq]; simp, ?_⟩
  rw [hq, List.getLast?_append, List.getLast?_cons, List.getLast?_eq_getLast_of_ne_nil hrel]
  exact hlast

/-! ## Deleting what was created -/

/-- Nothing is quarantined for the event yet, and nothing but directories is on the way. -/
structure QuarantineFresh (q : Loc) (fs : Fs) : Prop where
  way : ∀ a, a <+: q → a ≠ [] → fs.node a = none ∨ fs.node a = some .directory
  free : ∀ x, fs.node (q ++ x) = none

/-- After the created files at `done` were taken away. -/
structure Deleting (root backups : Loc) (eventId : CStr) (fs0 : Fs) (done : List Loc) (fs : Fs) :
    Prop where
  share : ∀ l, fs.node (root ++ l) = if l ∈ done then none else fs0.node (root ++ l)
  backups : ∀ l, fs.node (backups ++ l) = fs0.node (backups ++ l)
  way : ∀ a, a <+: quarantineLoc eventId → a ≠ [] → fs.node a = none ∨ fs.node a = some .directory
  taken : ∀ x n, fs.node (quarantineLoc eventId ++ x) = some n →
    (n = .directory ∧ ∃ l ∈ done, x <+: root ++ l ∧ x ≠ root ++ l) ∨ ∃ l ∈ done, x = root ++ l

theorem Deleting.start (h : QuarantineFresh (quarantineLoc eventId) fs0) :
    Deleting root backups eventId fs0 [] fs0 where
  share _ := rfl
  backups _ := rfl
  way := h.way
  taken x n hn := by rw [h.free x] at hn; cases hn

/-- A file that is still there can be quarantined: its slot is free, with directories on the
way. -/
theorem Deleting.slot_free {done : List Loc} {content : Content} (h : Deleting root backups eventId fs0 done fs)
    (hplaces : FilePlaces root fs0 S) (hdone : ∀ l ∈ done, S l) (hl : S l)
    (hthere : fs.node (root ++ l) = some (.regular content)) :
    (∀ a, a <+: quarantineLoc eventId ++ (root ++ l) → a ≠ [] →
      a ≠ quarantineLoc eventId ++ (root ++ l) → fs.node a = none ∨ fs.node a = some .directory) ∧
    fs.node (quarantineLoc eventId ++ (root ++ l)) = none := by
  have hnot : l ∉ done := fun hmem => by
    rw [h.share, if_pos hmem] at hthere
    cases hthere
  constructor
  · intro a ha hane hneq
    rcases List.prefix_or_prefix_of_prefix ha (List.prefix_append _ _) with hq | ⟨x, rfl⟩
    · exact h.way a hq hane
    · cases hx : fs.node (quarantineLoc eventId ++ x) with
      | none => exact .inl rfl
      | some n =>
        rcases h.taken x n hx with ⟨rfl, -⟩ | ⟨l', hl', rfl⟩
        · exact .inr rfl
        · -- a file quarantined on the way would lie above this one
          have hp : l' <+: l := (List.prefix_append_right_inj root).1
            ((List.prefix_append_right_inj _).1 ha)
          obtain rfl := hplaces.eq_of_isPrefix (hdone l' hl') hl hp
          exact absurd rfl hneq
  · cases hx : fs.node (quarantineLoc eventId ++ (root ++ l)) with
    | none => rfl
    | some n =>
      rcases h.taken _ n hx with ⟨-, l', hl', hp, hne⟩ | ⟨l', hl', heq⟩
      · obtain rfl := hplaces.eq_of_isPrefix hl (hdone l' hl') ((List.prefix_append_right_inj root).1 hp)
        exact absurd rfl hne
      · rw [List.append_cancel_left heq] at hnot
        exact absurd hl' hnot

/-- One created file more. -/
theorem Deleting.step {done : List Loc} {s : RecoverState} {cf : CreatedFile} (hio : io.Succeeds)
    (hlayout : Layout root backups eventId)
    (hplaces : FilePlaces root fs0 S) (h : Deleting root backups eventId fs0 done s.fs)
    (hdone : ∀ l ∈ done, S l) (hl : S l) (hpath : SharePath root eventId cf.filePath l) :
    Deleting root backups eventId fs0 (l :: done) (deleteCreatedOne io eventId s cf).fs := by
  -- a place that is empty anyway
  have hempty : s.fs.node (root ++ l) = none →
      Deleting root backups eventId fs0 (l :: done) s.fs := fun hnone =>
    { share := fun l' => by
        by_cases hll : l' = l
        · subst hll
          rw [hnone, if_pos List.mem_cons_self]
        · rw [h.share]
          simp [hll]
      backups := h.backups
      way := h.way
      taken := fun x n hx => (h.taken x n hx).imp
        (fun ⟨hn, l', hl', hp⟩ => ⟨hn, l', List.mem_cons_of_mem _ hl', hp⟩)
        fun ⟨l', hl', hp⟩ => ⟨l', List.mem_cons_of_mem _ hl', hp⟩ }
  unfold deleteCreatedOne
  rw [hpath.valid, hpath.stat]
  simp only [Bool.not_true, Bool.false_eq_true, if_false]
  split
  · next hnone => exact hempty hnone
  · next content hthere =>
    obtain ⟨hway, hfree⟩ := h.slot_free hplaces hdone hl hthere
    obtain ⟨hslash, hlast⟩ := hpath.quarantineFor_last
    have hq : pathComponents (quarantineFor eventId cf.filePath) =
        quarantineLoc eventId ++ (root ++ l) := by
      rw [pathComponents_quarantineFor, hpath.comps]
    obtain ⟨fs', hmove, hgone, hslot, hother⟩ := moveToQuarantine_moves hio hq hpath.qfits hslash
      hlast hway hfree ((hpath.stat s.fs).trans hthere)
    rw [snprintf_of_lt hpath.qfits, hmove]
    dsimp only
    rw [hpath.comps] at hgone hother
    -- outside the quarantine only the file's place changes
    have hframe : ∀ loc, loc ≠ root ++ l → ¬ loc <+: quarantineLoc eventId ++ (root ++ l) →
        fs'.node loc = s.fs.node loc := fun loc hloc hoff => by
      refine (hother loc hloc ?_).resolve_right fun h => hoff h.2.1
      rintro rfl
      exact hoff (List.prefix_refl _)
    refine ⟨fun l' => ?_, fun l' => ?_, fun a ha hane => ?_, fun x n hx => ?_⟩
    · by_cases hll : l' = l
      · subst hll
        rw [hgone, if_pos List.mem_cons_self]
      · rw [hframe _ (fun heq => hll (List.append_cancel_left heq))
          (hlayout.rootQuarantine.not_on_way (List.prefix_append _ _) (List.prefix_append _ _)),
          h.share]
        simp [hll]
    · rw [hframe _ (hlayout.rootBackups.ne (List.prefix_append _ _) (List.prefix_append _ _)).symm
        (hlayout.backupsQuarantine.not_on_way (List.prefix_append _ _) (List.prefix_append _ _)),
        h.backups]
    · have hneq : a ≠ quarantineLoc eventId ++ (root ++ l) := by
        rintro rfl
        have := ha.length_le
        rw [List.length_append] at this
        exact hpath.place_ne_nil (List.eq_nil_of_length_eq_zero (by omega))
      have hne : a ≠ root ++ l := by
        rintro rfl
        exact hlayout.rootQuarantine.1 ((List.prefix_append _ _).trans ha)
      rcases hother a hne hneq with hsame | ⟨-, -, hdir⟩
      · rw [hsame]
        exact h.way a ha hane
      · exact .inr hdir
    · by_cases hslotx : quarantineLoc eventId ++ x = quarantineLoc eventId ++ (root ++ l)
      · exact .inr ⟨l, List.mem_cons_self, List.append_cancel_left hslotx⟩
      · have hne : quarantineLoc eventId ++ x ≠ root ++ l :=
          (hlayout.rootQuarantine.ne (List.prefix_append _ _) (List.prefix_append _ _)).symm
        rcases hother _ hne hslotx with hsame | ⟨-, hp, hdir⟩
        · rw [hsame] at hx
          exact (h.taken x n hx).imp
            (fun ⟨hn, l', hl', hp⟩ => ⟨hn, l', List.mem_cons_of_mem _ hl', hp⟩)
            fun ⟨l', hl', hp⟩ => ⟨l', List.mem_cons_of_mem _ hl', hp⟩
        · rw [hdir] at hx
          cases hx
          refine .inl ⟨rfl, l, List.mem_cons_self, (List.prefix_append_right_inj _).1 hp, ?_⟩
          rintro rfl
          exact hslotx rfl
  -- nothing but a file ever stands there
  all_goals
    next hthere =>
      have hfile := hplaces.file l hl
      rw [h.share] at hthere
      split at hthere
      · cases hthere
      · rcases hfile with hnone | ⟨c, hc⟩
        · rw [hnone] at hthere; cases hthere
        · rw [hc] at hthere; cases hthere

theorem deleteCreatedOne_db (io : RecoverIo) (eventId : CStr) (s : RecoverState)
    (cf : CreatedFile) : (deleteCreatedOne io eventId s cf).db = s.db := by
  unfold deleteCreatedOne
  split
  · rfl
  · split
    · rfl
    · split <;> rfl
    · split <;> rfl
    · rfl

/-- All created files. -/
theorem Deleting.run (hio : io.Succeeds) (hlayout : Layout root backups eventId)
    (hplaces : FilePlaces root fs0 S) {done : List Loc} {s : RecoverState}
    (h : Deleting root backups eventId fs0 done s.fs) (hdone : ∀ l ∈ done, S l)
    (cfs : List CreatedFile) (hcfs : ∀ cf ∈ cfs, ∃ l, S l ∧ SharePath root eventId cf.filePath l) :
    ∃ all, Deleting root backups eventId fs0 all (cfs.foldl (deleteCreatedOne io eventId) s).fs ∧
      (cfs.foldl (deleteCreatedOne io eventId) s).db = s.db ∧
      ∀ l, l ∈ all ↔ l ∈ done ∨ ∃ cf ∈ cfs, SharePath root eventId cf.filePath l := by
  induction cfs generalizing s done with
  | nil => exact ⟨done, h, rfl, by simp⟩
  | cons cf cfs ih =>
    obtain ⟨l, hl, hpath⟩ := hcfs cf List.mem_cons_self
    have hstep := Deleting.step hio hlayout hplaces h hdone hl hpath
    obtain ⟨all, hall, hdb, hmem⟩ := ih hstep
      (fun l' hl' => (List.mem_cons.1 hl').elim (fun heq => heq ▸ hl) (hdone l'))
      fun cf' hcf' => hcfs cf' (List.mem_cons_of_mem _ hcf')
    refine ⟨all, hall, hdb.trans (deleteCreatedOne_db io eventId s cf), fun l' => ?_⟩
    rw [hmem, List.mem_cons]
    constructor
    · rintro ((rfl | hl') | ⟨cf', hcf', hp⟩)
      · exact .inr ⟨cf, List.mem_cons_self, hpath⟩
      · exact .inl hl'
      · exact .inr ⟨cf', List.mem_cons_of_mem _ hcf', hp⟩
    · rintro (hl' | ⟨cf', hcf', hp⟩)
      · exact .inl (.inr hl')
      · rcases List.mem_cons.1 hcf' with rfl | hcf'
        · exact .inl (.inl (hp.unique hpath))
        · exact .inr ⟨cf', hcf', hp⟩

/-! ## Putting the preimages back -/

/-- A row that names the place `l` of the share and its preimage. -/
structure PreimageRow (root backups : Loc) (eventId : CStr) (pf : ProtectedFile) (l : Loc) :
    Prop where
  path : SharePath root eventId pf.originalPath l
  pending : pf.restoreStatus = lit "pending"
  event : pf.eventId = eventId
  backup : pathComponents pf.backupPath = backups ++ l
  backupFits : pf.backupPath.length < pathMax
  backupLast : pf.backupPath.getLast? ≠ some slash

/-- After the preimages of the places in `done` were put back. -/
structure Restoring (root backups : Loc) (saved : Loc → Option Content) (fs1 : Fs)
    (done : List Loc) (fs : Fs) : Prop where
  share : ∀ l, fs.node (root ++ l) = if l ∈ done then (saved l).map .regular else fs1.node (root ++ l)
  backups : ∀ l c, saved l = some c → fs.node (backups ++ l) = some (.regular c) ∨
    l ∈ done ∧ fs.node (backups ++ l) = none

theorem PreimageRow.stat {pf : ProtectedFile} (h : PreimageRow root backups eventId pf l) (fs : Fs) :
    fs.stat pf.backupPath = fs.node (backups ++ l) :=
  Fs.stat_of_place h.backup (fun h0 => h.path.ne (List.append_eq_nil_iff.1 h0).2) h.backupFits
    h.backupLast

/-- What quarantining the current file leaves in the share and the store. -/
theorem quarantineCurrent_frame (io : RecoverIo) (hlayout : Layout root backups eventId)
    (hpath : SharePath root eventId path l)
    (hfile : fs.node (root ++ l) = none ∨ ∃ c, fs.node (root ++ l) = some (.regular c)) :
    (∀ l', l' ≠ l → (quarantineCurrent io eventId path fs).node (root ++ l') = fs.node (root ++ l')) ∧
    (∀ l', (quarantineCurrent io eventId path fs).node (backups ++ l') = fs.node (backups ++ l')) ∧
    ((quarantineCurrent io eventId path fs).node (root ++ l) = none ∨
      ∃ c, (quarantineCurrent io eventId path fs).node (root ++ l) = some (.regular c)) := by
  unfold quarantineCurrent
  rw [hpath.stat]
  rcases hfile with hnone | ⟨c, hc⟩
  · rw [hnone]
    exact ⟨fun _ _ => rfl, fun _ => rfl, .inl hnone⟩
  · rw [hc]
    dsimp only
    rw [if_neg (by have := hpath.qfits; omega)]
    have hq : pathComponents (quarantineFor eventId path) = quarantineLoc eventId ++ (root ++ l) := by
      rw [pathComponents_quarantineFor, hpath.comps]
    obtain ⟨hframe, hplace⟩ := moveToQuarantine_frame io true hpath.qfits
      (quarantineLoc_isPrefix eventId path)
      (by rw [hpath.comps]; exact hlayout.rootQuarantine.not_isPrefix (List.prefix_append _ _))
      ((hpath.stat fs).trans hc) (by simp)
    rw [hpath.comps, hq] at hframe
    rw [hpath.comps] at hplace
    refine ⟨fun l' hl' => hframe _ (fun heq => hl' (List.append_cancel_left heq)) ?_ ?_,
      fun l' => hframe _ ?_ ?_ ?_, hplace.symm.imp_right fun h => ⟨c, h⟩⟩
    · exact hlayout.rootQuarantine.not_isPrefix (List.prefix_append _ _)
    · exact hlayout.rootQuarantine.not_on_way (List.prefix_append _ _) (List.prefix_append _ _)
    · exact (hlayout.rootBackups.ne (List.prefix_append _ _) (List.prefix_append _ _)).symm
    · exact hlayout.backupsQuarantine.not_isPrefix (List.prefix_append _ _)
    · exact hlayout.backupsQuarantine.not_on_way (List.prefix_append _ _) (List.prefix_append _ _)

/-- The directories of a file are there: making them changes neither the share nor the
store. -/
theorem mkdirP_parent_frame (hlayout : Layout root backups eventId)
    (hpath : SharePath root eventId path l) (ok : Loc → Bool)
    (hdirs : ∀ x, x <+: l → x ≠ l → fs.node (root ++ x) = some .directory) :
    (∀ l', (fs.mkdirP (Fs.parentPath path) ok).2.node (root ++ l') = fs.node (root ++ l')) ∧
    ∀ l', (fs.mkdirP (Fs.parentPath path) ok).2.node (backups ++ l') = fs.node (backups ++ l') := by
  have hadds := Fs.mkdirP_parentPath_addsDirs hpath.fits ok fs
  obtain ⟨name, hname⟩ := pathComponents_parentPath hpath.slash_mem hpath.last
  rw [hpath.comps] at hname
  have hway : pathComponents (Fs.parentPath path) <+: root ++ l := by
    rw [hname]
    exact List.prefix_append _ _
  refine ⟨fun l' => ?_, fun l' => hadds.eq_off_way fun hp => ?_⟩
  · rcases hadds (root ++ l') with hsame | ⟨hnone, hp, -⟩
    · exact hsame
    · have hpre : l' <+: l := (List.prefix_append_right_inj root).1 (hp.trans hway)
      have hne : l' ≠ l := by
        rintro rfl
        have := hp.length_le
        rw [hname, List.length_append, List.length_singleton] at this
        omega
      rw [hdirs l' hpre hne] at hnone
      cases hnone
  · exact hlayout.rootBackups.symm.not_on_way (List.prefix_append _ _) (List.prefix_append _ _)
      (hp.trans hway)

/-- A file of the share can be written over, or anew. -/
theorem SharePath.canOverwrite (hpath : SharePath root eventId path l) (hroot : root ≠ [])
    (hdirs : ∀ x, x <+: l → x ≠ l → fs.node (root ++ x) = some .directory)
    (hfile : fs.node (root ++ l) = none ∨ ∃ c, fs.node (root ++ l) = some (.regular c)) :
    fs.canOverwrite path true = true := by
  have hparent : fs.lookup (root ++ l).dropLast = some .directory := by
    have hlen := List.length_pos_of_ne_nil hpath.ne
    rw [List.dropLast_append_of_ne_nil hpath.ne,
      Fs.lookup_of_ne_nil fun h0 => hroot (List.append_eq_nil_iff.1 h0).1]
    refine hdirs _ (List.dropLast_prefix l) fun heq => ?_
    have := congrArg List.length heq
    rw [List.length_dropLast] at this
    omega
  unfold Fs.canOverwrite
  rw [hpath.comps, Fs.lookup_of_ne_nil hpath.place_ne_nil, hparent]
  rcases hfile with hnone | ⟨c, hc⟩
  · simp [hnone, hpath.path_ne_nil, hpath.fits, hpath.last]
  · simp [hc, hpath.path_ne_nil, hpath.fits, hpath.last]

/-- What copying a preimage back over its file, and taking it away, leaves. -/
theorem copyBack_frame (hio : io.Succeeds) (hlayout : Layout root backups eventId) (fs : Fs)
    {pf : ProtectedFile} {c : Content} (hrow : PreimageRow root backups eventId pf l)
    (hdirs : ∀ x, x <+: l → x ≠ l → fs.node (root ++ x) = some .directory)
    (hfile : fs.node (root ++ l) = none ∨ ∃ c, fs.node (root ++ l) = some (.regular c))
    (hbackup : fs.node (backups ++ l) = some (.regular c)) :
    ∃ fs', copyFile io pf.backupPath pf.originalPath fs = (true, fs') ∧
      (∀ l', l' ≠ l → fs'.node (root ++ l') = fs.node (root ++ l')) ∧
      fs'.node (root ++ l) = some (.regular c) ∧
      ∀ l', fs'.node (backups ++ l') = fs.node (backups ++ l') := by
  have hroot : root ≠ [] := by
    rintro rfl
    exact hlayout.rootBackups.1 List.nil_prefix
  have hapart : ∀ l', backups ++ l' ≠ root ++ l := fun l' =>
    (hlayout.rootBackups.ne (List.prefix_append _ _) (List.prefix_append _ _)).symm
  have hframe : ∀ {loc}, loc ≠ root ++ l →
      (copyFile io pf.backupPath pf.originalPath fs).2.node loc = fs.node loc := fun hloc =>
    copyFile_frame io pf.backupPath pf.originalPath fs (by rwa [hrow.path.comps])
  obtain ⟨fs', hcopy, hplace⟩ := copyFile_copies hio ((hrow.stat fs).trans hbackup)
    (hrow.path.canOverwrite hroot hdirs hfile)
    (by rw [hrow.backup, hrow.path.comps]; exact hapart l)
  rw [hcopy] at hframe
  rw [hrow.path.comps] at hplace
  exact ⟨fs', hcopy, fun l' hl' => hframe fun heq => hl' (List.append_cancel_left heq), hplace,
    fun l' => hframe (hapart l')⟩

/-- Taking a preimage away leaves the share and the other preimages. -/
theorem unlinkBackup_frame (hlayout : Layout root backups eventId) {pf : ProtectedFile}
    (hrow : PreimageRow root backups eventId pf l) (ok : Bool) (fs : Fs) :
    (∀ l', ((fs.unlink pf.backupPath ok).getD fs).node (root ++ l') = fs.node (root ++ l')) ∧
    (∀ l', l' ≠ l → ((fs.unlink pf.backupPath ok).getD fs).node (backups ++ l') =
      fs.node (backups ++ l')) ∧
    (((fs.unlink pf.backupPath ok).getD fs).node (backups ++ l) = fs.node (backups ++ l) ∨
      ((fs.unlink pf.backupPath ok).getD fs).node (backups ++ l) = none) := by
  cases hunlink : fs.unlink pf.backupPath ok with
  | none => exact ⟨fun _ => rfl, fun _ _ => rfl, .inl rfl⟩
  | some fs' =>
    obtain ⟨hgone, hframe⟩ := Fs.unlink_frame hunlink
    rw [hrow.backup] at hgone hframe
    exact ⟨fun l' => hframe _
      (hlayout.rootBackups.ne (List.prefix_append _ _) (List.prefix_append _ _)),
      fun l' hl' => hframe _ fun heq => hl' (List.append_cancel_left heq), .inr hgone⟩

/-- One preimage more. -/
theorem Restoring.step {saved : Loc → Option Content} {fs1 : Fs} {done : List Loc}
    {s : RecoverState} {pf : ProtectedFile} {c : Content} (hio : io.Succeeds)
    (hlayout : Layout root backups eventId) (hplaces : FilePlaces root fs1 S)
    (h : Restoring root backups saved fs1 done s.fs) (hdone : ∀ l ∈ done, S l) (hl : S l)
    (hrow : PreimageRow root backups eventId pf l) (hsaved : saved l = some c) :
    Restoring root backups saved fs1 (l :: done) (restoreOne io s pf).fs := by
  unfold restoreOne
  dsimp only
  rw [if_neg (not_not_intro hrow.pending), hrow.path.valid, hrow.stat, hrow.event]
  simp only [Bool.not_true, Bool.false_or, decide_eq_true_eq]
  rcases h.backups l c hsaved with hthere | ⟨hmem, hgone⟩
  · rw [if_neg (by rw [hthere]; simp)]
    have hdirs : ∀ x, x <+: l → x ≠ l → s.fs.node (root ++ x) = some .directory := by
      intro x hx hne
      have hdir := hplaces.dirs l hl x hx hne
      rw [h.share, if_neg fun hmem => hne (hplaces.eq_of_isPrefix (hdone x hmem) hl hx), hdir]
    have hfile : s.fs.node (root ++ l) = none ∨ ∃ c, s.fs.node (root ++ l) = some (.regular c) := by
      rw [h.share]
      split
      · exact .inr ⟨c, by rw [hsaved]; rfl⟩
      · exact hplaces.file l hl
    -- quarantine, directories, copy, unlink
    obtain ⟨hshare2, hbackups2, hfile2⟩ := quarantineCurrent_frame io hlayout hrow.path hfile
    generalize quarantineCurrent io eventId pf.originalPath s.fs = fs2 at hshare2 hbackups2 hfile2
    have hdirs2 : ∀ x, x <+: l → x ≠ l → fs2.node (root ++ x) = some .directory := fun x hx hne => by
      rw [hshare2 x hne, hdirs x hx hne]
    obtain ⟨hshare3, hbackups3⟩ := mkdirP_parent_frame hlayout hrow.path io.mkdirOk hdirs2
    generalize (fs2.mkdirP (Fs.parentPath pf.originalPath) io.mkdirOk).2 = fs3 at hshare3 hbackups3
    obtain ⟨fs4, hcopy, hshare4, hplace4, hbackups4⟩ := copyBack_frame hio hlayout fs3 hrow
      (fun x hx hne => by rw [hshare3, hdirs2 x hx hne]) (by rwa [hshare3])
      (by rw [hbackups3, hbackups2, hthere])
    rw [hcopy]
    obtain ⟨hshare5, hbackups5, hgone5⟩ := unlinkBackup_frame hlayout hrow io.unlinkOk fs4
    dsimp only
    generalize (fs4.unlink pf.backupPath io.unlinkOk).getD fs4 = fs5 at hshare5 hbackups5 hgone5
    have hbackups : ∀ l', fs4.node (backups ++ l') = s.fs.node (backups ++ l') := fun l' => by
      rw [hbackups4, hbackups3, hbackups2]
    refine ⟨fun l' => ?_, fun l' c' hl' => ?_⟩
    · rw [hshare5]
      by_cases hll : l' = l
      · subst hll
        rw [hplace4, if_pos List.mem_cons_self, hsaved]
        rfl
      · rw [hshare4 l' hll, hshare3, hshare2 l' hll, h.share]
        simp [hll]
    · by_cases hll : l' = l
      · subst hll
        rcases hgone5 with hsame | hnone
        · rw [hsame, hbackups]
          exact (h.backups l' c' hl').imp_right fun ⟨hm, hn⟩ => ⟨List.mem_cons_of_mem _ hm, hn⟩
        · exact .inr ⟨List.mem_cons_self, hnone⟩
      · rw [hbackups5 l' hll, hbackups]
        exact (h.backups l' c' hl').imp_right fun ⟨hm, hn⟩ => ⟨List.mem_cons_of_mem _ hm, hn⟩
  · -- another row of the same file was restored before
    rw [if_pos hgone]
    show Restoring root backups saved fs1 (l :: done) s.fs
    refine ⟨fun l' => ?_, fun l' c' hl' => (h.backups l' c' hl').imp_right
      fun ⟨hm, hn⟩ => ⟨List.mem_cons_of_mem _ hm, hn⟩⟩
    rw [h.share]
    by_cases hll : l' = l
    · subst hll
      rw [if_pos hmem, if_pos List.mem_cons_self]
    · simp [hll]

/-- All preimages. -/
theorem Restoring.run {saved : Loc → Option Content} {fs1 : Fs} {done : List Loc}
    {s : RecoverState} (hio : io.Succeeds) (hlayout : Layout root backups eventId)
    (hplaces : FilePlaces root fs1 S) (h : Restoring root backups saved fs1 done s.fs)
    (hdone : ∀ l ∈ done, S l) (pfs : List ProtectedFile)
    (hpfs : ∀ pf ∈ pfs, ∃ l, S l ∧ PreimageRow root backups eventId pf l ∧ (saved l).isSome) :
    ∃ all, Restoring root backups saved fs1 all (pfs.foldl (restoreOne io) s).fs ∧
      ∀ l, l ∈ all ↔ l ∈ done ∨ ∃ pf ∈ pfs, SharePath root eventId pf.originalPath l := by
  induction pfs generalizing s done with
  | nil => exact ⟨done, h, by simp⟩
  | cons pf pfs ih =>
    obtain ⟨l, hl, hrow, hsaved⟩ := hpfs pf List.mem_cons_self
    obtain ⟨c, hc⟩ := Option.isSome_iff_exists.1 hsaved
    obtain ⟨all, hall, hmem⟩ := ih (Restoring.step hio hlayout hplaces h hdone hl hrow hc)
      (fun l' hl' => (List.mem_cons.1 hl').elim (fun heq => heq ▸ hl) (hdone l'))
      fun pf' hpf' => hpfs pf' (List.mem_cons_of_mem _ hpf')
    refine ⟨all, hall, fun l' => ?_⟩
    rw [hmem, List.mem_cons]
    constructor
    · rintro ((rfl | hl') | ⟨pf', hpf', hp⟩)
      · exact .inr ⟨pf, List.mem_cons_self, hrow.path⟩
      · exact .inl hl'
      · exact .inr ⟨pf', List.mem_cons_of_mem _ hpf', hp⟩
    · rintro (hl' | ⟨pf', hpf', hp⟩)
      · exact .inl (.inr hl')
      · rcases List.mem_cons.1 hpf' with rfl | hpf'
        · exact .inl (.inl (hp.unique hrow.path))
        · exact .inr ⟨pf', hpf', hp⟩

/-- Taking files away leaves the places of files. -/
theorem FilePlaces.deleted {done : List Loc} (hplaces : FilePlaces root fs0 S)
    (hdone : ∀ l ∈ done, S l) (h : Deleting root backups eventId fs0 done fs) :
    FilePlaces root fs S where
  dirs l hl x hx hne := by
    rw [h.share, if_neg fun hmem => hne (hplaces.eq_of_isPrefix (hdone x hmem) hl hx)]
    exact hplaces.dirs l hl x hx hne
  file l hl := by
    rw [h.share]
    split
    · exact .inl rfl
    · exact hplaces.file l hl

/-- What a restore leaves in the share: the preimages, nothing where only a creation is
recorded, and what stood there before everywhere else. -/
theorem restoreEvent_node {db : Db} {saved : Loc → Option Content} {made : Loc → Bool}
    (hio : io.Succeeds) (hlayout : Layout root backups eventId)
    (hfresh : QuarantineFresh (quarantineLoc eventId) fs0) (hplaces : FilePlaces root fs0 S)
    (hcreated : ∀ cf ∈ db.queryCreatedByEvent eventId,
      ∃ l, S l ∧ SharePath root eventId cf.filePath l ∧ made l = true)
    (hmade : ∀ l, made l = true → ∃ cf ∈ db.queryCreatedByEvent eventId,
      SharePath root eventId cf.filePath l)
    (hrows : ∀ pf ∈ db.queryByEvent eventId,
      ∃ l, S l ∧ PreimageRow root backups eventId pf l ∧ (saved l).isSome)
    (hsaved : ∀ l, (saved l).isSome → ∃ pf ∈ db.queryByEvent eventId,
      SharePath root eventId pf.originalPath l)
    (hstored : ∀ l c, saved l = some c → fs0.node (backups ++ l) = some (.regular c)) (l : Loc) :
    (restoreEvent io eventId fs0 db).fs.node (root ++ l) =
      match saved l with
      | some c => some (.regular c)
      | none => if made l then none else fs0.node (root ++ l) := by
  obtain ⟨gone, hgone, hdb, hmem⟩ := Deleting.run (s := ⟨fs0, db, 0, 0, 0, 0, 0⟩) hio hlayout
    hplaces (Deleting.start hfresh) (by simp) (db.queryCreatedByEvent eventId)
    fun cf hcf => (hcreated cf hcf).imp fun _ h => ⟨h.1, h.2.1⟩
  have hgoneS : ∀ l ∈ gone, S l := fun l hl => by
    obtain ⟨cf, hcf, hp⟩ := ((hmem l).1 hl).resolve_left (by simp)
    obtain ⟨l', hl', hp', -⟩ := hcreated cf hcf
    exact hp.unique hp' ▸ hl'
  have hgoneMade : ∀ l, l ∈ gone ↔ made l = true := fun l => by
    rw [hmem]
    constructor
    · rintro (h | ⟨cf, hcf, hp⟩)
      · cases h
      · obtain ⟨l', -, hp', hl'⟩ := hcreated cf hcf
        exact hp.unique hp' ▸ hl'
    · exact fun h => .inr (hmade l h)
  unfold restoreEvent
  dsimp only
  generalize (db.queryCreatedByEvent eventId).foldl (deleteCreatedOne io eventId)
    ⟨fs0, db, 0, 0, 0, 0, 0⟩ = s1 at hgone hdb
  rw [hdb]
  have hstart : Restoring root backups saved s1.fs [] s1.fs :=
    ⟨fun _ => rfl, fun l c hl => .inl ((hgone.backups l).trans (hstored l c hl))⟩
  obtain ⟨back, hback, hmem'⟩ := Restoring.run hio hlayout (hplaces.deleted hgoneS hgone) hstart
    (by simp) _ hrows
  have hbackSaved : l ∈ back ↔ (saved l).isSome := by
    rw [hmem']
    constructor
    · rintro (h | ⟨pf, hpf, hp⟩)
      · cases h
      · obtain ⟨l', -, hrow, hl'⟩ := hrows pf hpf
        exact hp.unique hrow.path ▸ hl'
    · exact fun h => .inr (hsaved l h)
  rw [hback.share, hgone.share]
  simp only [hbackSaved, hgoneMade]
  cases hl : saved l <;> simp

end

end GfrGuard
