import GfrGuard.CanonicalPaths

/-!
# What a restore is for

`cmd_restore` when nothing fails: every protected path gets its preimage back, the created files go,
what stood at these paths is in the quarantine of the event, and nothing else changes
(`restore_does_job`), when the preimages are different files apart from the recorded paths and these
are outside of the quarantine. Two rows that share a preimage, a preimage at a created path, or a path
in the quarantine break it (`restore_not_always_does_job`).
-/

namespace GfrGuard

namespace Linked

open LinkTree

/-! ## The command -/

section
variable (io : LinkedIo)

/-- The two phases of `cmd_restore`. -/
def restoreEvent (eventId : CStr) (fs : Traced) (db : Db) : LinkedState :=
  let s := (db.queryCreatedByEvent eventId).foldl (deleteCreatedOne io eventId) ⟨fs, db, 0, 0, 0, 0, 0⟩
  (s.db.queryByEvent eventId).foldl (restoreOne io) s

/-- `cmd_restore`: the exit status, the tree and the database. -/
def cmdRestore (argv : List CStr) (fs : Traced) (db : Db) : Nat × Traced × Db :=
  match eventArg argv with
  | none => (1, fs, db)
  | some eventId =>
    let s := restoreEvent io eventId fs db
    if s.total = 0 ∧ s.deleted = 0 then (1, s.fs, s.db)
    else
      (if 0 < s.fail then 2 else 0, s.fs,
        s.db.updateEvent eventId s.success 0 0 (some (lit "restored")) (some (lit "resolved")) (some io.now))

end

/-! ## The job -/

/-- The paths of created files and of rows. -/
def pathsOf (cfs : List CreatedFile) (pfs : List ProtectedFile) : List CStr :=
  cfs.map (·.filePath) ++ pfs.map (·.originalPath)

/-- The recorded paths of an event. -/
def jobPaths (eventId : CStr) (db : Db) : List CStr :=
  pathsOf (db.queryCreatedByEvent eventId) (db.queryByEvent eventId)

/-- No system call fails for a reason outside of the tree. -/
structure LinkedIo.Succeeds (io : LinkedIo) : Prop where
  mkdirOk : ∀ l, io.mkdirOk l = true
  renameOk : ∀ src dst, io.renameOk src dst = true
  createOk : ∀ l, io.createOk l = true
  copyOk : io.copyOk = true
  unlinkOk : ∀ l, io.unlinkOk l = true

/-- An event that can be restored: its paths are canonical, none is or is above another, and nothing
but directories stands above them; the preimages are there; nothing is quarantined for it yet. -/
structure RestoreJob (io : LinkedIo) (eventId : CStr) (t : Links) (db : Db) (saved : ProtectedFile → Content) :
    Prop where
  calls : io.Succeeds
  grounded : Grounded t
  pending : ∀ pf ∈ db.queryByEvent eventId, pf.restoreStatus = lit "pending"
  paths : ∀ path ∈ jobPaths eventId db, Canonical path ∧ (quarantineFor eventId path).length < pathMax
  apart : (jobPaths eventId db).Pairwise fun a b => Apart (pathComponents a) (pathComponents b)
  above : ∀ path ∈ jobPaths eventId db, ∀ p, p <+: pathComponents path → p ≠ pathComponents path →
    t.lookup p = none ∨ t.lookup p = some .dir
  backups : ∀ pf ∈ db.queryByEvent eventId, Canonical pf.backupPath ∧
    t.lookup (pathComponents pf.backupPath) = some (.file (saved pf))
  event : Canonical (quarantinePath ++ slash :: eventId)
  quarantine : ∀ p, p <+: quarantineLoc eventId → t.lookup p = none ∨ t.lookup p = some .dir
  empty : ∀ x, x ≠ [] → t.lookup (quarantineLoc eventId ++ x) = none

/-- No two rows share a preimage. -/
def OwnPreimages (eventId : CStr) (db : Db) : Prop :=
  (db.queryByEvent eventId).Pairwise fun a b => pathComponents a.backupPath ≠ pathComponents b.backupPath

/-- The preimages are apart from the recorded paths. -/
def PreimagesApart (eventId : CStr) (db : Db) : Prop :=
  ∀ pf ∈ db.queryByEvent eventId, ∀ path ∈ jobPaths eventId db,
    Apart (pathComponents pf.backupPath) (pathComponents path)

/-- The recorded paths are outside of the quarantine of the event, and not above it. -/
def PathsOutside (eventId : CStr) (db : Db) : Prop :=
  ∀ path ∈ jobPaths eventId db, Apart (quarantineLoc eventId) (pathComponents path)

/-- The recorded paths, their preimages and the quarantine are apart. -/
structure JobApart (eventId : CStr) (db : Db) : Prop where
  backups : OwnPreimages eventId db
  preimages : PreimagesApart eventId db
  outside : PathsOutside eventId db

/-- A place is as it was, or became a directory above these paths or the quarantine. -/
def AsBefore (eventId : CStr) (paths : List CStr) (t₀ t : Links) (loc : Loc) : Prop :=
  t.lookup loc = t₀.lookup loc ∨ t₀.lookup loc = none ∧ t.lookup loc = some .dir ∧
    (loc <+: quarantineLoc eventId ∨ ∃ path ∈ paths, loc <+: pathComponents path)

/-- The job is done: from the tree `t` to the tree and the database of the end. -/
structure JobDone (eventId : CStr) (t : Links) (db : Db) (saved : ProtectedFile → Content) (t' : Links) (db' : Db) :
    Prop where
  restored : ∀ pf ∈ db.queryByEvent eventId,
    t'.lookup (pathComponents pf.originalPath) = some (.file (saved pf))
  deleted : ∀ cf ∈ db.queryCreatedByEvent eventId, ∀ c,
    t.lookup (pathComponents cf.filePath) = some (.file c) →
      t'.lookup (pathComponents cf.filePath) = none ∧
        t'.lookup (quarantineLoc eventId ++ pathComponents cf.filePath) = some (.file c)
  /-- A file that stood at a protected path, or in a directory there. -/
  displaced : ∀ pf ∈ db.queryByEvent eventId, ∀ rest c,
    t.lookup (pathComponents pf.originalPath ++ rest) = some (.file c) →
      t'.lookup (quarantineLoc eventId ++ (pathComponents pf.originalPath ++ rest)) = some (.file c)
  rows : ∀ row ∈ db'.queryByEvent eventId, row.restoreStatus = lit "restored"
  other : ∀ loc, ¬ quarantineLoc eventId <+: loc →
    (∀ cf ∈ db.queryCreatedByEvent eventId, loc ≠ pathComponents cf.filePath) →
    (∀ pf ∈ db.queryByEvent eventId, ¬ pathComponents pf.originalPath <+: loc) →
    (∀ pf ∈ db.queryByEvent eventId, loc ≠ pathComponents pf.backupPath) →
      AsBefore eventId (jobPaths eventId db) t t' loc

section
variable {io : LinkedIo} {eventId path : CStr} {t t' t'' : Links} {s s' : Traced} {q l loc src dst p : Loc}
  {n : LinkNode CStr Content} {content : Content}

/-! ## Nothing below what is no directory -/

theorem grounded_madeWay {way : Loc} (h : Grounded t) (hmade : MadeWay way t t')
    (hdirs : ∀ p, p <+: way → t'.lookup p = some .dir) : Grounded t' := by
  intro p loc hp hne hsome
  rcases hmade loc with hsame | ⟨-, -, hway⟩
  · rw [hsame] at hsome
    exact hmade.madeDirs.some (h p loc hp hne hsome)
  · exact hdirs p (hp.trans hway)

theorem grounded_put (h : Grounded t) (hdirs : ∀ p, p <+: loc → p ≠ loc → t.lookup p = some .dir)
    (hdir : t.lookup loc ≠ some .dir) (n : LinkNode CStr Content) : Grounded (put t loc n) := by
  intro p loc' hp hne hsome
  by_cases hloc : loc' = loc
  · subst hloc
    rw [lookup_put_of_ne hne]
    exact hdirs p hp hne
  · rw [lookup_put_of_ne hloc] at hsome
    have hpdir := h p loc' hp hne hsome
    rw [lookup_put_of_ne (by rintro rfl; exact hdir hpdir)]
    exact hpdir

theorem grounded_remove (h : Grounded t) (hne : loc ≠ []) (hempty : ∀ rest, rest ≠ [] → t.lookup (loc ++ rest) = none) :
    Grounded (remove t loc) := by
  intro p loc' hp hpne hsome
  by_cases hloc : loc' = loc
  · rw [hloc, lookup_remove_self hne] at hsome
    cases hsome
  · rw [lookup_remove_of_ne hloc] at hsome
    have hpl : p ≠ loc := by
      rintro rfl
      obtain ⟨rest, rfl⟩ := hp
      rw [hempty rest (by rintro rfl; exact hpne (List.append_nil p).symm)] at hsome
      cases hsome
    rw [lookup_remove_of_ne hpl]
    exact h p loc' hp hpne hsome

theorem grounded_moveTree (h : Grounded t) (hapart : Apart src dst)
    (hdirs : ∀ p, p <+: dst → p ≠ dst → t.lookup p = some .dir) : Grounded (moveTree t src dst) := by
  have hdst : dst ≠ [] := by
    rintro rfl
    exact hapart.2 List.nil_prefix
  have hkept {p : Loc} (hsrc : ¬ src <+: p) (hnot : ¬ dst <+: p) (hp : t.lookup p = some .dir) :
      (moveTree t src dst).lookup p = some .dir := by
    rw [lookup_moveTree_of_not_isPrefix hsrc hnot]
    exact hp
  intro p loc hp hne hsome
  by_cases hd : dst <+: loc
  · obtain ⟨rest, rfl⟩ := hd
    by_cases hpd : dst <+: p
    · obtain ⟨rest', rfl⟩ := hpd
      have hsrc : src ≠ [] := by
        rintro rfl
        exact hapart.1 List.nil_prefix
      have hnode {r : Loc} : t.node (src ++ r) = t.lookup (src ++ r) := by
        rw [LinkTree.lookup, if_neg fun h => hsrc (List.append_eq_nil_iff.1 h).1]
      rw [lookup_moveTree_below hdst, hnode] at hsome ⊢
      refine h _ _ ?_ (fun heq => hne ?_) hsome
      · exact (List.prefix_append_right_inj src).2 ((List.prefix_append_right_inj dst).1 hp)
      · rw [List.append_cancel_left heq]
    · have hpre : p <+: dst := (List.prefix_or_prefix_of_prefix hp (List.prefix_append dst rest)).resolve_right hpd
      exact hkept (fun hs => hapart.1 (hs.trans hpre)) hpd
        (hdirs p hpre fun heq => hpd (heq ▸ List.prefix_refl p))
  · by_cases hs : src <+: loc
    · have hnil : loc ≠ [] := by
        rintro rfl
        exact hne (List.prefix_nil.1 hp)
      rw [lookup_moveTree_source hs hd hnil] at hsome
      cases hsome
    · rw [lookup_moveTree_of_not_isPrefix hs hd] at hsome
      exact hkept (fun h => hs (h.trans hp)) (fun h => hd (h.trans hp)) (h p loc hp hne hsome)

/-! ## What one path changes -/

/-- The places a path and its preimage let change: those at or below the path and its slot, the
preimage, and directories that are made above. -/
def Frame (q l : Loc) (b : Option Loc) (t t' : Links) : Prop :=
  ∀ loc, ¬ l <+: loc → ¬ q ++ l <+: loc → loc ∉ b →
    t'.lookup loc = t.lookup loc ∨
      t.lookup loc = none ∧ t'.lookup loc = some .dir ∧ (loc <+: q ++ l ∨ loc <+: l)

theorem Frame.refl (q l : Loc) (b : Option Loc) (t : Links) : Frame q l b t t := fun _ _ _ _ => .inl rfl

theorem Frame.trans {b : Option Loc} (h : Frame q l none t t') (h' : Frame q l b t' t'') : Frame q l b t t'' := by
  intro loc hl hq hb
  rcases h loc hl hq (by simp) with hsame | ⟨hnone, hdir, hp⟩
  · rw [← hsame]
    exact h' loc hl hq hb
  · rcases h' loc hl hq hb with hsame' | ⟨hnone', -⟩
    · exact .inr ⟨hnone, hsame'.trans hdir, hp⟩
    · rw [hdir] at hnone'
      cases hnone'

/-- What is quarantined and what is apart stays. -/
theorem Frame.some {b : Option Loc} (h : Frame q l b t t') (hl : ¬ l <+: loc) (hq : ¬ q ++ l <+: loc) (hb : loc ∉ b)
    (hn : t.lookup loc = some n) : t'.lookup loc = some n := by
  rcases h loc hl hq hb with hsame | ⟨hnone, -⟩
  · exact hsame.trans hn
  · rw [hn] at hnone
    cases hnone

theorem MadeWay.frame {way : Loc} {b : Option Loc} (h : MadeWay way t t') (hway : way <+: q ++ l ∨ way <+: l) :
    Frame q l b t t' := fun loc _ _ _ =>
  (h loc).imp_right fun ⟨hnone, hdir, hp⟩ => ⟨hnone, hdir, hway.imp hp.trans hp.trans⟩

/-- A slot in the quarantine has a canonical path. -/
theorem Canonical.quarantineFor (h : Canonical path) (hevent : Canonical (quarantinePath ++ slash :: eventId))
    (hfits : (quarantineFor eventId path).length < pathMax) : Canonical (quarantineFor eventId path) := by
  obtain ⟨rel, rfl⟩ := List.head?_eq_some_iff.1 h.head
  have hcomps := pathComponents_quarantineFor eventId (slash :: rel)
  have heq : GfrGuard.quarantineFor eventId (slash :: rel) = quarantinePath ++ slash :: eventId ++ slash :: rel := rfl
  refine ⟨?_, ?_, ?_, ?_, hfits⟩
  · rw [heq, List.append_assoc, List.head?_append, show quarantinePath.head? = some slash by decide,
      Option.some_or]
  · have hlast := h.last
    rw [heq, List.getLast?_append, Option.or_of_isSome (by simp)]
    exact hlast
  · rw [hcomps, List.mem_append, not_or]
    exact ⟨hevent.here, h.here⟩
  · rw [hcomps, List.mem_append, not_or]
    exact ⟨hevent.up, h.up⟩

/-- What the tree is like when a path comes up: its slot is free, with directories above both. -/
structure Ready (eventId path : CStr) (t : Links) : Prop where
  grounded : Grounded t
  above : ∀ p, p <+: pathComponents path → p ≠ pathComponents path → t.lookup p = none ∨ t.lookup p = some .dir
  slot : ∀ p, p <+: quarantineLoc eventId ++ pathComponents path →
    p ≠ quarantineLoc eventId ++ pathComponents path → t.lookup p = none ∨ t.lookup p = some .dir
  free : t.lookup (quarantineLoc eventId ++ pathComponents path) = none
  apart : Apart (quarantineLoc eventId) (pathComponents path)

/-- The directories of the slot were made; the slot is free, and the path as it was. -/
structure SlotMade (io : LinkedIo) (eventId path : CStr) (t t' : Links) : Prop where
  grounded : Grounded t'
  way : MadeWay (pathComponents (Fs.parentPath (GfrGuard.quarantineFor eventId path))) t t'
  dirs : ∀ p, p <+: quarantineLoc eventId ++ pathComponents path →
    p ≠ quarantineLoc eventId ++ pathComponents path → t'.lookup p = some .dir
  free : t'.lookup (quarantineLoc eventId ++ pathComponents path) = none
  plain : quarantineUnique io t' (GfrGuard.quarantineFor eventId path) = GfrGuard.quarantineFor eventId path
  same : ∀ rest, t'.lookup (pathComponents path ++ rest) = t.lookup (pathComponents path ++ rest)

theorem Ready.slotMade (h : Ready eventId path s.tree) (io : LinkedIo) (hmkdir : ∀ l, io.mkdirOk l = true)
    (hslot : Canonical (quarantineFor eventId path)) :
    SlotMade io eventId path s.tree (mkdirP io s (Fs.parentPath (quarantineFor eventId path))).2.tree := by
  have hq := pathComponents_quarantineFor eventId path
  obtain ⟨hdirs, hmade⟩ := hslot.mkdirP (s := s) hmkdir (by rw [hq]; exact h.slot)
  have hon : ∀ p, p <+: pathComponents (Fs.parentPath (quarantineFor eventId path)) →
      p <+: quarantineLoc eventId ++ pathComponents path ∧ p ≠ quarantineLoc eventId ++ pathComponents path := by
    rw [← hq]
    exact fun p hp => hslot.above_iff.2 hp
  have hfree : (mkdirP io s (Fs.parentPath (quarantineFor eventId path))).2.tree.lookup
      (quarantineLoc eventId ++ pathComponents path) = none := by
    rcases hmade (quarantineLoc eventId ++ pathComponents path) with hsame | ⟨-, -, hp⟩
    · exact hsame.trans h.free
    · exact absurd rfl (hon _ hp).2
  refine ⟨grounded_madeWay h.grounded hmade fun p hp => hdirs p (hslot.above_iff.2 hp).1 (hslot.above_iff.2 hp).2,
    hmade, by rwa [hq] at hdirs, hfree, ?_, fun rest => ?_⟩
  · unfold quarantineUnique
    rw [if_pos]
    rw [lstat, hslot.find hdirs, Option.bind_some, hq, hfree]
  · rcases hmade (pathComponents path ++ rest) with hsame | ⟨-, -, hp⟩
    · exact hsame
    · exact absurd (hon _ hp).1 (h.apart.symm.not_on_way (List.prefix_append _ _) (List.prefix_append _ _))

/-- What stood at the path, and all below it, is in its slot. -/
structure Moved (eventId path : CStr) (t t' : Links) : Prop where
  grounded : Grounded t'
  gone : ∀ rest, t'.lookup (pathComponents path ++ rest) = none
  slot : ∀ rest, t'.lookup (quarantineLoc eventId ++ (pathComponents path ++ rest)) =
    t.lookup (pathComponents path ++ rest)
  frame : Frame (quarantineLoc eventId) (pathComponents path) none t t'

/-- What stands at the path goes to its slot, with all below it. -/
theorem Ready.move (h : Ready eventId path s.tree) (hmkdir : ∀ l, io.mkdirOk l = true)
    (hrename : ∀ src dst, io.renameOk src dst = true) (hpath : Canonical path)
    (hslot : Canonical (quarantineFor eventId path)) (isRegular : Bool)
    (hn : s.tree.lookup (pathComponents path) = some n) :
    ∃ s', moveToQuarantine io path (quarantineFor eventId path) isRegular s = (true, s') ∧
      Moved eventId path s.tree s'.tree := by
  have hq := pathComponents_quarantineFor eventId path
  have hon {p : Loc} (hp : p <+: pathComponents (Fs.parentPath (quarantineFor eventId path))) :
      p <+: quarantineLoc eventId ++ pathComponents path := hq ▸ (hslot.above_iff.2 hp).1
  obtain ⟨hground, hmade, hdirs, hfree, hunique, hsame⟩ := h.slotMade io hmkdir hslot
  unfold moveToQuarantine
  dsimp only
  generalize (Linked.mkdirP io s (Fs.parentPath (quarantineFor eventId path))).2 = s₁ at *
  have hn₁ := hmade.madeDirs.some hn
  have hapart : Apart (pathComponents path) (quarantineLoc eventId ++ pathComponents path) :=
    h.apart.symm.extend (List.prefix_append _ _)
  rw [hunique, hpath.rename hslot hrename hn₁ (fun p hp hne => hground p _ hp hne (by rw [hn₁]; rfl))
    (by rwa [hq]) (by rwa [hq]) (by rwa [hq]), hq]
  have hdst : quarantineLoc eventId ++ pathComponents path ≠ [] := fun h0 =>
    hpath.place_ne_nil (List.append_eq_nil_iff.1 h0).2
  have hsrc {rest : Loc} : pathComponents path ++ rest ≠ [] := fun h0 =>
    hpath.place_ne_nil (List.append_eq_nil_iff.1 h0).1
  refine ⟨_, rfl, grounded_moveTree hground hapart hdirs, fun rest => ?_, fun rest => ?_, ?_⟩
  · exact lookup_moveTree_source (List.prefix_append _ _)
      (fun hd => hapart.symm.not_isPrefix hd (List.prefix_append _ _)) hsrc
  · change (moveTree s₁.tree _ _).lookup _ = _
    rw [← List.append_assoc, lookup_moveTree_below hdst, ← hsame, LinkTree.lookup, if_neg hsrc]
  · intro loc hl hqloc _
    dsimp only [Traced.change]
    rw [lookup_moveTree_of_not_isPrefix hl hqloc]
    exact hmade.frame (l := pathComponents path) (b := none) (.inl (hon (List.prefix_refl _))) loc hl hqloc (by simp)

/-- What is found at a path that comes up stands at its place. -/
theorem Ready.lstat (h : Ready eventId path t) (io : LinkedIo) (hpath : Canonical path) :
    lstat io t path = t.lookup (pathComponents path) :=
  hpath.lstat_eq h.grounded (hpath.noLinks h.above)

/-- A created path was taken away. -/
structure Deleted (eventId path : CStr) (t t' : Links) : Prop where
  grounded : Grounded t'
  frame : Frame (quarantineLoc eventId) (pathComponents path) none t t'
  below : ∀ rest, rest ≠ [] → t'.lookup (pathComponents path ++ rest) = t.lookup (pathComponents path ++ rest)
  gone : ∀ c, t.lookup (pathComponents path) = some (.file c) → t'.lookup (pathComponents path) = none ∧
    t'.lookup (quarantineLoc eventId ++ pathComponents path) = some (.file c)

/-- Nothing is taken away where no file is. -/
theorem Deleted.refl (hground : Grounded t) (hfile : ∀ c, t.lookup (pathComponents path) ≠ some (.file c)) :
    Deleted eventId path t t :=
  ⟨hground, .refl _ _ _ _, fun _ _ => rfl, fun c hc => absurd hc (hfile c)⟩

/-- What is no file and has nothing below it is removed. -/
theorem Deleted.remove (hground : Grounded t) (hne : pathComponents path ≠ [])
    (hfile : ∀ c, t.lookup (pathComponents path) ≠ some (.file c))
    (hempty : ∀ rest, rest ≠ [] → t.lookup (pathComponents path ++ rest) = none) :
    Deleted eventId path t (remove t (pathComponents path)) where
  grounded := grounded_remove hground hne hempty
  frame loc hl _ _ := .inl (lookup_remove_of_ne (by rintro rfl; exact hl (List.prefix_refl _)))
  below rest hrest := lookup_remove_of_ne fun h =>
    hrest (List.append_cancel_left (h.trans (List.append_nil _).symm))
  gone c hc := absurd hc (hfile c)

theorem Ready.delete {st : LinkedState} {cf : CreatedFile} (h : Ready eventId cf.filePath st.fs.tree)
    (hio : io.Succeeds) (hpath : Canonical cf.filePath)
    (hslot : Canonical (quarantineFor eventId cf.filePath)) :
    Deleted eventId cf.filePath st.fs.tree (deleteCreatedOne io eventId st cf).fs.tree := by
  have hlstat := h.lstat io hpath
  unfold deleteCreatedOne
  rw [hpath.valid, hlstat]
  simp only [Bool.not_true, Bool.false_eq_true, if_false]
  have hdone (r : Bool × Traced) (hr : Deleted eventId cf.filePath st.fs.tree r.2.tree) :
      Deleted eventId cf.filePath st.fs.tree (if r.1 then { st with fs := r.2, deleted := st.deleted + 1 }
        else { st with fs := r.2, deleteFailed := st.deleteFailed + 1 } : LinkedState).fs.tree := by
    split <;> exact hr
  split
  · next hnone => exact .refl h.grounded (by simp [hnone])
  · next content hfile =>
    refine hdone _ ?_
    rw [snprintf_of_lt hslot.fits]
    obtain ⟨s', hmove, hground, hgone, hmoved, hframe⟩ := h.move hio.mkdirOk hio.renameOk hpath hslot true hfile
    rw [hmove]
    have hbelow : ∀ rest, rest ≠ [] → st.fs.tree.lookup (pathComponents cf.filePath ++ rest) = none :=
      fun rest hrest => h.grounded.below (by rw [hfile]; exact nofun) hrest
    refine ⟨hground, hframe, fun rest hrest => (hgone rest).trans (hbelow rest hrest).symm, fun c hc => ⟨?_, ?_⟩⟩
    · have := hgone []
      rwa [List.append_nil] at this
    · have := hmoved []
      rw [List.append_nil] at this
      exact this.trans hc
  · next absolute target hlink =>
    refine hdone _ ?_
    rw [hpath.unlink hio.unlinkOk hlink nofun fun p hp hne => h.grounded p _ hp hne (by rw [hlink]; rfl)]
    exact .remove h.grounded hpath.place_ne_nil (by simp [hlink]) fun rest hrest =>
      h.grounded.below (by rw [hlink]; exact nofun) hrest
  · next hdir =>
    refine hdone _ ?_
    unfold Linked.rmdir
    rw [hpath.entry fun p hp hne => h.grounded p _ hp hne (by rw [hdir]; rfl)]
    dsimp only
    split
    · next hok =>
      simp only [Bool.and_eq_true, decide_eq_true_eq] at hok
      refine .remove h.grounded hpath.place_ne_nil (by simp [hdir]) fun rest hrest => ?_
      cases rest with
      | nil => exact absurd rfl hrest
      | cons name rest =>
        rw [LinkTree.lookup, if_neg (by simp)]
        exact io.rmdirEmpty _ _ hok.2 name rest
    · exact .refl h.grounded (by simp [hdir])
  · next hother => exact .refl h.grounded (by simp [hother])

/-- A path got its preimage back. -/
structure Restored (eventId path : CStr) (b : Loc) (content : Content) (t t' : Links) : Prop where
  grounded : Grounded t'
  frame : Frame (quarantineLoc eventId) (pathComponents path) (some b) t t'
  file : t'.lookup (pathComponents path) = some (.file content)
  moved : ∀ rest c, t.lookup (pathComponents path ++ rest) = some (.file c) →
    t'.lookup (quarantineLoc eventId ++ (pathComponents path ++ rest)) = some (.file c)

/-- What is left when what stands at the path went to its slot. -/
structure Emptied (eventId path : CStr) (t t' : Links) : Prop where
  grounded : Grounded t'
  frame : Frame (quarantineLoc eventId) (pathComponents path) none t t'
  free : t'.lookup (pathComponents path) = none
  moved : ∀ rest c, t.lookup (pathComponents path ++ rest) = some (.file c) →
    t'.lookup (quarantineLoc eventId ++ (pathComponents path ++ rest)) = some (.file c)

theorem Ready.empty (h : Ready eventId path s.tree) (hio : io.Succeeds) (hpath : Canonical path)
    (hslot : Canonical (quarantineFor eventId path)) :
    Emptied eventId path s.tree (quarantineCurrent io eventId path s).tree := by
  have hlstat := h.lstat io hpath
  unfold quarantineCurrent
  rw [hlstat]
  split
  · next hnone =>
    refine ⟨h.grounded, .refl _ _ _ _, hnone, fun rest c hc => ?_⟩
    by_cases hrest : rest = []
    · rw [hrest, List.append_nil, hnone] at hc
      cases hc
    · rw [h.grounded.below (by rw [hnone]; exact nofun) hrest] at hc
      cases hc
  · next cur hcur =>
    rw [if_neg (Nat.not_le.2 hslot.fits)]
    obtain ⟨s', hmove, hground, hgone, hmoved, hframe⟩ := h.move hio.mkdirOk hio.renameOk hpath hslot
      (isRegular cur) hcur
    rw [hmove]
    refine ⟨hground, hframe, ?_, fun rest c hc => (hmoved rest).trans hc⟩
    have := hgone []
    rwa [List.append_nil] at this

/-- One row: the path is emptied, its directory made, and the preimage copied back and removed. -/
theorem Ready.restore {st : LinkedState} {pf : ProtectedFile}
    (h : Ready pf.eventId pf.originalPath st.fs.tree) (hio : io.Succeeds) (hpath : Canonical pf.originalPath)
    (hslot : Canonical (quarantineFor pf.eventId pf.originalPath))
    (hpending : pf.restoreStatus = lit "pending") (hbackup : Canonical pf.backupPath)
    (hb : st.fs.tree.lookup (pathComponents pf.backupPath) = some (.file content))
    (hbpath : Apart (pathComponents pf.backupPath) (pathComponents pf.originalPath))
    (hbq : Apart (pathComponents pf.backupPath) (quarantineLoc pf.eventId)) :
    Restored pf.eventId pf.originalPath (pathComponents pf.backupPath) content st.fs.tree
        (restoreOne io st pf).fs.tree ∧
      (restoreOne io st pf).db = st.db.updateRestoreStatus pf.id (lit "restored") io.now := by
  have hstat : (stat io st.fs.tree pf.backupPath).isNone = false := by
    rw [hbackup.stat_file h.grounded hb]
    rfl
  unfold restoreOne
  dsimp only
  rw [if_neg (not_not.2 hpending), hpath.valid, hstat, snprintf_of_lt hpath.fits]
  simp only [Bool.not_true, Bool.or_self, Bool.false_eq_true, if_false]
  -- the path is emptied
  obtain ⟨hground₁, hframe₁, hfree₁, hmoved₁⟩ := h.empty hio hpath hslot
  generalize quarantineCurrent io pf.eventId pf.originalPath st.fs = s₁ at hground₁ hframe₁ hfree₁ hmoved₁ ⊢
  have hb₁ : s₁.tree.lookup (pathComponents pf.backupPath) = some (.file content) :=
    hframe₁.some hbpath.2 (fun hq => hbq.2 ((List.prefix_append _ _).trans hq)) (by simp) hb
  -- its directory is made
  obtain ⟨hdirs₂, hmade₂⟩ := hpath.mkdirP (s := s₁) hio.mkdirOk fun p hp hne => by
    have hbelow : ¬ pathComponents pf.originalPath <+: p := fun hl => hne (hp.eq_of_length_le hl.length_le)
    have hslotbelow : ¬ quarantineLoc pf.eventId ++ pathComponents pf.originalPath <+: p := fun hq =>
      h.apart.1 (((List.prefix_append _ _).trans hq).trans hp)
    rcases hframe₁ p hbelow hslotbelow (by simp) with hsame | ⟨-, hdir, -⟩
    · rw [hsame]
      exact h.above p hp hne
    · exact .inr hdir
  have hground₂ := grounded_madeWay hground₁ hmade₂ fun p hp =>
    hdirs₂ p (hpath.above_iff.2 hp).1 (hpath.above_iff.2 hp).2
  have hframe₂ := hframe₁.trans (hmade₂.frame (b := some (pathComponents pf.backupPath))
    (.inr (hpath.above_iff.2 (List.prefix_refl _)).1))
  generalize (mkdirP io s₁ (Fs.parentPath pf.originalPath)).2 = s₂ at hdirs₂ hmade₂ hground₂ hframe₂ ⊢
  have hfree₂ : s₂.tree.lookup (pathComponents pf.originalPath) = none := by
    rcases hmade₂ (pathComponents pf.originalPath) with hsame | ⟨-, -, hp⟩
    · exact hsame.trans hfree₁
    · exact absurd rfl (hpath.above_iff.2 hp).2
  have hb₂ := hmade₂.madeDirs.some hb₁
  have hbabove : ∀ p, p <+: pathComponents pf.backupPath → p ≠ pathComponents pf.backupPath →
      s₂.tree.lookup p = some .dir := fun p hp hne => hground₂ p _ hp hne (by rw [hb₂]; rfl)
  have hne : pathComponents pf.backupPath ≠ pathComponents pf.originalPath :=
    hbpath.ne (List.prefix_refl _) (List.prefix_refl _)
  -- the preimage is copied back and removed
  obtain ⟨s₃, hcopy, htree₃⟩ := hbackup.copyFile hpath hio.createOk hio.copyOk hb₂ hbabove hdirs₂ (.inl hfree₂) hne
  rw [hcopy]
  have hground₃ : Grounded s₃.tree := by
    rw [htree₃]
    exact grounded_put hground₂ hdirs₂ (by rw [hfree₂]; exact nofun) _
  have hb₃ : s₃.tree.lookup (pathComponents pf.backupPath) = some (.file content) := by
    rw [htree₃, lookup_put_of_ne hne, hb₂]
  have hunlink := hbackup.unlink hio.unlinkOk hb₃ nofun fun p hp hpne => hground₃ p _ hp hpne (by rw [hb₃]; rfl)
  dsimp only
  rw [hunlink]
  refine ⟨⟨?_, ?_, ?_, fun rest c hc => ?_⟩, rfl⟩
  · exact grounded_remove hground₃ hbackup.place_ne_nil fun rest hrest =>
      hground₃.below (by rw [hb₃]; exact nofun) hrest
  · intro loc hl hq hbloc
    have hlocb : loc ≠ pathComponents pf.backupPath := fun heq => hbloc (by rw [heq]; rfl)
    have hlocl : loc ≠ pathComponents pf.originalPath := by
      rintro rfl
      exact hl (List.prefix_refl _)
    dsimp only [Traced.change]
    rw [lookup_remove_of_ne hlocb, htree₃, lookup_put_of_ne hlocl]
    exact hframe₂ loc hl hq hbloc
  · dsimp only [Traced.change]
    rw [lookup_remove_of_ne hne.symm, htree₃, lookup_put_self hpath.place_ne_nil]
  · dsimp only [Traced.change]
    rw [lookup_remove_of_ne fun heq => hbq.2 ⟨_, heq⟩, htree₃,
      lookup_put_of_ne fun heq => h.apart.1 ⟨_, heq⟩]
    exact hmade₂.madeDirs.some (hmoved₁ rest c hc)

/-! ## The run -/

/-- The tree after some of the created files and of the rows: from the tree `t₀`. -/
structure Progress (eventId : CStr) (t₀ : Links) (saved : ProtectedFile → Content) (cfs : List CreatedFile)
    (pfs : List ProtectedFile) (t : Links) : Prop where
  grounded : Grounded t
  other : ∀ loc, ¬ quarantineLoc eventId <+: loc → (∀ cf ∈ cfs, loc ≠ pathComponents cf.filePath) →
    (∀ pf ∈ pfs, ¬ pathComponents pf.originalPath <+: loc) →
    (∀ pf ∈ pfs, loc ≠ pathComponents pf.backupPath) → AsBefore eventId (pathsOf cfs pfs) t₀ t loc
  way : ∀ p, p <+: quarantineLoc eventId → t.lookup p = none ∨ t.lookup p = some .dir
  /-- In the quarantine are slots of these paths, what is below them, and directories above. -/
  slots : ∀ x n, x ≠ [] → t.lookup (quarantineLoc eventId ++ x) = some n →
    ∃ path ∈ pathsOf cfs pfs, n = .dir ∧ x <+: pathComponents path ∨ pathComponents path <+: x
  deleted : ∀ cf ∈ cfs, ∀ c, t₀.lookup (pathComponents cf.filePath) = some (.file c) →
    t.lookup (pathComponents cf.filePath) = none ∧
      t.lookup (quarantineLoc eventId ++ pathComponents cf.filePath) = some (.file c)
  restored : ∀ pf ∈ pfs, t.lookup (pathComponents pf.originalPath) = some (.file (saved pf))
  displaced : ∀ pf ∈ pfs, ∀ rest c, t₀.lookup (pathComponents pf.originalPath ++ rest) = some (.file c) →
    t.lookup (quarantineLoc eventId ++ (pathComponents pf.originalPath ++ rest)) = some (.file c)

/-- The path is apart from those before it, from their preimages and from the quarantine. -/
structure Next (eventId : CStr) (cfs : List CreatedFile) (pfs : List ProtectedFile) (path : CStr) : Prop where
  quarantine : Apart (quarantineLoc eventId) (pathComponents path)
  outside : ∀ path' ∈ pathsOf cfs pfs, Apart (quarantineLoc eventId) (pathComponents path')
  paths : ∀ path' ∈ pathsOf cfs pfs, Apart (pathComponents path') (pathComponents path)
  backups : ∀ pf ∈ pfs, Apart (pathComponents pf.backupPath) (pathComponents path)

variable {t₀ : Links} {saved : ProtectedFile → Content} {cfs : List CreatedFile} {pfs : List ProtectedFile}
  {cf : CreatedFile} {pf : ProtectedFile} {b : Option Loc}

theorem filePath_mem_pathsOf (h : cf ∈ cfs) (pfs : List ProtectedFile) : cf.filePath ∈ pathsOf cfs pfs :=
  List.mem_append_left _ (List.mem_map_of_mem h)

theorem originalPath_mem_pathsOf (h : pf ∈ pfs) : pf.originalPath ∈ pathsOf cfs pfs :=
  List.mem_append_right _ (List.mem_map_of_mem h)

theorem mem_pathsOf_created {path' : CStr} :
    path' ∈ pathsOf (cfs ++ [cf]) [] ↔ path' ∈ pathsOf cfs [] ∨ path' = cf.filePath := by
  simp [pathsOf]

theorem mem_pathsOf_row {path' : CStr} :
    path' ∈ pathsOf cfs (pfs ++ [pf]) ↔ path' ∈ pathsOf cfs pfs ∨ path' = pf.originalPath := by
  simp [pathsOf, or_assoc]

theorem AsBefore.mono {paths paths' : List CStr} (h : AsBefore eventId paths t₀ t loc) (hsub : paths ⊆ paths') :
    AsBefore eventId paths' t₀ t loc := by
  refine h.imp_right (And.imp_right (And.imp_right (Or.imp_right ?_)))
  rintro ⟨path, hpath, hp⟩
  exact ⟨path, hsub hpath, hp⟩

/-- What a path leaves alone is as it was before. -/
theorem AsBefore.frame {paths paths' : List CStr} {b : Option Loc} (h : AsBefore eventId paths t₀ t loc)
    (hframe : Frame (quarantineLoc eventId) (pathComponents path) b t t') (hl : ¬ pathComponents path <+: loc)
    (hq : ¬ quarantineLoc eventId <+: loc) (hb : loc ∉ b) (hsub : paths ⊆ paths') (hmem : path ∈ paths') :
    AsBefore eventId paths' t₀ t' loc := by
  rcases hframe loc hl (fun hp => hq ((List.prefix_append _ _).trans hp)) hb with hsame | ⟨hnone, hdir, hp⟩
  · rw [AsBefore, hsame]
    exact h.mono hsub
  · rcases h with hsame | ⟨-, hdir', -⟩
    · refine .inr ⟨hsame ▸ hnone, hdir, hp.imp (fun hp => ?_) fun hp => ⟨path, hmem, hp⟩⟩
      exact (List.prefix_or_prefix_of_prefix hp (List.prefix_append _ _)).resolve_right hq
    · rw [hnone] at hdir'
      cases hdir'

/-- A place that is not in the quarantine, nor at or below what came before, is as it was. -/
theorem Progress.lookup_off (h : Progress eventId t₀ saved cfs pfs t) (hnext : Next eventId cfs pfs path)
    (hloc : ∀ a, Apart a (pathComponents path) → ¬ a <+: loc) :
    AsBefore eventId (pathsOf cfs pfs) t₀ t loc := by
  refine h.other loc (hloc _ hnext.quarantine) (fun cf hcf heq => ?_) (fun pf hpf => ?_) fun pf hpf heq => ?_
  · exact hloc _ (hnext.paths _ (filePath_mem_pathsOf hcf _)) (heq ▸ List.prefix_refl _)
  · exact hloc _ (hnext.paths _ (originalPath_mem_pathsOf hpf))
  · exact hloc _ (hnext.backups pf hpf) (heq ▸ List.prefix_refl _)

/-- At and below the next path nothing has changed. -/
theorem Progress.lookup_below (h : Progress eventId t₀ saved cfs pfs t) (hnext : Next eventId cfs pfs path)
    (rest : Loc) : t.lookup (pathComponents path ++ rest) = t₀.lookup (pathComponents path ++ rest) := by
  have hpre : pathComponents path <+: pathComponents path ++ rest := List.prefix_append _ _
  rcases h.lookup_off hnext (fun a ha hp => ha.not_isPrefix hp hpre) with hsame | ⟨-, -, hq | ⟨path', hpath', hp⟩⟩
  · exact hsame
  · exact absurd (hpre.trans hq) hnext.quarantine.2
  · exact absurd (hpre.trans hp) (hnext.paths _ hpath').2

/-- The tree is ready for the next path. -/
theorem Progress.ready (h : Progress eventId t₀ saved cfs pfs t) (hnext : Next eventId cfs pfs path)
    (habove : ∀ p, p <+: pathComponents path → p ≠ pathComponents path →
      t₀.lookup p = none ∨ t₀.lookup p = some .dir) : Ready eventId path t where
  grounded := h.grounded
  above p hp hne := by
    rcases h.lookup_off hnext (fun a ha hap => ha.1 (hap.trans hp)) with hsame | ⟨-, hdir, -⟩
    · rw [hsame]
      exact habove p hp hne
    · exact .inr hdir
  slot p hp hne := by
    rcases List.prefix_or_prefix_of_prefix hp (List.prefix_append _ _) with hq | ⟨x, rfl⟩
    · exact h.way p hq
    · by_cases hx : x = []
      · exact h.way _ (by rw [hx, List.append_nil])
      · have hxl : x <+: pathComponents path := (List.prefix_append_right_inj _).1 hp
        cases hn : t.lookup (quarantineLoc eventId ++ x) with
        | none => exact .inl rfl
        | some n =>
          obtain ⟨path', hpath', ⟨rfl, -⟩ | hp'⟩ := h.slots x n hx hn
          · exact .inr rfl
          · exact absurd (hp'.trans hxl) (hnext.paths path' hpath').1
  free := by
    cases hn : t.lookup (quarantineLoc eventId ++ pathComponents path) with
    | none => rfl
    | some n =>
      have hne : pathComponents path ≠ [] := by
        intro h0
        exact hnext.quarantine.2 (h0 ▸ List.nil_prefix)
      obtain ⟨path', hpath', ⟨-, hp'⟩ | hp'⟩ := h.slots _ n hne hn
      · exact absurd hp' (hnext.paths path' hpath').2
      · exact absurd hp' (hnext.paths path' hpath').1
  apart := hnext.quarantine

/-! ### What a step keeps -/

/-- A slot is not on the way to the quarantine. -/
theorem not_slot_isPrefix (h : Apart q l) (hp : p <+: q) : ¬ q ++ l <+: p := by
  intro hq
  have hlen := (hq.trans hp).length_le
  rw [List.length_append] at hlen
  have hnil : l = [] := List.eq_nil_of_length_eq_zero (by omega)
  exact h.2 (hnil ▸ List.nil_prefix)

/-- The way to the quarantine stays clear. -/
theorem Progress.way_step (h : Progress eventId t₀ saved cfs pfs t) (hnext : Next eventId cfs pfs path)
    (hframe : Frame (quarantineLoc eventId) (pathComponents path) b t t')
    (hb : ∀ b' ∈ b, Apart (quarantineLoc eventId) b') (p : Loc) (hp : p <+: quarantineLoc eventId) :
    t'.lookup p = none ∨ t'.lookup p = some .dir := by
  rcases hframe p (fun hl => hnext.quarantine.2 (hl.trans hp)) (not_slot_isPrefix hnext.quarantine hp)
    (fun hpb => (hb p hpb).2 hp) with hsame | ⟨-, hdir, -⟩
  · rw [hsame]
    exact h.way p hp
  · exact .inr hdir

/-- The slot of the path comes to those in the quarantine. -/
theorem Progress.slots_step (h : Progress eventId t₀ saved cfs pfs t) (hnext : Next eventId cfs pfs path)
    (hframe : Frame (quarantineLoc eventId) (pathComponents path) b t t')
    (hb : ∀ b' ∈ b, Apart (quarantineLoc eventId) b') (x : Loc) (n : LinkNode CStr Content) (hx : x ≠ [])
    (hn : t'.lookup (quarantineLoc eventId ++ x) = some n) :
    (n = .dir ∧ x <+: pathComponents path ∨ pathComponents path <+: x) ∨
      ∃ path ∈ pathsOf cfs pfs, n = .dir ∧ x <+: pathComponents path ∨ pathComponents path <+: x := by
  have hpre : quarantineLoc eventId <+: quarantineLoc eventId ++ x := List.prefix_append _ _
  by_cases hl : pathComponents path <+: x
  · exact .inl (.inr hl)
  · rcases hframe _ (hnext.quarantine.not_isPrefix hpre) (fun hq => hl ((List.prefix_append_right_inj _).1 hq))
      (fun hxb => (hb _ hxb).1 hpre) with hsame | ⟨-, hdir, hq | hp⟩
    · exact .inr (h.slots x n hx (hsame ▸ hn))
    · rw [hdir] at hn
      cases hn
      exact .inl (.inl ⟨rfl, (List.prefix_append_right_inj _).1 hq⟩)
    · exact absurd (hpre.trans hp) hnext.quarantine.1

/-- What stands at a path before this one stays. -/
theorem Next.kept (hnext : Next eventId cfs pfs path)
    (hframe : Frame (quarantineLoc eventId) (pathComponents path) b t t') {path' : CStr}
    (hpath' : path' ∈ pathsOf cfs pfs) (hb : pathComponents path' ∉ b) :
    t'.lookup (pathComponents path') = t.lookup (pathComponents path') := by
  have hslot {p : Loc} (hp : pathComponents path' <+: p) : ¬ p <+: quarantineLoc eventId ++ pathComponents path :=
    fun hq => (hnext.outside path' hpath').symm.not_on_way hp (List.prefix_append _ _) hq
  rcases hframe _ (hnext.paths path' hpath').2
    (fun hq => (hnext.outside path' hpath').1 ((List.prefix_append _ _).trans hq)) hb with hsame | ⟨-, -, hq | hp⟩
  · exact hsame
  · exact absurd hq (hslot (List.prefix_refl _))
  · exact absurd hp (hnext.paths path' hpath').1

/-- What a path before this one left in the quarantine stays. -/
theorem Next.kept_slot (hnext : Next eventId cfs pfs path)
    (hframe : Frame (quarantineLoc eventId) (pathComponents path) b t t')
    (hb : ∀ b' ∈ b, Apart (quarantineLoc eventId) b') {path' : CStr} (hpath' : path' ∈ pathsOf cfs pfs)
    {x : Loc} (hx : pathComponents path' <+: x) (hn : t.lookup (quarantineLoc eventId ++ x) = some n) :
    t'.lookup (quarantineLoc eventId ++ x) = some n := by
  have hpre : quarantineLoc eventId <+: quarantineLoc eventId ++ x := List.prefix_append _ _
  exact hframe.some (hnext.quarantine.not_isPrefix hpre)
    (fun hq => (hnext.paths path' hpath').not_isPrefix hx ((List.prefix_append_right_inj _).1 hq))
    (fun hxb => (hb _ hxb).1 hpre) hn

/-- A created path is done. -/
theorem Progress.delete (h : Progress eventId t₀ saved cfs [] t) (hnext : Next eventId cfs [] cf.filePath)
    (hdel : Deleted eventId cf.filePath t t') : Progress eventId t₀ saved (cfs ++ [cf]) [] t' where
  grounded := hdel.grounded
  other loc hq hcfs hpfs hbackups := by
    have hold := h.other loc hq (fun cf hcf => hcfs cf (List.mem_append_left _ hcf)) hpfs hbackups
    have hsub : pathsOf cfs [] ⊆ pathsOf (cfs ++ [cf]) [] := fun _ hpath => mem_pathsOf_created.2 (.inl hpath)
    by_cases hl : pathComponents cf.filePath <+: loc
    · obtain ⟨rest, rfl⟩ := hl
      have hrest : rest ≠ [] := by
        rintro rfl
        exact hcfs cf (by simp) (List.append_nil _)
      rw [AsBefore, hdel.below rest hrest]
      exact hold.mono hsub
    · exact hold.frame hdel.frame hl hq (by simp) hsub (mem_pathsOf_created.2 (.inr rfl))
  way := h.way_step hnext hdel.frame (by simp)
  slots x n hx hn := by
    rcases h.slots_step hnext hdel.frame (by simp) x n hx hn with hnew | ⟨path, hpath, hold⟩
    · exact ⟨cf.filePath, mem_pathsOf_created.2 (.inr rfl), hnew⟩
    · exact ⟨path, mem_pathsOf_created.2 (.inl hpath), hold⟩
  deleted cf' hcf' c hc := by
    rcases List.mem_append.1 hcf' with hcf' | hcf'
    · obtain ⟨hgone, hslot⟩ := h.deleted cf' hcf' c hc
      have hmem := filePath_mem_pathsOf hcf' []
      exact ⟨(hnext.kept hdel.frame hmem (by simp)).trans hgone,
        hnext.kept_slot hdel.frame (by simp) hmem (List.prefix_refl _) hslot⟩
    · obtain rfl := List.mem_singleton.1 hcf'
      have hsame := h.lookup_below hnext []
      rw [List.append_nil] at hsame
      exact hdel.gone c (hsame.trans hc)
  restored := nofun
  displaced := nofun

/-- A row is done. -/
theorem Progress.restore (h : Progress eventId t₀ saved cfs pfs t) (hnext : Next eventId cfs pfs pf.originalPath)
    (hres : Restored eventId pf.originalPath (pathComponents pf.backupPath) (saved pf) t t')
    (hbq : Apart (quarantineLoc eventId) (pathComponents pf.backupPath))
    (hbpaths : ∀ path ∈ pathsOf cfs pfs, Apart (pathComponents pf.backupPath) (pathComponents path)) :
    Progress eventId t₀ saved cfs (pfs ++ [pf]) t' := by
  have hb : ∀ b' ∈ some (pathComponents pf.backupPath), Apart (quarantineLoc eventId) b' := by
    rintro _ ⟨⟩
    exact hbq
  have hkept {path : CStr} (hpath : path ∈ pathsOf cfs pfs) :
      t'.lookup (pathComponents path) = t.lookup (pathComponents path) := by
    refine hnext.kept hres.frame hpath fun hpb => ?_
    exact (hbpaths path hpath).ne (List.prefix_refl _) (List.prefix_refl _) (Option.some.inj hpb)
  refine ⟨hres.grounded, fun loc hq hcfs hpfs hbackups => ?_, h.way_step hnext hres.frame hb, fun x n hx hn => ?_,
    fun cf hcf c hc => ?_, fun pf' hpf' => ?_, fun pf' hpf' rest c hc => ?_⟩
  · have hold := h.other loc hq hcfs (fun pf hpf => hpfs pf (List.mem_append_left _ hpf))
      fun pf hpf => hbackups pf (List.mem_append_left _ hpf)
    refine hold.frame hres.frame (hpfs pf (by simp)) hq (fun hloc => ?_)
      (fun _ hpath => mem_pathsOf_row.2 (.inl hpath)) (mem_pathsOf_row.2 (.inr rfl))
    exact hbackups pf (by simp) (Option.some.inj hloc).symm
  · rcases h.slots_step hnext hres.frame hb x n hx hn with hnew | ⟨path, hpath, hold⟩
    · exact ⟨pf.originalPath, mem_pathsOf_row.2 (.inr rfl), hnew⟩
    · exact ⟨path, mem_pathsOf_row.2 (.inl hpath), hold⟩
  · obtain ⟨hgone, hslot⟩ := h.deleted cf hcf c hc
    have hmem := filePath_mem_pathsOf hcf pfs
    exact ⟨(hkept hmem).trans hgone, hnext.kept_slot hres.frame hb hmem (List.prefix_refl _) hslot⟩
  · rcases List.mem_append.1 hpf' with hpf' | hpf'
    · exact (hkept (originalPath_mem_pathsOf hpf')).trans (h.restored pf' hpf')
    · obtain rfl := List.mem_singleton.1 hpf'
      exact hres.file
  · rcases List.mem_append.1 hpf' with hpf' | hpf'
    · exact hnext.kept_slot hres.frame hb (originalPath_mem_pathsOf hpf') (List.prefix_append _ _)
        (h.displaced pf' hpf' rest c hc)
    · obtain rfl := List.mem_singleton.1 hpf'
      exact hres.moved rest c ((h.lookup_below hnext rest).trans hc)

/-! ### The whole run -/

/-- A path of the event comes after those that stand before it. -/
theorem RestoreJob.next (h : RestoreJob io eventId t₀ db saved) (hapart : JobApart eventId db)
    (hpfs : pfs ⊆ db.queryByEvent eventId) (hpre : pathsOf cfs pfs ++ [path] <+: jobPaths eventId db) :
    Next eventId cfs pfs path where
  quarantine := hapart.outside path (hpre.subset (by simp))
  outside path' hpath' := hapart.outside path' (hpre.subset (List.mem_append_left _ hpath'))
  paths path' hpath' :=
    (List.pairwise_append.1 (h.apart.sublist hpre.sublist)).2.2 path' hpath' path (List.mem_singleton_self _)
  backups pf hpf := hapart.preimages pf (hpfs hpf) path (hpre.subset (by simp))

/-- The preimages are outside of the quarantine. -/
theorem RestoreJob.backup_apart (h : RestoreJob io eventId t₀ db saved) (hpf : pf ∈ db.queryByEvent eventId) :
    Apart (quarantineLoc eventId) (pathComponents pf.backupPath) := by
  have hfile := (h.backups pf hpf).2
  have hway {p : Loc} (hp : p <+: quarantineLoc eventId) : pathComponents pf.backupPath ≠ p := by
    rintro heq
    rcases h.quarantine p hp with hnone | hdir
    · rw [heq, hnone] at hfile
      cases hfile
    · rw [heq, hdir] at hfile
      cases hfile
  refine ⟨?_, fun hp => hway hp rfl⟩
  rintro ⟨x, hx⟩
  by_cases hnil : x = []
  · exact hway (List.prefix_refl _) (by rw [← hx, hnil, List.append_nil])
  · rw [← hx, h.empty x hnil] at hfile
    cases hfile

/-- Nothing is done yet. -/
theorem RestoreJob.start (h : RestoreJob io eventId t₀ db saved) : Progress eventId t₀ saved [] [] t₀ where
  grounded := h.grounded
  other _ _ _ _ _ := .inl rfl
  way := h.quarantine
  slots x n hx hn := by
    rw [h.empty x hx] at hn
    cases hn
  deleted := nofun
  restored := nofun
  displaced := nofun

theorem RestoreJob.slot (h : RestoreJob io eventId t₀ db saved) (hpath : path ∈ jobPaths eventId db) :
    Canonical (quarantineFor eventId path) :=
  (h.paths path hpath).1.quarantineFor h.event (h.paths path hpath).2

/-- The created files are done one by one. -/
theorem RestoreJob.deleteAll (st : LinkedState) (h : RestoreJob io eventId st.fs.tree db saved)
    (hapart : JobApart eventId db) (hcfs : cfs <+: db.queryCreatedByEvent eventId) :
    Progress eventId st.fs.tree saved cfs [] (cfs.foldl (deleteCreatedOne io eventId) st).fs.tree := by
  induction cfs using List.reverseRecOn with
  | nil => exact h.start
  | append_singleton cfs cf ih =>
    have hprogress := ih ((List.prefix_append _ _).trans hcfs)
    have hpre : pathsOf cfs [] ++ [cf.filePath] <+: jobPaths eventId db := by
      have hmap := hcfs.map (·.filePath)
      rw [List.map_append, List.map_singleton] at hmap
      rw [pathsOf, List.map_nil, List.append_nil]
      exact hmap.trans (List.prefix_append _ _)
    have hmem : cf.filePath ∈ jobPaths eventId db := hpre.subset (by simp)
    have hnext := h.next hapart (List.nil_subset _) hpre
    rw [List.foldl_append, List.foldl_cons, List.foldl_nil]
    exact hprogress.delete hnext
      ((hprogress.ready hnext (h.above _ hmem)).delete h.calls (h.paths _ hmem).1 (h.slot hmem))

theorem deleteCreatedOne_db (st : LinkedState) : (deleteCreatedOne io eventId st cf).db = st.db := by
  unfold deleteCreatedOne
  split_ifs
  · rfl
  · dsimp only
    split <;> first | rfl | split_ifs <;> rfl

theorem deleteAll_db (io : LinkedIo) (eventId : CStr) (cfs : List CreatedFile) (st : LinkedState) :
    (cfs.foldl (deleteCreatedOne io eventId) st).db = st.db := by
  induction cfs generalizing st with
  | nil => rfl
  | cons cf cfs ih => rw [List.foldl_cons, ih, deleteCreatedOne_db]

/-- Each row comes from one of before; the rows that are done are marked. -/
def Marked (db : Db) (pfs : List ProtectedFile) (db' : Db) : Prop :=
  ∀ row ∈ db'.protectedFiles, ∃ old ∈ db.protectedFiles, old.id = row.id ∧ old.eventId = row.eventId ∧
    (old ∈ pfs → row.restoreStatus = lit "restored")

theorem Marked.restore {db db' : Db} {now : CStr} (h : Marked db pfs db') :
    Marked db (pfs ++ [pf]) (db'.updateRestoreStatus pf.id (lit "restored") now) := by
  intro row hrow
  obtain ⟨prev, hprev, rfl⟩ := List.mem_map.1 hrow
  obtain ⟨old, hold, hid, hevent, hmarked⟩ := h prev hprev
  split
  · exact ⟨old, hold, hid, hevent, fun _ => rfl⟩
  · next hne =>
    refine ⟨old, hold, hid, hevent, fun hmem => ?_⟩
    rcases List.mem_append.1 hmem with hmem | hmem
    · exact hmarked hmem
    · exact absurd (by rw [← hid, List.mem_singleton.1 hmem]) hne

/-- The rows are done one by one. -/
theorem RestoreJob.restoreAll {st : LinkedState} (h : RestoreJob io eventId t₀ st.db saved)
    (hapart : JobApart eventId st.db) (hpfs : pfs <+: st.db.queryByEvent eventId)
    (hdeleted : Progress eventId t₀ saved (st.db.queryCreatedByEvent eventId) [] st.fs.tree) :
    Progress eventId t₀ saved (st.db.queryCreatedByEvent eventId) pfs (pfs.foldl (restoreOne io) st).fs.tree ∧
      Marked st.db pfs (pfs.foldl (restoreOne io) st).db := by
  induction pfs using List.reverseRecOn with
  | nil => exact ⟨hdeleted, fun row hrow => ⟨row, hrow, rfl, rfl, nofun⟩⟩
  | append_singleton pfs pf ih =>
    obtain ⟨hprogress, hmarked⟩ := ih ((List.prefix_append _ _).trans hpfs)
    have hmem : pf ∈ st.db.queryByEvent eventId := hpfs.subset (by simp)
    have hsub : pfs ⊆ st.db.queryByEvent eventId := fun _ h => hpfs.subset (List.mem_append_left _ h)
    have hevent : pf.eventId = eventId := by
      have := hmem
      simp only [Db.queryByEvent, List.mem_filter, decide_eq_true_eq] at this
      exact this.2
    have hpre : pathsOf (st.db.queryCreatedByEvent eventId) pfs ++ [pf.originalPath] <+: jobPaths eventId st.db := by
      rw [pathsOf, List.append_assoc, jobPaths, pathsOf, List.prefix_append_right_inj]
      simpa using hpfs.map (·.originalPath)
    have hpath : pf.originalPath ∈ jobPaths eventId st.db := hpre.subset (by simp)
    have hnext := h.next hapart hsub hpre
    have hbq := h.backup_apart hmem
    -- the preimage is still there
    have hb : (pfs.foldl (restoreOne io) st).fs.tree.lookup (pathComponents pf.backupPath) =
        some (.file (saved pf)) := by
      have hfile := (h.backups pf hmem).2
      have hother := List.pairwise_append.1 (List.Pairwise.sublist hpfs.sublist hapart.backups)
      rcases hprogress.other _ hbq.1
        (fun cf hcf => (hapart.preimages pf hmem _ (List.mem_append_left _ (List.mem_map_of_mem hcf))).ne
          (List.prefix_refl _) (List.prefix_refl _))
        (fun pf' hpf' => (hapart.preimages pf hmem _ (originalPath_mem_pathsOf (hsub hpf'))).2)
        (fun pf' hpf' => (hother.2.2 pf' hpf' pf (List.mem_singleton_self _)).symm) with hsame | ⟨hnone, -⟩
      · exact hsame.trans hfile
      · rw [hfile] at hnone
        cases hnone
    have hready := hprogress.ready hnext (h.above _ hpath)
    subst hevent
    obtain ⟨hres, hdb⟩ := hready.restore h.calls (h.paths _ hpath).1 (h.slot hpath)
      (h.pending pf hmem) (h.backups pf hmem).1 hb (hapart.preimages pf hmem _ hpath) hbq.symm
    rw [List.foldl_append, List.foldl_cons, List.foldl_nil]
    refine ⟨hprogress.restore hnext hres hbq fun path hp => hapart.preimages pf hmem path ?_, ?_⟩
    · exact hpre.subset (List.mem_append_left _ hp)
    · rw [hdb]
      exact hmarked.restore

/-- A restore in which nothing fails does its job, when the recorded paths, the preimages and the
quarantine are apart. -/
theorem restore_does_job (io : LinkedIo) (argv : List CStr) (eventId : CStr) (fs : Traced) (db : Db)
    (saved : ProtectedFile → Content) (h : RestoreJob io eventId fs.tree db saved) (hapart : JobApart eventId db)
    (hevent : eventArg argv = some eventId) :
    JobDone eventId fs.tree db saved (cmdRestore io argv fs db).2.1.tree (cmdRestore io argv fs db).2.2 := by
  have hdeleted := RestoreJob.deleteAll ⟨fs, db, 0, 0, 0, 0, 0⟩ h hapart (List.prefix_refl _)
  have hdb := deleteAll_db io eventId (db.queryCreatedByEvent eventId) ⟨fs, db, 0, 0, 0, 0, 0⟩
  have hrun : restoreEvent io eventId fs db = (db.queryByEvent eventId).foldl (restoreOne io)
      ((db.queryCreatedByEvent eventId).foldl (deleteCreatedOne io eventId) ⟨fs, db, 0, 0, 0, 0, 0⟩) := by
    unfold restoreEvent
    dsimp only
    rw [hdb]
  generalize (db.queryCreatedByEvent eventId).foldl (deleteCreatedOne io eventId) ⟨fs, db, 0, 0, 0, 0, 0⟩ = st
    at hdeleted hdb hrun
  subst hdb
  obtain ⟨hdone, hmarked⟩ := RestoreJob.restoreAll h hapart (List.prefix_refl _) hdeleted
  rw [← hrun] at hdone hmarked
  have hend : (cmdRestore io argv fs st.db).2.1.tree = (restoreEvent io eventId fs st.db).fs.tree ∧
      (cmdRestore io argv fs st.db).2.2.protectedFiles = (restoreEvent io eventId fs st.db).db.protectedFiles := by
    unfold cmdRestore
    rw [hevent]
    dsimp only
    split_ifs <;> exact ⟨rfl, rfl⟩
  rw [hend.1]
  refine ⟨hdone.restored, hdone.deleted, hdone.displaced, fun row hrow => ?_, hdone.other⟩
  rw [Db.queryByEvent, hend.2, List.mem_filter, decide_eq_true_eq] at hrow
  obtain ⟨old, hold, -, heq, hstatus⟩ := hmarked row hrow.1
  exact hstatus (List.mem_filter.2 ⟨hold, decide_eq_true (heq.trans hrow.2)⟩)

end

/-! ## Jobs -/

/-- A tree of finitely many nodes. -/
def linksOf (nodes : List (Loc × LinkNode CStr Content)) : Links := ⟨fun loc => nodes.lookup loc⟩

theorem linksOf_some {nodes : List (Loc × LinkNode CStr Content)} {loc : Loc} (hne : loc ≠ [])
    (h : ((linksOf nodes).lookup loc).isSome) : loc ∈ nodes.map Prod.fst := by
  rw [LinkTree.lookup, if_neg hne] at h
  obtain ⟨n, hn⟩ := Option.isSome_iff_exists.1 h
  obtain ⟨before, after, hnodes, -⟩ := List.lookup_eq_some_iff.1 hn
  rw [hnodes, List.map_append, List.map_cons]
  exact List.mem_append_right _ List.mem_cons_self

theorem linksOf_grounded {nodes : List (Loc × LinkNode CStr Content)}
    (h : ∀ loc ∈ nodes.map Prod.fst, ∀ p ∈ loc.inits, p ≠ loc → (linksOf nodes).lookup p = some .dir) :
    Grounded (linksOf nodes) := by
  intro p loc hp hne hsome
  have hnil : loc ≠ [] := by
    rintro rfl
    exact hne (List.prefix_nil.1 hp)
  exact h loc (linksOf_some hnil hsome) p ((List.mem_inits p loc).2 hp) hne

instance (path : CStr) : Decidable (Canonical path) :=
  decidable_of_iff (path.head? = some slash ∧ path.getLast? ≠ some slash ∧ lit "." ∉ pathComponents path ∧
      lit ".." ∉ pathComponents path ∧ path.length < pathMax)
    ⟨fun h => ⟨h.1, h.2.1, h.2.2.1, h.2.2.2.1, h.2.2.2.2⟩, fun h => ⟨h.head, h.last, h.here, h.up, h.fits⟩⟩

example : Canonical (lit "/a/b") ∧ ¬ Canonical (lit "/a/../b") := by decide

/-- The rows and the created files of the event `e`. -/
def jobDb (rows : List ProtectedFile) (cfs : List CreatedFile) : Db :=
  { Db.empty with protectedFiles := rows, createdFiles := cfs }

/-- A row with its preimage. -/
def jobRow (id : Nat) (path backup : CStr) : ProtectedFile :=
  { sampleRow (lit "e") path with id := id, backupPath := backup }

theorem sampleIo_succeeds : sampleIo.Succeeds :=
  ⟨fun _ => rfl, fun _ _ => rfl, fun _ => rfl, rfl, fun _ => rfl⟩

/-- What is asked of a job can be read off the nodes of its tree. -/
theorem linksOf_job {nodes : List (Loc × LinkNode CStr Content)} {db : Db} {good : Content}
    (hground : ∀ loc ∈ nodes.map Prod.fst, ∀ p ∈ loc.inits, p ≠ loc → (linksOf nodes).lookup p = some .dir)
    (hpending : ∀ pf ∈ db.queryByEvent (lit "e"), pf.restoreStatus = lit "pending")
    (hpaths : ∀ path ∈ jobPaths (lit "e") db,
      Canonical path ∧ (quarantineFor (lit "e") path).length < pathMax)
    (hapart : (jobPaths (lit "e") db).Pairwise fun a b => Apart (pathComponents a) (pathComponents b))
    (habove : ∀ path ∈ jobPaths (lit "e") db, ∀ p ∈ (pathComponents path).inits, p ≠ pathComponents path →
      (linksOf nodes).lookup p = none ∨ (linksOf nodes).lookup p = some .dir)
    (hbackups : ∀ pf ∈ db.queryByEvent (lit "e"), Canonical pf.backupPath ∧
      (linksOf nodes).lookup (pathComponents pf.backupPath) = some (.file good))
    (hquarantine : ∀ loc ∈ nodes.map Prod.fst, Apart (quarantineLoc (lit "e")) loc) :
    RestoreJob sampleIo (lit "e") (linksOf nodes) db fun _ => good where
  calls := sampleIo_succeeds
  grounded := linksOf_grounded hground
  pending := hpending
  paths := hpaths
  apart := hapart
  above path hpath p hp := habove path hpath p ((List.mem_inits p _).2 hp)
  backups := hbackups
  event := by decide
  quarantine p hp := by
    by_cases hnil : p = []
    · rw [hnil]
      exact .inr rfl
    · refine .inl (Option.not_isSome_iff_eq_none.1 fun hsome => ?_)
      exact (hquarantine p (linksOf_some hnil hsome)).2 hp
  empty x hx := by
    refine Option.not_isSome_iff_eq_none.1 fun hsome => ?_
    have hmem := linksOf_some (fun h => hx (List.append_eq_nil_iff.1 h).2) hsome
    exact (hquarantine _ hmem).1 (List.prefix_append _ _)

/-- An encrypted file, its preimage and a note. -/
def jobNodes : List (Loc × LinkNode CStr Content) :=
  [([lit "a"], .dir), ([lit "bk"], .dir), ([lit "a", lit "x"], .file (lit "bad")),
    ([lit "a", lit "note"], .file (lit "pay")), ([lit "bk", lit "x"], .file (lit "good"))]

/-- The file comes back and the note goes. -/
theorem restore_does_job_sample :
    JobDone (lit "e") (linksOf jobNodes)
      (jobDb [jobRow 1 (lit "/a/x") (lit "/bk/x")] [sampleCreated (lit "/a/note")]) (fun _ => lit "good")
      (cmdRestore sampleIo [lit "--event", lit "e"] ⟨linksOf jobNodes, []⟩
        (jobDb [jobRow 1 (lit "/a/x") (lit "/bk/x")] [sampleCreated (lit "/a/note")])).2.1.tree
      (cmdRestore sampleIo [lit "--event", lit "e"] ⟨linksOf jobNodes, []⟩
        (jobDb [jobRow 1 (lit "/a/x") (lit "/bk/x")] [sampleCreated (lit "/a/note")])).2.2 :=
  restore_does_job sampleIo [lit "--event", lit "e"] (lit "e") ⟨linksOf jobNodes, []⟩ _ _
    (linksOf_job (by decide) (by decide) (by decide) (by decide)
      (by decide) (by decide) (by decide))
    ⟨by unfold OwnPreimages; decide, by unfold PreimagesApart; decide,
      by unfold PathsOutside; decide⟩ (by decide)

/-- A restore does the job of every event that meets some needs. -/
def DoesJobs (needs : CStr → Db → Prop) : Prop :=
  ∀ (io : LinkedIo) (argv : List CStr) (eventId : CStr) (fs : Traced) (db : Db) (saved : ProtectedFile → Content),
    RestoreJob io eventId fs.tree db saved → needs eventId db → eventArg argv = some eventId →
      JobDone eventId fs.tree db saved (cmdRestore io argv fs db).2.1.tree (cmdRestore io argv fs db).2.2

/-- The rows share a preimage, which the first takes; a preimage goes with the created files; and what
was restored in the quarantine leaves no room for what the second row displaces. -/
theorem restore_not_always_does_job :
    ¬ DoesJobs (fun eventId db => PreimagesApart eventId db ∧ PathsOutside eventId db) ∧
      ¬ DoesJobs (fun eventId db => OwnPreimages eventId db ∧ PathsOutside eventId db) ∧
      ¬ DoesJobs (fun eventId db => OwnPreimages eventId db ∧ PreimagesApart eventId db) := by
  refine ⟨fun h => ?_, fun h => ?_, fun h => ?_⟩
  · have hdone := h sampleIo [lit "--event", lit "e"] (lit "e") ⟨linksOf jobNodes, []⟩
      (jobDb [jobRow 1 (lit "/a/x") (lit "/bk/x"), jobRow 2 (lit "/a/y") (lit "/bk/x")] [])
      (fun _ => lit "good")
      (linksOf_job (by decide) (by decide) (by decide) (by decide)
        (by decide) (by decide) (by decide))
      ⟨by unfold PreimagesApart; decide, by unfold PathsOutside; decide⟩ (by decide)
    have hfile := hdone.restored (jobRow 2 (lit "/a/y") (lit "/bk/x")) (by decide)
    revert hfile
    decide +kernel
  · have hdone := h sampleIo [lit "--event", lit "e"] (lit "e") ⟨linksOf jobNodes, []⟩
      (jobDb [jobRow 1 (lit "/a/x") (lit "/bk/x")] [sampleCreated (lit "/bk/x")])
      (fun _ => lit "good")
      (linksOf_job (by decide) (by decide) (by decide) (by decide)
        (by decide) (by decide) (by decide))
      ⟨by unfold OwnPreimages; decide, by unfold PathsOutside; decide⟩ (by decide)
    have hfile := hdone.restored (jobRow 1 (lit "/a/x") (lit "/bk/x")) (by decide)
    revert hfile
    decide +kernel
  · have hdone := h sampleIo [lit "--event", lit "e"] (lit "e")
      ⟨linksOf (jobNodes ++ [([lit "bk", lit "y"], .file (lit "good"))]), []⟩
      (jobDb [jobRow 1 (quarantinePath ++ lit "/e/a") (lit "/bk/y"), jobRow 2 (lit "/a/x") (lit "/bk/x")] [])
      (fun _ => lit "good")
      (linksOf_job (by decide) (by decide) (by decide) (by decide)
        (by decide) (by decide) (by decide))
      ⟨by unfold OwnPreimages; decide, by unfold PreimagesApart; decide⟩ (by decide)
    have hfile := hdone.displaced (jobRow 2 (lit "/a/x") (lit "/bk/x")) (by decide) [] (lit "bad")
      (by decide)
    revert hfile
    decide +kernel

end Linked

end GfrGuard
