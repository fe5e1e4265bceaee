import GfrGuard.ChannelAgreement
import GfrGuard.PathAgreement
import GfrGuard.Restore

/-!
# Pending means restorable

Preimages are stored per path, rows are kept per event and path, and a restore takes the
preimages of its event away. `KeepsFile` says that a file survives a step of the recovery
tool; `WorksOn` names the places a restore of an event works on. A pending row stays
restorable in every run in which no restore works on the preimage of another event's pending
row (`pending_restorable`).
-/

namespace GfrGuard

/-! ## Files that survive -/

/-- A regular file at `p` is still there, as it was. -/
def Fs.KeepsFile (p : Loc) (fs fs' : Fs) : Prop :=
  ∀ c, fs.node p = some (.regular c) → fs'.node p = some (.regular c)

section
variable {fs fs' fs'' : Fs} {p b base : Loc} {path qpath : CStr} {io : RecoverIo}

theorem Fs.KeepsFile.refl (p : Loc) (fs : Fs) : fs.KeepsFile p fs := fun _ h => h

theorem Fs.KeepsFile.trans (h : fs.KeepsFile p fs') (h' : fs'.KeepsFile p fs'') :
    fs.KeepsFile p fs'' := fun c hc => h' c (h c hc)

theorem Fs.keepsFile_of_eq (h : fs'.node p = fs.node p) : fs.KeepsFile p fs' := fun _ hc => h ▸ hc

theorem Fs.Grows.keepsFile (h : Fs.Grows b fs fs') (p : Loc) : fs.KeepsFile p fs' :=
  fun _ hc => h.keeps hc

/-- A path leads to a file that survives. -/
theorem Fs.KeepsFile.stat {c : Content} (h : fs.KeepsFile (pathComponents path) fs')
    (hstat : fs.stat path = some (.regular c)) : fs'.stat path = some (.regular c) := by
  have hlook := Fs.lookup_of_stat hstat
  have hnode := Fs.lookup_eq_regular hlook
  rw [← hstat]
  exact Fs.stat_congr (Fs.lookup_congr ((h c hnode).trans hnode.symm))

theorem Fs.mkdirP_keepsFile (fs : Fs) (path : CStr) (ok : Loc → Bool) (p : Loc) :
    fs.KeepsFile p (fs.mkdirP path ok).2 := by
  have hadds : Fs.AddsDirs (pathComponents (snprintf pathMax path)) fs (fs.mkdirP path ok).2 :=
    Fs.mkdirAll_addsDirs ok fs _ fun l hl => (List.mem_inits l _).1 (List.mem_of_mem_tail hl)
  exact (hadds.grows (List.prefix_refl _)).keepsFile p

theorem copyFile_keepsFile (io : RecoverIo) (src dst : CStr) (fs : Fs)
    (h : p ≠ pathComponents dst) : fs.KeepsFile p (copyFile io src dst fs).2 :=
  Fs.keepsFile_of_eq (copyFile_frame io src dst fs h)

theorem Fs.unlink_keepsFile {ok : Bool} (hunlink : fs.unlink path ok = some fs')
    (h : p ≠ pathComponents path) : fs.KeepsFile p fs' :=
  Fs.keepsFile_of_eq ((Fs.unlink_frame hunlink).2 p h)

/-- A rename keeps what lies neither below the old place nor below the new one. -/
theorem Fs.rename_keepsFile {old new : CStr} {ok : Bool} {r : Rmdir}
    (hrename : fs.rename old new ok r = some fs') (hold : ¬ pathComponents old <+: p)
    (hnew : ¬ pathComponents new <+: p) : fs.KeepsFile p fs' := by
  have hneOld : p ≠ pathComponents old := fun h => hold (h ▸ List.prefix_refl _)
  have hneNew : p ≠ pathComponents new := fun h => hnew (h ▸ List.prefix_refl _)
  unfold Fs.rename at hrename
  dsimp only at hrename
  split at hrename
  · cases hrename
  · split at hrename
    · cases hrename
    · split at hrename
      · cases hrename
        exact .refl p fs
      · split at hrename
        · split at hrename
          · cases hrename
          · cases hrename
            -- a directory moves with all below it
            refine Fs.keepsFile_of_eq ?_
            show (if pathComponents new <+: p then _ else _) = _
            rw [if_neg hnew, if_neg hold]
        · cases hrename
        · split at hrename
          · cases hrename
          · cases hrename
            refine Fs.keepsFile_of_eq ?_
            rw [Fs.node_put_of_ne hneNew, Fs.node_remove_of_ne hneOld]

/-- The quarantine of all events. -/
def quarantineRoot : Loc := pathComponents quarantinePath

example : quarantineRoot <+: pathComponents (quarantineFor (lit "e") (lit "/a/../f")) := by decide

/-- Whatever a quarantine path is cut to and extended by, it stays in the quarantine. -/
theorem quarantineRoot_isPrefix (eventId path suffix : CStr) :
    quarantineRoot <+: pathComponents (snprintf pathMax (quarantineFor eventId path) ++ suffix) := by
  have hlen : quarantinePath.length + 1 ≤ pathMax - 1 := by decide
  obtain ⟨rest, hrest⟩ : ∃ rest, quarantineFor eventId path = quarantinePath ++ slash :: rest :=
    ⟨_, by rw [quarantineFor, List.append_assoc, List.cons_append]⟩
  obtain ⟨rest', hcut⟩ : ∃ rest', snprintf pathMax (quarantinePath ++ slash :: rest) =
      quarantinePath ++ slash :: rest' := by
    refine ⟨rest.take (pathMax - 1 - quarantinePath.length - 1), ?_⟩
    obtain ⟨n, hn⟩ : ∃ n, pathMax - 1 - quarantinePath.length = n + 1 :=
      ⟨pathMax - 1 - quarantinePath.length - 1, by omega⟩
    rw [snprintf, List.take_append, List.take_of_length_le (by omega), hn, List.take_succ_cons,
      Nat.add_sub_cancel]
  rw [hrest, hcut, List.append_assoc, List.cons_append, pathComponents_append_slash]
  exact List.prefix_append _ _

/-- Moving a file away keeps what is neither below it nor in the quarantine. -/
theorem moveToQuarantine_keepsFile (io : RecoverIo) (fs : Fs) (isReg : Bool)
    (hfits : qpath.length < pathMax) (hbase : ∀ suffix, base <+: pathComponents (qpath ++ suffix))
    (hpath : ¬ pathComponents path <+: p) (hp : ¬ base <+: p) :
    fs.KeepsFile p (moveToQuarantine io path qpath isReg fs).2 := by
  have hmkdir := Fs.mkdirP_keepsFile fs (Fs.parentPath qpath) io.mkdirOk p
  have hne : p ≠ pathComponents path := fun h => hpath (h ▸ List.prefix_refl _)
  unfold moveToQuarantine
  dsimp only
  generalize (fs.mkdirP (Fs.parentPath qpath) io.mkdirOk).2 = fs1 at hmkdir
  obtain ⟨suffix, hslot⟩ := quarantineUnique_isPrefix fs1 hfits
  have hq : ¬ pathComponents (quarantineUnique fs1 qpath) <+: p := fun h =>
    hp ((hslot ▸ hbase suffix).trans h)
  generalize quarantineUnique fs1 qpath = q at hq
  have hcopy := copyFile_keepsFile (p := p) io path q fs1 fun h => hq (h ▸ List.prefix_refl _)
  split
  · next fs2 hrename => exact hmkdir.trans (Fs.rename_keepsFile hrename hpath hq)
  · split
    · generalize copyFile io path q fs1 = copied at hcopy
      obtain ⟨ok, fs2⟩ := copied
      cases ok with
      | false => exact hmkdir.trans hcopy
      | true =>
        dsimp only
        split
        · next fs3 hunlink =>
          exact hmkdir.trans (hcopy.trans (Fs.unlink_keepsFile hunlink hne))
        · exact hmkdir.trans hcopy
    · exact hmkdir

/-- Deleting a created file keeps what is neither below it nor in the quarantine. -/
theorem deleteCreatedOne_keepsFile (io : RecoverIo) (eventId : CStr) (s : RecoverState)
    (cf : CreatedFile)
    (hcf : validRestorePath cf.filePath = true → ¬ pathComponents cf.filePath <+: p)
    (hp : ¬ quarantineRoot <+: p) : s.fs.KeepsFile p (deleteCreatedOne io eventId s cf).fs := by
  unfold deleteCreatedOne
  split
  · exact .refl p s.fs
  · next hvalid =>
    have hpath := hcf (by simpa using hvalid)
    split
    · exact .refl p s.fs
    · have hmove := moveToQuarantine_keepsFile io s.fs true
        (length_snprintf_lt (by decide) (quarantineFor eventId cf.filePath))
        (quarantineRoot_isPrefix eventId cf.filePath) hpath hp
      generalize moveToQuarantine io cf.filePath _ true s.fs = moved at hmove
      obtain ⟨_ | _, fs'⟩ := moved <;> exact hmove
    · split
      · next fs' hrmdir =>
        unfold Fs.rmdirPath at hrmdir
        split at hrmdir
        · split at hrmdir
          · cases hrmdir
            exact Fs.keepsFile_of_eq
              (Fs.node_remove_of_ne fun h => hpath (h ▸ List.prefix_refl _))
          · cases hrmdir
        · cases hrmdir
      · exact .refl p s.fs
    · exact .refl p s.fs

/-- Restoring a file keeps what is neither below it nor in the quarantine, its own preimage
aside. -/
theorem restoreOne_keepsFile (io : RecoverIo) (s : RecoverState) (pf : ProtectedFile)
    (hpf : pf.restoreStatus = lit "pending" → validRestorePath pf.originalPath = true →
      ¬ pathComponents pf.originalPath <+: p ∧ pathComponents pf.backupPath ≠ p)
    (hp : ¬ quarantineRoot <+: p) : s.fs.KeepsFile p (restoreOne io s pf).fs := by
  unfold restoreOne
  dsimp only
  split
  · exact .refl p s.fs
  · next hpending =>
    split
    · exact .refl p s.fs
    · next hgood =>
      simp only [Bool.or_eq_true, Bool.not_eq_true', decide_eq_true_eq, not_or,
        Bool.not_eq_false] at hgood
      obtain ⟨hpath, hbackup⟩ := hpf (not_not.1 hpending) hgood.1
      have hcurrent : s.fs.KeepsFile p (quarantineCurrent io pf.eventId pf.originalPath s.fs) := by
        unfold quarantineCurrent
        split
        · exact .refl p s.fs
        · split
          · exact .refl p s.fs
          · next hfits =>
            rw [Nat.not_le] at hfits
            have hbase := quarantineRoot_isPrefix pf.eventId pf.originalPath
            rw [snprintf_of_lt hfits] at hbase
            exact moveToQuarantine_keepsFile io s.fs _ hfits hbase hpath hp
      generalize quarantineCurrent io pf.eventId pf.originalPath s.fs = fs1 at hcurrent
      have hdirs := hcurrent.trans
        (Fs.mkdirP_keepsFile fs1 (Fs.parentPath pf.originalPath) io.mkdirOk p)
      generalize (fs1.mkdirP (Fs.parentPath pf.originalPath) io.mkdirOk).2 = fs2 at hdirs
      have hcopy := hdirs.trans (copyFile_keepsFile io pf.backupPath pf.originalPath fs2
        fun h => hpath (h ▸ List.prefix_refl _))
      generalize copyFile io pf.backupPath pf.originalPath fs2 = copied at hcopy
      obtain ⟨ok, fs3⟩ := copied
      cases ok with
      | false => exact hcopy
      | true =>
        show s.fs.KeepsFile p ((fs3.unlink pf.backupPath io.unlinkOk).getD fs3)
        cases hunlink : fs3.unlink pf.backupPath io.unlinkOk with
        | none => exact hcopy
        | some fs4 => exact hcopy.trans (Fs.unlink_keepsFile hunlink hbackup.symm)

end

/-! ## A restore and the rows of other events -/

section
variable {io : RecoverIo} {eventId : CStr} {s : RecoverState} {pf row : ProtectedFile} {db : Db}
  {fs : Fs} {p : Loc}

/-- A pending row gets another status, a row that is not pending is passed over. -/
theorem restoreOne_db (io : RecoverIo) (s : RecoverState) (pf : ProtectedFile) :
    (pf.restoreStatus ≠ lit "pending" ∧ (restoreOne io s pf).db = s.db) ∨
      ∃ status, status ≠ lit "pending" ∧
        (restoreOne io s pf).db = s.db.updateRestoreStatus pf.id status io.now := by
  have hfailed : lit "failed" ≠ lit "pending" := by decide
  have hrestored : lit "restored" ≠ lit "pending" := by decide
  unfold restoreOne
  dsimp only
  split
  · next hpending => exact .inl ⟨hpending, rfl⟩
  · split
    · exact .inr ⟨_, hfailed, rfl⟩
    · split
      · exact .inr ⟨_, hfailed, rfl⟩
      · exact .inr ⟨_, hrestored, rfl⟩

/-- What is pending after one file was pending before, and is not the row of that file. -/
theorem restoreOne_pending (hrow : row ∈ (restoreOne io s pf).db.protectedFiles)
    (hpending : row.restoreStatus = lit "pending") :
    row ∈ s.db.protectedFiles ∧ (pf.restoreStatus = lit "pending" → row.id ≠ pf.id) := by
  rcases restoreOne_db io s pf with ⟨hnot, hsame⟩ | ⟨status, hstatus, hdb⟩
  · rw [hsame] at hrow
    exact ⟨hrow, fun h => absurd h hnot⟩
  · rw [hdb] at hrow
    obtain ⟨old, hold, rfl⟩ := List.mem_map.1 hrow
    split at hpending
    · exact absurd hpending hstatus
    · next hid =>
      rw [if_neg hid]
      exact ⟨hold, fun _ => hid⟩

/-- The same for all files of a restore. -/
theorem restoreAll_pending (pfs : List ProtectedFile)
    (hrow : row ∈ (pfs.foldl (restoreOne io) s).db.protectedFiles)
    (hpending : row.restoreStatus = lit "pending") :
    row ∈ s.db.protectedFiles ∧
      ∀ pf ∈ pfs, pf.restoreStatus = lit "pending" → row.id ≠ pf.id := by
  induction pfs generalizing s with
  | nil => exact ⟨hrow, by simp⟩
  | cons pf pfs ih =>
    obtain ⟨hmem, hrest⟩ := ih hrow
    obtain ⟨hmem, hfirst⟩ := restoreOne_pending hmem hpending
    refine ⟨hmem, fun pf' hpf' => ?_⟩
    rcases List.mem_cons.1 hpf' with rfl | hpf'
    · exact hfirst
    · exact hrest pf' hpf'

theorem deleteAll_db (cfs : List CreatedFile) :
    (cfs.foldl (deleteCreatedOne io eventId) s).db = s.db := by
  induction cfs generalizing s with
  | nil => rfl
  | cons cf cfs ih =>
    rw [List.foldl_cons, ih, deleteCreatedOne_db]

/-- No row of the event stays pending, and nothing becomes pending. -/
theorem restoreEvent_pending (hrow : row ∈ (restoreEvent io eventId fs db).db.protectedFiles)
    (hpending : row.restoreStatus = lit "pending") :
    row ∈ db.protectedFiles ∧ row.eventId ≠ eventId := by
  obtain ⟨hmem, hother⟩ := restoreAll_pending _ hrow hpending
  rw [deleteAll_db] at hmem hother
  exact ⟨hmem, fun hevent =>
    hother row (mem_queryByEvent_iff.2 ⟨hmem, hevent⟩) hpending rfl⟩

/-- A restore of the event works on a place: it lies in the quarantine, at or below a path
that is deleted or restored, or is the preimage of a file to restore. -/
inductive WorksOn (eventId : CStr) (db : Db) (p : Loc) : Prop
  | quarantine (h : quarantineRoot <+: p)
  | created (cf : CreatedFile) (hcf : cf ∈ db.queryCreatedByEvent eventId)
      (hvalid : validRestorePath cf.filePath = true) (h : pathComponents cf.filePath <+: p)
  | original (pf : ProtectedFile) (hpf : pf ∈ db.queryByEvent eventId)
      (hpending : pf.restoreStatus = lit "pending")
      (hvalid : validRestorePath pf.originalPath = true) (h : pathComponents pf.originalPath <+: p)
  | preimage (pf : ProtectedFile) (hpf : pf ∈ db.queryByEvent eventId)
      (hpending : pf.restoreStatus = lit "pending")
      (hvalid : validRestorePath pf.originalPath = true) (h : pathComponents pf.backupPath = p)

theorem worksOn_iff : WorksOn eventId db p ↔ quarantineRoot <+: p ∨
    (∃ cf ∈ db.queryCreatedByEvent eventId, validRestorePath cf.filePath = true ∧
      pathComponents cf.filePath <+: p) ∨
    ∃ pf ∈ db.queryByEvent eventId, pf.restoreStatus = lit "pending" ∧
      validRestorePath pf.originalPath = true ∧
      (pathComponents pf.originalPath <+: p ∨ pathComponents pf.backupPath = p) := by
  constructor
  · intro h
    cases h with
    | quarantine h => exact .inl h
    | created cf hcf hvalid h => exact .inr (.inl ⟨cf, hcf, hvalid, h⟩)
    | original pf hpf hpending hvalid h => exact .inr (.inr ⟨pf, hpf, hpending, hvalid, .inl h⟩)
    | preimage pf hpf hpending hvalid h => exact .inr (.inr ⟨pf, hpf, hpending, hvalid, .inr h⟩)
  · rintro (h | ⟨cf, hcf, hvalid, h⟩ | ⟨pf, hpf, hpending, hvalid, h | h⟩)
    · exact .quarantine h
    · exact .created cf hcf hvalid h
    · exact .original pf hpf hpending hvalid h
    · exact .preimage pf hpf hpending hvalid h

instance : Decidable (WorksOn eventId db p) := decidable_of_iff _ worksOn_iff.symm

theorem deleteAll_keepsFile (hp : ¬ quarantineRoot <+: p) (cfs : List CreatedFile)
    (hcfs : ∀ cf ∈ cfs, validRestorePath cf.filePath = true → ¬ pathComponents cf.filePath <+: p) :
    s.fs.KeepsFile p (cfs.foldl (deleteCreatedOne io eventId) s).fs := by
  induction cfs generalizing s with
  | nil => exact .refl p s.fs
  | cons cf cfs ih =>
    exact (deleteCreatedOne_keepsFile io eventId s cf (hcfs cf List.mem_cons_self) hp).trans
      (ih fun cf' hcf' => hcfs cf' (List.mem_cons_of_mem _ hcf'))

theorem restoreAll_keepsFile (hp : ¬ quarantineRoot <+: p) (pfs : List ProtectedFile)
    (hpfs : ∀ pf ∈ pfs, pf.restoreStatus = lit "pending" → validRestorePath pf.originalPath = true →
      ¬ pathComponents pf.originalPath <+: p ∧ pathComponents pf.backupPath ≠ p) :
    s.fs.KeepsFile p (pfs.foldl (restoreOne io) s).fs := by
  induction pfs generalizing s with
  | nil => exact .refl p s.fs
  | cons pf pfs ih =>
    exact (restoreOne_keepsFile io s pf (hpfs pf List.mem_cons_self) hp).trans
      (ih fun pf' hpf' => hpfs pf' (List.mem_cons_of_mem _ hpf'))

/-- A file that a restore does not work on survives it. -/
theorem restoreEvent_keepsFile (io : RecoverIo) (fs : Fs) (h : ¬ WorksOn eventId db p) :
    fs.KeepsFile p (restoreEvent io eventId fs db).fs := by
  have hp : ¬ quarantineRoot <+: p := fun hq => h (.quarantine hq)
  refine Fs.KeepsFile.trans (deleteAll_keepsFile (s := ⟨fs, db, 0, 0, 0, 0, 0⟩) hp _
    fun cf hcf hvalid hbelow => h (.created cf hcf hvalid hbelow))
    (restoreAll_keepsFile hp _ fun pf hpf hpending hvalid => ?_)
  rw [deleteAll_db] at hpf
  exact ⟨fun hbelow => h (.original pf hpf hpending hvalid hbelow),
    fun hsame => h (.preimage pf hpf hpending hvalid hsame)⟩

/-- `cmd_restore` is the restore of the event it names, if any; the record of the event
changes no row of a file. -/
theorem cmdRestore_eq (io : RecoverIo) (argv : List CStr) (fs : Fs) (db : Db) :
    (eventArg argv = none ∧ (cmdRestore io argv fs db).2 = (fs, db)) ∨
      ∃ eventId, eventArg argv = some eventId ∧
        (cmdRestore io argv fs db).2.1 = (restoreEvent io eventId fs db).fs ∧
        (cmdRestore io argv fs db).2.2.protectedFiles =
          (restoreEvent io eventId fs db).db.protectedFiles := by
  unfold cmdRestore
  cases eventArg argv with
  | none => exact .inl ⟨rfl, rfl⟩
  | some eventId =>
    refine .inr ⟨eventId, rfl, ?_⟩
    dsimp only
    split <;> exact ⟨rfl, rfl⟩

end

/-! ## A backup and its row -/

/-- Nothing but a regular file stands at a place. -/
def Fs.OnlyFileAt (fs : Fs) (loc : Loc) : Prop := ∀ n, fs.lookup loc = some n → n.isRegular = true

section
variable {io : BackupIo} {store src share rel path dir : CStr} {fs fs' : Fs} {loc : Loc}
  {file : Option Content}

theorem Fs.OnlyFileAt.eq_regular {n : Node} (h : fs.OnlyFileAt loc) (hn : fs.lookup loc = some n) :
    ∃ c, n = .regular c := by
  have hreg := h n hn
  cases n with
  | regular c => exact ⟨c, rfl⟩
  | directory => cases hreg
  | other => cases hreg

/-- A file can be created only under a path that does not end in a slash. -/
theorem Fs.createExcl_last {ok : Bool} (h : fs.createExcl path ok ≠ .failed) :
    path.getLast? ≠ some slash := fun hlast => by
  rw [Fs.createExcl, if_pos hlast] at h
  exact h rfl

theorem slash_mem_backupsPath (store dir rel : CStr) : slash ∈ backupsPath store dir rel := by
  rw [backupsPath]
  simp

/-- `do_backup` returns OK because the copy is there, or because it could create it. -/
theorem doBackup_ok (h : doBackup io store src share rel fs = (true, fs')) :
    computeBackupPath store share rel = some (backupsPath store share rel) ∧
      ((∃ n, fs.stat (backupsPath store share rel) = some n ∧ fs' = fs) ∨
        fs.stat (backupsPath store share rel) = none ∧
          (backupsPath store share rel).getLast? ≠ some slash) := by
  unfold doBackup at h
  split at h
  · cases h
  · split at h
    · cases h
    · next backup hpath =>
      obtain ⟨-, rfl, -⟩ := computeBackupPath_eq_some hpath
      refine ⟨hpath, ?_⟩
      split at h
      · next n hstat =>
        cases h
        exact .inl ⟨n, hstat, rfl⟩
      · next hstat =>
        refine .inr ⟨hstat, ?_⟩
        split at h
        · cases h
        · split at h
          · split at h
            · cases h
            · next hexists => exact Fs.createExcl_last (by rw [hexists]; simp)
            · next hcreated => exact Fs.createExcl_last (by rw [hcreated]; simp)
          · cases h

/-- After `do_backup` returned OK its copy is a file, unless something else was there. -/
theorem doBackup_stat (h : doBackup io store src share rel fs = (true, fs'))
    (honly : fs.OnlyFileAt (pathComponents (backupsPath store share rel))) :
    ∃ c, fs'.stat (backupsPath store share rel) = some (.regular c) := by
  obtain ⟨hpath, ⟨n, hstat, rfl⟩ | ⟨hnone, hlast⟩⟩ := doBackup_ok h
  · obtain ⟨c, rfl⟩ := honly.eq_regular (Fs.lookup_of_stat hstat)
    exact ⟨c, hstat⟩
  · obtain ⟨-, -, hfits⟩ := computeBackupPath_eq_some hpath
    have hne := List.ne_nil_of_mem (slash_mem_backupsPath store share rel)
    have hlook : ∀ fs : Fs, fs.stat (backupsPath store share rel) =
        fs.lookup (pathComponents (backupsPath store share rel)) := fun fs =>
      Fs.stat_eq_lookup hne hfits hlast
    have hspec := doBackup_spec io store src share rel fs
    rw [h] at hspec
    cases hspec with
    | kept backup n hpath' hn =>
      obtain rfl : backup = backupsPath store share rel := Option.some.inj (hpath'.symm.trans hpath)
      rw [hlook, hn] at hnone
      cases hnone
    | copied backup content _ hpath' _ _ _ hcopy =>
      obtain rfl : backup = backupsPath store share rel := Option.some.inj (hpath'.symm.trans hpath)
      refine ⟨content, ?_⟩
      rw [hlook]
      unfold Fs.lookup
      split
      · next hnil =>
        rw [hlook, hnil] at hnone
        cases hnone
      · exact hcopy

/-- What is there stays there in a backup, whatever its result. -/
theorem doBackup_keepsFile (io : BackupIo) (store src share rel : CStr) (fs : Fs) (p : Loc) :
    fs.KeepsFile p (doBackup io store src share rel fs).2 := by
  have hspec := doBackup_spec io store src share rel fs
  generalize doBackup io store src share rel fs = r at hspec
  cases hspec with
  | failed fs' hgrows hsame =>
    cases hpath : computeBackupPath store share rel with
    | none =>
      rw [hsame hpath]
      exact .refl p fs
    | some backup => exact (hgrows backup hpath).keepsFile p
  | kept => exact .refl p fs
  | copied _ _ _ _ _ _ hgrows => exact hgrows.keepsFile p

/-- A directory above a path that does not end in a slash is not the place of the path. -/
theorem not_isPrefix_parentPath (hslash : slash ∈ path) (hlast : path.getLast? ≠ some slash) :
    ¬ pathComponents path <+: pathComponents (Fs.parentPath path) := by
  obtain ⟨name, hname⟩ := pathComponents_parentPath hslash hlast
  intro h
  have hlen := h.length_le
  rw [hname, List.length_append, List.length_singleton] at hlen
  omega

/-- After `fanotify_do_backup` returned OK its copy is a file, unless something else was
there. -/
theorem fanotifyDoBackup_file (h : fanotifyDoBackup io file path store dir fs = (true, fs'))
    (honly : fs.OnlyFileAt (pathComponents (backupsPath store dir path))) :
    (backupsPath store dir path).getLast? ≠ some slash ∧
      ∃ c, fs'.lookup (pathComponents (backupsPath store dir path)) = some (.regular c) := by
  have hslash := slash_mem_backupsPath store dir path
  unfold fanotifyDoBackup at h
  cases file with
  | none => cases h
  | some content =>
    dsimp only at h
    split at h
    · cases h
    · have hdirs := Fs.mkdirEach_addsDirs
        (List.prefix_refl (pathComponents (Fs.parentPath (backupsPath store dir path)))) io.mkdirOk fs
      generalize fs.mkdirEach _ _ = fs1 at h hdirs
      split at h
      · cases h
      · next hexists =>
        cases h
        have hlast : (backupsPath store dir path).getLast? ≠ some slash :=
          Fs.createExcl_last (by rw [hexists]; simp)
        refine ⟨hlast, ?_⟩
        -- the directories made do not reach the place of the copy
        have hsame := hdirs.eq_off_way (not_isPrefix_parentPath hslash hlast)
        rw [Fs.createExcl, if_neg hlast] at hexists
        split at hexists
        · next n hn =>
          rw [hn]
          rw [Fs.lookup_congr hsame] at hn
          obtain ⟨c, rfl⟩ := honly.eq_regular hn
          exact ⟨c, rfl⟩
        · split at hexists <;> cases hexists
      · next hcreated =>
        have hlast : (backupsPath store dir path).getLast? ≠ some slash :=
          Fs.createExcl_last (by rw [hcreated]; simp)
        obtain ⟨name, hname⟩ := pathComponents_parentPath hslash hlast
        refine ⟨hlast, content, ?_⟩
        rw [Fs.lookup_of_ne_nil (by rw [hname]; simp)]
        exact copyToNew_ok h

end

/-! ## Backups and restores, one after another -/

/-- The file tree and the daemon with its database. -/
structure Site where
  fs : Fs
  daemon : Daemon

/-- What happens on a site whose store is at `store`. -/
inductive SiteEvent (store : CStr) where
  /-- The users work on their files. -/
  | work (next : Next store)
  /-- The module backs a file up; the daemon gets the message of a backup that succeeded. -/
  | backup (io : BackupIo) (conn : Conn) (src rel : CStr) (op : UInt8) (newName : Option CStr)
      (st : Option StatBuf) (env : CallEnv)
  /-- A watched file is opened; the daemon gets the message the channel queued. -/
  | opened (c : Channel) (fenv : FanEnv) (ev : FanotifyEvent) (env : CallEnv)
  /-- The daemon gets a message that reports no backup. -/
  | message (env : CallEnv) (msg : EventMsg) (hnone : msg.reportsBackup = false)
  /-- The recovery tool runs. -/
  | restore (io : RecoverIo) (argv : List CStr)

/-- The site after an event. -/
def siteStep {store : CStr} (s : Site) : SiteEvent store → Site
  | .work next => { s with fs := (next.run s.fs).2 }
  | .backup io conn src rel op newName st env =>
    match doBackup io conn.storePath.str src conn.shareName rel s.fs with
    | (true, fs) =>
      ⟨fs, processMsg env (conn.eventMsg op (backupFlags true) rel newName st) s.daemon⟩
    | (false, fs) => { s with fs := fs }
  | .opened c fenv ev env =>
    let r := fanChannelHandle fenv s.daemon.policy c.ops ev s.fs
    match r.queued with
    | some msg => ⟨r.fs, processMsg env msg s.daemon⟩
    | none => { s with fs := r.fs }
  | .message env msg _ => { s with daemon := processMsg env msg s.daemon }
  | .restore io argv =>
    let r := (cmdRestore io argv s.fs s.daemon.db).2
    ⟨r.1, { s.daemon with db := r.2 }⟩

/-- Every pending row has its preimage, a regular file. -/
def PendingRestorable (s : Site) : Prop :=
  ∀ row ∈ s.daemon.db.protectedFiles, row.restoreStatus = lit "pending" →
    ∃ c, s.fs.stat row.backupPath = some (.regular c)

/-- A backup that is recorded: the row names the copy, and nothing but a file is in the way
of the copy. A restore: it works on no preimage of another event's pending row. -/
def SiteEvent.SparesPending {store : CStr} (s : Site) : SiteEvent store → Prop
  | .work _ => True
  | .backup _ conn _ rel op newName st env =>
    RecordsRow env (conn.eventMsg op (backupFlags true) rel newName st) s.daemon →
      conn.storePath.str = store ∧ PathsMeet conn rel ∧
        s.fs.OnlyFileAt (pathComponents (backupsPath store conn.shareName rel))
  | .opened c fenv ev env =>
    ∀ ctx msg, c.ops.resolve fenv.proc ev = some ctx →
      (fanChannelHandle fenv s.daemon.policy c.ops ev s.fs).queued = some msg →
      RecordsRow env msg s.daemon →
      (pathComponents ctx.shareName.str = pathComponents c.ops.backupDir ∧
        ¬ shareNeedle ctx.shareName.str <:+: ev.path.str ∧
        ¬ ctx.shareName.str ++ [slash] <+: ev.path.str) ∧
        s.fs.OnlyFileAt (pathComponents (backupsPath store c.ops.backupDir ev.path.str))
  | .message _ _ _ => True
  | .restore _ argv =>
    ∀ eventId, eventArg argv = some eventId → ∀ row ∈ s.daemon.db.protectedFiles,
      row.restoreStatus = lit "pending" → row.eventId ≠ eventId →
        ¬ WorksOn eventId s.daemon.db (pathComponents row.backupPath)

/-- The daemon keeps its preimages in the store, and every pending row has one there. -/
structure Site.Sound (store : CStr) (s : Site) : Prop where
  policy : s.daemon.policy.storePath.str = store
  inStore : ∀ row ∈ s.daemon.db.protectedFiles, row.restoreStatus = lit "pending" →
    pathComponents store <+: pathComponents row.backupPath
  restorable : PendingRestorable s

section
variable {store : CStr} {s : Site} {fs fs' : Fs} {d : Daemon} {env : CallEnv} {msg : EventMsg}

/-- A message changes nothing of the policy but the blacklist. -/
theorem processMsg_storePath (env : CallEnv) (msg : EventMsg) (d : Daemon) :
    (processMsg env msg d).policy.storePath = d.policy.storePath := by
  have hspec := processMsg_spec env msg d
  generalize processMsg env msg d = d' at hspec
  cases hspec with
  | idle => rfl
  | worked _ _ _ _ hstage => exact congrArg (·.storePath) hstage.policy

/-- A preimage's path lies in the store. -/
theorem isPrefix_recordBackupPath {path : CStr} (h : recordBackupPath store msg = some path) :
    pathComponents store <+: pathComponents path ∧ path.length < pathMax := by
  unfold recordBackupPath at h
  dsimp only at h
  split at h
  · next hfits =>
    cases h
    rw [pathComponents_backupsPath]
    exact ⟨List.prefix_append _ _, hfits⟩
  · cases h

/-- A message whose row, if it leaves one, leads to a file. -/
theorem Site.Sound.processMsg (h : Site.Sound store ⟨fs, d⟩)
    (hrow : RecordsRow env msg d → ∀ path, recordBackupPath store msg = some path →
      ∃ c, fs.stat path = some (.regular c)) :
    Site.Sound store ⟨fs, processMsg env msg d⟩ := by
  have hpolicy : (GfrGuard.processMsg env msg d).policy.storePath.str = store := by
    rw [processMsg_storePath]
    exact h.policy
  rcases processMsg_protectedFiles env msg d with
    ⟨-, hsame⟩ | ⟨hrec, path, row, hpath, hrows, hbackup, -⟩
  · exact ⟨hpolicy, hsame ▸ h.inStore, fun r hr => h.restorable r (hsame ▸ hr)⟩
  · rw [show d.policy.storePath.str = store from h.policy] at hpath
    refine ⟨hpolicy, fun r hr hpending => ?_, fun r hr hpending => ?_⟩
    all_goals
      rcases List.mem_append.1 ((hrows ▸ hr : r ∈ d.db.protectedFiles ++ [row])) with hold | hnew
    · exact h.inStore r hold hpending
    · rw [List.mem_singleton.1 hnew, hbackup]
      exact (isPrefix_recordBackupPath hpath).1
    · exact h.restorable r hold hpending
    · rw [List.mem_singleton.1 hnew, hbackup]
      exact hrow hrec path hpath

/-- A change of the tree that keeps the preimages. -/
theorem Site.Sound.keeps (h : Site.Sound store ⟨fs, d⟩)
    (hkeeps : ∀ p, pathComponents store <+: p → fs.KeepsFile p fs') :
    Site.Sound store ⟨fs', d⟩ where
  policy := h.policy
  inStore := h.inStore
  restorable row hrow hpending := by
    obtain ⟨c, hc⟩ := h.restorable row hrow hpending
    exact ⟨c, (hkeeps _ (h.inStore row hrow hpending)).stat hc⟩

/-- A backup of the module. -/
theorem Site.Sound.backup (h : Site.Sound store s) {io : BackupIo} {conn : Conn} {src rel : CStr}
    {op : UInt8} {newName : Option CStr} {st : Option StatBuf}
    (hspares : SiteEvent.SparesPending s
      (.backup io conn src rel op newName st env : SiteEvent store)) :
    Site.Sound store (siteStep s (.backup io conn src rel op newName st env : SiteEvent store)) := by
  have hkeeps := doBackup_keepsFile io conn.storePath.str src conn.shareName rel s.fs
  unfold siteStep
  dsimp only
  cases hr : doBackup io conn.storePath.str src conn.shareName rel s.fs with
  | mk ok fs' =>
    rw [hr] at hkeeps
    have hgrown : Site.Sound store ⟨fs', s.daemon⟩ := h.keeps fun p _ => hkeeps p
    cases ok with
    | false => exact hgrown
    | true =>
      refine hgrown.processMsg fun hrec path hpath => ?_
      obtain ⟨hstore, hmeets, honly⟩ := hspares hrec
      rw [hstore] at hr
      obtain ⟨hcompute, -⟩ := doBackup_ok hr
      obtain ⟨-, -, hfits⟩ := computeBackupPath_eq_some hcompute
      rw [recordBackupPath_eventMsg hmeets op _ newName st hfits] at hpath
      cases hpath
      exact doBackup_stat hr honly

theorem reportsBackup_of_flags (h : hasFlag msg.flags flagBackedUp = false) :
    msg.reportsBackup = false := by
  rw [EventMsg.reportsBackup, h, Bool.false_and]

/-- Only a backup that returned OK is reported by a channel. -/
theorem fanChannelHandle_reports {fenv : FanEnv} {pol : Policy} {ops : FanChannelOps}
    {ev : FanotifyEvent} (hqueued : (fanChannelHandle fenv pol ops ev fs).queued = some msg)
    (hreports : msg.reportsBackup = true) :
    fanotifyDoBackup fenv.backup fenv.file ev.path.str pol.storePath.str ops.backupDir fs =
      (true, (fanChannelHandle fenv pol ops ev fs).fs) := by
  unfold fanChannelHandle at hqueued ⊢
  cases hresolve : ops.resolve fenv.proc ev with
  | none =>
    rw [hresolve] at hqueued
    cases hqueued
  | some ctx =>
    rw [hresolve] at hqueued
    dsimp only at hqueued ⊢
    split at hqueued
    · -- a denied session is reported without a backup
      dsimp only at hqueued
      split at hqueued
      · cases hqueued
        have hrisky : hasFlag flagRisky flagBackedUp = false := by decide
        exact absurd hreports (by rw [reportsBackup_of_flags hrisky]; simp)
      · cases hqueued
    · next hlisted =>
      rw [if_neg hlisted]
      cases hr : fanotifyDoBackup fenv.backup fenv.file ev.path.str pol.storePath.str ops.backupDir
        fs with
      | mk ok fs' =>
        rw [hr] at hqueued
        cases ok with
        | true => rfl
        | false =>
          dsimp only at hqueued
          split at hqueued
          · cases hqueued
            have hfailed : hasFlag (flagRisky ||| flagBackupFailed) flagBackedUp = false := by decide
            exact absurd hreports (by rw [reportsBackup_of_flags hfailed]; simp)
          · cases hqueued

/-- An open of a watched file. -/
theorem Site.Sound.opened (h : Site.Sound store s) {c : Channel} {fenv : FanEnv}
    {ev : FanotifyEvent}
    (hspares : SiteEvent.SparesPending s (.opened c fenv ev env : SiteEvent store)) :
    Site.Sound store (siteStep s (.opened c fenv ev env : SiteEvent store)) := by
  have hstore : s.daemon.policy.storePath.str = store := h.policy
  have hgrown : Site.Sound store
      ⟨(fanChannelHandle fenv s.daemon.policy c.ops ev s.fs).fs, s.daemon⟩ := by
    refine h.keeps fun p _ => ?_
    have hgrows := fanotifyDoBackup_grows fenv.backup fenv.file ev.path.str
      s.daemon.policy.storePath.str c.ops.backupDir s.fs
    unfold fanChannelHandle
    cases c.ops.resolve fenv.proc ev with
    | none => exact .refl p s.fs
    | some ctx =>
      dsimp only
      split
      · exact .refl p s.fs
      · exact hgrows.keepsFile p
  unfold siteStep
  dsimp only
  cases hqueued : (fanChannelHandle fenv s.daemon.policy c.ops ev s.fs).queued with
  | none => exact hgrown
  | some msg =>
    refine hgrown.processMsg fun hrec path hpath => ?_
    have hbackup := fanChannelHandle_reports hqueued hrec.reports
    obtain ⟨ctx, hresolve⟩ : ∃ ctx, c.ops.resolve fenv.proc ev = some ctx := by
      cases hresolve : c.ops.resolve fenv.proc ev with
      | some ctx => exact ⟨ctx, rfl⟩
      | none =>
        rw [fanChannelHandle, hresolve] at hqueued
        cases hqueued
    obtain ⟨hmeets, honly⟩ := hspares ctx msg hresolve hqueued hrec
    obtain ⟨hshare, hfile⟩ := fanChannelHandle_queued hresolve hqueued
    rw [hstore] at hbackup
    obtain ⟨hlast, content, hcopy⟩ := fanotifyDoBackup_file hbackup honly
    -- the row names the whole path under the share, which is the directory of the channel
    have hcomps := (pathComponents_backupsPath_backupRel_iff store c.length_backupDir).2 hmeets
    have hrel : backupRel ctx.shareName.str ev.path.str = ev.path.str :=
      (backupRel_eq_iff _ _ _).2 (.inr (.inr ⟨hmeets.2.1, hmeets.2.2, rfl⟩))
    have hpath' : path = backupsPath store ctx.shareName.str ev.path.str := by
      unfold recordBackupPath at hpath
      rw [hshare, hfile, hrel] at hpath
      dsimp only at hpath
      split at hpath
      · cases hpath; rfl
      · cases hpath
    obtain ⟨-, hfits⟩ := isPrefix_recordBackupPath hpath
    have hlast' : path.getLast? ≠ some slash := by
      rw [hpath']
      rw [backupsPath, List.getLast?_append, List.getLast?_cons] at hlast ⊢
      exact hlast
    refine ⟨content, ?_⟩
    rw [Fs.stat_eq_lookup (List.ne_nil_of_mem (hpath' ▸ slash_mem_backupsPath ..)) hfits hlast',
      hpath', ← hcopy]
    rw [hrel] at hcomps
    rw [hcomps]

/-- A run of the recovery tool. -/
theorem Site.Sound.restore (h : Site.Sound store s) {io : RecoverIo} {argv : List CStr}
    (hspares : SiteEvent.SparesPending s (.restore io argv : SiteEvent store)) :
    Site.Sound store (siteStep s (.restore io argv : SiteEvent store)) := by
  unfold siteStep
  dsimp only
  rcases cmdRestore_eq io argv s.fs s.daemon.db with ⟨-, hsame⟩ | ⟨eventId, harg, hfs, hrows⟩
  · rw [hsame]
    exact h
  · have hstill : ∀ row ∈ (cmdRestore io argv s.fs s.daemon.db).2.2.protectedFiles,
        row.restoreStatus = lit "pending" →
        row ∈ s.daemon.db.protectedFiles ∧ row.eventId ≠ eventId := fun row hrow hpending => by
      rw [hrows] at hrow
      exact restoreEvent_pending hrow hpending
    refine ⟨h.policy, fun row hrow hpending => ?_, fun row hrow hpending => ?_⟩
    · exact h.inStore row (hstill row hrow hpending).1 hpending
    · obtain ⟨hmem, hother⟩ := hstill row hrow hpending
      obtain ⟨c, hc⟩ := h.restorable row hmem hpending
      have hkeeps := restoreEvent_keepsFile io s.fs (hspares eventId harg row hmem hpending hother)
      exact ⟨c, hfs ▸ hkeeps.stat hc⟩

/-- One event. -/
theorem Site.Sound.step (h : Site.Sound store s) (e : SiteEvent store) (hspares : e.SparesPending s) :
    Site.Sound store (siteStep s e) := by
  cases e with
  | work next => exact h.keeps fun p hp => Fs.keepsFile_of_eq (next.keepsStore s.fs p hp)
  | backup => exact h.backup hspares
  | opened => exact h.opened hspares
  | message env msg hnone =>
    refine h.processMsg fun hrec => ?_
    rw [hrec.reports] at hnone
    cases hnone
  | restore => exact h.restore hspares

/-- In every run whose backups and restores spare the preimages of pending rows, every
pending row has its preimage in every state reached. -/
theorem pending_restorable (h : s.Sound store) (es : List (SiteEvent store))
    (hspares : Runs.AllSteps siteStep (fun s e => e.SparesPending s) s es) (pre : List (SiteEvent store))
    (hpre : pre <+: es) : PendingRestorable (Runs.run siteStep s pre) := by
  obtain ⟨rest, rfl⟩ := hpre
  exact (Runs.run_invariant_of_allSteps (Site.Sound store) (fun _ e hs he => hs.step e he) h
    (Runs.allSteps_append.1 hspares).1).restorable

end

/-! ## Two runs -/

/-- A connection of a user to the share `home`. -/
def userConn (user ip : String) : Conn :=
  { homeConn "/srv/home" with user := lit user, ip := lit ip }

/-- A user's first write to a file of the share, one second after the start. -/
def userBackup (user ip rel : String) : SiteEvent (lit "/var/lib/gf2000/rguard-store") :=
  .backup .ok (userConn user ip) ((userConn user ip).fullPath (lit rel)) (lit rel) opWrite none none
    (sampleEnv 1)

/-- The share with two files, and a daemon just started. -/
def homeSite : Site :=
  ⟨homeTree.put [lit "srv", lit "home", lit "b"] (.regular [2]), Daemon.start .default .empty⟩

theorem homeSite_sound : homeSite.Sound (lit "/var/lib/gf2000/rguard-store") where
  policy := by decide
  inStore row hrow := absurd hrow List.not_mem_nil
  restorable row hrow := absurd hrow List.not_mem_nil

/-- The first copy of a file that the default policy covers is recorded where it is made. -/
theorem userBackup_spares {s : Site} {user ip rel : String}
    (hfits : ((userConn user ip).absPath (lit rel)).length < pathMax)
    (hfree : s.fs.lookup (pathComponents
      (backupsPath (lit "/var/lib/gf2000/rguard-store") (lit "home") (lit rel))) = none) :
    (userBackup user ip rel).SparesPending s := by
  have hpath : (homeConn "/srv/home").connectpath =
      lit "/srv" ++ slash :: (homeConn "/srv/home").shareName := by decide
  have hfirst : ¬ shareNeedle (homeConn "/srv/home").wireShare <:+:
      lit "/srv" ++ slash :: (homeConn "/srv/home").wireShare := by decide
  refine fun _ => ⟨?_, ⟨hfits, ?_, .inl ⟨lit "/srv", hpath, hfirst⟩⟩, fun n hn => ?_⟩
  · show (homeConn "/srv/home").storePath.str = _
    decide
  · have hshort : (homeConn "/srv/home").shareName.length < 64 := by decide
    exact .inl hshort
  · cases hfree.symm.trans hn

/-- Two users change two files; the restore of the first event leaves the second one's
preimage. -/
theorem pending_restorable_sample :
    PendingRestorable (Runs.run siteStep homeSite [userBackup "alice" "10.0.0.5" "a",
      userBackup "bob" "10.0.0.6" "b", .restore homeIo homeArgv]) := by
  refine pending_restorable homeSite_sound [userBackup "alice" "10.0.0.5" "a",
    userBackup "bob" "10.0.0.6" "b", .restore homeIo homeArgv]
    (And.intro (userBackup_spares (by decide) (by decide))
      (And.intro (userBackup_spares (by decide) (by decide))
        (And.intro ?_ trivial))) _ (List.prefix_refl _)
  intro eventId harg
  obtain rfl : homeEvent = eventId :=
    Option.some.inj ((show eventArg homeArgv = some homeEvent by decide).symm.trans harg)
  decide

/-- Two users change one file: the restore of the first event takes away the preimage that
the second one's pending row names. -/
theorem pending_not_always_restorable :
    ¬ ∀ (store : CStr) (s : Site) (es : List (SiteEvent store)), s.Sound store →
      PendingRestorable (Runs.run siteStep s es) := by
  intro h
  have hlost : ∃ row ∈ (Runs.run siteStep homeSite [userBackup "alice" "10.0.0.5" "a",
      userBackup "bob" "10.0.0.6" "a", .restore homeIo homeArgv]).daemon.db.protectedFiles,
      row.restoreStatus = lit "pending" ∧
      (Runs.run siteStep homeSite [userBackup "alice" "10.0.0.5" "a",
        userBackup "bob" "10.0.0.6" "a", .restore homeIo homeArgv]).fs.stat row.backupPath = none := by
    decide
  obtain ⟨row, hrow, hpending, hnone⟩ := hlost
  obtain ⟨c, hc⟩ := h _ homeSite _ homeSite_sound row hrow hpending
  cases hnone.symm.trans hc

end GfrGuard
