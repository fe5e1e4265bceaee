import GfrGuard.Files

/-!
# Taking a preimage

`do_backup` of the VFS module and `fanotify_do_backup` of the daemon copy a file into the
store before it changes. The first copy wins: a name that is there is left alone.
`doBackup_spec` says once what a call can do to the tree.
-/

namespace GfrGuard

/-- What decides a backup besides the tree. -/
structure BackupIo where
  /-- A `mkdir` of a missing directory succeeds. -/
  mkdirOk : Loc → Bool
  /-- The source can be opened and examined. -/
  openOk : Bool
  /-- The backup can be created. -/
  createOk : Bool
  /-- The whole content is copied. -/
  copyOk : Bool
  /-- How many bytes a failed copy wrote. -/
  copied : Nat
  /-- The unlink after a failed copy succeeds. -/
  unlinkOk : Bool

/-- Every system call succeeds. -/
def BackupIo.ok : BackupIo := ⟨fun _ => true, true, true, true, 0, true⟩

/-- The outcomes of `open(path, O_WRONLY | O_CREAT | O_EXCL)`. -/
inductive CreateResult where
  | created
  | exists
  | failed

/-- `open(path, O_WRONLY | O_CREAT | O_EXCL)`: the parent must be a directory. -/
def Fs.createExcl (fs : Fs) (path : CStr) (ok : Bool) : CreateResult :=
  if path.getLast? = some slash then .failed
  else
    match fs.lookup (pathComponents path) with
    | some _ => .exists
    | none =>
      if ok && fs.lookup (pathComponents path).dropLast = some .directory then .created
      else .failed

/-- `rguard_copy_fd` into a file just created, and the unlink when it fails. -/
def copyToNew (io : BackupIo) (fs : Fs) (loc : Loc) (content : Content) : Bool × Fs :=
  if io.copyOk then (true, fs.put loc (.regular content))
  else if io.unlinkOk then (false, fs)
  else (false, fs.put loc (.regular (content.take io.copied)))

/-- `compute_backup_path`: nothing for an empty name or a path that does not fit. -/
def computeBackupPath (store share rel : CStr) : Option CStr :=
  if rel = [] then none
  else if (backupsPath store share rel).length < pathMax then some (backupsPath store share rel)
  else none

/-- `do_backup`. -/
def doBackup (io : BackupIo) (store src share rel : CStr) (fs : Fs) : Bool × Fs :=
  match fs.stat src with
  | none => (false, fs)
  | some _ =>
    match computeBackupPath store share rel with
    | none => (false, fs)
    | some backup =>
      match fs.stat backup with
      -- the first copy wins
      | some _ => (true, fs)
      | none =>
        match fs.mkdirP (Fs.parentPath backup) io.mkdirOk with
        | (false, fs) => (false, fs)
        | (true, fs) =>
          match io.openOk, fs.stat src with
          | true, some (.regular content) =>
            match fs.createExcl backup io.createOk with
            | .failed => (false, fs)
            | .exists => (true, fs)
            | .created => copyToNew io fs (pathComponents backup) content
          | _, _ => (false, fs)

/-! ## Paths -/

theorem computeBackupPath_eq_some {store share rel backup : CStr}
    (h : computeBackupPath store share rel = some backup) :
    rel ≠ [] ∧ backup = backupsPath store share rel ∧ backup.length < pathMax := by
  unfold computeBackupPath at h
  split_ifs at h with hrel hfits
  cases h
  exact ⟨hrel, rfl, hfits⟩

/-- A path with a slash is its directory part, the last slash and a name. -/
theorem parentPath_split {path : CStr} (hslash : slash ∈ path) :
    ∃ name, path = Fs.parentPath path ++ slash :: name ∧ slash ∉ name := by
  cases hsearch : strrchr path slash with
  | none => exact absurd hslash (ListSearch.lastAt_eq_none_iff.1 hsearch)
  | some s =>
    obtain ⟨pre, name, hpath, hs, hname⟩ := ListSearch.lastAt_eq_some hsearch
    have hparent : Fs.parentPath path = pre := by
      unfold Fs.parentPath
      rw [hsearch, hs]
      simp [hpath]
    exact ⟨name, by rw [hparent, hpath], hname⟩

/-- The directory part of a path is on the way to it. -/
theorem parentPath_isPrefix (path : CStr) : Fs.parentPath path <+: path := by
  unfold Fs.parentPath
  split
  · exact List.prefix_refl _
  · exact List.take_prefix _ _

/-- The directory part of a path leads a part of the way. -/
theorem pathComponents_parentPath_isPrefix (path : CStr) :
    pathComponents (Fs.parentPath path) <+: pathComponents path := by
  by_cases hslash : slash ∈ path
  · obtain ⟨name, hpath, -⟩ := parentPath_split hslash
    conv_rhs => rw [hpath]
    rw [pathComponents_append_slash]
    exact List.prefix_append _ _
  · have : Fs.parentPath path = path := by
      unfold Fs.parentPath
      rw [show strrchr path slash = none from ListSearch.lastAt_eq_none_iff.2 hslash]
    rw [this]

/-- The directories of a path are made above it. -/
theorem Fs.mkdirP_parentPath_addsDirs {path : CStr} (hfits : path.length < pathMax) (ok : Loc → Bool)
    (fs : Fs) :
    Fs.AddsDirs (pathComponents (Fs.parentPath path)) fs (fs.mkdirP (Fs.parentPath path) ok).2 :=
  Fs.mkdirP_addsDirs ((parentPath_isPrefix path).length_le.trans_lt hfits) ok fs

/-- A path that does not end in a slash names one thing more than its directory part. -/
theorem pathComponents_parentPath {path : CStr} (hslash : slash ∈ path)
    (hlast : path.getLast? ≠ some slash) :
    ∃ name, pathComponents path = pathComponents (Fs.parentPath path) ++ [name] := by
  obtain ⟨name, hpath, hname⟩ := parentPath_split hslash
  have hne : name ≠ [] := by
    rintro rfl
    exact hlast (by rw [hpath]; simp)
  refine ⟨name, ?_⟩
  conv_lhs => rw [hpath]
  rw [pathComponents_append_slash, pathComponents_name hname hne]

namespace Fs

variable {fs fs' : Fs} {b : Loc} {path : CStr} {n : Node}

/-- What `stat` finds it still finds in a tree that grew. -/
theorem Grows.stat (h : Grows b fs fs') (hs : fs.stat path = some n) :
    fs'.stat path = some n := by
  have hlook : fs'.lookup (pathComponents path) = fs.lookup (pathComponents path) := by
    have hfound := lookup_of_stat hs
    unfold lookup at hfound ⊢
    split
    · rfl
    · next hne =>
      rw [if_neg hne] at hfound
      rw [h.keeps hfound, hfound]
  unfold Fs.stat at hs ⊢
  rwa [hlook]

end Fs

/-! ## What a backup does -/

/-- What `do_backup` can do: fail, find a copy, or make one. -/
inductive BackupSpec (store src share rel : CStr) (fs : Fs) : Bool × Fs → Prop
  | failed (fs' : Fs)
      (hgrows : ∀ backup, computeBackupPath store share rel = some backup →
        Fs.Grows (pathComponents backup) fs fs')
      (hsame : computeBackupPath store share rel = none → fs' = fs) :
      BackupSpec store src share rel fs (false, fs')
  | kept (backup : CStr) (n : Node) (hpath : computeBackupPath store share rel = some backup)
      (hthere : fs.lookup (pathComponents backup) = some n) :
      BackupSpec store src share rel fs (true, fs)
  | copied (backup : CStr) (content : Content) (fs' : Fs)
      (hpath : computeBackupPath store share rel = some backup)
      (hsrc : fs.stat src = some (.regular content))
      (hnew : fs.node (pathComponents backup) = none)
      (hgrows : Fs.Grows (pathComponents backup) fs fs')
      (hcopy : fs'.node (pathComponents backup) = some (.regular content)) :
      BackupSpec store src share rel fs (true, fs')

section
variable {io : BackupIo} {store src share rel : CStr} {fs : Fs}

/-- `rguard_copy_fd` adds the copy, a part of it, or nothing. -/
theorem copyToNew_grows (io : BackupIo) (content : Content) {loc : Loc} (hnew : fs.node loc = none) :
    Fs.Grows loc fs (copyToNew io fs loc content).2 := by
  unfold copyToNew
  split_ifs
  · exact Fs.grows_put hnew _
  · exact Fs.Grows.refl _ _
  · exact Fs.grows_put hnew _

theorem copyToNew_ok {loc : Loc} {content : Content} {fs' : Fs}
    (h : copyToNew io fs loc content = (true, fs')) :
    fs'.node loc = some (.regular content) := by
  unfold copyToNew at h
  split_ifs at h <;> cases h
  exact Fs.node_put_self ..

/-- A backup whose directories are made: created and copied, since it was not there. -/
theorem backupCreated_spec {backup : CStr} {content : Content} {fs1 : Fs}
    (hpath : computeBackupPath store share rel = some backup)
    (hsrc : fs.stat src = some (.regular content)) (hstat : fs.stat backup = none)
    (hdirs : Fs.AddsDirs (pathComponents (Fs.parentPath backup)) fs fs1)
    (hfailed : ∀ {fs'}, Fs.Grows (pathComponents backup) fs fs' →
      BackupSpec store src share rel fs (false, fs')) :
    BackupSpec store src share rel fs
      (match fs1.createExcl backup io.createOk with
        | .failed => (false, fs1)
        | .exists => (true, fs1)
        | .created => copyToNew io fs1 (pathComponents backup) content) := by
  obtain ⟨-, hbackup, hfits⟩ := computeBackupPath_eq_some hpath
  have hslash : slash ∈ backup := by rw [hbackup, backupsPath]; simp
  have hway := hdirs.grows (pathComponents_parentPath_isPrefix _)
  unfold Fs.createExcl
  by_cases hlast : backup.getLast? = some slash
  · rw [if_pos hlast]
    exact hfailed hway
  · -- nothing was at the place of the backup, and no directory was made there
    obtain ⟨name, hname⟩ := pathComponents_parentPath hslash hlast
    have hne : pathComponents backup ≠ [] := by rw [hname]; simp
    have hnew : fs.node (pathComponents backup) = none := by
      rw [Fs.stat_eq_lookup (List.ne_nil_of_mem hslash) hfits hlast,
        Fs.lookup_of_ne_nil hne] at hstat
      exact hstat
    have hnew1 : fs1.node (pathComponents backup) = none := by
      rw [hdirs.eq_off_way ?_, hnew]
      rw [hname]
      intro h
      have hlen := h.length_le
      rw [List.length_append, List.length_singleton] at hlen
      omega
    rw [if_neg hlast, Fs.lookup_of_ne_nil hne, hnew1]
    dsimp only
    split
    · exact hfailed hway
    · next h => split at h <;> cases h
    · have hgrows := hway.trans (copyToNew_grows io content hnew1)
      cases hcopy : copyToNew io fs1 (pathComponents backup) content with
      | mk ok fs' =>
        rw [hcopy] at hgrows
        cases ok with
        | false => exact hfailed hgrows
        | true => exact .copied backup content fs' hpath hsrc hnew hgrows (copyToNew_ok hcopy)

/-- `do_backup` meets its specification. -/
theorem doBackup_spec (io : BackupIo) (store src share rel : CStr) (fs : Fs) :
    BackupSpec store src share rel fs (doBackup io store src share rel fs) := by
  unfold doBackup
  split
  · exact .failed fs (fun _ _ => Fs.Grows.refl _ _) fun _ => rfl
  · next n hsrc =>
    split
    · exact .failed fs (fun _ _ => Fs.Grows.refl _ _) fun _ => rfl
    · next backup hpath =>
      split
      · next n hstat => exact .kept backup n hpath (Fs.lookup_of_stat hstat)
      · next hstat =>
        obtain ⟨-, hbackup, hfits⟩ := computeBackupPath_eq_some hpath
        -- the directories made stand above the backup
        have hdirs : Fs.AddsDirs (pathComponents (Fs.parentPath backup)) fs
            (fs.mkdirP (Fs.parentPath backup) io.mkdirOk).2 :=
          Fs.mkdirP_parentPath_addsDirs hfits io.mkdirOk fs
        generalize fs.mkdirP (Fs.parentPath backup) io.mkdirOk = made at hdirs
        obtain ⟨ok, fs1⟩ := made
        have hway := hdirs.grows (pathComponents_parentPath_isPrefix _)
        have hfailed : ∀ {fs'}, Fs.Grows (pathComponents backup) fs fs' →
            BackupSpec store src share rel fs (false, fs') := fun hg =>
          .failed _ (fun b hb => by cases hpath.symm.trans hb; exact hg)
            fun hnone => by rw [hpath] at hnone; cases hnone
        cases ok with
        | false => exact hfailed hway
        | true =>
          dsimp only
          split
          · next content _ hsrc1 =>
            have hsrc' : n = .regular content := Option.some.inj ((hway.stat hsrc).symm.trans hsrc1)
            subst hsrc'
            exact backupCreated_spec hpath hsrc hstat hdirs hfailed
          · exact hfailed hway

end

end GfrGuard
