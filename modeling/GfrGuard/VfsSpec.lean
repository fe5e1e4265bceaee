import GfrGuard.Vfs

/-!
# Preimages and the callbacks

A file has a preimage when a copy stands at its place in the store. A backup that succeeds
leaves one (`doBackup_hasPreimage`) unless something else stood there, and neither a later
backup nor the next module takes it away (`BackupStands`). What blocking and sending do to the tree is said here once: nothing.
-/

namespace GfrGuard

/-- The place of a file's preimage. -/
def backupLoc (store share rel : CStr) : Loc := pathComponents (backupsPath store share rel)

/-- A copy of the file stands in the store. -/
def HasPreimage (store share rel : CStr) (fs : Fs) : Prop :=
  ∃ content, fs.node (backupLoc store share rel) = some (.regular content)

/-- Something stands at the place of the file's preimage. -/
def BackupStands (store share rel : CStr) (fs : Fs) : Prop :=
  ∃ n, fs.node (backupLoc store share rel) = some n

/-- Nothing but a copy stands at the place of the file's preimage. -/
def BackupClear (store share rel : CStr) (fs : Fs) : Prop :=
  ∀ n, fs.node (backupLoc store share rel) = some n → ∃ content, n = .regular content

section
variable {conn : Conn} {env : VfsEnv} {store share rel src : CStr} {fs fs' : Fs}
  {s : VfsState} {io : BackupIo}

theorem backupLoc_ne_nil (store share rel : CStr) : backupLoc store share rel ≠ [] := by
  rw [backupLoc, pathComponents_backupsPath]
  simp

/-- The store is on the way to every preimage. -/
theorem store_isPrefix_backupLoc (store share rel : CStr) :
    pathComponents store <+: backupLoc store share rel := by
  rw [backupLoc, pathComponents_backupsPath]
  exact List.prefix_append _ _

/-- A backup that succeeds leaves something at the place of the preimage, and its path fit. -/
theorem doBackup_stands (h : doBackup io store src share rel fs = (true, fs')) :
    BackupStands store share rel fs' ∧ rel.length < pathMax := by
  have hspec := doBackup_spec io store src share rel fs
  rw [h] at hspec
  have hrel : ∀ {backup}, computeBackupPath store share rel = some backup →
      backup = backupsPath store share rel ∧ rel.length < pathMax := fun hpath => by
    obtain ⟨-, rfl, hfits⟩ := computeBackupPath_eq_some hpath
    refine ⟨rfl, lt_of_le_of_lt ?_ hfits⟩
    simp only [backupsPath, List.length_append, List.length_cons]
    omega
  cases hspec with
  | kept backup n hpath hthere =>
    obtain ⟨rfl, hfits⟩ := hrel hpath
    rw [← backupLoc, Fs.lookup_of_ne_nil (backupLoc_ne_nil store share rel)] at hthere
    exact ⟨⟨n, hthere⟩, hfits⟩
  | copied backup content _ hpath _ _ _ hcopy =>
    obtain ⟨rfl, hfits⟩ := hrel hpath
    exact ⟨⟨_, hcopy⟩, hfits⟩

/-- What stands at the place of a preimage is one, unless it is something else. -/
theorem BackupStands.hasPreimage (h : BackupStands store share rel fs)
    (hclear : BackupClear store share rel fs) : HasPreimage store share rel fs := by
  obtain ⟨n, hn⟩ := h
  obtain ⟨content, rfl⟩ := hclear n hn
  exact ⟨content, hn⟩

/-- A backup that succeeds leaves a preimage, unless something else stood at its place. -/
theorem doBackup_hasPreimage (h : doBackup io store src share rel fs = (true, fs'))
    (hclear : BackupClear store share rel fs) : HasPreimage store share rel fs' := by
  have hspec := doBackup_spec io store src share rel fs
  rw [h] at hspec
  cases hspec with
  | kept => exact (doBackup_stands h).1.hasPreimage hclear
  | copied backup content _ hpath _ _ _ hcopy =>
    obtain ⟨-, rfl, -⟩ := computeBackupPath_eq_some hpath
    exact ⟨content, hcopy⟩

/-- A backup, whether it succeeds or not, only adds to the tree. -/
theorem doBackup_keeps {loc : Loc} {n : Node} (h : fs.node loc = some n) :
    (doBackup io store src share rel fs).2.node loc = some n := by
  have hspec := doBackup_spec io store src share rel fs
  generalize doBackup io store src share rel fs = result at hspec
  cases hspec with
  | failed fs' hgrows hsame =>
    cases hpath : computeBackupPath store share rel with
    | none => rw [hsame hpath]; exact h
    | some backup => exact (hgrows backup hpath).keeps h
  | kept => exact h
  | copied backup _ _ _ _ _ hgrows => exact hgrows.keeps h

/-- A backup takes nothing away from the place of a preimage. -/
theorem BackupStands.doBackup {share' rel' : CStr} (h : BackupStands store share' rel' fs) :
    BackupStands store share' rel' (doBackup io store src share rel fs).2 :=
  h.imp fun _ hn => doBackup_keeps hn

/-- The next module takes nothing away from the place of a preimage. -/
theorem BackupStands.next (h : BackupStands store share rel fs) (next : Next store) :
    BackupStands store share rel (next.run fs).2 := by
  obtain ⟨n, hn⟩ := h
  exact ⟨n, by rw [next.keepsStore fs _ (store_isPrefix_backupLoc store share rel), hn]⟩

@[simp] theorem Conn.send_fs (msg : EventMsg) : (conn.send msg s).fs = s.fs := by
  unfold Conn.send
  split <;> rfl

@[simp] theorem Conn.sendEvent_fs {op : UInt8} {flags : UInt16} {newName : Option CStr}
    {st : Option StatBuf} : (conn.sendEvent op flags rel newName st s).fs = s.fs :=
  Conn.send_fs _

/-- A session that is not listed is let through and nothing is sent. -/
theorem Conn.isBlocked_of_not_listed (h : conn.listed env = false) :
    conn.isBlocked env s = (false, s) := by simp [Conn.isBlocked, h]

theorem Conn.isBlocked_of_listed (h : conn.listed env = true) :
    conn.isBlocked env s = (true, conn.send conn.blockedMsg s) := by simp [Conn.isBlocked, h]

/-- A path that fits its buffer is not cut. -/
theorem Conn.fullPath_of_fits (h : (conn.absPath rel).length < pathMax) :
    conn.fullPath rel = conn.absPath rel := snprintf_of_lt h

/-- The path an event reports is the one in the buffer. -/
@[simp] theorem Conn.eventMsg_filePath {op : UInt8} {flags : UInt16} {newName : Option CStr}
    {st : Option StatBuf} :
    (conn.eventMsg op flags rel newName st).filePath.str = conn.fullPath rel := rfl

end

end GfrGuard
