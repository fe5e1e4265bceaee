import GfrGuard.Fanotify
import GfrGuard.PreimageRow
import GfrGuard.Run

/-!
# Where a channel puts a preimage and where the daemon looks for it

A fanotify channel stores the preimage of a file under the channel's directory and the
file's whole path; the daemon derives the place from the share name in the message.
`fan_row_agrees_iff` says when both name one file: the share name is the channel's
directory, and the path does not contain it as a directory.
-/

namespace GfrGuard

/-! ## The copy -/

section
variable {io : BackupIo} {file : Option Content} {path store dir : CStr} {fs : Fs}

theorem Fs.mkdirEach_addsDirs {p : CStr} {b : Loc} (hp : pathComponents p <+: b)
    (ok : Loc → Bool) (fs : Fs) : Fs.AddsDirs b fs (fs.mkdirEach p ok) := by
  have hlocs : ∀ l ∈ (pathComponents p).inits.tail, l <+: b := fun l hl =>
    ((List.mem_inits l _).1 (List.mem_of_mem_tail hl)).trans hp
  unfold Fs.mkdirEach
  generalize (pathComponents p).inits.tail = locs at hlocs
  induction locs generalizing fs with
  | nil => exact Fs.AddsDirs.refl _ _
  | cons l locs ih =>
    rw [List.foldl_cons]
    refine Fs.AddsDirs.trans ?_ (ih _ fun l' hl' => hlocs l' (List.mem_cons_of_mem _ hl'))
    cases hmk : fs.mkdir l (ok l) with
    | none => exact Fs.AddsDirs.refl _ _
    | some fs' => exact (Fs.mkdir_addsDirs hmk).mono (hlocs l List.mem_cons_self)

/-- A backup only adds what stands on the way to the copy. -/
theorem fanotifyDoBackup_grows (io : BackupIo) (file : Option Content) (path store dir : CStr)
    (fs : Fs) : Fs.Grows (pathComponents (backupsPath store dir path)) fs
      (fanotifyDoBackup io file path store dir fs).2 := by
  have hway := pathComponents_parentPath_isPrefix (backupsPath store dir path)
  have hdirs := (Fs.mkdirEach_addsDirs hway io.mkdirOk fs).grows (List.prefix_refl _)
  unfold fanotifyDoBackup
  cases file with
  | none => exact Fs.Grows.refl _ _
  | some content =>
    dsimp only
    split
    · exact Fs.Grows.refl _ _
    · split
      · exact hdirs
      · exact hdirs
      · next hcreated =>
        refine hdirs.trans (copyToNew_grows io _ ?_)
        unfold Fs.createExcl at hcreated
        split at hcreated
        · cases hcreated
        · split at hcreated
          · cases hcreated
          · next hnone =>
            unfold Fs.lookup at hnone
            split at hnone
            · cases hnone
            · exact hnone

end

/-! ## The path the daemon derives -/

/-- Under a single name the path recovered from the whole one, and the whole one, name one
file exactly when the name is the share's and the path was left as it is. -/
theorem pathComponents_backupsPath_backupRel_iff (store : CStr) {dir share path : CStr}
    (hdir : (pathComponents dir).length = 1) :
    pathComponents (backupsPath store share (backupRel share path)) =
        pathComponents (backupsPath store dir path) ↔
      pathComponents share = pathComponents dir ∧ ¬ shareNeedle share <:+: path ∧
        ¬ share ++ [slash] <+: path := by
  rw [pathComponents_backupsPath, pathComponents_backupsPath, List.append_right_inj,
    List.cons_inj_right]
  have hrel := (backupRel_eq_iff share path _).1 rfl
  generalize backupRel share path = rel at hrel
  constructor
  · intro heq
    have hlen := congrArg List.length heq
    simp only [List.length_append, hdir] at hlen
    rcases hrel with ⟨pre, hpath, -⟩ | ⟨-, hpath⟩ | ⟨hnot, hlead, rfl⟩
    -- a path cut short has too few names left
    · have hcount : (pathComponents path).length = (pathComponents pre).length +
          ((pathComponents share).length + (pathComponents rel).length) := by
        have : path = pre ++ slash :: (share ++ slash :: rel) := by rw [hpath, shareNeedle]; simp
        rw [this, pathComponents_append_slash, pathComponents_append_slash]
        simp
      omega
    · have hcount : (pathComponents path).length =
          (pathComponents share).length + (pathComponents rel).length := by
        rw [hpath, pathComponents_append_slash]
        simp
      omega
    · exact ⟨List.append_cancel_right heq, hnot, hlead⟩
  · rintro ⟨hshare, hnot, hlead⟩
    rcases hrel with ⟨pre, hpath, -⟩ | ⟨-, hpath⟩ | ⟨-, -, rfl⟩
    · exact absurd ⟨pre, rel, hpath.symm⟩ hnot
    · exact absurd ⟨rel, by rw [hpath]; simp⟩ hlead
    · rw [hshare]

/-! ## Agreement -/

/-- No row is inserted, or one whose backup path names this file. -/
def RowNames (d d' : Daemon) (backup : CStr) : Prop :=
  d'.db.protectedFiles = d.db.protectedFiles ∨
    ∃ row, d'.db.protectedFiles = d.db.protectedFiles ++ [row] ∧
      pathComponents row.backupPath = pathComponents backup

theorem Channel.length_backupDir (c : Channel) : (pathComponents c.ops.backupDir).length = 1 := by
  cases c <;> decide

/-- The outcome of the backup changes neither the share of a message nor its path. -/
theorem withBackup_paths (ok : Bool) (st : Option StatBuf) (msg : EventMsg) :
    (withBackup ok st msg).shareName = msg.shareName ∧
      (withBackup ok st msg).filePath = msg.filePath := by
  unfold withBackup
  split
  · cases st <;> exact ⟨rfl, rfl⟩
  · exact ⟨rfl, rfl⟩

/-- A queued message carries the resolved share and the path of the event. -/
theorem fanChannelHandle_queued {env : FanEnv} {p : Policy} {ops : FanChannelOps}
    {ev : FanotifyEvent} {fs : Fs} {ctx : ChannelCtx} {msg : EventMsg}
    (hresolve : ops.resolve env.proc ev = some ctx)
    (hqueued : (fanChannelHandle env p ops ev fs).queued = some msg) :
    msg.shareName = ctx.shareName ∧ msg.filePath = ev.path := by
  unfold fanChannelHandle at hqueued
  rw [hresolve] at hqueued
  dsimp only at hqueued
  split at hqueued
  · dsimp only at hqueued
    split at hqueued
    · cases hqueued
      exact ⟨rfl, rfl⟩
    · cases hqueued
  · dsimp only at hqueued
    split at hqueued
    · cases hqueued
      exact withBackup_paths ..
    · cases hqueued

/-- The message a channel queued for a file leaves no row, or one that names the place the
channel copies that file to, exactly when it records none, or the share name is the
channel's directory and does not occur as a directory of the path. -/
theorem fan_row_agrees_iff (c : Channel) (fenv : FanEnv) (ev : FanotifyEvent) (fs : Fs)
    (env : CallEnv) (d : Daemon) {ctx : ChannelCtx} {msg : EventMsg}
    (hresolve : c.ops.resolve fenv.proc ev = some ctx)
    (hqueued : (fanChannelHandle fenv d.policy c.ops ev fs).queued = some msg) :
    RowNames d (processMsg env msg d)
        (backupsPath d.policy.storePath.str c.ops.backupDir ev.path.str) ↔
      ¬ RecordsRow env msg d ∨
        pathComponents ctx.shareName.str = pathComponents c.ops.backupDir ∧
        ¬ shareNeedle ctx.shareName.str <:+: ev.path.str ∧
        ¬ ctx.shareName.str ++ [slash] <+: ev.path.str := by
  obtain ⟨hshare, hfile⟩ := fanChannelHandle_queued hresolve hqueued
  rcases processMsg_protectedFiles env msg d with
    ⟨hnot, hsame⟩ | ⟨hrec, path, row, hpath, hrows, hrow, -⟩
  · exact iff_of_true (.inl hsame) (.inl hnot)
  · rw [or_iff_right (not_not_intro hrec),
      ← pathComponents_backupsPath_backupRel_iff d.policy.storePath.str c.length_backupDir]
    have hpath' : path = backupsPath d.policy.storePath.str ctx.shareName.str
        (backupRel ctx.shareName.str ev.path.str) := by
      unfold recordBackupPath at hpath
      rw [hshare, hfile] at hpath
      dsimp only at hpath
      split at hpath
      · cases hpath; rfl
      · cases hpath
    unfold RowNames
    rw [hrows, or_iff_right (by simp)]
    simp only [List.append_right_inj, List.cons.injEq, and_true, exists_eq_left', hrow, hpath']

/-! ## Two channels -/

/-- An open of a file by `rclone sync <path> gdrive:b`, which is also a process of no FTP
session. -/
def sampleFanEnv : FanEnv where
  proc :=
    { cmdline := some (lit "rclone" ++ 0 :: lit "sync" ++ 0 :: lit "/srv" ++ 0 :: lit "gdrive:b" ++ [0])
      procStat := none
      exe := []
      ftpSession := none }
  file := some [1]
  statBuf := none
  backup := .ok
  gateAllow := true

/-- The event of that open. -/
def sampleFanEvent (path : String) : FanotifyEvent := ⟨.ofStr pathMax (lit path), true, lit "7"⟩

/-- The message a channel queues for the open. -/
def sampleFanMsg (c : Channel) (ctx : ChannelCtx) (path : String) : EventMsg :=
  withBackup true none (ctx.identify (fanotifyBuildEventMsg (sampleFanEvent path) c.ops.sourceType))

/-- On the FTP channel the row of `/srv/a` names the copy. -/
theorem fan_row_agrees_sample :
    RowNames (Daemon.start .default .empty)
      (processMsg (sampleEnv 1)
        (sampleFanMsg .ftp ⟨.ofStr 64 (lit "ftp"), .ofStr 48 (lit "unknown"), .ofStr 64 (lit "ftp")⟩
          "/srv/a") (Daemon.start .default .empty))
      (backupsPath Policy.default.storePath.str (lit "ftp") (lit "/srv/a")) :=
  (fan_row_agrees_iff .ftp sampleFanEnv (sampleFanEvent "/srv/a") .empty (sampleEnv 1) _ rfl
    (by decide)).2 (.inr (by decide))

/-- On the cloud channel the row of `/srv/a`, synced by the task `gdrive`, names another
file. -/
theorem fan_row_not_always_agrees :
    ¬ ∀ (c : Channel) (fenv : FanEnv) (ev : FanotifyEvent) (fs : Fs) (env : CallEnv) (d : Daemon)
      (ctx : ChannelCtx) (msg : EventMsg), c.ops.resolve fenv.proc ev = some ctx →
      (fanotifyDoBackup fenv.backup fenv.file ev.path.str d.policy.storePath.str c.ops.backupDir
        fs).1 = true →
      (fanChannelHandle fenv d.policy c.ops ev fs).queued = some msg →
      RowNames d (processMsg env msg d)
        (backupsPath d.policy.storePath.str c.ops.backupDir ev.path.str) := by
  intro h
  let ctx : ChannelCtx := ⟨.ofStr 64 (lit "cloud"), .ofStr 48 (lit "gdrive"), .ofStr 64 (lit "gdrive")⟩
  have hpaths : (processMsg (sampleEnv 1) (sampleFanMsg .cloud ctx "/srv/a")
      (Daemon.start .default .empty)).db.protectedFiles.map (·.backupPath) =
      [backupsPath Policy.default.storePath.str (lit "gdrive") (lit "/srv/a")] := by
    decide
  rcases h .cloud sampleFanEnv (sampleFanEvent "/srv/a") .empty (sampleEnv 1)
    (Daemon.start .default .empty) ctx (sampleFanMsg .cloud ctx "/srv/a") rfl (by decide)
    (by decide) with hsame | ⟨row, hrow, hbackup⟩
  · rw [hsame] at hpaths
    cases hpaths
  · rw [hrow, show (Daemon.start .default .empty).db.protectedFiles = [] from rfl, List.nil_append,
      List.map_singleton, List.cons.injEq] at hpaths
    rw [hpaths.1] at hbackup
    revert hbackup
    decide

end GfrGuard
