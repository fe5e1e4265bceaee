import GfrGuard.PreimageRow
import GfrGuard.VfsSpec
import GfrGuard.Run

/-!
# Where the module puts a preimage and where the daemon looks for it

The module stores a preimage under the share-relative path; the daemon recovers that path
from the absolute one in the message. `smb_row_agrees_iff` says when the row names the copy
and the file: nothing is cut on the wire, and the connection's path ends in the share's own
directory with no `/<share>/` before it.
-/

namespace GfrGuard

/-! ## Agreement -/

/-- No row is inserted, or one that names this copy of this file. -/
def RowAgrees (d d' : Daemon) (backup path : CStr) : Prop :=
  d'.db.protectedFiles = d.db.protectedFiles ∨
    ∃ row, d'.db.protectedFiles = d.db.protectedFiles ++ [row] ∧
      row.backupPath = backup ∧ row.originalPath = path

/-- The share name as the message carries it. -/
def Conn.wireShare (conn : Conn) : CStr := snprintf 64 conn.shareName

/-- What the daemon takes off the absolute path is the connection's path. -/
def RootRecovered (conn : Conn) (rel : CStr) : Prop :=
  (∃ pre, conn.connectpath = pre ++ slash :: conn.shareName ∧
    ¬ shareNeedle conn.wireShare <:+: pre ++ slash :: conn.wireShare) ∨
  (¬ shareNeedle conn.wireShare <:+: conn.absPath rel ∧ conn.connectpath = conn.shareName) ∨
  -- a share name cut at a slash, the connection's path what was cut off
  (¬ shareNeedle conn.wireShare <:+: conn.absPath rel ∧
    ¬ conn.wireShare ++ [slash] <+: conn.absPath rel ∧
    conn.shareName = conn.wireShare ++ slash :: conn.connectpath)

/-- The two derivations of the preimage's path agree. -/
structure PathsMeet (conn : Conn) (rel : CStr) : Prop where
  pathFits : (conn.absPath rel).length < pathMax
  shareFits : conn.shareName.length < 64 ∨ conn.shareName[63]? = some slash
  root : RootRecovered conn rel

/-- A path recovered under the share name `wire` is the one stored under `wire ++ tail`. -/
theorem slash_backupRel_iff (wire tail root rel : CStr) :
    slash :: backupRel wire (root ++ slash :: rel) = tail ++ slash :: rel ↔
      (tail = [] ∨ tail.head? = some slash) ∧
      ((∃ pre, root = pre ++ slash :: (wire ++ tail) ∧
          ¬ shareNeedle wire <:+: pre ++ slash :: wire) ∨
        (¬ shareNeedle wire <:+: root ++ slash :: rel ∧ root = wire ++ tail) ∨
        (¬ shareNeedle wire <:+: root ++ slash :: rel ∧
          ¬ wire ++ [slash] <+: root ++ slash :: rel ∧ tail = slash :: root)) := by
  by_cases hhead : tail = [] ∨ tail.head? = some slash
  · obtain ⟨rest, hrest⟩ : ∃ rest, tail ++ slash :: rel = slash :: rest := by
      cases tail with
      | nil => exact ⟨rel, rfl⟩
      | cons c tail =>
        obtain rfl : c = slash := by simpa using hhead
        exact ⟨_, rfl⟩
    -- what each case takes off the path is the root
    have hfound : ∀ pre, root ++ slash :: rel = pre ++ shareNeedle wire ++ rest ↔
        root = pre ++ slash :: (wire ++ tail) := fun pre => by
      have : pre ++ shareNeedle wire ++ rest = pre ++ slash :: (wire ++ tail) ++ slash :: rel := by
        simp [shareNeedle, ← hrest]
      rw [this, List.append_left_inj]
    have hlead : root ++ slash :: rel = wire ++ slash :: rest ↔ root = wire ++ tail := by
      rw [← hrest, ← List.append_assoc, List.append_left_inj]
    have hwhole : root ++ slash :: rel = rest ↔ tail = slash :: root := by
      rw [← List.cons_inj_right slash, ← hrest, ← List.cons_append, List.append_left_inj, eq_comm]
    rw [hrest, List.cons_inj_right, backupRel_eq_iff, and_iff_right hhead]
    simp only [hfound, hlead, hwhole]
  · refine iff_of_false (fun h => hhead ?_) fun h => hhead h.1
    cases tail with
    | nil => exact .inl rfl
    | cons c tail =>
      have := (List.cons.inj h).1
      exact .inr (by rw [← this]; rfl)

/-- The two backup paths of a file agree exactly when the roots do. -/
theorem backupsPath_eq_iff {conn : Conn} {rel : CStr} (store : CStr) :
    backupsPath store conn.wireShare (backupRel conn.wireShare (conn.absPath rel)) =
        backupsPath store conn.shareName rel ↔
      (conn.shareName.length < 64 ∨ conn.shareName[63]? = some slash) ∧
        RootRecovered conn rel := by
  have hsplit : conn.wireShare ++ conn.shareName.drop 63 = conn.shareName :=
    List.take_append_drop 63 conn.shareName
  have hnil : conn.shareName.drop 63 = [] ↔ conn.shareName.length < 64 := by
    rw [List.drop_eq_nil_iff]
    omega
  have hcut : conn.shareName.drop 63 = slash :: conn.connectpath ↔
      conn.shareName = conn.wireShare ++ slash :: conn.connectpath := by
    conv_rhs => lhs; rw [← hsplit]
    rw [List.append_right_inj]
  rw [← hnil, ← List.head?_drop]
  have hiff := slash_backupRel_iff conn.wireShare (conn.shareName.drop 63) conn.connectpath rel
  rw [hsplit, hcut] at hiff
  rw [RootRecovered, Conn.absPath, ← hiff]
  simp only [backupsPath, List.append_assoc, List.append_right_inj]
  conv_lhs => rhs; rw [← hsplit]
  rw [List.append_assoc, List.append_right_inj]

/-- A cut path is the path exactly when nothing was cut. -/
theorem snprintf_eq_self_iff {n : Nat} (hn : 0 < n) {s : CStr} :
    snprintf n s = s ↔ s.length < n := by
  rw [snprintf, List.take_eq_self_iff]
  omega

/-- The message the module built for a file it backed up leaves no row, or one that names
the copy and the file, exactly when it records none or the two sides' paths meet. -/
theorem smb_row_agrees_iff (env : CallEnv) (d : Daemon) (conn : Conn) (op : UInt8)
    (flags : UInt16) (rel : CStr) (newName : Option CStr) (st : Option StatBuf) {backup : CStr}
    (hbackup : computeBackupPath conn.storePath.str conn.shareName rel = some backup)
    (hstore : d.policy.storePath.str = conn.storePath.str) :
    RowAgrees d (processMsg env (conn.eventMsg op flags rel newName st) d) backup
        (conn.absPath rel) ↔
      ¬ RecordsRow env (conn.eventMsg op flags rel newName st) d ∨ PathsMeet conn rel := by
  obtain ⟨-, rfl, -⟩ := computeBackupPath_eq_some hbackup
  rcases processMsg_protectedFiles env (conn.eventMsg op flags rel newName st) d with
    ⟨hnot, hsame⟩ | ⟨hrec, path, row, hpath, hrows, hrow, hfile⟩
  · exact iff_of_true (.inl hsame) (.inl hnot)
  · rw [or_iff_right (not_not_intro hrec)]
    have hagree : RowAgrees d (processMsg env (conn.eventMsg op flags rel newName st) d)
        (backupsPath conn.storePath.str conn.shareName rel) (conn.absPath rel) ↔
        path = backupsPath conn.storePath.str conn.shareName rel ∧
          snprintf pathMax (conn.absPath rel) = conn.absPath rel := by
      unfold RowAgrees
      rw [hrows, or_iff_right (by simp)]
      simp only [List.append_right_inj, List.cons.injEq, and_true, exists_eq_left', hrow, hfile]
      rfl
    have hpath' : path = backupsPath conn.storePath.str conn.wireShare
        (backupRel conn.wireShare (snprintf pathMax (conn.absPath rel))) := by
      rw [hstore] at hpath
      unfold recordBackupPath at hpath
      dsimp only at hpath
      split at hpath
      · cases hpath; rfl
      · cases hpath
    rw [hagree, hpath', snprintf_eq_self_iff (by decide)]
    constructor
    · rintro ⟨hpaths, hfits⟩
      rw [snprintf_of_lt hfits] at hpaths
      obtain ⟨hshare, hroot⟩ := (backupsPath_eq_iff _).1 hpaths
      exact ⟨hfits, hshare, hroot⟩
    · rintro ⟨hfits, hshare, hroot⟩
      rw [snprintf_of_lt hfits]
      exact ⟨(backupsPath_eq_iff _).2 ⟨hshare, hroot⟩, hfits⟩

/-! ## Two layouts -/

/-- A connection to the share `home` in some directory, with the store of the default
policy. -/
def homeConn (connectpath : String) : Conn where
  connectpath := lit connectpath
  shareName := lit "home"
  user := lit "alice"
  ip := lit "10.0.0.5"
  protect := true
  strict := true
  storePath := Policy.default.storePath
  sockOpen := true

example : (homeConn "/mnt/home").wireShare = lit "home" := by decide

/-- In `/srv/home` the two sides agree. -/
theorem smb_row_agrees_sample :
    RowAgrees (Daemon.start .default .empty)
      (processMsg (sampleEnv 1) ((homeConn "/srv/home").eventMsg opWrite (backupFlags true)
        (lit "a") none none) (Daemon.start .default .empty))
      (backupsPath Policy.default.storePath.str (lit "home") (lit "a"))
      ((homeConn "/srv/home").absPath (lit "a")) :=
  (smb_row_agrees_iff (sampleEnv 1) _ (homeConn "/srv/home") opWrite (backupFlags true) (lit "a")
    none none (by decide) rfl).2
    (.inr ⟨by decide, by decide,
      .inl ⟨lit "/srv", by decide, by decide⟩⟩)

/-- In `/srv/home/x/home` the daemon stops at the upper directory of the share's name. -/
theorem smb_row_not_always_agrees :
    ¬ ∀ (env : CallEnv) (d : Daemon) (conn : Conn) (op : UInt8) (flags : UInt16) (rel : CStr)
      (newName : Option CStr) (st : Option StatBuf) (backup : CStr),
      computeBackupPath conn.storePath.str conn.shareName rel = some backup →
      d.policy.storePath.str = conn.storePath.str →
      RowAgrees d (processMsg env (conn.eventMsg op flags rel newName st) d) backup
        (conn.absPath rel) := by
  intro h
  have hpaths : (processMsg (sampleEnv 1) ((homeConn "/srv/home/x/home").eventMsg opWrite
      (backupFlags true) (lit "a") none none) (Daemon.start .default .empty)).db.protectedFiles.map
        (·.backupPath) =
      [backupsPath Policy.default.storePath.str (lit "home") (lit "x/home/a")] := by
    decide
  rcases h (sampleEnv 1) (Daemon.start .default .empty) (homeConn "/srv/home/x/home") opWrite
    (backupFlags true) (lit "a") none none
    (backupsPath Policy.default.storePath.str (lit "home") (lit "a")) (by decide) rfl with
    hsame | ⟨row, hrow, hbackup, -⟩
  · rw [hsame] at hpaths
    cases hpaths
  · rw [hrow, show (Daemon.start .default .empty).db.protectedFiles = [] from rfl, List.nil_append,
      List.map_singleton, hbackup] at hpaths
    revert hpaths
    decide

end GfrGuard
