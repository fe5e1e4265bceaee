import GfrGuard.CString

/-!
# The event message

The datagram the VFS module and the fanotify channels send to the daemon, and the session
key both sides derive from it. String fields are fixed-size buffers, so a longer name or
path arrives truncated. The send time and the reserved bytes are left out: the daemon reads
neither.
-/

namespace GfrGuard

/-- `RGUARD_PATH_MAX`. -/
abbrev pathMax : Nat := 4096

/-! ## Field values -/

/-- `RGUARD_MSG_FILE_EVENT`. -/
abbrev msgFileEvent : UInt8 := 1
/-- `RGUARD_MSG_VFS_BLOCKED`. -/
abbrev msgVfsBlocked : UInt8 := 4

/-- `RGUARD_SOURCE_SMB`. -/
abbrev sourceSmb : UInt8 := 1
/-- `RGUARD_SOURCE_CLOUD_SYNC`. -/
abbrev sourceCloudSync : UInt8 := 2
/-- `RGUARD_SOURCE_FTP`. -/
abbrev sourceFtp : UInt8 := 3
/-- `RGUARD_SOURCE_HOST`. -/
abbrev sourceHost : UInt8 := 4

/-- `RGUARD_OP_OPEN`. -/
abbrev opOpen : UInt8 := 1
/-- `RGUARD_OP_WRITE`. -/
abbrev opWrite : UInt8 := 2
/-- `RGUARD_OP_TRUNCATE`. -/
abbrev opTruncate : UInt8 := 3
/-- `RGUARD_OP_RENAME`. -/
abbrev opRename : UInt8 := 4
/-- `RGUARD_OP_DELETE`. -/
abbrev opDelete : UInt8 := 5
/-- `RGUARD_OP_CLOSE`. -/
abbrev opClose : UInt8 := 6

/-- `RGUARD_FLAG_RISKY`. -/
abbrev flagRisky : UInt16 := 0x001
/-- `RGUARD_FLAG_BACKED_UP`. -/
abbrev flagBackedUp : UInt16 := 0x002
/-- `RGUARD_FLAG_BACKUP_FAILED`. -/
abbrev flagBackupFailed : UInt16 := 0x004
/-- `RGUARD_FLAG_EXT_CHANGE`. -/
abbrev flagExtChange : UInt16 := 0x008
/-- `RGUARD_FLAG_NEW_FILE`. -/
abbrev flagNewFile : UInt16 := 0x010
/-- `RGUARD_FLAG_CONTENT_SAME`. -/
abbrev flagContentSame : UInt16 := 0x020
/-- `RGUARD_FLAG_RANSOM_EXT`. -/
abbrev flagRansomExt : UInt16 := 0x040
/-- `RGUARD_FLAG_HIGH_ENTROPY`. -/
abbrev flagHighEntropy : UInt16 := 0x080
/-- `RGUARD_FLAG_YARA_MATCH`. -/
abbrev flagYaraMatch : UInt16 := 0x100

/-- `flags & f` is not zero. -/
def hasFlag (flags f : UInt16) : Bool := flags &&& f != 0

/-! ## The message -/

/-- The `stat` fields an event carries. -/
structure StatBuf where
  inode : UInt64
  size : UInt64
  mtime : Int
  uid : UInt32
  gid : UInt32
  mode : UInt32
deriving DecidableEq

/-- `struct rguard_event_msg`. -/
structure EventMsg where
  msgType : UInt8
  opType : UInt8
  flags : UInt16
  inode : UInt64
  fileSize : UInt64
  mtime : Int
  fileUid : UInt32
  fileGid : UInt32
  fileMode : UInt32
  username : CBuf 64
  clientIp : CBuf 48
  shareName : CBuf 64
  filePath : CBuf pathMax
  newName : CBuf 256
  sourceType : UInt8
deriving DecidableEq

/-- The message after `memset(&msg, 0, sizeof(msg))`. -/
def EventMsg.zero : EventMsg where
  msgType := 0
  opType := 0
  flags := 0
  inode := 0
  fileSize := 0
  mtime := 0
  fileUid := 0
  fileGid := 0
  fileMode := 0
  username := .empty 64
  clientIp := .empty 48
  shareName := .empty 64
  filePath := .empty pathMax
  newName := .empty 256
  sourceType := 0

/-- `rguard_make_session_key`: the session is `<username>@<client_ip>`. -/
def makeSessionKey (username clientIp : CStr) : CBuf 128 :=
  .ofStr 128 (username ++ atSign :: clientIp)

/-- The session key the daemon derives from a message. -/
def EventMsg.sessionKey (msg : EventMsg) : CBuf 128 :=
  makeSessionKey msg.username.str msg.clientIp.str

/-- The two wire fields fit the key buffer: the derived key is never truncated. -/
theorem EventMsg.sessionKey_str (msg : EventMsg) :
    msg.sessionKey.str = msg.username.str ++ atSign :: msg.clientIp.str := by
  refine CBuf.str_ofStr_of_lt ?_
  have h1 := msg.username.fits
  have h2 := msg.clientIp.fits
  simp only [List.length_append, List.length_cons]
  omega

/-- `<store>/backups/<dir>/<rel>`, the path format of every preimage. -/
def backupsPath (store dir rel : CStr) : CStr := store ++ lit "/backups/" ++ dir ++ slash :: rel

/-- The file a preimage path names. -/
theorem pathComponents_backupsPath (store dir rel : CStr) :
    pathComponents (backupsPath store dir rel) =
      pathComponents store ++ lit "backups" :: (pathComponents dir ++ pathComponents rel) := by
  have hinfix : lit "/backups/" = slash :: (lit "backups" ++ [slash]) := by decide
  have hformat : backupsPath store dir rel =
      store ++ slash :: (lit "backups" ++ slash :: (dir ++ slash :: rel)) := by
    rw [backupsPath, hinfix]
    simp only [List.append_assoc, List.cons_append, List.nil_append]
  rw [hformat, pathComponents_append_slash, pathComponents_append_slash,
    pathComponents_append_slash, pathComponents_name (a := lit "backups") (by decide) (by decide)]
  rfl

/-- The operations whose message asks for a protected-files row when a backup was made. -/
def EventMsg.isBackupOp (msg : EventMsg) : Bool :=
  msg.opType = opOpen || msg.opType = opWrite || msg.opType = opTruncate ||
    msg.opType = opDelete

end GfrGuard
