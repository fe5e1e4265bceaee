import GfrGuard.Backup
import GfrGuard.Blocker

/-!
# The Samba VFS module

The callbacks of `vfs_gfrguard`. Each takes the connection, what the call observes
(`VfsEnv`), the operation of the next module and the state, and answers with a `Reply`: the
call was denied, or the next module ran, in the tree the reply keeps. The next module works
inside the share and leaves the store alone (`Next`). Log lines, the saved `errno` and the
retries of `sendto` are left out.
-/

namespace GfrGuard

/-! ## Connections and calls -/

/-- What the callbacks know of a connection and of the module's options. -/
structure Conn where
  connectpath : CStr
  shareName : CStr
  user : CStr
  ip : CStr
  protect : Bool
  /-- `GFR_MODE_STRICT`. -/
  strict : Bool
  storePath : CBuf 256
  /-- The daemon's socket is open. -/
  sockOpen : Bool

/-- What one call observes. -/
structure VfsEnv where
  /-- The content of the blocked file. -/
  blocked : Option CStr
  /-- The fields `stat` fills for a path. -/
  statBuf : CStr → StatBuf
  backup : BackupIo
  /-- `VFS_ADD_FSP_EXTENSION` succeeds. -/
  extOk : Bool
  /-- The two files of the comparison on close can be read. -/
  readOk : Bool

/-- The tree, and the messages handed to the daemon's socket. -/
structure VfsState where
  fs : Fs
  sent : List EventMsg

/-- The operation of the next module: a result, and a tree in which the store is as it was. -/
structure Next (store : CStr) where
  run : Fs → Int × Fs
  keepsStore : ∀ fs loc, pathComponents store <+: loc → (run fs).2.node loc = fs.node loc

/-- The errors a callback makes up itself. -/
inductive Errno where
  | eacces
  | enospc
deriving DecidableEq

/-- The answer of a callback. -/
inductive Reply where
  | deny (errno : Errno)
  /-- The next module ran in a tree and returned a result. -/
  | next (before : Fs) (result : Int)

/-- `struct rguard_file_state`. -/
structure FileState where
  isRisky : Bool
  backupDone : Bool
  backupFailed : Bool
  eventSent : Bool
  sessionKey : CBuf 128
  shareName : CBuf 64
  relativePath : CBuf pathMax
  backupPath : CBuf pathMax
deriving DecidableEq

/-- An open file: the name Samba gives it and the state the module attached. -/
structure Handle where
  name : Option CStr
  ext : Option FileState

/-! ## Helpers -/

/-- `fname_str`. -/
def fnameStr (name : Option CStr) : CStr := name.getD (lit "?")

/-- The name is a `/proc/` path. -/
def isProcPath (path : CStr) : Bool := (lit "/proc/").isPrefixOf path

namespace Conn

variable (conn : Conn)

/-- `<connectpath>/<rel>`. -/
def absPath (rel : CStr) : CStr := conn.connectpath ++ slash :: rel

/-- `full_path`: the absolute path in a buffer that may cut it. -/
def fullPath (rel : CStr) : CStr := snprintf pathMax (conn.absPath rel)

/-- The session key of the connection. -/
def sessionKey : CBuf 128 := makeSessionKey conn.user conn.ip

/-- The message `send_event` builds. -/
def eventMsg (op : UInt8) (flags : UInt16) (rel : CStr) (newName : Option CStr)
    (st : Option StatBuf) : EventMsg where
  msgType := msgFileEvent
  opType := op
  flags := flags
  inode := st.elim 0 (·.inode)
  fileSize := st.elim 0 (·.size)
  mtime := st.elim 0 (·.mtime)
  fileUid := st.elim 0 (·.uid)
  fileGid := st.elim 0 (·.gid)
  fileMode := st.elim 0 (·.mode)
  username := .ofStr 64 conn.user
  clientIp := .ofStr 48 conn.ip
  shareName := .ofStr 64 conn.shareName
  filePath := .ofStr pathMax (conn.absPath rel)
  newName := .ofStr 256 (newName.getD [])
  sourceType := sourceSmb

/-- The message of `send_blocked_notify`. -/
def blockedMsg : EventMsg :=
  { EventMsg.zero with
    msgType := msgVfsBlocked
    sourceType := sourceSmb
    username := .ofStr 64 conn.user
    clientIp := .ofStr 48 conn.ip
    shareName := .ofStr 64 conn.shareName }

/-- Hand a message to the socket; a closed one drops it. -/
def send (msg : EventMsg) (s : VfsState) : VfsState :=
  if conn.sockOpen then { s with sent := s.sent ++ [msg] } else s

/-- `send_event`. -/
def sendEvent (op : UInt8) (flags : UInt16) (rel : CStr) (newName : Option CStr)
    (st : Option StatBuf) (s : VfsState) : VfsState :=
  conn.send (conn.eventMsg op flags rel newName st) s

/-- The client's address is a line of the blocked file. -/
def listed (env : VfsEnv) : Bool := conn.ip ≠ [] && lineExists env.blocked conn.ip

/-- `is_blocked`: a blocked session is reported. -/
def isBlocked (env : VfsEnv) (s : VfsState) : Bool × VfsState :=
  if conn.listed env then (true, conn.send conn.blockedMsg s) else (false, s)

end Conn

/-- Run the next module. -/
def Next.step {store : CStr} (next : Next store) (s : VfsState) : Int × VfsState :=
  ((next.run s.fs).1, { s with fs := (next.run s.fs).2 })

/-- The flags of an event about a backup. -/
def backupFlags (ok : Bool) : UInt16 :=
  flagRisky ||| (if ok then flagBackedUp else flagBackupFailed)

section
variable (conn : Conn) (env : VfsEnv) (next : Next conn.storePath.str)

/-! ## `gf_openat` -/

/-- The open flags the module reads. -/
structure OpenFlags where
  path : Bool
  /-- `O_WRONLY` or `O_RDWR`. -/
  write : Bool
  creat : Bool
  trunc : Bool
  append : Bool
deriving DecidableEq

/-- The open asks to create and to truncate. -/
def OpenFlags.createTrunc (flags : OpenFlags) : Bool := flags.creat && flags.trunc

/-- The open lets the client overwrite what the file holds. -/
def OpenFlags.overwrites (flags : OpenFlags) : Bool :=
  (flags.write && !flags.append) || flags.createTrunc

/-- The state attached to a handle. -/
def newState (rel : CStr) (done failed : Bool) : FileState where
  isRisky := true
  backupDone := done
  backupFailed := failed
  eventSent := false
  sessionKey := conn.sessionKey
  shareName := .ofStr 64 conn.shareName
  relativePath := .ofStr pathMax rel
  backupPath := .empty pathMax

/-- The state after a backup attempt, with the backup's path for the comparison on close. -/
def backedUpState (rel : CStr) (ok : Bool) : FileState :=
  { newState conn rel ok (!ok) with
    backupPath := if ok then
        .ofStr pathMax (backupsPath conn.storePath.str conn.shareName rel)
      else .empty pathMax }

/-- `gf_openat` of a file that exists and can be overwritten. -/
def openRisky (rel : CStr) (nameAfter : Option CStr) (s : VfsState) :
    Reply × Handle × VfsState :=
  let full := conn.fullPath rel
  let st := some (env.statBuf full)
  let (ok, fs) := doBackup env.backup conn.storePath.str full conn.shareName rel s.fs
  let s := { s with fs := fs }
  if !ok && conn.strict then
    (.deny .enospc, ⟨nameAfter, none⟩, conn.sendEvent opWrite (backupFlags ok) rel none st s)
  else
    let (r, s') := next.step s
    let ext := if 0 ≤ r ∧ env.extOk then some (backedUpState conn rel ok) else none
    (.next s.fs r, ⟨nameAfter, ext⟩, conn.sendEvent opWrite (backupFlags ok) rel none st s')

/-- `gf_openat` of a file that does not exist or cannot be overwritten: a file it creates is
tracked for its close, with no backup. -/
def openOther (flags : OpenFlags) (existed : Bool) (rel : CStr) (nameAfter : Option CStr)
    (s : VfsState) : Reply × Handle × VfsState :=
  let (r, s') := next.step s
  if !existed && flags.creat && 0 ≤ r then
    let ext := if env.extOk then some (newState conn rel true false) else none
    (.next s.fs r, ⟨nameAfter, ext⟩, conn.sendEvent opOpen flagNewFile rel none none s')
  else (.next s.fs r, ⟨nameAfter, none⟩, s')

/-- `gf_openat` of a name. -/
def openNamed (flags : OpenFlags) (rel : CStr) (nameAfter : Option CStr) (s : VfsState) :
    Reply × Handle × VfsState :=
  match conn.isBlocked env s with
  | (true, s) => (.deny .eacces, ⟨nameAfter, none⟩, s)
  | (false, s) =>
    match s.fs.stat (conn.fullPath rel) with
    | some (.regular _) =>
      if flags.overwrites then openRisky conn env next rel nameAfter s
      else openOther conn env next flags true rel nameAfter s
    | _ => openOther conn env next flags false rel nameAfter s

/-- `gf_openat` reopening a descriptor whose name is not known: the backup is deferred. -/
def openProcfd (nameAfter : Option CStr) (s : VfsState) : Reply × Handle × VfsState :=
  match conn.isBlocked env s with
  | (true, s) => (.deny .eacces, ⟨nameAfter, none⟩, s)
  | (false, s) =>
    let (r, s') := next.step s
    let rel := (nameAfter.filter fun n => !isProcPath n).getD []
    let ext := if 0 ≤ r ∧ env.extOk then some (newState conn rel false false) else none
    (.next s.fs r, ⟨nameAfter, ext⟩, s')

/-- `gf_openat`. `fspName` is the name of the handle before the open, `nameAfter` after it. -/
def gfOpenat (smbName fspName nameAfter : Option CStr) (flags : OpenFlags) (s : VfsState) :
    Reply × Handle × VfsState :=
  if !conn.protect || flags.path || (!flags.write && !flags.createTrunc) then
    let (r, s') := next.step s
    (.next s.fs r, ⟨nameAfter, none⟩, s')
  else
    let rel := fspName.getD (fnameStr smbName)
    if isProcPath (fnameStr smbName) && isProcPath rel then openProcfd conn env next nameAfter s
    else openNamed conn env next flags rel nameAfter s

/-! ## Deferred backups -/

/-- `enum gf_defer_rc`. -/
inductive DeferRc where
  | deny
  | unresolved
  | done
deriving DecidableEq

/-- The path of a handle, taken from its name when the open did not know it. -/
def resolvePath (name : Option CStr) (fst : FileState) : FileState :=
  if fst.relativePath.str = [] then
    match name with
    | some n => if isProcPath n then fst else { fst with relativePath := .ofStr pathMax n }
    | none => fst
  else fst

/-- `gf_deferred_backup`: its answer, the flags of the event, and the states. -/
def gfDeferredBackup (op : UInt8) (name : Option CStr) (fst : FileState) (s : VfsState) :
    DeferRc × UInt16 × FileState × VfsState :=
  if fst.backupFailed then (.done, flagRisky, fst, s)
  else
    let fst := resolvePath name fst
    let rel := fst.relativePath.str
    if rel = [] ∨ pathMax ≤ (conn.absPath rel).length then (.unresolved, flagRisky, fst, s)
    else
      match doBackup env.backup conn.storePath.str (conn.absPath rel) fst.shareName.str rel
          s.fs with
      | (true, fs) => (.done, backupFlags true, { fst with backupDone := true }, { s with fs := fs })
      | (false, fs) =>
        let fst := { fst with backupFailed := true }
        let s := { s with fs := fs }
        if conn.strict then
          (.deny, backupFlags false, fst, conn.sendEvent op (backupFlags false) rel none none s)
        else (.done, backupFlags false, fst, s)

/-! ## `gf_pwrite` and `gf_ftruncate` -/

/-- Let the next module run and leave the handle as it is. -/
def passThrough (h : Handle) (s : VfsState) : Reply × Handle × VfsState :=
  let (r, s') := next.step s
  (.next s.fs r, h, s')

/-- `gf_pwrite`. -/
def gfPwrite (h : Handle) (s : VfsState) : Reply × Handle × VfsState :=
  if !conn.protect then passThrough conn next h s
  else
    match h.ext with
    | none => passThrough conn next h s
    | some fst =>
      if !fst.isRisky then passThrough conn next h s
      else
        match conn.isBlocked env s with
        | (true, s) => (.deny .eacces, h, s)
        | (false, s) =>
          if fst.backupDone then passThrough conn next h s
          else
            match gfDeferredBackup conn env opWrite h.name fst s with
            | (.deny, _, fst, s) => (.deny .enospc, { h with ext := some fst }, s)
            | (.unresolved, _, fst, s) => passThrough conn next { h with ext := some fst } s
            | (.done, flags, fst, s) =>
              let (r, s') := next.step s
              -- one event for each handle
              if fst.eventSent then (.next s.fs r, { h with ext := some fst }, s')
              else
                (.next s.fs r, { h with ext := some { fst with eventSent := true } },
                  conn.sendEvent opWrite flags fst.relativePath.str none none s')

/-- `gf_ftruncate` of a handle that is not tracked: it is backed up and tracked from now on,
whatever flags it was opened with. -/
def truncateUntracked (h : Handle) (s : VfsState) : Reply × Handle × VfsState :=
  match h.name with
  | none => passThrough conn next h s
  | some rel =>
    if isProcPath rel then passThrough conn next h s
    else
      match conn.isBlocked env s with
      | (true, s) => (.deny .eacces, h, s)
      | (false, s) =>
        let full := conn.fullPath rel
        match s.fs.stat full with
        | some (.regular _) =>
          let (ok, fs) := doBackup env.backup conn.storePath.str full conn.shareName rel s.fs
          let s := { s with fs := fs }
          let h := if env.extOk then { h with ext := some (backedUpState conn rel ok) }
            else h
          if !ok && conn.strict then
            (.deny .enospc, h, conn.sendEvent opTruncate (backupFlags ok) rel none
              (some (env.statBuf full)) s)
          else
            let (r, s') := next.step s
            (.next s.fs r, h, conn.sendEvent opTruncate (backupFlags ok) rel none none s')
        | _ => passThrough conn next h s

/-- `gf_ftruncate`. -/
def gfFtruncate (h : Handle) (s : VfsState) : Reply × Handle × VfsState :=
  if !conn.protect then passThrough conn next h s
  else
    match h.ext with
    | none => truncateUntracked conn env next h s
    | some fst =>
      if !fst.isRisky then truncateUntracked conn env next h s
      else
        match conn.isBlocked env s with
        | (true, s) => (.deny .eacces, h, s)
        | (false, s) =>
          if fst.backupDone then passThrough conn next h s
          else
            match gfDeferredBackup conn env opTruncate h.name fst s with
            | (.deny, _, fst, s) => (.deny .enospc, { h with ext := some fst }, s)
            | (_, flags, fst, s) =>
              let (r, s') := next.step s
              (.next s.fs r, { h with ext := some fst },
                conn.sendEvent opTruncate flags fst.relativePath.str none none s')

/-! ## Names -/

/-- `gf_renameat`. The names are copied before the rename. -/
def gfRenameat (src dst : Option CStr) (s : VfsState) : Reply × VfsState :=
  if !conn.protect then
    let (r, s') := next.step s
    (.next s.fs r, s')
  else
    match conn.isBlocked env s with
    | (true, s) => (.deny .eacces, s)
    | (false, s) =>
      let (r, s') := next.step s
      (.next s.fs r, conn.sendEvent opRename 0 (snprintf pathMax (fnameStr src))
        (some (snprintf pathMax (fnameStr dst))) none s')

/-- `gf_unlinkat`. -/
def gfUnlinkat (name : Option CStr) (s : VfsState) : Reply × VfsState :=
  if !conn.protect then
    let (r, s') := next.step s
    (.next s.fs r, s')
  else
    match conn.isBlocked env s with
    | (true, s) => (.deny .eacces, s)
    | (false, s) =>
      let rel := fnameStr name
      let full := conn.fullPath rel
      match s.fs.stat full with
      | some (.regular _) =>
        let st := some (env.statBuf full)
        let (ok, fs) := doBackup env.backup conn.storePath.str full conn.shareName rel s.fs
        let s := { s with fs := fs }
        if !ok && conn.strict then
          (.deny .eacces, conn.sendEvent opDelete (backupFlags ok) rel none st s)
        else
          let (r, s') := next.step s
          (.next s.fs r, conn.sendEvent opDelete (backupFlags ok) rel none st s')
      | _ =>
        let (r, s') := next.step s
        (.next s.fs r, conn.sendEvent opDelete 0 rel none none s')

/-- `gf_mkdirat`. -/
def gfMkdirat (name : Option CStr) (s : VfsState) : Reply × VfsState :=
  if !conn.protect then
    let (r, s') := next.step s
    (.next s.fs r, s')
  else
    match conn.isBlocked env s with
    | (true, s) => (.deny .eacces, s)
    | (false, s) =>
      let (r, s') := next.step s
      if r = 0 then
        (.next s.fs r, conn.sendEvent opOpen flagNewFile (fnameStr name) none none s')
      else (.next s.fs r, s')

/-! ## `gf_close` -/

/-- `GFR_CONTENT_COMPARE_MAX`. -/
abbrev contentCompareMax : Nat := 64 * 1024 * 1024

/-- The comparison on close: the sizes match, and so do the hashes. -/
def contentSame (fs : Fs) (backup current : CStr) : Bool :=
  match fs.stat backup, fs.stat current with
  | some (.regular a), some (.regular b) =>
    a.length = b.length && a.length ≤ contentCompareMax && fnv1a64 a = fnv1a64 b
  | _, _ => false

/-- The flags of the close event. -/
def closeFlags (fst : FileState) (fs : Fs) : UInt16 :=
  let current := conn.absPath fst.relativePath.str
  if fst.backupDone ∧ fst.backupPath.str ≠ [] ∧ fst.relativePath.str ≠ [] ∧
      current.length < pathMax ∧ env.readOk ∧ contentSame fs fst.backupPath.str current then
    flagContentSame
  else 0

/-- `gf_close`. -/
def gfClose (h : Handle) (s : VfsState) : Reply × VfsState :=
  match h.ext with
  | some fst =>
    if conn.protect && fst.isRisky then
      let s := conn.sendEvent opClose (closeFlags conn env fst s.fs) fst.relativePath.str none
        none s
      let (r, s') := next.step s
      (.next s.fs r, s')
    else
      let (r, s') := next.step s
      (.next s.fs r, s')
  | none =>
    let (r, s') := next.step s
    (.next s.fs r, s')

end

end GfrGuard
