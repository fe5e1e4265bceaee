import GfrGuard.Backup
import GfrGuard.Scorer

/-!
# The fanotify channels

A permission event of a watched file: the channel resolves who opens it, a blacklisted
session is denied, and any other open waits for a copy of the file in the store. The message
goes to the main thread, which hands it to `process_msg`. What a channel reads under `/proc`
is taken as read (`ProcInfo`); the parse of an rclone command line is the source's.
-/

namespace GfrGuard

/-! ## Events and channels -/

/-- What `struct fanotify_event` says of a permission event. -/
structure FanotifyEvent where
  path : CBuf pathMax
  /-- The process id is positive. -/
  pidKnown : Bool
  /-- `%d` of the process id. -/
  pid : CStr

/-- What `/proc` shows of the process of an event. -/
structure ProcInfo where
  /-- The bytes of `cmdline`. -/
  cmdline : Option (List UInt8)
  /-- `fan_proc_stat`: the name of the process and its start time. -/
  procStat : Option (CBuf 64 × Nat)
  /-- `readlink` of `exe`, empty when it fails. -/
  exe : CStr
  /-- `ftp_resolve_session`: the user and the address of a vsftpd process. -/
  ftpSession : Option (CBuf 64 × CBuf 48)

/-- `struct fan_channel_ctx`, less the key derived from it and the start time the kill
checks. -/
structure ChannelCtx where
  username : CBuf 64
  clientIp : CBuf 48
  shareName : CBuf 64

/-- `struct fan_channel_ops`, less the callbacks that stop a process. -/
structure FanChannelOps where
  sourceType : UInt8
  backupDir : CStr
  resolve : ProcInfo → FanotifyEvent → Option ChannelCtx

/-! ## Identity -/

/-- The task in a token of the form `remote:path`. -/
def cloudTaskOf (token : CStr) : Option CStr :=
  let name := token.takeWhile (· ≠ colon)
  if colon ∈ token ∧ name ≠ [] ∧ token.head? ≠ some dash ∧ token.head? ≠ some slash ∧
      ¬ lit "http" <+: token ∧ ¬ lit "https" <+: token then
    some (name.take 127)
  else none

/-- `cloud_resolve_task`: the first task among the arguments of an rclone process. -/
def cloudResolveTask (cmdline : Option (List UInt8)) : Option CStr :=
  match cmdline with
  | none => none
  | some bytes =>
    let buf : CStr := bytes.take 4095
    let argv0 : CStr := buf.takeWhile (· ≠ 0)
    let base : CStr := match strrchr argv0 slash with
      | some s => s.drop 1
      | none => argv0
    if buf = [] ∨ base ≠ lit "rclone" then none
    else (SepText.pieces 0 buf).findSome? cloudTaskOf

/-- `cloud_resolve_user`. -/
def cloudResolveUser (_task : CStr) : CStr := lit "cloud"

/-- The name is one of rclone's own temporary files. -/
def isRcloneTemp (path : CStr) : Bool :=
  let fname : CStr := match strrchr path slash with
    | some s => s.drop 1
    | none => path
  (strstr fname (lit ".partial~")).isSome || (strstr fname (lit ".rclone-tmp")).isSome

/-- `cloud_resolve`: the task is the address and the share of the session. -/
def cloudResolve (proc : ProcInfo) (ev : FanotifyEvent) : Option ChannelCtx :=
  match cloudResolveTask proc.cmdline with
  | none => none
  | some task =>
    if isRcloneTemp ev.path.str then none
    else some ⟨.ofStr 64 (cloudResolveUser task), .ofStr 48 task, .ofStr 64 task⟩

/-- `ftp_resolve`: one fixed session stands for all that cannot be resolved. -/
def ftpResolve (proc : ProcInfo) (ev : FanotifyEvent) : Option ChannelCtx :=
  match ev.pidKnown, proc.ftpSession with
  | true, some (user, ip) => some ⟨user, ip, .ofStr 64 (lit "ftp")⟩
  | _, _ => some ⟨.ofStr 64 (lit "ftp"), .ofStr 48 (lit "unknown"), .ofStr 64 (lit "ftp")⟩

/-- `exe_whitelist`. -/
def exeWhitelist : List CStr :=
  ["/usr/sbin/smbd", "/usr/local/samba/sbin/smbd", "/usr/sbin/sshd", "/usr/sbin/vsftpd",
    "/usr/bin/rclone", "/usr/local/bin/rclone", "/usr/local/sbin/gfrguardd",
    "/usr/local/sbin/gfrguard-recover", "/usr/lib/systemd/systemd", "/lib/systemd/systemd",
    "/usr/sbin/init", "/sbin/init"].map lit

/-- `kthread_prefix`. -/
def kthreadPrefix : List CStr :=
  ["kworker", "kthreadd", "jbd2", "rcu", "ksoftirqd", "ksmd", "khugepaged"].map lit

/-- `local_whitelist_match`: by the executable, for a kernel thread by its name. -/
def localWhitelistMatch (comm exe : CStr) : Bool :=
  if exe ≠ [] then exe ∈ exeWhitelist else kthreadPrefix.any (·.isPrefixOf comm)

/-- `local_resolve`: a session is one instance of a process. -/
def localResolve (proc : ProcInfo) (ev : FanotifyEvent) : Option ChannelCtx :=
  match ev.pidKnown, proc.procStat with
  | true, some (comm, start) =>
    if localWhitelistMatch comm.str proc.exe then none
    else
      let ip := lit "local:" ++ ev.pid ++ colon :: dec start
      some ⟨comm, .ofStr 48 ip, .ofStr 64 (lit "local")⟩
  | _, _ => some ⟨.ofStr 64 (lit "local"), .ofStr 48 (lit "unknown"), .ofStr 64 (lit "local")⟩

/-- The fanotify channels. -/
inductive Channel where
  | ftp
  | cloud
  | host
deriving DecidableEq

/-- `ftp_ops`, `cloud_ops` and `local_ops`. -/
def Channel.ops : Channel → FanChannelOps
  | .ftp => ⟨sourceFtp, lit "ftp", ftpResolve⟩
  | .cloud => ⟨sourceCloudSync, lit "cloud", cloudResolve⟩
  | .host => ⟨sourceHost, lit "local", localResolve⟩

/-! ## The backup -/

/-- The directories a backup makes; a `mkdir` that fails is passed over. -/
def Fs.mkdirEach (fs : Fs) (path : CStr) (ok : Loc → Bool) : Fs :=
  (pathComponents path).inits.tail.foldl (fun fs loc => (fs.mkdir loc (ok loc)).getD fs) fs

/-- `fanotify_do_backup` of the file behind the event's descriptor, nothing when it cannot
be examined. -/
def fanotifyDoBackup (io : BackupIo) (file : Option Content) (filePath store channelDir : CStr)
    (fs : Fs) : Bool × Fs :=
  match file with
  | none => (false, fs)
  | some content =>
    let bk := backupsPath store channelDir filePath
    if pathMax ≤ bk.length then (false, fs)
    else
      let fs := fs.mkdirEach (Fs.parentPath bk) io.mkdirOk
      match fs.createExcl bk io.createOk with
      | .failed => (false, fs)
      | .exists => (true, fs)
      | .created => copyToNew io fs (pathComponents bk) content

/-! ## The permission path -/

/-- `enum fan_action`. -/
inductive FanAction where
  | allow
  | deny
deriving DecidableEq

/-- What one permission event observes. -/
structure FanEnv where
  proc : ProcInfo
  /-- The content behind the event's descriptor. -/
  file : Option Content
  /-- `fstat` of the descriptor after the backup. -/
  statBuf : Option StatBuf
  backup : BackupIo
  /-- `fanotify_gate_allow`: the session and file have not been reported in this window. -/
  gateAllow : Bool

/-- What a permission event leads to. -/
structure PermResult where
  action : FanAction
  queued : Option EventMsg
  fs : Fs

/-- `fanotify_build_event_msg`. -/
def fanotifyBuildEventMsg (ev : FanotifyEvent) (sourceType : UInt8) : EventMsg :=
  { EventMsg.zero with
    msgType := msgFileEvent
    sourceType := sourceType
    opType := opOpen
    flags := flagRisky
    filePath := ev.path }

/-- The message with the identity of its session. -/
def ChannelCtx.identify (ctx : ChannelCtx) (msg : EventMsg) : EventMsg :=
  { msg with username := ctx.username, clientIp := ctx.clientIp, shareName := ctx.shareName }

/-- The message with the outcome of the backup. -/
def withBackup (ok : Bool) (st : Option StatBuf) (msg : EventMsg) : EventMsg :=
  if ok then
    let msg := { msg with flags := msg.flags ||| flagBackedUp }
    match st with
    | some st =>
      { msg with
        inode := st.inode
        fileSize := st.size
        mtime := st.mtime
        fileUid := st.uid
        fileGid := st.gid
        fileMode := st.mode }
    | none => msg
  else { msg with flags := msg.flags ||| flagBackupFailed }

/-- `fan_channel_handle` of a permission event. -/
def fanChannelHandle (env : FanEnv) (p : Policy) (ops : FanChannelOps) (ev : FanotifyEvent)
    (fs : Fs) : PermResult :=
  match ops.resolve env.proc ev with
  | none => ⟨.allow, none, fs⟩
  | some ctx =>
    let msg := ctx.identify (fanotifyBuildEventMsg ev ops.sourceType)
    if scorerIsBlacklisted p (some ctx.username.str) ctx.clientIp.str then
      -- reported, so that the deny gets its event
      ⟨.deny, if env.gateAllow then some msg else none, fs⟩
    else
      let (ok, fs) := fanotifyDoBackup env.backup env.file ev.path.str p.storePath.str
        ops.backupDir fs
      ⟨.allow, if env.gateAllow then some (withBackup ok env.statBuf msg) else none, fs⟩

end GfrGuard
