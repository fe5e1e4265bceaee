import GfrGuard.Daemon

/-!
# `process_msg`

One message through the daemon: the notification of a denied session, the gates, the
blacklist block, and for an accepted message the event, the preimage row, the content
analysis, the windows and the score, the created-file row and the block with its restore
trigger. Each stage is a function of its own on the daemon and the slot of the session.
-/

namespace GfrGuard

/-! ## Gates -/

/-- Where the gates send a message. -/
inductive Gate where
  | protectionOff
  | extFilterSkip
  | exceptionBypass
  | whitelistBypass
  | blacklistBlock
  | accept
deriving DecidableEq

/-- The switch of a message's source; an unknown source counts as SMB. -/
def sourceEnabled (p : Protection) (sourceType : UInt8) : Bool :=
  if sourceType = sourceCloudSync then p.cloudSync
  else if sourceType = sourceFtp then p.ftp
  else if sourceType = sourceHost then p.host
  else p.smb

/-- The extension filter lets a path through. -/
def extMatched (f : FileExtensions) (filePath : CStr) : Bool :=
  f.all || filePath = [] ||
    match strrchr filePath dot with
    | none => false
    | some ext => f.manual.strs.any (strcaseEq ext)

/-- The gates of `process_msg`, in order. -/
def gate (p : Policy) (msg : EventMsg) : Gate :=
  if !p.protection.enabled || !sourceEnabled p.protection msg.sourceType then .protectionOff
  else if !extMatched p.fileExt msg.filePath.str then .extFilterSkip
  else if scorerIsExcepted p msg.filePath.str then .exceptionBypass
  else if scorerIsWhitelisted p msg.username.str msg.clientIp.str then .whitelistBypass
  else if scorerIsBlacklisted p (some msg.username.str) msg.clientIp.str then .blacklistBlock
  else .accept

/-! ## Denied and blacklisted sessions -/

/-- Give the session an event id if it has none. -/
def ensureId (env : CallEnv) (i : Fin sessionBuckets) (d : Daemon) : Daemon :=
  if (d.session i).currentEventId.str = [] then
    let (id, d) := makeEventId env d
    d.setSession i { d.session i with currentEventId := id }
  else d

/-- The branch for a session the VFS module denied. -/
def vfsBlocked (env : CallEnv) (msg : EventMsg) (d : Daemon) : Daemon :=
  match sessionFindOrCreate d.table msg.sessionKey env.now with
  | none => d
  | some (i, t) =>
    let d := ensureId env i { d with table := t }
    let id := (d.session i).currentEventId.str
    if id = [] then d
    else
      let ev := eventRecord env msg id (lit "blocked") (lit "blocked_ip") []
      { d with db := d.db.upsertEvent ev }

/-- The status of a blacklist block: an address match is the stronger signal. -/
def blacklistStatus (p : Policy) (msg : EventMsg) : CStr :=
  if scorerIsBlacklisted p none msg.clientIp.str then lit "blocked_ip" else lit "blocked_user"

/-- Give a blacklisted session an event if it has none. -/
def ensureBlockedEvent (env : CallEnv) (msg : EventMsg) (i : Fin sessionBuckets)
    (d : Daemon) : Daemon :=
  if (d.session i).currentEventId.str = [] then
    let d := ensureId env i d
    let ev := eventRecord env msg (d.session i).currentEventId.str (lit "blocked")
      (blacklistStatus d.policy msg) []
    { d with db := d.db.upsertEvent ev }
  else d

/-- The branch for a blacklisted session: block it once. -/
def blacklistBlock (env : CallEnv) (msg : EventMsg) (d : Daemon) : Daemon :=
  match sessionFindOrCreate d.table msg.sessionKey env.now with
  | none => d
  | some (i, t) =>
    let d := { d with table := t }
    if (d.session i).isBlocked then d
    else
      let d := ensureBlockedEvent env msg i d
      match blockerExecute env (blockIp msg) (d.session i).currentEventId.str
          (blacklistStatus d.policy msg) d with
      -- the flag is set before the attempt and taken back on a failure
      | (true, d) => d.setSession i { d.session i with isBlocked := true }
      | (false, d) => d.setSession i { d.session i with isBlocked := false }

/-! ## Accepted messages -/

/-- Give the session an event, with its row, if it has none. -/
def ensureEvent (env : CallEnv) (msg : EventMsg) (i : Fin sessionBuckets) (d : Daemon) :
    Daemon :=
  if (d.session i).currentEventId.str = [] then
    let d := ensureId env i d
    -- the process name, for the host channel only
    let pname := if msg.sourceType = sourceHost then msg.username.str else []
    let ev := eventRecord env msg (d.session i).currentEventId.str (lit "none") (lit "active")
      pname
    { d with db := d.db.insertEvent ev }
  else d

/-- The share-relative path as `process_msg` recovers it: what follows the first
`/<share>/`, else the path less a leading `<share>/`, else the whole path. -/
def backupRel (shareName filePath : CStr) : CStr :=
  match strstr filePath (slash :: shareName ++ [slash]) with
  | some pos => pos.drop (shareName.length + 2)
  | none =>
    if shareName <+: filePath ∧ filePath[shareName.length]? = some slash then
      filePath.drop (shareName.length + 1)
    else filePath

/-- The `backup_path` of a message's row; nothing when it does not fit. -/
def recordBackupPath (store : CStr) (msg : EventMsg) : Option CStr :=
  let path := backupsPath store msg.shareName.str (backupRel msg.shareName.str msg.filePath.str)
  if path.length < pathMax then some path else none

/-- The row of a message's preimage. -/
def protectedRow (env : CallEnv) (msg : EventMsg) (eventId backupPath : CStr) :
    ProtectedFile where
  id := 0
  eventId := eventId
  originalPath := msg.filePath.str
  backupPath := backupPath
  shareName := msg.shareName.str
  username := msg.username.str
  clientIp := msg.clientIp.str
  inode := msg.inode
  mtime := msg.mtime
  fileSize := msg.fileSize
  fileUid := msg.fileUid
  fileGid := msg.fileGid
  fileMode := msg.fileMode
  opType := msg.opType
  protectedAt := env.iso8601
  restoreStatus := lit "pending"
  restoredAt := none

/-- The message reports a preimage that belongs in the database. -/
def EventMsg.reportsBackup (msg : EventMsg) : Bool :=
  hasFlag msg.flags flagBackedUp && msg.isBackupOp

/-- Record the preimage a message reports. -/
def recordProtectedFile (env : CallEnv) (msg : EventMsg) (i : Fin sessionBuckets)
    (d : Daemon) : Daemon :=
  if msg.reportsBackup then
    match recordBackupPath d.policy.storePath.str msg with
    | none => d
    | some backupPath =>
      let id := (d.session i).currentEventId.str
      let d := d.note .protectedFile id
      { d with db := d.db.insertProtectedFile (protectedRow env msg id backupPath) }
  else d

/-! ## Analysis -/

/-- A path ends in one of the ransomware extensions. -/
def hasRansomExt (p : Policy) (path : CStr) : Bool :=
  match strrchr path dot with
  | none => false
  | some ext => ext ∈ p.ransomExts.strs

/-- The extension flags of a rename. -/
def renameFlags (p : Policy) (msg : EventMsg) : UInt16 :=
  if msg.opType = opRename ∧ msg.filePath.str ≠ [] ∧ msg.newName.str ≠ [] ∧
      strrchr msg.filePath.str dot ≠ strrchr msg.newName.str dot then
    flagExtChange ||| (if hasRansomExt p msg.newName.str then flagRansomExt else 0)
  else 0

/-- The extension flag of a created file. -/
def newFileFlags (p : Policy) (msg : EventMsg) : UInt16 :=
  if hasFlag msg.flags flagNewFile ∧ msg.filePath.str ≠ [] ∧ hasRansomExt p msg.filePath.str then
    flagRansomExt
  else 0

/-- The entropy flag: one scan per session and short window until it hits. -/
def entropyFlags (env : CallEnv) (p : Policy) (msg : EventMsg) (s : SessionState) : UInt16 :=
  if p.scoring.entropyEnabled ∧ msg.filePath.str ≠ [] ∧ s.highEntropyCount = 0 ∧
      hasFlag msg.flags flagBackedUp ∧
      (msg.opType = opOpen ∨ msg.opType = opWrite ∨ msg.opType = opTruncate) ∧
      env.entropySuspicious msg.filePath.str then
    flagHighEntropy
  else 0

/-- The YARA flag: scanned on close. -/
def yaraFlags (env : CallEnv) (p : Policy) (msg : EventMsg) (s : SessionState) : UInt16 :=
  if p.scoring.yaraEnabled ∧ msg.filePath.str ≠ [] ∧ env.yaraActive ∧ msg.opType = opClose ∧
      s.yaraMatchCount = 0 ∧ env.yaraMatches msg.filePath.str then
    flagYaraMatch
  else 0

/-- `analysis_flags`: the flags of the message and those of the content analysis. -/
def analysisFlags (env : CallEnv) (p : Policy) (msg : EventMsg) (s : SessionState) : UInt16 :=
  msg.flags ||| renameFlags p msg ||| newFileFlags p msg ||| entropyFlags env p msg s |||
    yaraFlags env p msg s

/-- The hash of the parent directory, 0 when the path has none. -/
def dirHash (filePath : CStr) : UInt64 :=
  match strrchr filePath slash with
  | none => 0
  | some s =>
    let dl := filePath.length - s.length
    if 0 < dl then fnv1a64 (filePath.take dl) else 0

/-! ## Windows and score -/

/-- Plain writes are not scored before the close. -/
def deferScore (msg : EventMsg) (flags : UInt16) : Bool :=
  (msg.opType = opOpen || msg.opType = opWrite || msg.opType = opTruncate) &&
    !hasFlag flags (flagRansomExt ||| flagHighEntropy ||| flagYaraMatch)

/-- The session after the windows, the counters and the score. -/
def scoreSession (env : CallEnv) (p : Policy) (msg : EventMsg) (s : SessionState) :
    SessionState :=
  let flags := analysisFlags env p msg s
  let (short, long) := p.windows msg.sourceType
  let s := sessionCheckWindow s env.now short long
  let s := sessionUpdate s msg.opType flags (dirHash msg.filePath.str)
  if deferScore msg flags then s else scorerCalculate s p

/-- Write the totals of the session to its event; the count is bound as a `long long`. -/
def updateTotals (i : Fin sessionBuckets) (d : Daemon) : Daemon :=
  let s := d.session i
  let d := d.note .updateEvent s.currentEventId.str
  let db := d.db.updateEvent s.currentEventId.str 0 s.totalEvents.toInt64.toInt
    s.riskScore.toNat none none none
  { d with db := db }

/-- The row of a created file. -/
def createdRow (env : CallEnv) (msg : EventMsg) (eventId : CStr) : CreatedFile where
  id := 0
  eventId := eventId
  filePath := msg.filePath.str
  shareName := msg.shareName.str
  username := msg.username.str
  clientIp := msg.clientIp.str
  createdAt := env.iso8601

/-- Record the file a message reports as created. -/
def recordCreatedFile (env : CallEnv) (msg : EventMsg) (i : Fin sessionBuckets)
    (d : Daemon) : Daemon :=
  if hasFlag msg.flags flagNewFile ∧ msg.filePath.str ≠ [] then
    let id := (d.session i).currentEventId.str
    let d := d.note .createdFile id
    { d with db := d.db.insertCreatedFile (createdRow env msg id) }
  else d

/-! ## The block -/

/-- A blocked session's address goes on the runtime blacklist and the blocked file is
rebuilt. -/
def autoBlacklist (env : CallEnv) (msg : EventMsg) (d : Daemon) : Daemon :=
  let bl := blacklistAutoAdd d.policy.blacklist msg.clientIp
  { d with
    policy := { d.policy with blacklist := bl }
    blocked := blockerSyncBlacklist d.blocked bl env.syncOk }

/-- Block a critical session that is not blocked yet, and trigger the restore of its
event. -/
def blockIfCritical (env : CallEnv) (msg : EventMsg) (i : Fin sessionBuckets) (d : Daemon) :
    Daemon :=
  if (d.session i).riskLevel = .critical ∧ (d.session i).isBlocked = false then
    match blockerExecute env (blockIp msg) (d.session i).currentEventId.str
        (lit "blocked_ransom") d with
    | (true, d) =>
      let d := d.setSession i { d.session i with isBlocked := true }
      let d := autoBlacklist env msg d
      d.note .restoreTrigger (d.session i).currentEventId.str
    | (false, d) => d
  else d

/-! ## One message -/

/-- An accepted message up to the record of its preimage. -/
def recordMsg (env : CallEnv) (msg : EventMsg) (i : Fin sessionBuckets) (d : Daemon) : Daemon :=
  recordProtectedFile env msg i (ensureEvent env msg i d)

/-- An accepted message up to the score. -/
def scoreMsg (env : CallEnv) (msg : EventMsg) (i : Fin sessionBuckets) (d : Daemon) : Daemon :=
  let d := recordMsg env msg i d
  d.setSession i (scoreSession env d.policy msg (d.session i))

/-- An accepted message up to the block. -/
def settleMsg (env : CallEnv) (msg : EventMsg) (i : Fin sessionBuckets) (d : Daemon) : Daemon :=
  recordCreatedFile env msg i (updateTotals i (scoreMsg env msg i d))

/-- An accepted message, from the slot of its session on. -/
def acceptSession (env : CallEnv) (msg : EventMsg) (i : Fin sessionBuckets) (d : Daemon) :
    Daemon :=
  blockIfCritical env msg i (settleMsg env msg i d)

/-- The branch for an accepted message; with no slot for the session nothing happens. -/
def acceptMsg (env : CallEnv) (msg : EventMsg) (d : Daemon) : Daemon :=
  match sessionFindOrCreate d.table msg.sessionKey env.now with
  | none => d
  | some (i, t) => acceptSession env msg i { d with table := t }

/-- `process_msg`. -/
def processMsg (env : CallEnv) (msg : EventMsg) (d : Daemon) : Daemon :=
  let d := { d with journal := [] }
  if msg.msgType = msgVfsBlocked then vfsBlocked env msg d
  else
    match gate d.policy msg with
    | .blacklistBlock => blacklistBlock env msg d
    | .accept => acceptMsg env msg d
    | _ => d

end GfrGuard
