import GfrGuard.Files
import GfrGuard.Db

/-!
# The recovery tool

`gfrguard-recover restore`: the files created during an event are moved to the quarantine,
then every preimage recorded for the event is copied back over its file, what stands there
first going to the quarantine too. The rows are read before the first file is touched. A
system call fails for a reason outside the tree by the outcomes passed in. Owners, modes and
the text printed are left out; no symbolic link stands on a path.
-/

namespace GfrGuard

/-! ## System calls -/

/-- What `rmdir` answers for a directory: it takes away only an empty one. -/
structure Rmdir where
  ok : Fs → Loc → Bool
  empty : ∀ fs loc, ok fs loc = true → ∀ name rest, fs.node (loc ++ name :: rest) = none

/-- What decides a restore besides the tree and the database. -/
structure RecoverIo where
  mkdirOk : Loc → Bool
  /-- A rename of this path stays inside one file system and succeeds. -/
  renameOk : CStr → Bool
  /-- A missing target of a copy can be created. -/
  createOk : Bool
  /-- The whole content is copied. -/
  copyOk : Bool
  /-- How many bytes a failed copy wrote. -/
  copied : Nat
  unlinkOk : Bool
  rmdir : Rmdir
  /-- `iso8601_now`. -/
  now : CStr

namespace Fs

/-- `unlink(path)`. -/
def unlink (fs : Fs) (path : CStr) (ok : Bool) : Option Fs :=
  match fs.stat path with
  | none | some .directory => none
  | some _ => if ok then some (fs.remove (pathComponents path)) else none

/-- `rmdir(path)`. -/
def rmdirPath (fs : Fs) (path : CStr) (r : Rmdir) : Option Fs :=
  match fs.stat path with
  | some .directory =>
    if r.ok fs (pathComponents path) then some (fs.remove (pathComponents path)) else none
  | _ => none

/-- Move a directory with all it holds. -/
def moveTree (fs : Fs) (src dst : Loc) : Fs :=
  ⟨fun loc =>
    if dst <+: loc then fs.node (src ++ loc.drop dst.length)
    else if src <+: loc then none
    else fs.node loc⟩

/-- `rename(old, new)`. -/
def rename (fs : Fs) (old new : CStr) (ok : Bool) (r : Rmdir) : Option Fs :=
  let src := pathComponents old
  let dst := pathComponents new
  match fs.stat old with
  | none => none
  | some n =>
    if !ok || pathMax ≤ new.length || fs.lookup dst.dropLast ≠ some .directory then none
    else if src = dst then some fs
    else
      match n, fs.lookup dst with
      | .directory, target =>
        if src <+: dst || target.any (· ≠ .directory) || target.isSome && !r.ok fs dst then none
        else some (fs.moveTree src dst)
      | _, some .directory => none
      | n, _ => if new.getLast? = some slash then none else some ((fs.remove src).put dst n)

/-- A file can be opened with `O_WRONLY | O_CREAT | O_TRUNC`. -/
def canOverwrite (fs : Fs) (path : CStr) (createOk : Bool) : Bool :=
  path ≠ [] && path.length < pathMax && path.getLast? ≠ some slash &&
    match fs.lookup (pathComponents path) with
    | some (.regular _) => true
    | some _ => false
    | none => createOk && fs.lookup (pathComponents path).dropLast = some .directory

end Fs

/-- `copy_file`. The source is read after the target is cut to nothing; a directory can be
opened but not read. -/
def copyFile (io : RecoverIo) (src dst : CStr) (fs : Fs) : Bool × Fs :=
  match fs.stat src with
  | none | some .other => (false, fs)
  | some _ =>
    if !fs.canOverwrite dst io.createOk then (false, fs)
    else
      let loc := pathComponents dst
      let fs := fs.put loc (.regular [])
      match fs.stat src with
      | some (.regular content) =>
        if io.copyOk then (true, fs.put loc (.regular content))
        else (false, fs.put loc (.regular (content.take io.copied)))
      | _ => (false, fs)

/-! ## The quarantine -/

/-- `QUARANTINE_PATH`. -/
def quarantinePath : CStr := lit "/var/lib/gf2000/rguard-store/quarantine"

/-- `valid_restore_path`: an absolute path without `..`. -/
def validRestorePath (path : CStr) : Bool :=
  path.head? = some slash && !(strstr path (lit "/../")).isSome && !(lit "/..").isSuffixOf path

/-- The loop of `quarantine_unique`. -/
def uniqueSlot (fs : Fs) (base : CStr) : CStr → List Nat → CStr
  | path, [] => path
  | _, i :: is =>
    let slot := base ++ dot :: dec i
    -- no room: what fits stays in the buffer
    if pathMax ≤ slot.length then snprintf pathMax slot
    else if fs.stat slot = none then slot
    else uniqueSlot fs base slot is

/-- `quarantine_unique`: a path that is taken gets a number. -/
def quarantineUnique (fs : Fs) (path : CStr) : CStr :=
  if fs.stat path = none then path else uniqueSlot fs path path (List.range' 1 99)

/-- `<quarantine>/<event>/<path>`, the path without its leading slash. -/
def quarantineFor (eventId path : CStr) : CStr :=
  let rel := if path.head? = some slash then path.drop 1 else path
  quarantinePath ++ slash :: eventId ++ slash :: rel

/-- Move a file to the quarantine; a rename that fails is made up for a regular file by a
copy and an unlink. -/
def moveToQuarantine (io : RecoverIo) (path qpath : CStr) (isRegular : Bool) (fs : Fs) :
    Bool × Fs :=
  let fs := (fs.mkdirP (Fs.parentPath qpath) io.mkdirOk).2
  let qpath := quarantineUnique fs qpath
  match fs.rename path qpath (io.renameOk path) io.rmdir with
  | some fs => (true, fs)
  | none =>
    if isRegular then
      match copyFile io path qpath fs with
      | (false, fs) => (false, fs)
      | (true, fs) =>
        match fs.unlink path io.unlinkOk with
        | some fs => (true, fs)
        | none => (false, fs)
    else (false, fs)

/-! ## Restoring -/

/-- The tree, the database and the counters of `struct restore_ctx` and
`struct delete_created_ctx`. -/
structure RecoverState where
  fs : Fs
  db : Db
  total : Nat
  success : Nat
  fail : Nat
  deleted : Nat
  deleteFailed : Nat

/-- The node is a regular file. -/
def Node.isRegular : Node → Bool
  | .regular _ => true
  | _ => false

/-- Quarantine what stands at a path before it is overwritten. A quarantine path that does
not fit is no reason not to restore. -/
def quarantineCurrent (io : RecoverIo) (eventId path : CStr) (fs : Fs) : Fs :=
  match fs.stat path with
  | none => fs
  | some cur =>
    if pathMax ≤ (quarantineFor eventId path).length then fs
    else (moveToQuarantine io path (quarantineFor eventId path) cur.isRegular fs).2

/-- A preimage that could not be copied back. -/
def restoreFailed (io : RecoverIo) (pf : ProtectedFile) (s : RecoverState) : RecoverState :=
  { s with
    db := s.db.updateRestoreStatus pf.id (lit "failed") io.now
    fail := s.fail + 1 }

/-- `restore_one`. -/
def restoreOne (io : RecoverIo) (s : RecoverState) (pf : ProtectedFile) : RecoverState :=
  let s := { s with total := s.total + 1 }
  if pf.restoreStatus ≠ lit "pending" then s
  else if !validRestorePath pf.originalPath || s.fs.stat pf.backupPath = none then
    restoreFailed io pf s
  else
    let fs := quarantineCurrent io pf.eventId pf.originalPath s.fs
    let fs := (fs.mkdirP (Fs.parentPath pf.originalPath) io.mkdirOk).2
    match copyFile io pf.backupPath pf.originalPath fs with
    | (false, fs) => restoreFailed io pf { s with fs := fs }
    | (true, fs) =>
      { s with
        fs := (fs.unlink pf.backupPath io.unlinkOk).getD fs
        db := s.db.updateRestoreStatus pf.id (lit "restored") io.now
        success := s.success + 1 }

/-- `delete_created_one`. The quarantine path is cut to its buffer. -/
def deleteCreatedOne (io : RecoverIo) (eventId : CStr) (s : RecoverState) (cf : CreatedFile) :
    RecoverState :=
  if !validRestorePath cf.filePath then { s with deleteFailed := s.deleteFailed + 1 }
  else
    match s.fs.stat cf.filePath with
    | none => { s with deleted := s.deleted + 1 }
    | some (.regular _) =>
      match moveToQuarantine io cf.filePath (snprintf pathMax (quarantineFor eventId cf.filePath))
          true s.fs with
      | (true, fs) => { s with fs := fs, deleted := s.deleted + 1 }
      | (false, fs) => { s with fs := fs, deleteFailed := s.deleteFailed + 1 }
    | some .directory =>
      match s.fs.rmdirPath cf.filePath io.rmdir with
      | some fs => { s with fs := fs, deleted := s.deleted + 1 }
      | none => { s with deleteFailed := s.deleteFailed + 1 }
    | some .other => { s with deleteFailed := s.deleteFailed + 1 }

/-- The two phases of `cmd_restore`. -/
def restoreEvent (io : RecoverIo) (eventId : CStr) (fs : Fs) (db : Db) : RecoverState :=
  let s := (db.queryCreatedByEvent eventId).foldl (deleteCreatedOne io eventId)
    ⟨fs, db, 0, 0, 0, 0, 0⟩
  (s.db.queryByEvent eventId).foldl (restoreOne io) s

/-- The event named on the command line, the last `--event <id>`. -/
def eventArg : List CStr → Option CStr
  | [] => none
  | [_] => none
  | arg :: id :: rest =>
    if arg = lit "--event" then (eventArg rest).or (some id) else eventArg (id :: rest)

/-- `cmd_restore`: the exit status, the tree and the database. -/
def cmdRestore (io : RecoverIo) (argv : List CStr) (fs : Fs) (db : Db) : Nat × Fs × Db :=
  match eventArg argv with
  | none => (1, fs, db)
  | some eventId =>
    let s := restoreEvent io eventId fs db
    if s.total = 0 ∧ s.deleted = 0 then (1, s.fs, s.db)
    else
      (if 0 < s.fail then 2 else 0, s.fs,
        s.db.updateEvent eventId s.success 0 0 (some (lit "restored")) (some (lit "resolved"))
          (some io.now))

end GfrGuard
