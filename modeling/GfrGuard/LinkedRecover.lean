import GfrGuard.Recover
import GfrGuard.Lib.LinkTree

/-!
# The recovery tool on a tree with links

`restore_one` and `delete_created_one` where any component of a path may be a symbolic link. The
last one is never followed by what they change (`lstat`, `O_NOFOLLOW`, `rename`, `unlink`); the
kernel follows all others. `Traced` is the tree with every place where a call has created,
overwritten, moved or removed something. Owners, modes and the text printed are left out.
-/

namespace GfrGuard

/-- A file tree with links. -/
abbrev Links := LinkTree CStr Content

namespace Linked

open LinkTree

/-! ## Paths -/

/-- What a component of a path asks for. -/
def pathStep (c : CStr) : PathStep CStr :=
  if c = lit "." then .here else if c = lit ".." then .up else .name c

/-- The steps of a path up to a trailing slash. -/
def pathSteps (path : CStr) : List (PathStep CStr) := (pathComponents path).map pathStep

/-- The steps of a path; a trailing slash asks for a directory. -/
def walkSteps (path : CStr) : List (PathStep CStr) :=
  pathSteps path ++ if path.getLast? = some slash then [.here] else []

/-- The path ends in `.` or `..`. -/
def endsInDots (path : CStr) : Bool :=
  (pathComponents path).getLast? = some (lit ".") || (pathComponents path).getLast? = some (lit "..")

/-- The outcomes of system calls as far as the tree does not decide them, and the working
directory of the tool. -/
structure LinkedIo where
  cwd : Loc
  mkdirOk : Loc → Bool
  /-- The two places are on one file system and the rename succeeds. -/
  renameOk : Loc → Loc → Bool
  createOk : Loc → Bool
  /-- The whole content is copied. -/
  copyOk : Bool
  /-- How many bytes a failed copy wrote. -/
  copied : Nat
  unlinkOk : Loc → Bool
  rmdirOk : Links → Loc → Bool
  /-- Only an empty directory is taken away. -/
  rmdirEmpty : ∀ t loc, rmdirOk t loc = true → ∀ name rest, t.node (loc ++ name :: rest) = none
  /-- `iso8601_now`. -/
  now : CStr

variable (io : LinkedIo)

/-- Follow the steps of a path; the kernel follows up to 40 links. -/
def follow (t : Links) (path : CStr) (last : Bool) (steps : List (PathStep CStr)) : Option Loc :=
  if path = [] ∨ pathMax ≤ path.length then none
  else t.walk last 40 (if path.head? = some slash then [] else io.cwd) steps

/-- What a lookup of a path comes to; a link at its end is followed where `last` says so. -/
def find (t : Links) (path : CStr) (last : Bool) : Option Loc := follow io t path last (walkSteps path)

/-- The entry a path names, a trailing slash aside. -/
def entry (t : Links) (path : CStr) : Option Loc := follow io t path false (pathSteps path)

/-- `lstat`. -/
def lstat (t : Links) (path : CStr) : Option (LinkNode CStr Content) :=
  (find io t path false).bind t.lookup

/-- `stat`. -/
def stat (t : Links) (path : CStr) : Option (LinkNode CStr Content) :=
  (find io t path true).bind t.lookup

/-! ## System calls -/

/-- A tree, and the places where something was created, overwritten, moved or removed, each with
the tree the call found. -/
structure Traced where
  tree : Links
  log : List (Links × Loc)

/-- A call changes the tree at these places. -/
def Traced.change (s : Traced) (locs : List Loc) (tree : Links) : Traced where
  tree := tree
  log := s.log ++ locs.map fun loc => (s.tree, loc)

/-- Put a node at a place. -/
def put (t : Links) (loc : Loc) (n : LinkNode CStr Content) : Links :=
  ⟨Function.update t.node loc (some n)⟩

/-- Take away what stands at a place. -/
def remove (t : Links) (loc : Loc) : Links := ⟨Function.update t.node loc none⟩

/-- Move what stands at a place with all below it. -/
def moveTree (t : Links) (src dst : Loc) : Links :=
  ⟨fun loc =>
    if dst <+: loc then t.node (src ++ loc.drop dst.length)
    else if src <+: loc then none
    else t.node loc⟩

/-- `mkdir`: nothing to do when the name exists (`EEXIST`). -/
def mkdir (s : Traced) (steps : List (PathStep CStr)) : Bool × Traced :=
  match s.tree.walk false 40 [] steps with
  | none => (false, s)
  | some loc =>
    if (s.tree.lookup loc).isSome then (true, s)
    else if io.mkdirOk loc then (true, s.change [loc] (put s.tree loc .dir))
    else (false, s)

/-- The loop of `mkdir_p`: it stops at the first failure. -/
def mkdirAll : Traced → List (List (PathStep CStr)) → Bool × Traced
  | s, [] => (true, s)
  | s, steps :: rest =>
    match mkdir io s steps with
    | (false, s) => (false, s)
    | (true, s) => mkdirAll s rest

/-- `mkdir_p` of an absolute path. -/
def mkdirP (s : Traced) (path : CStr) : Bool × Traced :=
  mkdirAll io s (pathSteps (snprintf pathMax path)).inits.tail

/-- `rename`. -/
def rename (s : Traced) (old new : CStr) : Bool × Traced :=
  match entry io s.tree old with
  | none => (false, s)
  | some src =>
    match s.tree.lookup src with
    | none => (false, s)
    | some n =>
      if endsInDots old || endsInDots new || (old.getLast? = some slash && n ≠ .dir) then (false, s)
      else
        -- a directory may get a name with a slash after it
        match if n = .dir then entry io s.tree new else find io s.tree new false with
        | none => (false, s)
        | some dst =>
          if src = dst then (true, s)
          else if src <+: dst ∨ dst <+: src ∨ io.renameOk src dst = false then (false, s)
          else
            match n, s.tree.lookup dst with
            | .dir, some .dir =>
              if io.rmdirOk s.tree dst then (true, s.change [src, dst] (moveTree s.tree src dst))
              else (false, s)
            | .dir, some _ | _, some .dir => (false, s)
            | _, _ => (true, s.change [src, dst] (moveTree s.tree src dst))

/-- `unlink`. -/
def unlink (s : Traced) (path : CStr) : Bool × Traced :=
  match entry io s.tree path with
  | none => (false, s)
  | some loc =>
    match s.tree.lookup loc with
    | none | some .dir => (false, s)
    | some _ =>
      if path.getLast? ≠ some slash && io.unlinkOk loc then (true, s.change [loc] (remove s.tree loc))
      else (false, s)

/-- `rmdir`. -/
def rmdir (s : Traced) (path : CStr) : Bool × Traced :=
  match entry io s.tree path with
  | none => (false, s)
  | some loc =>
    if s.tree.lookup loc = some .dir && loc ≠ [] && !endsInDots path && io.rmdirOk s.tree loc then
      (true, s.change [loc] (remove s.tree loc))
    else (false, s)

/-- `copy_file`. The source is read after the target is cut to nothing; a directory can be opened
but not read, and neither end may be a link. -/
def copyFile (src dst : CStr) (s : Traced) : Bool × Traced :=
  match lstat io s.tree src with
  | none | some .other | some (.link ..) => (false, s)
  | some _ =>
    if endsInDots dst then (false, s)
    else
      match find io s.tree dst false with
      | none => (false, s)
      | some loc =>
        match s.tree.lookup loc with
        | some .dir | some .other | some (.link ..) => (false, s)
        | target =>
          if target = none && !io.createOk loc then (false, s)
          else
            let s := s.change [loc] (put s.tree loc (.file []))
            match lstat io s.tree src with
            | some (.file content) =>
              if io.copyOk then (true, { s with tree := put s.tree loc (.file content) })
              else (false, { s with tree := put s.tree loc (.file (content.take io.copied)) })
            | _ => (false, s)

/-! ## The quarantine -/

/-- The loop of `quarantine_unique`. -/
def uniqueSlot (t : Links) (base : CStr) : CStr → List Nat → CStr
  | path, [] => path
  | _, i :: is =>
    let slot := base ++ dot :: dec i
    -- no room: what fits stays in the buffer
    if pathMax ≤ slot.length then snprintf pathMax slot
    else if lstat io t slot = none then slot
    else uniqueSlot t base slot is

/-- `quarantine_unique`. -/
def quarantineUnique (t : Links) (path : CStr) : CStr :=
  if lstat io t path = none then path else uniqueSlot io t path path (List.range' 1 99)

/-- Move a file to the quarantine; a rename that fails is made up for a regular file by a copy
and an unlink. -/
def moveToQuarantine (path qpath : CStr) (isRegular : Bool) (s : Traced) : Bool × Traced :=
  let s := (mkdirP io s (Fs.parentPath qpath)).2
  let qpath := quarantineUnique io s.tree qpath
  match rename io s path qpath with
  | (true, s) => (true, s)
  | (false, s) =>
    if isRegular then
      match copyFile io path qpath s with
      | (false, s) => (false, s)
      | (true, s) => unlink io s path
    else (false, s)

/-! ## Restoring -/

/-- The tree, the database and the counters of the two contexts. -/
structure LinkedState where
  fs : Traced
  db : Db
  total : Nat
  success : Nat
  fail : Nat
  deleted : Nat
  deleteFailed : Nat

/-- The node is a regular file. -/
def isRegular : LinkNode CStr Content → Bool
  | .file _ => true
  | _ => false

/-- Quarantine what stands at a path before it is overwritten. -/
def quarantineCurrent (eventId path : CStr) (s : Traced) : Traced :=
  match lstat io s.tree path with
  | none => s
  | some cur =>
    if pathMax ≤ (quarantineFor eventId path).length then s
    else (moveToQuarantine io path (quarantineFor eventId path) (isRegular cur) s).2

/-- A preimage that could not be copied back. -/
def restoreFailed (pf : ProtectedFile) (s : LinkedState) : LinkedState :=
  { s with
    db := s.db.updateRestoreStatus pf.id (lit "failed") io.now
    fail := s.fail + 1 }

/-- `restore_one`. -/
def restoreOne (s : LinkedState) (pf : ProtectedFile) : LinkedState :=
  let s := { s with total := s.total + 1 }
  if pf.restoreStatus ≠ lit "pending" then s
  else if !validRestorePath pf.originalPath || (stat io s.fs.tree pf.backupPath).isNone then
    restoreFailed io pf s
  else
    let fs := quarantineCurrent io pf.eventId pf.originalPath s.fs
    let fs := (mkdirP io fs (Fs.parentPath (snprintf pathMax pf.originalPath))).2
    match copyFile io pf.backupPath pf.originalPath fs with
    | (false, fs) => restoreFailed io pf { s with fs := fs }
    | (true, fs) =>
      { s with
        fs := (unlink io fs pf.backupPath).2
        db := s.db.updateRestoreStatus pf.id (lit "restored") io.now
        success := s.success + 1 }

/-- `delete_created_one`. The quarantine path is cut to its buffer. -/
def deleteCreatedOne (eventId : CStr) (s : LinkedState) (cf : CreatedFile) : LinkedState :=
  if !validRestorePath cf.filePath then { s with deleteFailed := s.deleteFailed + 1 }
  else
    let done (r : Bool × Traced) : LinkedState :=
      if r.1 then { s with fs := r.2, deleted := s.deleted + 1 }
      else { s with fs := r.2, deleteFailed := s.deleteFailed + 1 }
    match lstat io s.fs.tree cf.filePath with
    | none => { s with deleted := s.deleted + 1 }
    | some (.file _) =>
      done (moveToQuarantine io cf.filePath (snprintf pathMax (quarantineFor eventId cf.filePath)) true s.fs)
    | some (.link ..) => done (unlink io s.fs cf.filePath)
    | some .dir => done (rmdir io s.fs cf.filePath)
    | some .other => { s with deleteFailed := s.deleteFailed + 1 }

end Linked

end GfrGuard
