import GfrGuard.Lib.Runs
import GfrGuard.PathAgreement
import GfrGuard.RecoverSpec

/-!
# A session at work on a share

The calls of one SMB session on the files of a share: opens for writing, writes and
truncations through the open handles, closes and unlinks, in any order (`smbStep`). Under
the module a file system does what it is asked for (`Next`); a file that was unlinked while
it is open is no longer part of the tree. Each callback's outcome for a session that is let
through, and whose backups succeed, is an equation of its own.
-/

namespace GfrGuard

/-! ## The file system under the module -/

namespace Next

variable {store : CStr} {loc : Loc}

/-- `openat` of a file for writing; `ok` is false when it fails for a reason outside the
tree. -/
def openFile (loc : Loc) (hloc : ¬ pathComponents store <+: loc) (creat trunc ok : Bool) :
    Next store where
  run fs :=
    match ok, fs.node loc with
    | true, some (.regular _) => (0, if trunc then fs.put loc (.regular []) else fs)
    | true, none =>
      if creat && fs.lookup loc.dropLast = some .directory then (0, fs.put loc (.regular []))
      else (-1, fs)
    | _, _ => (-1, fs)
  keepsStore fs l hl := by
    have hne : l ≠ loc := by rintro rfl; exact hloc hl
    split
    · dsimp only
      split
      · exact Fs.node_put_of_ne hne _
      · rfl
    · split
      · exact Fs.node_put_of_ne hne _
      · rfl
    · rfl

/-- A write to a file, or its truncation: `f` is what becomes of the content. -/
def edit (loc : Loc) (hloc : ¬ pathComponents store <+: loc) (f : Content → Content) :
    Next store where
  run fs :=
    match fs.node loc with
    | some (.regular c) => (0, fs.put loc (.regular (f c)))
    | _ => (0, fs)
  keepsStore fs l hl := by
    split
    · exact Fs.node_put_of_ne (by rintro rfl; exact hloc hl) _
    · rfl

/-- An operation outside the tree. -/
def idle : Next store := ⟨fun fs => (0, fs), fun _ _ _ => rfl⟩

/-- `unlinkat` of anything but a directory. -/
def unlink (loc : Loc) (hloc : ¬ pathComponents store <+: loc) (ok : Bool) : Next store where
  run fs :=
    match ok, fs.node loc with
    | false, _ | true, none | true, some .directory => (-1, fs)
    | true, some _ => (0, fs.remove loc)
  keepsStore fs l hl := by
    split
    · rfl
    · rfl
    · rfl
    · exact Fs.node_remove_of_ne (by rintro rfl; exact hloc hl)

end Next

/-! ## The share and its open files -/

/-- A connection whose share and store lie apart. -/
structure Share where
  conn : Conn
  apart : Apart (pathComponents conn.connectpath) (pathComponents conn.storePath.str)

namespace Share

variable (sh : Share)

/-- The root of the share. -/
def root : Loc := pathComponents sh.conn.connectpath

/-- Where the preimages of the share are. -/
def backups : Loc :=
  pathComponents sh.conn.storePath.str ++ lit "backups" :: pathComponents sh.conn.shareName

/-- The place of a name of the share. -/
def loc (rel : CStr) : Loc := sh.root ++ pathComponents rel

theorem loc_off_store (rel : CStr) : ¬ pathComponents sh.conn.storePath.str <+: sh.loc rel :=
  sh.apart.not_isPrefix (List.prefix_append _ _)

theorem apart_backups : Apart sh.root sh.backups := sh.apart.extend (List.prefix_append _ _)

/-- The preimage of a name. -/
theorem backupLoc_eq (rel : CStr) :
    backupLoc sh.conn.storePath.str sh.conn.shareName rel = sh.backups ++ pathComponents rel := by
  rw [backupLoc, pathComponents_backupsPath, backups, List.append_assoc, List.cons_append]

theorem comps_absPath (rel : CStr) : pathComponents (sh.conn.absPath rel) = sh.loc rel :=
  pathComponents_append_slash _ _

end Share

/-- An open file: its name in the share, and whether the name still leads to it. -/
structure OpenFile where
  rel : CStr
  linked : Bool
  handle : Handle

/-- The tree, the messages sent, and the open files. -/
structure ShareState where
  vfs : VfsState
  files : List OpenFile

/-- A call of the session. A handle is named by its position among the open files. -/
inductive SmbOp where
  | openAt (env : VfsEnv) (smbName : Option CStr) (rel : CStr) (creat trunc ok : Bool)
  | pwrite (env : VfsEnv) (n : Nat) (f : Content → Content)
  | ftruncate (env : VfsEnv) (n : Nat) (f : Content → Content)
  | close (env : VfsEnv) (n : Nat)
  | unlinkAt (env : VfsEnv) (rel : CStr) (ok : Bool)

/-- The operation on the file behind a handle. -/
def Share.editFile (sh : Share) (file : OpenFile) (f : Content → Content) :
    Next sh.conn.storePath.str :=
  if file.linked then .edit (sh.loc file.rel) (sh.loc_off_store file.rel) f else .idle

/-- The open files after a name was unlinked. -/
def Share.unlinked (sh : Share) (rel : CStr) (files : List OpenFile) : List OpenFile :=
  files.map fun file => if sh.loc file.rel = sh.loc rel then { file with linked := false } else file

/-- One call of the session. -/
def smbStep (sh : Share) (s : ShareState) : SmbOp → ShareState
  | .openAt env smbName rel creat trunc ok =>
    match gfOpenat sh.conn env (.openFile (sh.loc rel) (sh.loc_off_store rel) creat trunc ok)
        smbName (some rel) (some rel) ⟨false, true, creat, trunc, false⟩ s.vfs with
    | (.next _ r, h, vfs) => ⟨vfs, if 0 ≤ r then s.files ++ [⟨rel, true, h⟩] else s.files⟩
    | (.deny _, _, vfs) => ⟨vfs, s.files⟩
  | .pwrite env n f =>
    match s.files[n]? with
    | none => s
    | some file =>
      let (_, h, vfs) := gfPwrite sh.conn env (sh.editFile file f) file.handle s.vfs
      ⟨vfs, s.files.set n { file with handle := h }⟩
  | .ftruncate env n f =>
    match s.files[n]? with
    | none => s
    | some file =>
      let (_, h, vfs) := gfFtruncate sh.conn env (sh.editFile file f) file.handle s.vfs
      ⟨vfs, s.files.set n { file with handle := h }⟩
  | .close env n =>
    match s.files[n]? with
    | none => s
    | some file => ⟨(gfClose sh.conn env .idle file.handle s.vfs).2, s.files.eraseIdx n⟩
  | .unlinkAt env rel ok =>
    match gfUnlinkat sh.conn env (.unlink (sh.loc rel) (sh.loc_off_store rel) ok) (some rel)
        s.vfs with
    | (.next _ r, vfs) => ⟨vfs, if r = 0 then sh.unlinked rel s.files else s.files⟩
    | (.deny _, vfs) => ⟨vfs, s.files⟩

/-! ## Outcomes of the callbacks -/

section
variable {conn : Conn} {env : VfsEnv} {nxt : Next conn.storePath.str} {rel : CStr}
  {s : VfsState} {fs1 : Fs} {content : Content} {smbName : Option CStr} {creat trunc : Bool}

/-- Sending an event of an open socket. -/
theorem Conn.sendEvent_of_open (hopen : conn.sockOpen = true) (op : UInt8) (flags : UInt16)
    (rel : CStr) (newName : Option CStr) (st : Option StatBuf) (s : VfsState) :
    conn.sendEvent op flags rel newName st s =
      ⟨s.fs, s.sent ++ [conn.eventMsg op flags rel newName st]⟩ := by
  rw [Conn.sendEvent, Conn.send, if_pos hopen]

/-- An open for writing that gets past its first gate. -/
theorem gfOpenat_named (hprotect : conn.protect = true) (hproc : isProcPath rel = false) :
    gfOpenat conn env nxt smbName (some rel) (some rel) ⟨false, true, creat, trunc, false⟩ s =
      openNamed conn env nxt ⟨false, true, creat, trunc, false⟩ rel (some rel) s := by
  unfold gfOpenat
  simp [hprotect, hproc]

/-- An open for writing of a file that is there. -/
theorem openNamed_existing (hopen : conn.sockOpen = true) (hfree : conn.listed env = false)
    (hfile : s.fs.stat (conn.fullPath rel) = some (.regular content))
    (hbackup : doBackup env.backup conn.storePath.str (conn.fullPath rel) conn.shareName rel
      s.fs = (true, fs1)) :
    openNamed conn env nxt ⟨false, true, creat, trunc, false⟩ rel (some rel) s =
      (.next fs1 (nxt.run fs1).1,
        ⟨some rel, if 0 ≤ (nxt.run fs1).1 ∧ env.extOk then some (backedUpState conn rel true)
          else none⟩,
        ⟨(nxt.run fs1).2, s.sent ++ [conn.eventMsg opWrite (backupFlags true) rel none
          (some (env.statBuf (conn.fullPath rel)))]⟩) := by
  unfold openNamed
  rw [Conn.isBlocked_of_not_listed hfree]
  simp only [hfile, OpenFlags.overwrites, Bool.not_false, Bool.and_self, Bool.true_or, if_true]
  unfold openRisky
  simp only [hbackup, Bool.not_true, Bool.false_and, Bool.false_eq_true, if_false, Next.step,
    Conn.sendEvent_of_open hopen]

/-- An open for writing of a name that is no file. -/
theorem openNamed_missing (hopen : conn.sockOpen = true) (hfree : conn.listed env = false)
    (hfile : ∀ c, s.fs.stat (conn.fullPath rel) ≠ some (.regular c)) :
    openNamed conn env nxt ⟨false, true, creat, trunc, false⟩ rel (some rel) s =
      (.next s.fs (nxt.run s.fs).1,
        ⟨some rel, if creat ∧ 0 ≤ (nxt.run s.fs).1 ∧ env.extOk then
          some (newState conn rel true false) else none⟩,
        ⟨(nxt.run s.fs).2, s.sent ++ if creat ∧ 0 ≤ (nxt.run s.fs).1 then
          [conn.eventMsg opOpen flagNewFile rel none none] else []⟩) := by
  unfold openNamed
  rw [Conn.isBlocked_of_not_listed hfree]
  dsimp only
  split
  · next c hc => exact absurd hc (hfile c)
  · unfold openOther Next.step
    dsimp only
    generalize nxt.run s.fs = result
    obtain ⟨r, fs'⟩ := result
    by_cases hnew : creat = true ∧ 0 ≤ r
    · simp [hnew.1, hnew.2, Conn.sendEvent_of_open hopen]
    · have hgate : (!false && creat && decide (0 ≤ r)) = false := by simpa using hnew
      rw [if_neg (by rw [hgate]; simp), if_neg fun h => hnew ⟨h.1, h.2.1⟩, if_neg hnew,
        List.append_nil]

/-- A write through a handle that is not tracked, or whose backup is done. -/
theorem gfPwrite_passes {h : Handle} (hfree : conn.listed env = false)
    (hext : ∀ fst, h.ext = some fst → fst.isRisky = true ∧ fst.backupDone = true) :
    gfPwrite conn env nxt h s = passThrough conn nxt h s := by
  unfold gfPwrite
  split
  · rfl
  · split
    · rfl
    · next fst hfst =>
      obtain ⟨hrisky, hdone⟩ := hext fst hfst
      rw [hrisky, if_neg (by simp), Conn.isBlocked_of_not_listed hfree]
      dsimp only
      rw [if_pos hdone]

/-- A truncation through a tracked handle whose backup is done. -/
theorem gfFtruncate_tracked {h : Handle} {fst : FileState} (hfree : conn.listed env = false)
    (hext : h.ext = some fst) (hrisky : fst.isRisky = true) (hdone : fst.backupDone = true) :
    gfFtruncate conn env nxt h s = passThrough conn nxt h s := by
  unfold gfFtruncate
  split
  · rfl
  · rw [hext]
    dsimp only
    rw [hrisky, if_neg (by simp), Conn.isBlocked_of_not_listed hfree]
    dsimp only
    rw [if_pos hdone]

/-- A truncation through a handle that is not tracked, of a name that leads to a file. -/
theorem gfFtruncate_existing {h : Handle} (hprotect : conn.protect = true)
    (hopen : conn.sockOpen = true) (hfree : conn.listed env = false) (hext : h.ext = none)
    (hname : h.name = some rel) (hproc : isProcPath rel = false)
    (hfile : s.fs.stat (conn.fullPath rel) = some (.regular content))
    (hbackup : doBackup env.backup conn.storePath.str (conn.fullPath rel) conn.shareName rel
      s.fs = (true, fs1)) :
    gfFtruncate conn env nxt h s =
      (.next fs1 (nxt.run fs1).1,
        if env.extOk then { h with ext := some (backedUpState conn rel true) } else h,
        ⟨(nxt.run fs1).2, s.sent ++
          [conn.eventMsg opTruncate (backupFlags true) rel none none]⟩) := by
  unfold gfFtruncate
  rw [hprotect, if_neg (by simp), hext]
  dsimp only
  unfold truncateUntracked
  rw [hname]
  simp only [hproc, Bool.false_eq_true, if_false, Conn.isBlocked_of_not_listed hfree, hfile,
    hbackup, Bool.not_true, Bool.false_and, Next.step, Conn.sendEvent_of_open hopen]

/-- A truncation through a handle that is not tracked, of a name that leads to no file. -/
theorem gfFtruncate_missing {h : Handle} (hfree : conn.listed env = false) (hext : h.ext = none)
    (hname : h.name = some rel) (hproc : isProcPath rel = false)
    (hfile : ∀ c, s.fs.stat (conn.fullPath rel) ≠ some (.regular c)) :
    gfFtruncate conn env nxt h s = passThrough conn nxt h s := by
  unfold gfFtruncate
  split
  · rfl
  · rw [hext]
    dsimp only
    unfold truncateUntracked
    rw [hname]
    simp only [hproc, Bool.false_eq_true, if_false, Conn.isBlocked_of_not_listed hfree]

/-- An unlink of a file. -/
theorem gfUnlinkat_existing (hprotect : conn.protect = true) (hopen : conn.sockOpen = true)
    (hfree : conn.listed env = false)
    (hfile : s.fs.stat (conn.fullPath rel) = some (.regular content))
    (hbackup : doBackup env.backup conn.storePath.str (conn.fullPath rel) conn.shareName rel
      s.fs = (true, fs1)) :
    gfUnlinkat conn env nxt (some rel) s =
      (.next fs1 (nxt.run fs1).1,
        ⟨(nxt.run fs1).2, s.sent ++ [conn.eventMsg opDelete (backupFlags true) rel none
          (some (env.statBuf (conn.fullPath rel)))]⟩) := by
  unfold gfUnlinkat
  simp only [hprotect, Bool.not_true, Bool.false_eq_true, if_false,
    Conn.isBlocked_of_not_listed hfree, fnameStr, Option.getD_some, hfile, hbackup,
    Bool.false_and, Next.step, Conn.sendEvent_of_open hopen]

/-- An unlink of a name that is no file. -/
theorem gfUnlinkat_missing (hprotect : conn.protect = true) (hopen : conn.sockOpen = true)
    (hfree : conn.listed env = false)
    (hfile : ∀ c, s.fs.stat (conn.fullPath rel) ≠ some (.regular c)) :
    gfUnlinkat conn env nxt (some rel) s =
      (.next s.fs (nxt.run s.fs).1,
        ⟨(nxt.run s.fs).2, s.sent ++ [conn.eventMsg opDelete 0 rel none none]⟩) := by
  unfold gfUnlinkat
  simp only [hprotect, Bool.not_true, Bool.false_eq_true, if_false,
    Conn.isBlocked_of_not_listed hfree, fnameStr, Option.getD_some, Next.step,
    Conn.sendEvent_of_open hopen]

end

end GfrGuard
