import GfrGuard.Lib.FirstCopy
import GfrGuard.EventRows
import GfrGuard.RestorePhases
import GfrGuard.ShareOps

/-!
# What a session leaves for a restore

A session at work on a share is an instance of changing a table with first copies
(`FirstCopy`): the live table is the files of the share, the copies are the preimages in the
store, the notes are the messages about new files. `Tracks` relates the two, and every call
is matched by operations on the table (`Tracks.step`).
-/

namespace GfrGuard

/-! ## Names and places -/

/-- A name of the share that the module, the daemon and the recovery tool all follow to the
same place. -/
structure Followed (conn : Conn) (eventId rel : CStr) : Prop where
  meets : PathsMeet conn rel
  named : pathComponents rel ≠ []
  last : rel.getLast? ≠ some slash
  proc : isProcPath rel = false
  valid : validRestorePath (conn.absPath rel) = true
  qfits : (quarantineFor eventId (conn.absPath rel)).length < pathMax

/-- A place of the share where a file is, or can be made. -/
structure Place (root : Loc) (fs0 : Fs) (l : Loc) : Prop where
  ne : l ≠ []
  dirs : ∀ x, x <+: l → x ≠ l → fs0.node (root ++ x) = some .directory
  file : fs0.node (root ++ l) = none ∨ ∃ c, fs0.node (root ++ l) = some (.regular c)

/-- The tree before the first call: the share holds files in directories, the store holds no
preimage of it, nothing is quarantined for the event. -/
structure ShareStart (sh : Share) (eventId : CStr) (fs0 : Fs) : Prop where
  rootDir : fs0.node sh.root = some .directory
  parents : ∀ l n, fs0.node (sh.root ++ l) = some n → ∀ x, x <+: l → x ≠ l →
    fs0.node (sh.root ++ x) = some .directory
  other : ∀ l, fs0.node (sh.root ++ l) ≠ some .other
  store : ∀ l n, fs0.node (sh.backups ++ l) = some n →
    n = .directory ∧ fs0.node (sh.root ++ l) = some .directory
  quarantine : QuarantineFresh (quarantineLoc eventId) fs0
  layout : Layout sh.root sh.backups eventId

/-- Put a file at a place, or take it away. -/
def Fs.setFile (fs : Fs) (loc : Loc) (v : Option Content) : Fs :=
  ⟨Function.update fs.node loc (v.map .regular)⟩

@[simp] theorem Fs.node_setFile_self (fs : Fs) (loc : Loc) (v : Option Content) :
    (fs.setFile loc v).node loc = v.map .regular := Function.update_self ..

theorem Fs.node_setFile_of_ne {fs : Fs} {loc loc' : Loc} (h : loc' ≠ loc) (v : Option Content) :
    (fs.setFile loc v).node loc' = fs.node loc' := Function.update_of_ne h ..

/-- The file at a place of the share. -/
def fileAt (root : Loc) (fs : Fs) (l : Loc) : Option Content :=
  match fs.node (root ++ l) with
  | some (.regular c) => some c
  | _ => none

section
variable {conn : Conn} {sh : Share} {eventId rel : CStr} {fs fs0 fs1 : Fs} {l : Loc} {root : Loc}
  {a : FirstCopy.State Loc Content}

theorem fileAt_eq_some_iff {c : Content} :
    fileAt root fs l = some c ↔ fs.node (root ++ l) = some (.regular c) := by
  unfold fileAt
  split
  · next h => rw [h]; simp
  · next h => exact iff_of_false (by simp) (h c)

theorem Share.root_ne_nil (sh : Share) : sh.root ≠ [] := by
  intro h
  exact sh.apart_backups.1 (h ▸ List.nil_prefix)

theorem Followed.rel_ne_nil (h : Followed conn eventId rel) : rel ≠ [] := by
  rintro rfl
  exact h.named pathComponents_nil

theorem Followed.absPath_last (h : Followed conn eventId rel) :
    (conn.absPath rel).getLast? ≠ some slash := by
  have hlast := h.last
  rw [Conn.absPath, List.getLast?_append, List.getLast?_cons,
    List.getLast?_eq_getLast_of_ne_nil h.rel_ne_nil]
  rwa [List.getLast?_eq_getLast_of_ne_nil h.rel_ne_nil] at hlast

/-- The module looks at the place of the name. -/
theorem Followed.stat (h : Followed sh.conn eventId rel) (fs : Fs) :
    fs.stat (sh.conn.fullPath rel) = fs.node (sh.loc rel) := by
  rw [Conn.fullPath_of_fits h.meets.pathFits]
  exact Fs.stat_of_place (sh.comps_absPath rel)
    (fun h0 => h.named (List.append_eq_nil_iff.1 h0).2) h.meets.pathFits h.absPath_last

theorem Followed.sharePath (h : Followed sh.conn eventId rel) :
    SharePath sh.root eventId (sh.conn.absPath rel) (pathComponents rel) where
  comps := sh.comps_absPath rel
  ne := h.named
  valid := h.valid
  last := h.absPath_last
  qfits := h.qfits

/-- The daemon records the preimage where the module put it. -/
theorem recordBackupPath_eventMsg (hmeets : PathsMeet conn rel) (op : UInt8) (flags : UInt16)
    (newName : Option CStr) (st : Option StatBuf) {store : CStr}
    (hfits : (backupsPath store conn.shareName rel).length < pathMax) :
    recordBackupPath store (conn.eventMsg op flags rel newName st) =
      some (backupsPath store conn.shareName rel) := by
  have hpath : backupsPath store conn.wireShare
      (backupRel conn.wireShare (snprintf pathMax (conn.absPath rel))) =
      backupsPath store conn.shareName rel := by
    rw [snprintf_of_lt hmeets.pathFits]
    exact (backupsPath_eq_iff store).2 ⟨hmeets.shareFits, hmeets.root⟩
  unfold recordBackupPath
  dsimp only
  rw [show (conn.eventMsg op flags rel newName st).shareName.str = conn.wireShare from rfl,
    Conn.eventMsg_filePath, Conn.fullPath, hpath, if_pos hfits]

/-! ## The tree and the table -/

/-- The files of the share are the live table, the preimages the saved one; directories are
as they were. -/
structure Mirrors (sh : Share) (eventId : CStr) (fs0 fs : Fs) (a : FirstCopy.State Loc Content) :
    Prop where
  live : ∀ l c, a.live l = some c ↔ fs.node (sh.root ++ l) = some (.regular c)
  dir : ∀ l, fs.node (sh.root ++ l) = some .directory ↔ fs0.node (sh.root ++ l) = some .directory
  other : ∀ l, fs.node (sh.root ++ l) ≠ some .other
  saved : ∀ l c, a.saved l = some c ↔ fs.node (sh.backups ++ l) = some (.regular c)
  store : ∀ l n, fs.node (sh.backups ++ l) = some n → (∃ c, n = .regular c) ∨
    n = .directory ∧ fs0.node (sh.root ++ l) = some .directory
  quarantine : QuarantineFresh (quarantineLoc eventId) fs
  livePlace : ∀ l, (a.live l).isSome → Place sh.root fs0 l
  coveredPlace : ∀ l, a.covered l = true → Place sh.root fs0 l

/-- A file of the share is at a place for files. -/
theorem ShareStart.place (h : ShareStart sh eventId fs0) {c : Content}
    (hfile : fs0.node (sh.root ++ l) = some (.regular c)) : Place sh.root fs0 l := by
  refine ⟨?_, h.parents l _ hfile, .inr ⟨c, hfile⟩⟩
  rintro rfl
  rw [List.append_nil, h.rootDir] at hfile
  cases hfile

/-- Before the first call the table is the tree. -/
theorem ShareStart.mirrors (h : ShareStart sh eventId fs0) :
    Mirrors sh eventId fs0 fs0 (FirstCopy.State.start (fileAt sh.root fs0)) where
  live l c := fileAt_eq_some_iff
  dir _ := Iff.rfl
  other := h.other
  saved l c := iff_of_false (by simp [FirstCopy.State.start]) fun hc => by
    have := (h.store l _ hc).1
    cases this
  store l n hn := .inr (h.store l n hn)
  quarantine := h.quarantine
  livePlace l hl := by
    obtain ⟨c, hc⟩ := Option.isSome_iff_exists.1 hl
    exact h.place (fileAt_eq_some_iff.1 hc)
  coveredPlace l hl := by simp [FirstCopy.State.covered, FirstCopy.State.start] at hl

/-- At a place for files there is no directory. -/
theorem Place.not_dir (h : Place root fs0 l) : fs0.node (root ++ l) ≠ some .directory := by
  rcases h.file with hnone | ⟨c, hc⟩
  · rw [hnone]; simp
  · rw [hc]; simp

/-- A file written, made or removed at a place for files. -/
theorem Mirrors.edit (h : Mirrors sh eventId fs0 fs a) (hlayout : Layout sh.root sh.backups eventId)
    (hl : Place sh.root fs0 l) (v : Option Content) :
    Mirrors sh eventId fs0 (fs.setFile (sh.root ++ l) v)
      { a with live := Function.update a.live l v } := by
  have hself := fs.node_setFile_self (sh.root ++ l) v
  have hother : ∀ {loc}, loc ≠ sh.root ++ l →
      (fs.setFile (sh.root ++ l) v).node loc = fs.node loc := fun hloc =>
    Fs.node_setFile_of_ne hloc v
  have happ : ∀ {l'}, l' ≠ l → sh.root ++ l' ≠ sh.root ++ l := fun hne heq =>
    hne (List.append_cancel_left heq)
  have hbackups : ∀ l', sh.backups ++ l' ≠ sh.root ++ l := fun l' =>
    (hlayout.rootBackups.ne (List.prefix_append _ _) (List.prefix_append _ _)).symm
  refine ⟨fun l' c => ?_, fun l' => ?_, fun l' => ?_, fun l' c => ?_, fun l' n hn => ?_, ⟨?_, ?_⟩,
    fun l' hl' => ?_, h.coveredPlace⟩
  · show Function.update a.live l v l' = some c ↔ _
    by_cases hll : l' = l
    · subst hll
      rw [Function.update_self, hself]
      cases v <;> simp
    · rw [Function.update_of_ne hll, hother (happ hll)]
      exact h.live l' c
  · by_cases hll : l' = l
    · subst hll
      rw [hself]
      exact iff_of_false (by cases v <;> simp) hl.not_dir
    · rw [hother (happ hll)]
      exact h.dir l'
  · by_cases hll : l' = l
    · subst hll
      rw [hself]
      cases v <;> simp
    · rw [hother (happ hll)]
      exact h.other l'
  · rw [hother (hbackups l')]
    exact h.saved l' c
  · rw [hother (hbackups l')] at hn
    exact h.store l' n hn
  · intro x hx hne
    rw [hother]
    · exact h.quarantine.way x hx hne
    · rintro rfl
      exact hlayout.rootQuarantine.1 ((List.prefix_append _ _).trans hx)
  · intro x
    rw [hother (hlayout.rootQuarantine.ne (List.prefix_append _ _) (List.prefix_append _ _)).symm]
    exact h.quarantine.free x
  · by_cases hll : l' = l
    · exact hll ▸ hl
    · refine h.livePlace l' ?_
      have hl' : (Function.update a.live l v l').isSome = true := hl'
      rwa [Function.update_of_ne hll] at hl'

/-- Noting a creation. -/
theorem Mirrors.note (h : Mirrors sh eventId fs0 fs a) (hl : Place sh.root fs0 l) :
    Mirrors sh eventId fs0 fs { a with made := Function.update a.made l true } := by
  refine ⟨h.live, h.dir, h.other, h.saved, h.store, h.quarantine, h.livePlace, fun l' hl' => ?_⟩
  by_cases hll : l' = l
  · exact hll ▸ hl
  · refine h.coveredPlace l' ?_
    simpa [FirstCopy.State.covered, Function.update_of_ne hll] using hl'

/-- A backup of a file, first copy or not. -/
theorem Mirrors.backup (h : Mirrors sh eventId fs0 fs a)
    (hlayout : Layout sh.root sh.backups eventId) {c : Content} (hlive : a.live (pathComponents rel) = some c) {io : BackupIo} {src : CStr}
    (hsrc : fs.stat src = some (.regular c))
    (hbackup : doBackup io sh.conn.storePath.str src sh.conn.shareName rel fs = (true, fs1)) :
    (backupsPath sh.conn.storePath.str sh.conn.shareName rel).length < pathMax ∧
    Mirrors sh eventId fs0 fs1 { a with
      saved := Function.update a.saved (pathComponents rel)
        ((a.saved (pathComponents rel)).or (a.live (pathComponents rel))) } := by
  have hplace := h.livePlace _ (Option.isSome_iff_exists.2 ⟨c, hlive⟩)
  generalize hl : pathComponents rel = l at hlive hplace
  have hloc : ∀ {backup}, computeBackupPath sh.conn.storePath.str sh.conn.shareName rel =
      some backup → pathComponents backup = sh.backups ++ l ∧
        (backupsPath sh.conn.storePath.str sh.conn.shareName rel).length < pathMax :=
    fun hpath => by
      obtain ⟨-, rfl, hfits⟩ := computeBackupPath_eq_some hpath
      exact ⟨by rw [← backupLoc, sh.backupLoc_eq, hl], hfits⟩
  have hspec := doBackup_spec io sh.conn.storePath.str src sh.conn.shareName rel fs
  rw [hbackup] at hspec
  cases hspec with
  | kept backup n hpath hthere =>
    obtain ⟨hcomps, hfits⟩ := hloc hpath
    refine ⟨hfits, ?_⟩
    -- what stands there is the first copy
    have hsaved : ∃ c', a.saved l = some c' := by
      rw [hcomps, Fs.lookup_of_ne_nil fun h0 => hplace.ne (List.append_eq_nil_iff.1 h0).2] at hthere
      rcases h.store l n hthere with ⟨c', rfl⟩ | ⟨-, hdir⟩
      · exact ⟨c', (h.saved l c').2 hthere⟩
      · exact absurd hdir hplace.not_dir
    obtain ⟨c', hc'⟩ := hsaved
    rw [hc', Option.some_or, ← hc', Function.update_eq_self]
    exact h
  | copied backup content _ hpath hsrc' hnew hgrows hcopy =>
    obtain ⟨hcomps, hfits⟩ := hloc hpath
    obtain rfl : content = c := by
      rw [hsrc] at hsrc'
      cases hsrc'
      rfl
    rw [hcomps] at hnew hgrows hcopy
    have hnone : a.saved l = none := by
      cases hs : a.saved l with
      | none => rfl
      | some c' => rw [(h.saved l c').1 hs] at hnew; cases hnew
    have hroot : ∀ l', fs1.node (sh.root ++ l') = fs.node (sh.root ++ l') := fun l' =>
      hgrows.eq_off_way (hlayout.rootBackups.not_on_way (List.prefix_append _ _)
        (List.prefix_append _ _))
    rw [hnone, Option.none_or, hlive]
    refine ⟨hfits, fun l' c' => ?_, fun l' => ?_, fun l' => ?_, fun l' c' => ?_,
      fun l' n hn => ?_, ⟨fun x hx hne => ?_, fun x => ?_⟩, h.livePlace, fun l' hl' => ?_⟩
    · rw [hroot]; exact h.live l' c'
    · rw [hroot]; exact h.dir l'
    · rw [hroot]; exact h.other l'
    · show Function.update a.saved l (some content) l' = some c' ↔ _
      by_cases hll : l' = l
      · subst hll
        rw [Function.update_self, hcopy]
        simp
      · rw [Function.update_of_ne hll, h.saved l' c']
        rcases hgrows (sh.backups ++ l') with hsame | ⟨hn, -, hat | hdir⟩
        · rw [hsame]
        · exact absurd (List.append_cancel_left hat) hll
        · rw [hn, hdir]; simp
    · rcases hgrows (sh.backups ++ l') with hsame | ⟨-, hp, hat | hdir⟩
      · rw [hsame] at hn
        exact h.store l' n hn
      · rw [hat, hcopy] at hn
        cases hn
        exact .inl ⟨content, rfl⟩
      · rw [hdir] at hn
        cases hn
        -- a directory made on the way mirrors one of the share
        refine .inr ⟨rfl, hplace.dirs l' ((List.prefix_append_right_inj _).1 hp) ?_⟩
        rintro rfl
        rw [hcopy] at hdir
        cases hdir
    · rcases hgrows x with hsame | ⟨-, hp, rfl | hdir⟩
      · rw [hsame]; exact h.quarantine.way x hx hne
      · exact absurd ((List.prefix_append _ _).trans hx) hlayout.backupsQuarantine.1
      · exact .inr hdir
    · rw [hgrows.eq_off_way (hlayout.backupsQuarantine.symm.not_on_way (List.prefix_append _ _)
        (List.prefix_append _ _))]
      exact h.quarantine.free x
    · by_cases hll : l' = l
      · exact hll ▸ hplace
      · refine h.coveredPlace l' ?_
        simpa [FirstCopy.State.covered, Function.update_of_ne hll] using hl'

/-! ## The messages and the table -/

/-- Whether a message reports a preimage is decided by its operation and flags. -/
theorem Conn.reportsBackup_eventMsg (conn : Conn) (op : UInt8) (flags : UInt16) (rel : CStr)
    (st : Option StatBuf) : (conn.eventMsg op flags rel none st).reportsBackup =
      (hasFlag flags flagBackedUp &&
        (op = opOpen || op = opWrite || op = opTruncate || op = opDelete)) := rfl

/-- Whether a message reports a new file is decided by its flags. -/
theorem Conn.reportsNewFile_eventMsg (conn : Conn) (op : UInt8) (flags : UInt16) (rel : CStr)
    (st : Option StatBuf) : (conn.eventMsg op flags rel none st).reportsNewFile =
      hasFlag flags flagNewFile := by
  have hpath : (conn.eventMsg op flags rel none st).filePath.str ≠ [] := by
    rw [Conn.eventMsg_filePath, Conn.fullPath, Conn.absPath, snprintf]
    cases conn.connectpath <;> simp
  unfold EventMsg.reportsNewFile
  rw [decide_eq_true hpath, Bool.and_true]
  rfl

/-- A message of the module about a name that is followed. -/
def TellsOf (sh : Share) (eventId : CStr) (msg : EventMsg) (rel : CStr) : Prop :=
  Followed sh.conn eventId rel ∧
    ∃ op flags st, msg = sh.conn.eventMsg op flags rel none st

/-- The preimage of a name has a path that fits. -/
def BackupFits (conn : Conn) (rel : CStr) : Prop :=
  (backupsPath conn.storePath.str conn.shareName rel).length < pathMax

/-- The copies are the places reported as backed up, the notes the places reported as new. -/
structure Told (sh : Share) (eventId : CStr) (sent : List EventMsg)
    (a : FirstCopy.State Loc Content) : Prop where
  backup : ∀ msg ∈ sent, msg.reportsBackup = true → ∃ rel, TellsOf sh eventId msg rel ∧
    BackupFits sh.conn rel ∧ (a.saved (pathComponents rel)).isSome
  saved : ∀ l, (a.saved l).isSome → ∃ msg ∈ sent, msg.reportsBackup = true ∧
    ∃ rel, TellsOf sh eventId msg rel ∧ BackupFits sh.conn rel ∧ pathComponents rel = l
  newFile : ∀ msg ∈ sent, msg.reportsNewFile = true → ∃ rel, TellsOf sh eventId msg rel ∧
    a.made (pathComponents rel) = true
  made : ∀ l, a.made l = true → ∃ msg ∈ sent, msg.reportsNewFile = true ∧
    ∃ rel, TellsOf sh eventId msg rel ∧ pathComponents rel = l

theorem told_nil (live : Loc → Option Content) :
    Told sh eventId [] (FirstCopy.State.start live) :=
  ⟨by simp, by simp [FirstCopy.State.start], by simp, by simp [FirstCopy.State.start]⟩

/-- A message that reports neither a preimage nor a new file tells nothing. -/
theorem Told.silent {sent : List EventMsg} (h : Told sh eventId sent a) {msg : EventMsg}
    (hbackup : msg.reportsBackup = false) (hnew : msg.reportsNewFile = false) :
    Told sh eventId (sent ++ [msg]) a where
  backup m hm hr := by
    rcases List.mem_append.1 hm with hm | hm
    · exact h.backup m hm hr
    · rw [List.mem_singleton.1 hm, hbackup] at hr; cases hr
  saved l hl := by
    obtain ⟨m, hm, hrest⟩ := h.saved l hl
    exact ⟨m, List.mem_append_left _ hm, hrest⟩
  newFile m hm hn := by
    rcases List.mem_append.1 hm with hm | hm
    · exact h.newFile m hm hn
    · rw [List.mem_singleton.1 hm, hnew] at hn; cases hn
  made l hl := by
    obtain ⟨m, hm, hrest⟩ := h.made l hl
    exact ⟨m, List.mem_append_left _ hm, hrest⟩

/-- A message that reports a preimage of a name with a copy. -/
theorem Told.backedUp {sent : List EventMsg} (h : Told sh eventId sent a) {msg : EventMsg}
    (hbackup : msg.reportsBackup = true) (hnew : msg.reportsNewFile = false)
    (htells : TellsOf sh eventId msg rel) (hfits : BackupFits sh.conn rel)
    (saved : Loc → Option Content) (hsaved : (saved (pathComponents rel)).isSome)
    (hother : ∀ l, l ≠ pathComponents rel → saved l = a.saved l) :
    Told sh eventId (sent ++ [msg]) { a with saved := saved } where
  backup m hm hr := by
    rcases List.mem_append.1 hm with hm | hm
    · obtain ⟨rel', htells', hfits', hs⟩ := h.backup m hm hr
      refine ⟨rel', htells', hfits', ?_⟩
      show (saved (pathComponents rel')).isSome = true
      by_cases hll : pathComponents rel' = pathComponents rel
      · rw [hll]; exact hsaved
      · rw [hother _ hll]; exact hs
    · exact ⟨rel, List.mem_singleton.1 hm ▸ htells, hfits, hsaved⟩
  saved l hl := by
    by_cases hll : l = pathComponents rel
    · exact ⟨msg, by simp, hbackup, rel, htells, hfits, hll.symm⟩
    · have hl : (saved l).isSome = true := hl
      rw [hother l hll] at hl
      obtain ⟨m, hm, hrest⟩ := h.saved l hl
      exact ⟨m, List.mem_append_left _ hm, hrest⟩
  newFile m hm hn := by
    rcases List.mem_append.1 hm with hm | hm
    · exact h.newFile m hm hn
    · rw [List.mem_singleton.1 hm, hnew] at hn; cases hn
  made l hl := by
    obtain ⟨m, hm, hrest⟩ := h.made l hl
    exact ⟨m, List.mem_append_left _ hm, hrest⟩

/-- A message that reports a new file. -/
theorem Told.created {sent : List EventMsg} (h : Told sh eventId sent a) {msg : EventMsg}
    (hbackup : msg.reportsBackup = false) (hnew : msg.reportsNewFile = true)
    (htells : TellsOf sh eventId msg rel) :
    Told sh eventId (sent ++ [msg])
      { a with made := Function.update a.made (pathComponents rel) true } where
  backup m hm hr := by
    rcases List.mem_append.1 hm with hm | hm
    · exact h.backup m hm hr
    · rw [List.mem_singleton.1 hm, hbackup] at hr; cases hr
  saved l hl := by
    obtain ⟨m, hm, hrest⟩ := h.saved l hl
    exact ⟨m, List.mem_append_left _ hm, hrest⟩
  newFile m hm hn := by
    rcases List.mem_append.1 hm with hm | hm
    · obtain ⟨rel', htells', hmade⟩ := h.newFile m hm hn
      refine ⟨rel', htells', ?_⟩
      show Function.update a.made (pathComponents rel) true (pathComponents rel') = true
      by_cases hll : pathComponents rel' = pathComponents rel
      · rw [hll, Function.update_self]
      · rw [Function.update_of_ne hll]; exact hmade
    · exact ⟨rel, List.mem_singleton.1 hm ▸ htells, Function.update_self ..⟩
  made l hl := by
    by_cases hll : l = pathComponents rel
    · exact ⟨msg, by simp, hnew, rel, htells, hll.symm⟩
    · have hl : Function.update a.made (pathComponents rel) true l = true := hl
      rw [Function.update_of_ne hll] at hl
      obtain ⟨m, hm, hrest⟩ := h.made l hl
      exact ⟨m, List.mem_append_left _ hm, hrest⟩

/-! ## The open files and the table -/

/-- What holds of an open file: it is backed up or new, and the handle says so if it is
tracked. -/
structure Handled (sh : Share) (eventId : CStr) (a : FirstCopy.State Loc Content)
    (file : OpenFile) : Prop where
  followed : Followed sh.conn eventId file.rel
  name : file.handle.name = some file.rel
  tracked : ∀ fst, file.handle.ext = some fst → fst.isRisky = true ∧ fst.backupDone = true
  linked : file.linked = true → (a.live (pathComponents file.rel)).isSome ∧
    a.covered (pathComponents file.rel) = true

/-- A share at work and its table. -/
structure Tracks (sh : Share) (eventId : CStr) (fs0 : Fs) (s : ShareState)
    (a : FirstCopy.State Loc Content) : Prop where
  mirrors : Mirrors sh eventId fs0 s.vfs.fs a
  told : Told sh eventId s.vfs.sent a
  handled : ∀ file ∈ s.files, Handled sh eventId a file

/-- A table in which more is covered, and the same keys are there, keeps what holds of an
open file. -/
theorem Handled.mono {a' : FirstCopy.State Loc Content} {file : OpenFile}
    (h : Handled sh eventId a file)
    (hlive : ∀ l, (a.live l).isSome → a.covered l = true → (a'.live l).isSome)
    (hcovered : ∀ l, a.covered l = true → a'.covered l = true) : Handled sh eventId a' file :=
  { h with linked := fun hl => ⟨hlive _ (h.linked hl).1 (h.linked hl).2, hcovered _ (h.linked hl).2⟩ }

/-! ## Granted calls -/

/-- A path leads to a file. -/
def IsFile (fs : Fs) (path : CStr) : Prop := ∃ c, fs.stat path = some (.regular c)

/-- A backup of the file, if there is one, succeeds. -/
def BackupOk (sh : Share) (env : VfsEnv) (rel : CStr) (fs : Fs) : Prop :=
  IsFile fs (sh.conn.fullPath rel) →
    (doBackup env.backup sh.conn.storePath.str (sh.conn.fullPath rel) sh.conn.shareName rel fs).1 =
      true

/-- The session is let through, the names are followed, and a backup the call takes
succeeds. -/
def SmbOp.Granted (sh : Share) (eventId : CStr) (s : ShareState) : SmbOp → Prop
  | .openAt env _ rel _ _ _ | .unlinkAt env rel _ =>
    sh.conn.listed env = false ∧ Followed sh.conn eventId rel ∧ BackupOk sh env rel s.vfs.fs
  | .pwrite env _ _ => sh.conn.listed env = false
  | .ftruncate env n _ => sh.conn.listed env = false ∧
    ∀ file, s.files[n]? = some file → BackupOk sh env file.rel s.vfs.fs
  | .close _ _ => True

/-- A backup the call takes is of a path that led to a file before the first call. -/
def SmbOp.BacksUpOld (sh : Share) (fs0 : Fs) (s : ShareState) : SmbOp → Prop
  | .openAt _ _ rel _ _ _ | .unlinkAt _ rel _ =>
    IsFile s.vfs.fs (sh.conn.fullPath rel) → IsFile fs0 (sh.conn.fullPath rel)
  | .ftruncate _ n _ => ∀ file, s.files[n]? = some file → file.handle.ext = none →
    IsFile s.vfs.fs (sh.conn.fullPath file.rel) → IsFile fs0 (sh.conn.fullPath file.rel)
  | .pwrite _ _ _ | .close _ _ => True

theorem Fs.setFile_eq_self {loc : Loc} {c : Content} (h : fs.node loc = some (.regular c)) :
    fs.setFile loc (some c) = fs := by
  unfold Fs.setFile
  rw [Option.map_some, ← h, Function.update_eq_self]

theorem Followed.isFile_iff (h : Followed sh.conn eventId rel) (hm : Mirrors sh eventId fs0 fs a) :
    IsFile fs (sh.conn.fullPath rel) ↔ (a.live (pathComponents rel)).isSome := by
  unfold IsFile
  rw [h.stat, Option.isSome_iff_exists]
  exact exists_congr fun c => (hm.live _ c).symm

theorem Followed.isFile_start_iff (h : Followed sh.conn eventId rel) :
    IsFile fs0 (sh.conn.fullPath rel) ↔ (fileAt sh.root fs0 (pathComponents rel)).isSome := by
  unfold IsFile
  rw [h.stat, Option.isSome_iff_exists]
  exact exists_congr fun c => fileAt_eq_some_iff.symm

/-! ## The next module on files -/

section
variable {store : CStr} {loc : Loc} (hloc : ¬ pathComponents store <+: loc) {c : Content}

/-- Opening a file that is there may cut it. -/
theorem Next.openFile_file (h : fs.node loc = some (.regular c)) (creat trunc ok : Bool) :
    ∃ r v, (Next.openFile loc hloc creat trunc ok).run fs = (r, fs.setFile loc (some v)) := by
  unfold Next.openFile
  dsimp only
  rw [h]
  cases ok with
  | false => exact ⟨-1, c, by rw [Fs.setFile_eq_self h]⟩
  | true =>
    cases trunc with
    | true => exact ⟨0, [], rfl⟩
    | false => exact ⟨0, c, by rw [Fs.setFile_eq_self h]; rfl⟩

/-- Opening what is no file fails, or makes an empty file in a directory. -/
theorem Next.openFile_missing (h : ∀ c, fs.node loc ≠ some (.regular c)) (creat trunc ok : Bool) :
    (Next.openFile loc hloc creat trunc ok).run fs = (-1, fs) ∨
      creat = true ∧ fs.node loc = none ∧ fs.lookup loc.dropLast = some .directory ∧
        (Next.openFile loc hloc creat trunc ok).run fs = (0, fs.setFile loc (some [])) := by
  unfold Next.openFile
  dsimp only
  split
  · next c hc => exact absurd hc (h c)
  · next hnone =>
    split
    · next hnew =>
      simp only [Bool.and_eq_true, decide_eq_true_eq] at hnew
      exact .inr ⟨hnew.1, hnone, hnew.2, rfl⟩
    · exact .inl rfl
  · exact .inl rfl

/-- Unlinking a file takes it away or fails. -/
theorem Next.unlink_file (h : fs.node loc = some (.regular c)) (ok : Bool) :
    (Next.unlink loc hloc ok).run fs = (0, fs.setFile loc none) ∨
      (Next.unlink loc hloc ok).run fs = (-1, fs.setFile loc (some c)) := by
  unfold Next.unlink
  dsimp only
  rw [h, Fs.setFile_eq_self h]
  cases ok with
  | false => exact .inr rfl
  | true => exact .inl rfl

/-- Unlinking a directory, or nothing, fails. -/
theorem Next.unlink_missing (h : ∀ c, fs.node loc ≠ some (.regular c))
    (hother : fs.node loc ≠ some .other) (ok : Bool) :
    (Next.unlink loc hloc ok).run fs = (-1, fs) := by
  cases ok with
  | false => rfl
  | true =>
    cases hnode : fs.node loc with
    | none => simp only [Next.unlink, hnode]
    | some n =>
      cases n with
      | regular c => exact absurd hnode (h c)
      | directory => simp only [Next.unlink, hnode]
      | other => exact absurd hnode hother

end

end

end GfrGuard
