import GfrGuard.VfsSpec

/-!
# Operations on names

In strict mode an open that can overwrite a file and an unlink of a name relative to the
share run only once the file has a preimage (`destructive_hasPreimage`). The callbacks read
a name relative to the share root: for a directory handle below it they look at, and report,
another file than the one the operation is about (`atPath_agrees_iff`).
-/

namespace GfrGuard

section
variable {conn : Conn} {env : VfsEnv} {next : Next conn.storePath.str} {rel : CStr}
  {content : Content} {s : VfsState} {before : Fs} {result : Int}

/-! ## Destructive operations -/

/-- The strict open of a file that can be overwritten runs with a preimage. -/
theorem openRisky_hasPreimage {nameAfter : Option CStr} (hstrict : conn.strict = true)
    (hclear : BackupClear conn.storePath.str conn.shareName rel s.fs)
    (h : (openRisky conn env next rel nameAfter s).1 = .next before result) :
    HasPreimage conn.storePath.str conn.shareName rel before := by
  unfold openRisky at h
  cases hbackup : doBackup env.backup conn.storePath.str (conn.fullPath rel) conn.shareName rel
    s.fs with
  | mk ok fs' =>
    simp only [hbackup] at h
    cases ok with
    | false => simp [hstrict] at h
    | true =>
      simp only [Bool.not_true, Bool.false_and, Bool.false_eq_true, if_false,
        Reply.next.injEq] at h
      rw [← h.1]
      exact doBackup_hasPreimage hbackup hclear

/-- `gf_openat` of a file with flags that let the client overwrite it. -/
theorem gfOpenat_hasPreimage {smbName nameAfter : Option CStr} {flags : OpenFlags}
    (hprotect : conn.protect = true) (hstrict : conn.strict = true)
    (hpath : flags.path = false) (hover : flags.overwrites = true)
    (hproc : isProcPath rel = false) (hfits : (conn.absPath rel).length < pathMax)
    (hfile : s.fs.stat (conn.absPath rel) = some (.regular content))
    (hclear : BackupClear conn.storePath.str conn.shareName rel s.fs)
    (h : (gfOpenat conn env next smbName (some rel) nameAfter flags s).1 = .next before result) :
    HasPreimage conn.storePath.str conn.shareName rel before := by
  have hgate : (!conn.protect || flags.path || (!flags.write && !flags.createTrunc)) = false := by
    rw [OpenFlags.overwrites] at hover
    simp only [hprotect, hpath, Bool.not_true, Bool.or_self, Bool.false_or]
    revert hover
    cases flags.write <;> simp
  unfold gfOpenat at h
  simp only [hgate, Option.getD_some, hproc, Bool.and_false, Bool.false_eq_true, if_false] at h
  unfold openNamed at h
  cases hlisted : conn.listed env with
  | true => rw [Conn.isBlocked_of_listed hlisted] at h; cases h
  | false =>
    rw [Conn.isBlocked_of_not_listed hlisted] at h
    simp only [Conn.fullPath_of_fits hfits, hfile, hover, if_true] at h
    exact openRisky_hasPreimage hstrict hclear h

/-- `gf_unlinkat` of a file. -/
theorem gfUnlinkat_hasPreimage (hprotect : conn.protect = true) (hstrict : conn.strict = true)
    (hfits : (conn.absPath rel).length < pathMax)
    (hfile : s.fs.stat (conn.absPath rel) = some (.regular content))
    (hclear : BackupClear conn.storePath.str conn.shareName rel s.fs)
    (h : (gfUnlinkat conn env next (some rel) s).1 = .next before result) :
    HasPreimage conn.storePath.str conn.shareName rel before := by
  unfold gfUnlinkat at h
  simp only [hprotect, Bool.not_true, Bool.false_eq_true, if_false, fnameStr,
    Option.getD_some] at h
  cases hlisted : conn.listed env with
  | true => rw [Conn.isBlocked_of_listed hlisted] at h; cases h
  | false =>
    rw [Conn.isBlocked_of_not_listed hlisted] at h
    simp only [Conn.fullPath_of_fits hfits, hfile] at h
    cases hbackup : doBackup env.backup conn.storePath.str (conn.absPath rel) conn.shareName rel
      s.fs with
    | mk ok fs' =>
      simp only [hbackup] at h
      cases ok with
      | false => simp [hstrict] at h
      | true =>
        simp only [Bool.not_true, Bool.false_and, Bool.false_eq_true, if_false,
          Reply.next.injEq] at h
        rw [← h.1]
        exact doBackup_hasPreimage hbackup hclear

end

/-- In strict mode with protection on, a file of the share with a path that fits and nothing
but a copy at the place of its preimage is opened with write access but not for appending,
or with `O_CREAT | O_TRUNC`, and is unlinked, only with its preimage in the store. -/
theorem destructive_hasPreimage (conn : Conn) (env : VfsEnv) (next : Next conn.storePath.str)
    (rel : CStr) (content : Content) (s : VfsState) (before : Fs) (result : Int)
    (hprotect : conn.protect = true) (hstrict : conn.strict = true)
    (hfits : (conn.absPath rel).length < pathMax)
    (hfile : s.fs.stat (conn.absPath rel) = some (.regular content))
    (hclear : BackupClear conn.storePath.str conn.shareName rel s.fs) :
    (∀ (smbName nameAfter : Option CStr) (flags : OpenFlags), flags.path = false →
      flags.overwrites = true → isProcPath rel = false →
      (gfOpenat conn env next smbName (some rel) nameAfter flags s).1 = .next before result →
      HasPreimage conn.storePath.str conn.shareName rel before) ∧
    ((gfUnlinkat conn env next (some rel) s).1 = .next before result →
      HasPreimage conn.storePath.str conn.shareName rel before) :=
  ⟨fun _ _ _ hpath hover hproc =>
    gfOpenat_hasPreimage hprotect hstrict hpath hover hproc hfits hfile hclear,
   gfUnlinkat_hasPreimage hprotect hstrict hfits hfile hclear⟩

/-! ## A sample share -/

/-- A strict connection to the share `h` in `/h`, with the store in `/s`. -/
def sampleConn : Conn where
  connectpath := lit "/h"
  shareName := lit "h"
  user := lit "u"
  ip := lit "10.0.0.5"
  protect := true
  strict := true
  storePath := .ofStr 256 (lit "/s")
  sockOpen := true

/-- A call in which nothing fails and nobody is blocked. -/
def sampleVfsEnv : VfsEnv where
  blocked := none
  statBuf _ := ⟨1, 1, 0, 0, 0, 0⟩
  backup := .ok
  extOk := true
  readOk := true

/-- The share and the store, with the files `a` and `b` in the share. -/
def sampleTree : Fs :=
  (((Fs.empty.put [lit "h"] .directory).put [lit "s"] .directory).put [lit "h", lit "a"]
    (.regular [1])).put [lit "h", lit "b"] (.regular [2])

/-- `rename(2)` of a file outside the store. -/
def Next.rename {store : CStr} (src dst : Loc) (hsrc : ¬ pathComponents store <+: src)
    (hdst : ¬ pathComponents store <+: dst) : Next store where
  run fs :=
    match fs.node src with
    | some n => (0, (fs.put dst n).remove src)
    | none => (-1, fs)
  keepsStore fs loc hloc := by
    split
    · rw [Fs.node_remove_of_ne (by rintro rfl; exact hsrc hloc),
        Fs.node_put_of_ne (by rintro rfl; exact hdst hloc)]
    · rfl

/-- Opening `a` for overwriting, and unlinking it, in the sample share. -/
theorem destructive_hasPreimage_sample :
    HasPreimage (lit "/s") (lit "h") (lit "a")
      (doBackup .ok (lit "/s") (lit "/h/a") (lit "h") (lit "a") sampleTree).2 := by
  have hnone : sampleTree.node (backupLoc (lit "/s") (lit "h") (lit "a")) = none := by
    decide
  have hboth := destructive_hasPreimage sampleConn sampleVfsEnv
    (.rename [lit "h", lit "a"] [lit "h", lit "b"] (by decide) (by decide))
    (lit "a") [1] ⟨sampleTree, []⟩
    (doBackup .ok (lit "/s") (lit "/h/a") (lit "h") (lit "a") sampleTree).2 0 rfl rfl
    (by decide) (by decide) fun n h => by cases hnone.symm.trans h
  exact hboth.1 none none ⟨false, true, false, true, false⟩ rfl rfl (by decide) rfl

/-- A rename over an existing file has no backup: the content of `b` is lost. -/
theorem rename_discards_without_preimage :
    ¬ ∀ (conn : Conn) (env : VfsEnv) (next : Next conn.storePath.str) (src dst : CStr)
      (content : Content) (s : VfsState) (before : Fs) (result : Int),
      conn.protect = true → conn.strict = true →
      (gfRenameat conn env next (some src) (some dst) s).1 = .next before result →
      0 ≤ result → before.stat (conn.absPath dst) = some (.regular content) →
      (next.run before).2.stat (conn.absPath dst) ≠ some (.regular content) →
      HasPreimage conn.storePath.str conn.shareName dst before := by
  intro h
  obtain ⟨content, hcopy⟩ := h sampleConn sampleVfsEnv
    (.rename [lit "h", lit "a"] [lit "h", lit "b"] (by decide) (by decide))
    (lit "a") (lit "b") [2] ⟨sampleTree, []⟩ sampleTree 0 rfl rfl rfl (by decide)
    (by decide) (by decide)
  have hnone : sampleTree.node (backupLoc (lit "/s") (lit "h") (lit "b")) = none := by
    decide
  cases hnone.symm.trans hcopy

/-! ## Names relative to a directory handle -/

/-- What `name` names relative to a directory of the share: the object the next module's
`*at` operation acts on. -/
def Conn.atObject (conn : Conn) (dir name : CStr) : Loc :=
  pathComponents conn.connectpath ++ pathComponents dir ++ pathComponents name

/-- The messages a call added. -/
def newMessages (s : VfsState) (after : VfsState) : List EventMsg := after.sent.drop s.sent.length

/-- The directory handle is the share root, and the buffer of the path cuts off nothing but
slashes. -/
def NamesFromRoot (conn : Conn) (dir name : CStr) : Prop :=
  pathComponents dir = [] ∧ ∀ b ∈ (conn.absPath name).drop (pathMax - 1), b = slash

section
variable {conn : Conn} {dir name : CStr}

/-- The path in the buffer leads to the object exactly for names relative to the root. -/
theorem fullPath_names_iff :
    pathComponents (conn.fullPath name) = conn.atObject dir name ↔ NamesFromRoot conn dir name := by
  have habs : pathComponents (conn.absPath name) =
      pathComponents conn.connectpath ++ pathComponents name :=
    pathComponents_append_slash _ _
  have hcut : conn.absPath name = conn.fullPath name ++ (conn.absPath name).drop (pathMax - 1) :=
    (List.take_append_drop _ _).symm
  constructor
  · intro h
    -- count the bytes that are not slashes on both sides
    have hflat := congrArg (fun l => l.flatten.length) h
    have hflatAbs := congrArg (fun l => l.flatten.length) habs
    have hfilter := congrArg (fun p => (p.filter (· ≠ slash)).length) hcut
    simp only [Conn.atObject, pathComponents, SepText.flatten_components, List.flatten_append,
      List.length_append, List.filter_append] at hflat hflatAbs hfilter
    have hdir : (dir.filter (· ≠ slash)).length = 0 := by omega
    have hrest : (((conn.absPath name).drop (pathMax - 1)).filter (· ≠ slash)).length = 0 := by
      omega
    refine ⟨?_, fun b hb => ?_⟩
    · have hnil : (pathComponents dir).flatten = [] := by
        rw [pathComponents, SepText.flatten_components]
        exact List.length_eq_zero_iff.1 hdir
      rw [List.flatten_eq_nil_iff] at hnil
      exact List.eq_nil_iff_forall_not_mem.2 fun c hc =>
        SepText.ne_nil_of_mem_components hc (hnil c hc)
    · have := List.filter_eq_nil_iff.1 (List.length_eq_zero_iff.1 hrest) b hb
      simpa using this
  · rintro ⟨hdir, hrest⟩
    have hsame : pathComponents (conn.absPath name) = pathComponents (conn.fullPath name) := by
      rw [hcut]
      exact SepText.components_append_eq_left_iff.2 hrest
    rw [← hsame, habs, Conn.atObject, hdir, List.append_nil]

/-- Copying the name first does not change where the buffer cuts the path. -/
theorem fullPath_snprintf : conn.fullPath (snprintf pathMax name) = conn.fullPath name := by
  simp only [Conn.fullPath, Conn.absPath, snprintf]
  rw [List.append_cons, List.append_cons _ _ name]
  simp only [List.take_append, List.take_take, Nat.min_eq_left (Nat.sub_le _ _)]

end

/-! ## What the callbacks look at and report -/

/-- A call reports an object: every message it adds carries a path that names it. -/
def Reports (s after : VfsState) (loc : Loc) : Prop :=
  ∀ msg ∈ newMessages s after, pathComponents msg.filePath.str = loc

section
variable {conn : Conn} {env : VfsEnv} {next : Next conn.storePath.str} {dir name : CStr}
  {s : VfsState} {op : UInt8} {flags : UInt16} {newName : Option CStr} {st : Option StatBuf}

/-- A call that sends one event reports the path of its buffer. -/
theorem reports_sendEvent_iff (hopen : conn.sockOpen = true) {s' : VfsState}
    (hsent : s'.sent = s.sent) {loc : Loc} :
    Reports s (conn.sendEvent op flags name newName st s') loc ↔
      pathComponents (conn.fullPath name) = loc := by
  simp [Reports, newMessages, Conn.sendEvent, Conn.send, hopen, hsent]

theorem gfUnlinkat_reports_iff (hprotect : conn.protect = true) (hopen : conn.sockOpen = true)
    (hfree : conn.listed env = false) {loc : Loc} :
    Reports s (gfUnlinkat conn env next (some name) s).2 loc ↔
      pathComponents (conn.fullPath name) = loc := by
  cases hmade : doBackup env.backup conn.storePath.str (conn.fullPath name) conn.shareName name
    s.fs with
  | mk ok fs =>
    unfold gfUnlinkat
    simp only [hprotect, Bool.not_true, Bool.false_eq_true, if_false,
      Conn.isBlocked_of_not_listed hfree, fnameStr, Option.getD_some, hmade]
    split
    · split
      · exact reports_sendEvent_iff hopen (by rfl)
      · exact reports_sendEvent_iff hopen (by rfl)
    · exact reports_sendEvent_iff hopen (by rfl)

theorem gfRenameat_reports_iff (hprotect : conn.protect = true) (hopen : conn.sockOpen = true)
    (hfree : conn.listed env = false) {dst : Option CStr} {loc : Loc} :
    Reports s (gfRenameat conn env next (some name) dst s).2 loc ↔
      pathComponents (conn.fullPath name) = loc := by
  unfold gfRenameat
  simp only [hprotect, Bool.not_true, Bool.false_eq_true, if_false,
    Conn.isBlocked_of_not_listed hfree, fnameStr, Option.getD_some]
  rw [reports_sendEvent_iff hopen (by rfl), fullPath_snprintf]

theorem gfMkdirat_reports_iff (hprotect : conn.protect = true) (hopen : conn.sockOpen = true)
    (hfree : conn.listed env = false) (hmade : (next.run s.fs).1 = 0) {loc : Loc} :
    Reports s (gfMkdirat conn env next (some name) s).2 loc ↔
      pathComponents (conn.fullPath name) = loc := by
  unfold gfMkdirat
  simp only [hprotect, Bool.not_true, Bool.false_eq_true, if_false,
    Conn.isBlocked_of_not_listed hfree, Next.step, hmade, if_true, fnameStr, Option.getD_some]
  exact reports_sendEvent_iff hopen (by rfl)

end

/-- For a call that is not refused: what `gf_unlinkat` looks at, backs up and reports, what
`gf_renameat` reports as its source and what `gf_mkdirat` reports after it made a directory
is the object of the operation exactly for a name relative to the share root of which the
path buffer cuts off nothing but slashes. -/
theorem atPath_agrees_iff (conn : Conn) (env : VfsEnv) (next : Next conn.storePath.str)
    (dir name : CStr) (dst : Option CStr) (s : VfsState) (hprotect : conn.protect = true)
    (hopen : conn.sockOpen = true) (hfree : conn.listed env = false) :
    ((pathComponents (conn.fullPath name) = conn.atObject dir name ∧
        Reports s (gfUnlinkat conn env next (some name) s).2 (conn.atObject dir name)) ↔
      NamesFromRoot conn dir name) ∧
    (Reports s (gfRenameat conn env next (some name) dst s).2 (conn.atObject dir name) ↔
      NamesFromRoot conn dir name) ∧
    ((next.run s.fs).1 = 0 →
      (Reports s (gfMkdirat conn env next (some name) s).2 (conn.atObject dir name) ↔
        NamesFromRoot conn dir name)) := by
  refine ⟨?_, ?_, fun hmade => ?_⟩
  · rw [gfUnlinkat_reports_iff hprotect hopen hfree, and_self, fullPath_names_iff]
  · rw [gfRenameat_reports_iff hprotect hopen hfree, fullPath_names_iff]
  · rw [gfMkdirat_reports_iff hprotect hopen hfree hmade, fullPath_names_iff]

/-- Unlinking `a` relative to the directory `d` of the sample share: the callback looks at
the file `a` of the share root. -/
theorem atPath_not_always_agrees :
    ¬ ∀ (conn : Conn) (env : VfsEnv) (next : Next conn.storePath.str) (dir name : CStr)
      (s : VfsState), conn.protect = true → conn.sockOpen = true → conn.listed env = false →
      pathComponents (conn.fullPath name) = conn.atObject dir name ∧
        Reports s (gfUnlinkat conn env next (some name) s).2 (conn.atObject dir name) := by
  intro h
  have hlooked := (h sampleConn sampleVfsEnv ⟨fun fs => (-1, fs), fun _ _ _ => rfl⟩ (lit "d")
    (lit "a") ⟨sampleTree, []⟩ rfl rfl (by decide)).1
  revert hlooked
  decide

/-- Relative to the root of the sample share the callbacks agree. -/
theorem atPath_agrees_sample :
    Reports ⟨sampleTree, []⟩ (gfMkdirat sampleConn sampleVfsEnv
      ⟨fun fs => (0, fs), fun _ _ _ => rfl⟩ (some (lit "a")) ⟨sampleTree, []⟩).2
      (sampleConn.atObject [] (lit "a")) :=
  ((atPath_agrees_iff sampleConn sampleVfsEnv ⟨fun fs => (0, fs), fun _ _ _ => rfl⟩ []
    (lit "a") none ⟨sampleTree, []⟩ rfl rfl (by decide)).2.2 rfl).2
    ⟨rfl, by decide +kernel⟩

end GfrGuard
