import GfrGuard.ShareRun

/-!
# Every call is an operation on the table

A granted call of the session changes the tree, the messages and the open files the way one
operation on the table, or none, changes the table (`Tracks.step`), and it backs up a file
that was there before the first call exactly when the operation saves a key that was there
at the start. So it is for whole sessions (`Tracks.run`).
-/

namespace GfrGuard

section
variable {sh : Share} {eventId rel : CStr} {fs0 fs1 : Fs} {s : ShareState}
  {a : FirstCopy.State Loc Content} {c : Content} {files : List OpenFile}

/-- A step is matched by operations on the table. -/
def Matched (sh : Share) (eventId : CStr) (fs0 : Fs) (s : ShareState) (op : SmbOp)
    (a : FirstCopy.State Loc Content) : Prop :=
  ∃ ops, Tracks sh eventId fs0 (smbStep sh s op) (Runs.run FirstCopy.step a ops) ∧
    (op.BacksUpOld sh fs0 s ↔
      Runs.AllSteps FirstCopy.step (FirstCopy.SavesOld (fileAt sh.root fs0)) a ops)

/-- No operation matches a step after which the table is as before. -/
theorem matched_nil {op : SmbOp} (h : Tracks sh eventId fs0 (smbStep sh s op) a)
    (hold : op.BacksUpOld sh fs0 s) : Matched sh eventId fs0 s op a :=
  ⟨[], h, iff_of_true hold trivial⟩

/-- A change of a file with its backup. -/
theorem matched_change {op : SmbOp} {l : Loc} (v : Option Content)
    (hlive : (a.live l).isSome) (h : Tracks sh eventId fs0 (smbStep sh s op) (a.change l v))
    (hold : op.BacksUpOld sh fs0 s ↔ (fileAt sh.root fs0 l).isSome) :
    Matched sh eventId fs0 s op a := by
  refine ⟨[.change l v], ?_, ?_⟩
  · rw [Runs.run_cons, Runs.run_nil, FirstCopy.step, if_pos hlive]
    exact h
  · rw [hold, Runs.allSteps_cons]
    exact ⟨fun ho => ⟨fun _ => ho, trivial⟩, fun ho => ho.1 hlive⟩

/-- A backup leaves the file as it was. -/
theorem Tracks.file_after_backup (h : Tracks sh eventId fs0 s a)
    (hlayout : Layout sh.root sh.backups eventId) (hlive : a.live (pathComponents rel) = some c)
    {io : BackupIo} {src : CStr} (hsrc : s.vfs.fs.stat src = some (.regular c))
    (hbackup : doBackup io sh.conn.storePath.str src sh.conn.shareName rel s.vfs.fs =
      (true, fs1)) : fs1.node (sh.loc rel) = some (.regular c) :=
  ((h.mirrors.backup hlayout hlive hsrc hbackup).2.live _ c).1 hlive

/-- The tree and the messages after a backup, its message and a change of the file. -/
theorem Tracks.change (h : Tracks sh eventId fs0 s a)
    (hlayout : Layout sh.root sh.backups eventId) (hrel : Followed sh.conn eventId rel)
    (hlive : a.live (pathComponents rel) = some c) {io : BackupIo}
    (hbackup : doBackup io sh.conn.storePath.str (sh.conn.fullPath rel) sh.conn.shareName rel
      s.vfs.fs = (true, fs1)) {op : UInt8} (st : Option StatBuf)
    (hop : op = opOpen ∨ op = opWrite ∨ op = opTruncate ∨ op = opDelete) (v : Option Content)
    (hfiles : ∀ file ∈ files, Handled sh eventId (a.change (pathComponents rel) v) file) :
    Tracks sh eventId fs0 ⟨⟨fs1.setFile (sh.loc rel) v,
      s.vfs.sent ++ [sh.conn.eventMsg op (backupFlags true) rel none st]⟩, files⟩
      (a.change (pathComponents rel) v) := by
  have hsrc : s.vfs.fs.stat (sh.conn.fullPath rel) = some (.regular c) := by
    rw [hrel.stat]
    exact (h.mirrors.live _ c).1 hlive
  obtain ⟨hfits, hmirrors⟩ := h.mirrors.backup hlayout hlive hsrc hbackup
  have hplace := h.mirrors.livePlace _ (Option.isSome_iff_exists.2 ⟨c, hlive⟩)
  refine ⟨hmirrors.edit hlayout hplace v, ?_, hfiles⟩
  have hreports : (sh.conn.eventMsg op (backupFlags true) rel none st).reportsBackup = true := by
    rw [Conn.reportsBackup_eventMsg]
    rcases hop with rfl | rfl | rfl | rfl <;> decide
  have hnew : (sh.conn.eventMsg op (backupFlags true) rel none st).reportsNewFile = false := by
    rw [Conn.reportsNewFile_eventMsg]
    decide
  have htold := h.told.backedUp hreports hnew ⟨hrel, _, _, _, rfl⟩ hfits
    (Function.update a.saved (pathComponents rel)
      ((a.saved (pathComponents rel)).or (a.live (pathComponents rel))))
    (by rw [Function.update_self, hlive]; cases a.saved (pathComponents rel) <;> rfl)
    fun l hl => Function.update_of_ne hl ..
  exact ⟨htold.backup, htold.saved, htold.newFile, htold.made⟩

/-- The tree and the messages after a new file. -/
theorem Tracks.create (h : Tracks sh eventId fs0 s a)
    (hlayout : Layout sh.root sh.backups eventId) (hrel : Followed sh.conn eventId rel)
    (hplace : Place sh.root fs0 (pathComponents rel)) (v : Content)
    (hfiles : ∀ file ∈ files, Handled sh eventId (a.create (pathComponents rel) v) file) :
    Tracks sh eventId fs0 ⟨⟨s.vfs.fs.setFile (sh.loc rel) (some v),
      s.vfs.sent ++ [sh.conn.eventMsg opOpen flagNewFile rel none none]⟩, files⟩
      (a.create (pathComponents rel) v) := by
  have hnew : (sh.conn.eventMsg opOpen flagNewFile rel none none).reportsNewFile = true := by
    rw [Conn.reportsNewFile_eventMsg]
    decide
  have htold := h.told.created (by rw [Conn.reportsBackup_eventMsg]; decide) hnew
    ⟨hrel, _, _, _, rfl⟩
  exact ⟨(h.mirrors.edit hlayout hplace (some v)).note hplace,
    ⟨htold.backup, htold.saved, htold.newFile, htold.made⟩, hfiles⟩

/-- A file can only be made where there is a place for it. -/
theorem Mirrors.place {fs : Fs} (h : Mirrors sh eventId fs0 fs a)
    (hstart : ShareStart sh eventId fs0) (hrel : Followed sh.conn eventId rel)
    (hnone : fs.node (sh.loc rel) = none)
    (hparent : fs.lookup (sh.loc rel).dropLast = some .directory) :
    Place sh.root fs0 (pathComponents rel) := by
  have hdrop : (sh.loc rel).dropLast = sh.root ++ (pathComponents rel).dropLast :=
    List.dropLast_append_of_ne_nil hrel.named
  rw [hdrop, Fs.lookup_of_ne_nil fun h0 => sh.root_ne_nil (List.append_eq_nil_iff.1 h0).1,
    h.dir] at hparent
  refine ⟨hrel.named, fun x hx hne => ?_, ?_⟩
  · have hxd : x <+: (pathComponents rel).dropLast := by
      obtain ⟨t, ht⟩ := hx
      have htne : t ≠ [] := by
        rintro rfl
        exact hne (by rw [← ht, List.append_nil])
      rw [← ht, List.dropLast_append_of_ne_nil htne]
      exact List.prefix_append _ _
    by_cases hxe : x = (pathComponents rel).dropLast
    · rw [hxe]; exact hparent
    · exact hstart.parents _ _ hparent x hxd hxe
  · cases hnode : fs0.node (sh.root ++ pathComponents rel) with
    | none => exact .inl rfl
    | some n =>
      cases n with
      | regular c => exact .inr ⟨c, rfl⟩
      | directory =>
        have hdir := (h.dir _).2 hnode
        rw [Share.loc] at hnone
        rw [hnone] at hdir
        cases hdir
      | other => exact absurd hnode (hstart.other _)

/-! ## Open files -/

/-- What is covered stays covered, and what is changed is. -/
theorem covered_change {l l' : Loc} (v : Option Content)
    (h : a.covered l' = true ∨ l' = l ∧ (a.live l).isSome) : (a.change l v).covered l' = true := by
  unfold FirstCopy.State.covered FirstCopy.State.change at *
  dsimp only
  by_cases hll : l' = l
  · subst hll
    rw [Function.update_self]
    rcases h with h | ⟨-, h⟩
    · cases hs : a.saved l' with
      | none => simpa [hs] using Or.inr (by simpa [hs] using h)
      | some x => simp
    · cases a.saved l' <;> simp [h]
  · rw [Function.update_of_ne hll]
    exact h.resolve_right fun h => hll h.1

theorem covered_create {l l' : Loc} (v : Content) (h : a.covered l' = true ∨ l' = l) :
    (a.create l v).covered l' = true := by
  unfold FirstCopy.State.covered FirstCopy.State.create at *
  dsimp only
  by_cases hll : l' = l
  · subst hll
    rw [Function.update_self, Bool.or_true]
  · rw [Function.update_of_ne hll]
    exact h.resolve_right hll

/-- The open files keep what holds of them when a file is changed but stays. -/
theorem Tracks.handled_change (h : Tracks sh eventId fs0 s a) {l : Loc} (v : Content)
    {file : OpenFile} (hfile : file ∈ s.files) : Handled sh eventId (a.change l (some v)) file :=
  (h.handled file hfile).mono
    (fun l' hl _ => by
      show (Function.update a.live l (some v) l').isSome = true
      by_cases hll : l' = l
      · rw [hll, Function.update_self]; rfl
      · rwa [Function.update_of_ne hll])
    fun _ hc => covered_change _ (.inl hc)

/-- The same when a file is made. -/
theorem Tracks.handled_create (h : Tracks sh eventId fs0 s a) {l : Loc} (v : Content)
    {file : OpenFile} (hfile : file ∈ s.files) : Handled sh eventId (a.create l v) file :=
  (h.handled file hfile).mono
    (fun l' hl _ => by
      show (Function.update a.live l (some v) l').isSome = true
      by_cases hll : l' = l
      · rw [hll, Function.update_self]; rfl
      · rwa [Function.update_of_ne hll])
    fun _ hc => covered_create _ (.inl hc)

/-- The same when a covered file is written. -/
theorem Tracks.handled_write (h : Tracks sh eventId fs0 s a) {l : Loc} (v : Content)
    {file : OpenFile} (hfile : file ∈ s.files) : Handled sh eventId (a.write l v) file :=
  (h.handled file hfile).mono
    (fun l' hl _ => by
      show (Function.update a.live l (some v) l').isSome = true
      by_cases hll : l' = l
      · rw [hll, Function.update_self]; rfl
      · rwa [Function.update_of_ne hll])
    fun _ hc => hc

/-- The same when a file is taken away and the names that lead to it are marked. -/
theorem Tracks.handled_unlinked (h : Tracks sh eventId fs0 s a) {file : OpenFile}
    (hfile : file ∈ sh.unlinked rel s.files) :
    Handled sh eventId (a.change (pathComponents rel) none) file := by
  obtain ⟨old, hold, rfl⟩ := List.mem_map.1 hfile
  have hh := h.handled old hold
  split
  · exact ⟨hh.followed, hh.name, hh.tracked, fun hl => by cases hl⟩
  · next hne =>
    refine { hh with linked := fun hl => ⟨?_, covered_change _ (.inl (hh.linked hl).2)⟩ }
    have hll : pathComponents old.rel ≠ pathComponents rel := fun heq => hne (by
      rw [Share.loc, Share.loc, heq])
    show (Function.update a.live (pathComponents rel) none (pathComponents old.rel)).isSome = true
    rw [Function.update_of_ne hll]
    exact (hh.linked hl).1

/-! ## Opens and unlinks -/

/-- The handle of an open that was backed up, or that made the file, is good. -/
theorem handled_opened (hrel : Followed sh.conn eventId rel) {ext : Option FileState}
    (hext : ∀ fst, ext = some fst → fst.isRisky = true ∧ fst.backupDone = true)
    (hlive : (a.live (pathComponents rel)).isSome) (hcovered : a.covered (pathComponents rel) = true) :
    Handled sh eventId a ⟨rel, true, ⟨some rel, ext⟩⟩ :=
  ⟨hrel, rfl, hext, fun _ => ⟨hlive, hcovered⟩⟩

theorem Tracks.openAt (h : Tracks sh eventId fs0 s a) (hstart : ShareStart sh eventId fs0)
    (hopen : sh.conn.sockOpen = true) (hprotect : sh.conn.protect = true) (env : VfsEnv)
    (smbName : Option CStr) (creat trunc ok : Bool)
    (hgood : (SmbOp.openAt env smbName rel creat trunc ok).Granted sh eventId s) :
    Matched sh eventId fs0 s (.openAt env smbName rel creat trunc ok) a := by
  obtain ⟨hfree, hrel, hok⟩ := hgood
  have hiff : (SmbOp.openAt env smbName rel creat trunc ok).BacksUpOld sh fs0 s ↔
      ((a.live (pathComponents rel)).isSome → (fileAt sh.root fs0 (pathComponents rel)).isSome) := by
    show (IsFile _ _ → IsFile _ _) ↔ _
    rw [hrel.isFile_iff h.mirrors, hrel.isFile_start_iff]
  cases hlive : a.live (pathComponents rel) with
  | some c =>
    have hfile : s.vfs.fs.stat (sh.conn.fullPath rel) = some (.regular c) := by
      rw [hrel.stat]
      exact (h.mirrors.live _ c).1 hlive
    obtain ⟨fs1, hbackup⟩ : ∃ fs1, doBackup env.backup sh.conn.storePath.str
        (sh.conn.fullPath rel) sh.conn.shareName rel s.vfs.fs = (true, fs1) :=
      ⟨_, Prod.ext (hok ⟨c, hfile⟩) rfl⟩
    have hsome : (a.live (pathComponents rel)).isSome := by rw [hlive]; rfl
    have hthere := h.file_after_backup hstart.layout hlive hfile hbackup
    obtain ⟨r, v, hrun⟩ := Next.openFile_file (sh.loc_off_store rel) hthere creat trunc ok
    refine matched_change (some v) hsome ?_ (hiff.trans ⟨fun ho => ho hsome, fun ho _ => ho⟩)
    simp only [smbStep]
    rw [gfOpenat_named hprotect hrel.proc, openNamed_existing hopen hfree hfile hbackup, hrun]
    refine h.change hstart.layout hrel hlive hbackup _ (.inr (.inl rfl)) (some v)
      fun file hmem => ?_
    split at hmem
    · rcases List.mem_append.1 hmem with hmem | hmem
      · exact h.handled_change v hmem
      · rw [List.mem_singleton.1 hmem]
        refine handled_opened hrel (fun fst hfst => ?_) ?_ (covered_change _ (.inr ⟨rfl, hsome⟩))
        · split at hfst
          · cases hfst; exact ⟨rfl, rfl⟩
          · cases hfst
        · show (Function.update a.live _ (some v) _).isSome = true
          rw [Function.update_self]; rfl
    · exact h.handled_change v hmem
  | none =>
    have hmissing : ∀ c, s.vfs.fs.node (sh.loc rel) ≠ some (.regular c) := fun c hc => by
      rw [(h.mirrors.live _ c).2 hc] at hlive; cases hlive
    have hfile : ∀ c, s.vfs.fs.stat (sh.conn.fullPath rel) ≠ some (.regular c) := fun c => by
      rw [hrel.stat]; exact hmissing c
    have hold : (SmbOp.openAt env smbName rel creat trunc ok).BacksUpOld sh fs0 s :=
      hiff.2 fun ho => by rw [hlive] at ho; cases ho
    rcases Next.openFile_missing (sh.loc_off_store rel) hmissing creat trunc ok with
      hrun | ⟨hcreat, hnone, hparent, hrun⟩
    · refine matched_nil ?_ hold
      simp only [smbStep]
      rw [gfOpenat_named hprotect hrel.proc, openNamed_missing hopen hfree hfile, hrun]
      dsimp only
      have hneg : ¬ (0 : Int) ≤ -1 := by decide
      rw [if_neg fun h => hneg h.2, if_neg hneg, List.append_nil]
      exact ⟨h.mirrors, h.told, h.handled⟩
    · have hplace := h.mirrors.place hstart hrel hnone hparent
      refine ⟨[.create (pathComponents rel) []], ?_, iff_of_true hold ⟨trivial, trivial⟩⟩
      rw [Runs.run_cons, Runs.run_nil, FirstCopy.step, if_neg (by rw [hlive]; simp)]
      simp only [smbStep]
      rw [gfOpenat_named hprotect hrel.proc, openNamed_missing hopen hfree hfile, hrun]
      dsimp only
      rw [if_pos ⟨hcreat, Int.le_refl 0⟩, if_pos (Int.le_refl 0)]
      refine h.create hstart.layout hrel hplace [] fun file hmem => ?_
      rcases List.mem_append.1 hmem with hmem | hmem
      · exact h.handled_create [] hmem
      · rw [List.mem_singleton.1 hmem]
        refine handled_opened hrel (fun fst hfst => ?_) ?_ (covered_create _ (.inr rfl))
        · split at hfst
          · cases hfst; exact ⟨rfl, rfl⟩
          · cases hfst
        · show (Function.update a.live _ (some []) _).isSome = true
          rw [Function.update_self]; rfl

/-- An unlink. -/
theorem Tracks.unlinkAt (h : Tracks sh eventId fs0 s a) (hstart : ShareStart sh eventId fs0)
    (hopen : sh.conn.sockOpen = true) (hprotect : sh.conn.protect = true) (env : VfsEnv)
    (ok : Bool) (hgood : (SmbOp.unlinkAt env rel ok).Granted sh eventId s) :
    Matched sh eventId fs0 s (.unlinkAt env rel ok) a := by
  obtain ⟨hfree, hrel, hok⟩ := hgood
  have hiff : (SmbOp.unlinkAt env rel ok).BacksUpOld sh fs0 s ↔
      ((a.live (pathComponents rel)).isSome → (fileAt sh.root fs0 (pathComponents rel)).isSome) := by
    show (IsFile _ _ → IsFile _ _) ↔ _
    rw [hrel.isFile_iff h.mirrors, hrel.isFile_start_iff]
  cases hlive : a.live (pathComponents rel) with
  | some c =>
    have hfile : s.vfs.fs.stat (sh.conn.fullPath rel) = some (.regular c) := by
      rw [hrel.stat]
      exact (h.mirrors.live _ c).1 hlive
    obtain ⟨fs1, hbackup⟩ : ∃ fs1, doBackup env.backup sh.conn.storePath.str
        (sh.conn.fullPath rel) sh.conn.shareName rel s.vfs.fs = (true, fs1) :=
      ⟨_, Prod.ext (hok ⟨c, hfile⟩) rfl⟩
    have hsome : (a.live (pathComponents rel)).isSome := by rw [hlive]; rfl
    have hthere := h.file_after_backup hstart.layout hlive hfile hbackup
    rcases Next.unlink_file (sh.loc_off_store rel) hthere ok with hrun | hrun
    · refine matched_change none hsome ?_ (hiff.trans ⟨fun ho => ho hsome, fun ho _ => ho⟩)
      simp only [smbStep]
      rw [gfUnlinkat_existing hprotect hopen hfree hfile hbackup, hrun]
      exact h.change hstart.layout hrel hlive hbackup _ (.inr (.inr (.inr rfl))) none
        fun file hmem => h.handled_unlinked hmem
    · refine matched_change (some c) hsome ?_ (hiff.trans ⟨fun ho => ho hsome, fun ho _ => ho⟩)
      simp only [smbStep]
      rw [gfUnlinkat_existing hprotect hopen hfree hfile hbackup, hrun]
      exact h.change hstart.layout hrel hlive hbackup _ (.inr (.inr (.inr rfl))) (some c)
        fun file hmem => h.handled_change c hmem
  | none =>
    have hmissing : ∀ c, s.vfs.fs.node (sh.loc rel) ≠ some (.regular c) := fun c hc => by
      rw [(h.mirrors.live _ c).2 hc] at hlive; cases hlive
    have hfile : ∀ c, s.vfs.fs.stat (sh.conn.fullPath rel) ≠ some (.regular c) := fun c => by
      rw [hrel.stat]; exact hmissing c
    refine matched_nil ?_ (hiff.2 fun ho => by rw [hlive] at ho; cases ho)
    simp only [smbStep]
    rw [gfUnlinkat_missing hprotect hopen hfree hfile,
      Next.unlink_missing (sh.loc_off_store rel) hmissing (h.mirrors.other _)]
    exact ⟨h.mirrors, h.told.silent (by rw [Conn.reportsBackup_eventMsg]; decide)
      (by rw [Conn.reportsNewFile_eventMsg]; decide), h.handled⟩

/-! ## Calls on open files -/

/-- What the next module does to the file behind a good handle: it changes the content of a
covered file, or nothing. -/
theorem Handled.editFile {fs : Fs} {file : OpenFile} (h : Handled sh eventId a file)
    (hm : Mirrors sh eventId fs0 fs a) (f : Content → Content) :
    (sh.editFile file f).run fs = (0, fs) ∨
      ∃ c, a.live (pathComponents file.rel) = some c ∧ a.covered (pathComponents file.rel) = true ∧
        (sh.editFile file f).run fs = (0, fs.setFile (sh.loc file.rel) (some (f c))) := by
  unfold Share.editFile
  split
  · next hlinked =>
    obtain ⟨hlive, hcovered⟩ := h.linked hlinked
    obtain ⟨c, hc⟩ := Option.isSome_iff_exists.1 hlive
    refine .inr ⟨c, hc, hcovered, ?_⟩
    have hnode : fs.node (sh.loc file.rel) = some (.regular c) := (hm.live _ c).1 hc
    simp only [Next.edit, hnode]
    rfl
  · exact .inl rfl

/-- The open files after a call that only changes the state of one handle. -/
theorem handled_set {n : Nat} {file file' : OpenFile}
    (hfiles : ∀ file ∈ files, Handled sh eventId a file)
    (hhandle : Handled sh eventId a file') (hmem : file ∈ files.set n file') :
    Handled sh eventId a file := by
  rcases List.mem_or_eq_of_mem_set hmem with hmem | rfl
  · exact hfiles file hmem
  · exact hhandle

/-- A call through a good handle that only lets the next module run. -/
theorem Tracks.passes (h : Tracks sh eventId fs0 s a) (hstart : ShareStart sh eventId fs0)
    {op : SmbOp} {n : Nat} {file : OpenFile} {f : Content → Content}
    (hget : s.files[n]? = some file) (hold : op.BacksUpOld sh fs0 s)
    (hstep : smbStep sh s op = ⟨⟨((sh.editFile file f).run s.vfs.fs).2, s.vfs.sent⟩,
      s.files.set n file⟩) : Matched sh eventId fs0 s op a := by
  have hfile := List.mem_of_getElem? hget
  have hset : s.files.set n file = s.files := by
    obtain ⟨hn, rfl⟩ := List.getElem?_eq_some_iff.1 hget
    exact List.set_getElem_self hn
  rw [hset] at hstep
  rcases (h.handled file hfile).editFile h.mirrors f with hrun | ⟨c, hlive, hcovered, hrun⟩
  · refine matched_nil ?_ hold
    rw [hstep, hrun]
    exact ⟨h.mirrors, h.told, h.handled⟩
  · refine ⟨[.write (pathComponents file.rel) (f c)], ?_, iff_of_true hold ⟨trivial, trivial⟩⟩
    have hsome : ((a.live (pathComponents file.rel)).isSome &&
        a.covered (pathComponents file.rel)) = true := by
      rw [hlive, hcovered]; rfl
    rw [Runs.run_cons, Runs.run_nil, FirstCopy.step, if_pos hsome, hstep, hrun]
    have hplace := h.mirrors.coveredPlace _ hcovered
    exact ⟨h.mirrors.edit hstart.layout hplace (some (f c)),
      ⟨h.told.backup, h.told.saved, h.told.newFile, h.told.made⟩,
      fun file' hmem => h.handled_write (f c) hmem⟩

/-- A write. -/
theorem Tracks.pwrite (h : Tracks sh eventId fs0 s a) (hstart : ShareStart sh eventId fs0)
    (env : VfsEnv) (n : Nat) (f : Content → Content)
    (hfree : (SmbOp.pwrite env n f).Granted sh eventId s) :
    Matched sh eventId fs0 s (.pwrite env n f) a := by
  cases hget : s.files[n]? with
  | none =>
    refine matched_nil ?_ trivial
    simp only [smbStep, hget]
    exact h
  | some file =>
    refine h.passes (f := f) hstart hget trivial ?_
    simp only [smbStep, hget]
    rw [gfPwrite_passes hfree (h.handled file (List.mem_of_getElem? hget)).tracked]
    rfl

/-- The flags of a close say nothing of a new file. -/
theorem closeFlags_newFile (conn : Conn) (env : VfsEnv) (fst : FileState) (fs : Fs) :
    hasFlag (closeFlags conn env fst fs) flagNewFile = false := by
  simp only [closeFlags]
  split
  · decide
  · decide

/-- A close. -/
theorem Tracks.close (h : Tracks sh eventId fs0 s a) (hopen : sh.conn.sockOpen = true)
    (env : VfsEnv) (n : Nat) : Matched sh eventId fs0 s (.close env n) a := by
  refine matched_nil ?_ trivial
  cases hget : s.files[n]? with
  | none =>
    simp only [smbStep, hget]
    exact h
  | some file =>
    have hfiles : ∀ file' ∈ s.files.eraseIdx n, Handled sh eventId a file' := fun file' hmem =>
      h.handled file' (List.mem_of_mem_eraseIdx hmem)
    cases hext : file.handle.ext with
    | none =>
      simp only [smbStep, hget, gfClose, hext]
      exact ⟨h.mirrors, h.told, hfiles⟩
    | some fst =>
      -- a close is no operation that reports a backup, whatever its flags say
      have htold := h.told.silent
        ((Conn.reportsBackup_eventMsg sh.conn opClose (closeFlags sh.conn env fst s.vfs.fs)
          fst.relativePath.str none).trans (Bool.and_false _))
        ((Conn.reportsNewFile_eventMsg ..).trans (closeFlags_newFile ..))
      simp only [smbStep, hget, gfClose, hext]
      split
      · rw [Conn.sendEvent_of_open hopen]
        exact ⟨h.mirrors, htold, hfiles⟩
      · exact ⟨h.mirrors, h.told, hfiles⟩

/-- A truncation. -/
theorem Tracks.ftruncate (h : Tracks sh eventId fs0 s a) (hstart : ShareStart sh eventId fs0)
    (hopen : sh.conn.sockOpen = true) (hprotect : sh.conn.protect = true) (env : VfsEnv) (n : Nat)
    (f : Content → Content) (hgood : (SmbOp.ftruncate env n f).Granted sh eventId s) :
    Matched sh eventId fs0 s (.ftruncate env n f) a := by
  obtain ⟨hfree, hok⟩ := hgood
  cases hget : s.files[n]? with
  | none =>
    refine matched_nil ?_ fun file hfile => by rw [hget] at hfile; cases hfile
    simp only [smbStep, hget]
    exact h
  | some file =>
    have hh := h.handled file (List.mem_of_getElem? hget)
    have hrel := hh.followed
    cases hext : file.handle.ext with
    | some fst =>
      have hold : (SmbOp.ftruncate env n f).BacksUpOld sh fs0 s := fun file' hfile' hnone => by
        rw [hget] at hfile'
        cases hfile'
        rw [hext] at hnone
        cases hnone
      refine h.passes (f := f) hstart hget hold ?_
      obtain ⟨hrisky, hdone⟩ := hh.tracked fst hext
      simp only [smbStep, hget]
      rw [gfFtruncate_tracked hfree hext hrisky hdone]
      rfl
    | none =>
      have hiff : (SmbOp.ftruncate env n f).BacksUpOld sh fs0 s ↔
          ((a.live (pathComponents file.rel)).isSome →
            (fileAt sh.root fs0 (pathComponents file.rel)).isSome) := by
        rw [← hrel.isFile_iff h.mirrors, ← hrel.isFile_start_iff]
        refine ⟨fun ho => ho file hget hext, fun ho file' hfile' _ => ?_⟩
        rw [hget] at hfile'
        cases hfile'
        exact ho
      cases hlive : a.live (pathComponents file.rel) with
      | none =>
        have hfile : ∀ c, s.vfs.fs.stat (sh.conn.fullPath file.rel) ≠ some (.regular c) := by
          intro c hc
          rw [hrel.stat] at hc
          rw [(h.mirrors.live _ c).2 hc] at hlive
          cases hlive
        refine h.passes (f := f) hstart hget (hiff.2 fun ho => by rw [hlive] at ho; cases ho) ?_
        simp only [smbStep, hget]
        rw [gfFtruncate_missing hfree hext hh.name hrel.proc hfile]
        rfl
      | some c =>
        have hfile : s.vfs.fs.stat (sh.conn.fullPath file.rel) = some (.regular c) := by
          rw [hrel.stat]
          exact (h.mirrors.live _ c).1 hlive
        obtain ⟨fs1, hbackup⟩ : ∃ fs1, doBackup env.backup sh.conn.storePath.str
            (sh.conn.fullPath file.rel) sh.conn.shareName file.rel s.vfs.fs = (true, fs1) :=
          ⟨_, Prod.ext (hok file hget ⟨c, hfile⟩) rfl⟩
        have hsome : (a.live (pathComponents file.rel)).isSome := by rw [hlive]; rfl
        have hthere := h.file_after_backup hstart.layout hlive hfile hbackup
        obtain ⟨-, hmirrors⟩ := h.mirrors.backup hstart.layout hlive hfile hbackup
        -- the content after the truncation of the file, if the handle still leads to it
        obtain ⟨v, hrun⟩ : ∃ v, (sh.editFile file f).run fs1 =
            (0, fs1.setFile (sh.loc file.rel) (some v)) := by
          have hh1 : Handled sh eventId { a with
              saved := Function.update a.saved (pathComponents file.rel)
                ((a.saved (pathComponents file.rel)).or (a.live (pathComponents file.rel))) }
              file := hh.mono (fun _ hl _ => hl) fun _ hc => covered_change none (.inl hc)
          rcases hh1.editFile hmirrors f with hrun | ⟨c', -, -, hrun⟩
          · exact ⟨c, by rw [hrun, Fs.setFile_eq_self hthere]⟩
          · exact ⟨f c', hrun⟩
        refine matched_change (some v) hsome ?_ (hiff.trans ⟨fun ho => ho hsome, fun ho _ => ho⟩)
        simp only [smbStep, hget]
        rw [gfFtruncate_existing hprotect hopen hfree hext hh.name hrel.proc hfile hbackup, hrun]
        refine h.change hstart.layout hrel hlive hbackup _ (.inr (.inr (.inl rfl))) (some v)
          fun file' hmem => ?_
        refine handled_set (fun file' hmem => h.handled_change v hmem) ?_ hmem
        have hh2 : Handled sh eventId (a.change (pathComponents file.rel) (some v)) file :=
          h.handled_change v (List.mem_of_getElem? hget)
        split
        · exact ⟨hh2.followed, hh2.name, fun fst hfst => by cases hfst; exact ⟨rfl, rfl⟩,
            hh2.linked⟩
        · exact hh2

/-- Every granted call is matched. -/
theorem Tracks.step (h : Tracks sh eventId fs0 s a) (hstart : ShareStart sh eventId fs0)
    (hopen : sh.conn.sockOpen = true) (hprotect : sh.conn.protect = true) (op : SmbOp)
    (hgood : op.Granted sh eventId s) : Matched sh eventId fs0 s op a := by
  cases op with
  | openAt env smbName rel creat trunc ok =>
    exact h.openAt hstart hopen hprotect env smbName creat trunc ok hgood
  | pwrite env n f => exact h.pwrite hstart env n f hgood
  | ftruncate env n f => exact h.ftruncate hstart hopen hprotect env n f hgood
  | close env n => exact h.close hopen env n
  | unlinkAt env rel ok => exact h.unlinkAt hstart hopen hprotect env ok hgood

/-- So is every session whose calls are granted. -/
theorem exists_tracks (hstart : ShareStart sh eventId fs0) (hopen : sh.conn.sockOpen = true)
    (hprotect : sh.conn.protect = true) (ops : List SmbOp)
    (hgood : Runs.AllSteps (smbStep sh) (fun s op => op.Granted sh eventId s) ⟨⟨fs0, []⟩, []⟩ ops) :
    ∃ cops, Tracks sh eventId fs0 (Runs.run (smbStep sh) ⟨⟨fs0, []⟩, []⟩ ops)
        (Runs.run FirstCopy.step (.start (fileAt sh.root fs0)) cops) ∧
      (Runs.AllSteps (smbStep sh) (fun s op => op.BacksUpOld sh fs0 s) ⟨⟨fs0, []⟩, []⟩ ops ↔
        Runs.AllSteps FirstCopy.step (FirstCopy.SavesOld (fileAt sh.root fs0))
          (.start (fileAt sh.root fs0)) cops) :=
  Runs.exists_run (Tracks sh eventId fs0) (fun _ _ op h hg => h.step hstart hopen hprotect op hg)
    ⟨hstart.mirrors, told_nil _, by simp⟩ hgood

end

end GfrGuard
