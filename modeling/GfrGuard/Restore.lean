import GfrGuard.NameOps
import GfrGuard.ShareSteps

/-!
# Undoing a session

A session works on a share, its messages are recorded under one event, and that event is
restored (`Incident`). The share is then as it was before the first call exactly when no call
backed up a path that was no file before the first call (`restore_undoes_iff`): what a
session creates and later overwrites or removes is put back by the second phase, after the
first has taken it away.
-/

namespace GfrGuard

/-- The session, from its first call on. -/
def session (sh : Share) (fs0 : Fs) (ops : List SmbOp) : ShareState :=
  Runs.run (smbStep sh) ⟨⟨fs0, []⟩, []⟩ ops

/-- The calls of a session, each in the state it is made in. -/
def Calls (sh : Share) (fs0 : Fs) (P : ShareState → SmbOp → Prop) (ops : List SmbOp) : Prop :=
  Runs.AllSteps (smbStep sh) P ⟨⟨fs0, []⟩, []⟩ ops

/-- A session whose messages are all recorded under one event without rows, and the command
line that restores it. -/
structure Incident (sh : Share) (eventId : CStr) (fs0 : Fs) (ops : List SmbOp) (d : Daemon)
    (ms : List (CallEnv × EventMsg)) (argv : List CStr) : Prop where
  start : ShareStart sh eventId fs0
  sockOpen : sh.conn.sockOpen = true
  protect : sh.conn.protect = true
  granted : Calls sh fs0 (fun s op => op.Granted sh eventId s) ops
  rows : d.db.queryByEvent eventId = []
  created : d.db.queryCreatedByEvent eventId = []
  store : d.policy.storePath.str = sh.conn.storePath.str
  sent : ms.map Prod.snd = (session sh fs0 ops).vfs.sent
  carried : Runs.AllSteps deliver (fun d m => Carries eventId m.1 m.2 d) d ms
  event : eventArg argv = some eventId

/-- The tree after the session and the restore of the event. -/
def undone (sh : Share) (fs0 : Fs) (ops : List SmbOp) (d : Daemon)
    (ms : List (CallEnv × EventMsg)) (io : RecoverIo) (argv : List CStr) : Fs :=
  (cmdRestore io argv (session sh fs0 ops).vfs.fs (Runs.run deliver d ms).db).2.1

section
variable {sh : Share} {eventId rel : CStr} {fs fs0 : Fs} {s : ShareState} {l : Loc} {db : Db}
  {a : FirstCopy.State Loc Content} {io : RecoverIo}

/-- Files stay at places for files. -/
theorem Mirrors.filePlaces (h : Mirrors sh eventId fs0 fs a) :
    FilePlaces sh.root fs (Place sh.root fs0) where
  dirs l hl x hx hne := (h.dir x).2 (hl.dirs x hx hne)
  file l hl := by
    cases hnode : fs.node (sh.root ++ l) with
    | none => exact .inl rfl
    | some n =>
      cases n with
      | regular c => exact .inr ⟨c, rfl⟩
      | directory => exact absurd ((h.dir l).1 hnode) hl.not_dir
      | other => exact absurd hnode (h.other l)

/-- What a message tells of, the recovery tool finds. -/
theorem TellsOf.sharePath {msg : EventMsg} (h : TellsOf sh eventId msg rel) :
    SharePath sh.root eventId msg.filePath.str (pathComponents rel) := by
  obtain ⟨hrel, op, flags, st, rfl⟩ := h
  rw [Conn.eventMsg_filePath, Conn.fullPath_of_fits hrel.meets.pathFits]
  exact hrel.sharePath

theorem TellsOf.recorded {msg : EventMsg} (h : TellsOf sh eventId msg rel)
    (hfits : BackupFits sh.conn rel) :
    recordBackupPath sh.conn.storePath.str msg =
      some (backupsPath sh.conn.storePath.str sh.conn.shareName rel) := by
  obtain ⟨hrel, op, flags, st, rfl⟩ := h
  exact recordBackupPath_eventMsg hrel.meets op flags none st hfits

/-- The row of a preimage leads to it. -/
theorem TellsOf.preimageRow {msg : EventMsg} {pf : ProtectedFile}
    (h : TellsOf sh eventId msg rel) (hfits : BackupFits sh.conn rel)
    (hpath : recordBackupPath sh.conn.storePath.str msg = some pf.backupPath)
    (horiginal : pf.originalPath = msg.filePath.str) (hpending : pf.restoreStatus = lit "pending")
    (hevent : pf.eventId = eventId) :
    PreimageRow sh.root sh.backups eventId pf (pathComponents rel) := by
  rw [h.recorded hfits, Option.some.injEq] at hpath
  refine ⟨horiginal ▸ h.sharePath, hpending, hevent, ?_, hpath ▸ hfits, ?_⟩
  · rw [← hpath, ← sh.backupLoc_eq]
    rfl
  · have hlast := h.1.last
    rw [← hpath, backupsPath, List.getLast?_append, List.getLast?_cons,
      List.getLast?_eq_getLast_of_ne_nil h.1.rel_ne_nil]
    rwa [List.getLast?_eq_getLast_of_ne_nil h.1.rel_ne_nil] at hlast

/-- The share after the restore. -/
theorem Tracks.node_restored (h : Tracks sh eventId fs0 s a)
    (hstart : ShareStart sh eventId fs0) (hio : io.Succeeds)
    (hrows : RowsFor eventId sh.conn.storePath.str s.vfs.sent db) (l : Loc) :
    (restoreEvent io eventId s.vfs.fs db).fs.node (sh.root ++ l) =
      match a.saved l with
      | some c => some (.regular c)
      | none => if a.made l then none else s.vfs.fs.node (sh.root ++ l) := by
  have hcovered : ∀ l, (a.saved l).isSome ∨ a.made l = true → Place sh.root fs0 l := fun l hl =>
    h.mirrors.coveredPlace l (by simpa [FirstCopy.State.covered] using hl)
  refine restoreEvent_node hio hstart.layout h.mirrors.quarantine h.mirrors.filePlaces
    (fun cf hcf => ?_) (fun l hl => ?_) (fun pf hpf => ?_) (fun l hl => ?_)
    (fun l c hl => (h.mirrors.saved l c).1 hl) l
  · obtain ⟨msg, hmsg, hnew, hfile⟩ := hrows.created cf hcf
    obtain ⟨rel, htells, hmade⟩ := h.told.newFile msg hmsg hnew
    exact ⟨_, hcovered _ (.inr hmade), hfile ▸ htells.sharePath, hmade⟩
  · obtain ⟨msg, hmsg, hnew, rel, htells, rfl⟩ := h.told.made l hl
    obtain ⟨cf, hcf, hfile⟩ := hrows.made msg hmsg hnew
    exact ⟨cf, hcf, hfile ▸ htells.sharePath⟩
  · obtain ⟨msg, hmsg, hreports, hpath, horiginal, hpending⟩ := hrows.preimage pf hpf
    obtain ⟨rel, htells, hfits, hsaved⟩ := h.told.backup msg hmsg hreports
    exact ⟨_, hcovered _ (.inl hsaved), htells.preimageRow hfits hpath horiginal hpending
      (mem_queryByEvent_iff.1 hpf).2, hsaved⟩
  · obtain ⟨msg, hmsg, hreports, rel, htells, hfits, rfl⟩ := h.told.saved l hl
    obtain ⟨pf, hpf, hfile⟩ := hrows.reported msg hmsg hreports
      (by rw [htells.recorded hfits]; rfl)
    exact ⟨pf, hpf, hfile ▸ htells.sharePath⟩

/-- The share after the restore is the share before the first call exactly when the restored
table is the first one. -/
theorem Tracks.restored_iff (h : Tracks sh eventId fs0 s a) (hstart : ShareStart sh eventId fs0)
    (hio : io.Succeeds) (hrows : RowsFor eventId sh.conn.storePath.str s.vfs.sent db) :
    (∀ l, (restoreEvent io eventId s.vfs.fs db).fs.node (sh.root ++ l) =
      fs0.node (sh.root ++ l)) ↔ a.restore = fileAt sh.root fs0 := by
  have hnode := h.node_restored hstart hio hrows
  generalize (restoreEvent io eventId s.vfs.fs db).fs = fs1 at hnode
  have hfile : fileAt sh.root fs1 = a.restore := by
    funext l
    have hlive : fileAt sh.root s.vfs.fs l = a.live l := Option.ext fun c =>
      fileAt_eq_some_iff.trans (h.mirrors.live l c).symm
    rw [fileAt] at hlive
    rw [fileAt, hnode, FirstCopy.State.restore, ← hlive]
    cases a.saved l with
    | some c => rfl
    | none => cases a.made l <;> rfl
  rw [← hfile]
  refine ⟨fun heq => funext fun l => by rw [fileAt, heq, fileAt], fun heq l => ?_⟩
  -- directories are never touched, nor is anything but files ever there
  have hdir : fs1.node (sh.root ++ l) = some .directory ↔
      fs0.node (sh.root ++ l) = some .directory := by
    rw [← h.mirrors.dir, hnode]
    by_cases hcovered : a.covered l = true
    · have hplace := h.mirrors.coveredPlace l hcovered
      refine iff_of_false ?_ fun hd => hplace.not_dir ((h.mirrors.dir l).1 hd)
      unfold FirstCopy.State.covered at hcovered
      cases hs : a.saved l with
      | some c => simp
      | none =>
        have hmade : a.made l = true := by simpa [hs] using hcovered
        simp [hmade]
    · unfold FirstCopy.State.covered at hcovered
      simp only [Bool.or_eq_true, not_or, Bool.not_eq_true, Option.isSome_eq_false_iff,
        Option.isNone_iff_eq_none] at hcovered
      rw [hcovered.1, hcovered.2]
      exact Iff.rfl
  have hother : fs1.node (sh.root ++ l) ≠ some .other := by
    rw [hnode]
    cases a.saved l with
    | some c => simp
    | none =>
      cases a.made l with
      | true => simp
      | false => exact h.mirrors.other l
  have hat := congrFun heq l
  unfold fileAt at hat
  have hother0 := hstart.other l
  generalize fs1.node (sh.root ++ l) = n1 at *
  generalize fs0.node (sh.root ++ l) = n0 at *
  rcases n1 with - | (c | - | -) <;> rcases n0 with - | (c' | - | -) <;> simp_all

/-- A restore of the event leaves the share as it was before the first call exactly when no
call backed up a path that was no file then. -/
theorem restore_undoes_iff {ops : List SmbOp} {d : Daemon} {ms : List (CallEnv × EventMsg)}
    {argv : List CStr} (h : Incident sh eventId fs0 ops d ms argv) (hio : io.Succeeds) :
    (∀ l, (undone sh fs0 ops d ms io argv).node (sh.root ++ l) = fs0.node (sh.root ++ l)) ↔
      Calls sh fs0 (fun s op => op.BacksUpOld sh fs0 s) ops := by
  obtain ⟨cops, htracks, hold⟩ := exists_tracks h.start h.sockOpen h.protect ops h.granted
  have hnil : RowsFor eventId sh.conn.storePath.str [] d.db := rowsFor_nil h.rows h.created
  have hrows := hnil.run h.store ms h.carried
  rw [List.nil_append, h.sent] at hrows
  have hrestore : (undone sh fs0 ops d ms io argv) =
      (restoreEvent io eventId (session sh fs0 ops).vfs.fs (Runs.run deliver d ms).db).fs := by
    unfold undone cmdRestore
    rw [h.event]
    dsimp only
    split <;> rfl
  rw [hrestore, Calls, hold, ← FirstCopy.restore_run_iff]
  exact htracks.restored_iff h.start hio hrows

end

/-! ## Two sessions -/

/-- The share `home` in `/srv/home`. -/
def homeShare : Share := ⟨homeConn "/srv/home", by decide⟩

/-- The share with one file, `a`. -/
def homeTree : Fs :=
  ((Fs.empty.put [lit "srv"] .directory).put [lit "srv", lit "home"] .directory).put
    [lit "srv", lit "home", lit "a"] (.regular [1])

theorem homeTree_eq_some {l : Loc} {n : Node} (h : homeTree.node l = some n) :
    l = [lit "srv", lit "home", lit "a"] ∧ n = .regular [1] ∨
      (l = [lit "srv", lit "home"] ∨ l = [lit "srv"]) ∧ n = .directory := by
  unfold homeTree at h
  by_cases ha : l = [lit "srv", lit "home", lit "a"]
  · rw [ha, Fs.node_put_self] at h
    exact .inl ⟨ha, (Option.some.inj h).symm⟩
  · rw [Fs.node_put_of_ne ha] at h
    by_cases hhome : l = [lit "srv", lit "home"]
    · rw [hhome, Fs.node_put_self] at h
      exact .inr ⟨.inl hhome, (Option.some.inj h).symm⟩
    · rw [Fs.node_put_of_ne hhome] at h
      by_cases hsrv : l = [lit "srv"]
      · rw [hsrv, Fs.node_put_self] at h
        exact .inr ⟨.inr hsrv, (Option.some.inj h).symm⟩
      · rw [Fs.node_put_of_ne hsrv] at h
        cases h

/-- Nothing stands outside `/srv`. -/
theorem homeTree_eq_none {l : Loc} (h : l.head? ≠ some (lit "srv")) : homeTree.node l = none := by
  cases hnode : homeTree.node l with
  | none => rfl
  | some n =>
    rcases homeTree_eq_some hnode with ⟨rfl, -⟩ | ⟨rfl | rfl, -⟩ <;> exact absurd rfl h

/-- The event of the first message. -/
def homeEvent : CStr := lit "evt-20260101-001"

theorem homeStart : ShareStart homeShare homeEvent homeTree where
  rootDir := by decide
  parents l n h x hx hne := by
    have hroot : homeShare.root = [lit "srv", lit "home"] := by decide
    rw [hroot] at h
    rcases homeTree_eq_some h with ⟨hl, -⟩ | ⟨hl | hl, -⟩
    · obtain rfl : l = [lit "a"] := List.append_cancel_left hl
      rcases List.prefix_cons_iff.1 hx with rfl | ⟨y, rfl, hy⟩
      · decide
      · rw [List.prefix_nil.1 hy] at hne
        exact absurd rfl hne
    · obtain rfl : l = [] := List.append_cancel_left hl
      exact absurd (List.prefix_nil.1 hx) hne
    · cases hl
  other l h := by
    rcases homeTree_eq_some h with ⟨-, hn⟩ | ⟨-, hn⟩ <;> cases hn
  store l n h := by
    have hhead : homeShare.backups.head? = some (lit "var") := by decide
    rw [homeTree_eq_none] at h
    · cases h
    · rw [List.head?_append, hhead, Option.some_or]
      decide
  quarantine := by
    have hhead : (quarantineLoc homeEvent).head? = some (lit "var") := by decide
    refine ⟨fun l hl hne => .inl (homeTree_eq_none ?_), fun x => homeTree_eq_none ?_⟩
    · obtain ⟨t, ht⟩ := hl
      rw [← ht, List.head?_append_of_ne_nil _ hne] at hhead
      rw [hhead]
      decide
    · rw [List.head?_append, hhead, Option.some_or]
      decide
  layout := ⟨by decide, by decide, by decide⟩

theorem homeFollowed (rel : String) (hrel : rel = "a" ∨ rel = "b") :
    Followed homeShare.conn homeEvent (lit rel) := by
  have hroot : RootRecovered homeShare.conn (lit rel) :=
    .inl ⟨lit "/srv", by decide, by decide⟩
  rcases hrel with rfl | rfl
  · exact ⟨⟨by decide, by decide, hroot⟩, by decide, by decide,
      by decide, by decide, by decide⟩
  · exact ⟨⟨by decide, by decide, hroot⟩, by decide, by decide,
      by decide, by decide, by decide⟩

/-- Before the first call there is no `b`. -/
theorem homeTree_not_isFile : ¬ IsFile homeTree (homeShare.conn.fullPath (lit "b")) := by
  have hnone : homeTree.stat (homeShare.conn.fullPath (lit "b")) = none := by decide
  rintro ⟨c, hc⟩
  cases hnone.symm.trans hc

/-- The messages of a session, delivered one second after the start. -/
def homeMessages (ops : List SmbOp) : List (CallEnv × EventMsg) :=
  (session homeShare homeTree ops).vfs.sent.map fun msg => (sampleEnv 1, msg)

/-- The command line that restores the event. -/
def homeArgv : List CStr := [lit "gfrguard-recover", lit "restore", lit "--event", homeEvent]

example : eventArg homeArgv = some homeEvent := by decide

/-- A restore in which nothing fails. -/
def homeIo : RecoverIo :=
  ⟨fun _ => true, fun _ => true, true, true, 0, true, ⟨fun _ _ => false, by simp⟩, lit "now"⟩

theorem homeIncident (ops : List SmbOp)
    (hgranted : Calls homeShare homeTree (fun s op => op.Granted homeShare homeEvent s) ops)
    (hcarried : Runs.AllSteps deliver (fun d m => Carries homeEvent m.1 m.2 d)
      (Daemon.start .default .empty) (homeMessages ops)) :
    Incident homeShare homeEvent homeTree ops (Daemon.start .default .empty) (homeMessages ops)
      homeArgv where
  start := homeStart
  sockOpen := rfl
  protect := rfl
  granted := hgranted
  rows := rfl
  created := rfl
  store := rfl
  sent := by
    rw [homeMessages, List.map_map]
    exact List.map_id _
  carried := hcarried
  event := by decide

/-- The session makes `b` and overwrites `a`. -/
def overwriting : List SmbOp :=
  [.openAt sampleVfsEnv none (lit "b") true false true,
    .openAt sampleVfsEnv none (lit "a") false true true]

/-- The session makes `b` and removes it. -/
def removing : List SmbOp :=
  [.openAt sampleVfsEnv none (lit "b") true false true, .unlinkAt sampleVfsEnv (lit "b") true]

example : (homeMessages removing).length = 2 := by decide

theorem overwriting_incident :
    Incident homeShare homeEvent homeTree overwriting (Daemon.start .default .empty)
      (homeMessages overwriting) homeArgv :=
  homeIncident overwriting
    (And.intro ⟨by decide, homeFollowed "b" (.inr rfl),
        fun hfile => absurd hfile homeTree_not_isFile⟩
      (And.intro ⟨by decide, homeFollowed "a" (.inl rfl), fun _ => by decide⟩
        trivial)) (by decide)

theorem removing_incident :
    Incident homeShare homeEvent homeTree removing (Daemon.start .default .empty)
      (homeMessages removing) homeArgv :=
  homeIncident removing
    (And.intro ⟨by decide, homeFollowed "b" (.inr rfl),
        fun hfile => absurd hfile homeTree_not_isFile⟩
      (And.intro ⟨by decide, homeFollowed "b" (.inr rfl), fun _ => by decide⟩
        trivial)) (by decide)

theorem homeIo_succeeds : homeIo.Succeeds := ⟨fun _ => rfl, rfl, rfl, rfl⟩

/-- A new file and an overwritten one are undone. -/
theorem restore_undoes_sample :
    (fun l => (undone homeShare homeTree overwriting (Daemon.start .default .empty)
      (homeMessages overwriting) homeIo homeArgv).node (homeShare.root ++ l)) =
        fun l => homeTree.node (homeShare.root ++ l) :=
  funext ((restore_undoes_iff overwriting_incident homeIo_succeeds).2
    (And.intro (fun hfile => absurd hfile homeTree_not_isFile)
      (And.intro (fun _ => ⟨[1], by decide⟩) trivial)))

/-- A new file that the session removes is there again after the restore. -/
theorem restore_not_always_undoes :
    ¬ ∀ (sh : Share) (eventId : CStr) (fs0 : Fs) (ops : List SmbOp) (d : Daemon)
      (ms : List (CallEnv × EventMsg)) (argv : List CStr) (io : RecoverIo),
      Incident sh eventId fs0 ops d ms argv → io.Succeeds →
      ∀ l, (undone sh fs0 ops d ms io argv).node (sh.root ++ l) = fs0.node (sh.root ++ l) := by
  intro h
  have hback : (undone homeShare homeTree removing (Daemon.start .default .empty)
      (homeMessages removing) homeIo homeArgv).node (homeShare.root ++ [lit "b"]) =
        some (.regular []) := by
    decide +kernel
  have hnone : homeTree.node (homeShare.root ++ [lit "b"]) = none := by decide
  have hrestored := h _ _ _ _ _ _ _ _ removing_incident homeIo_succeeds [lit "b"]
  cases hback.symm.trans (hrestored.trans hnone)

end GfrGuard
