import GfrGuard.HandleSafety
import GfrGuard.SmbEnforcement

/-!
# A blocked SMB session

A session makes calls on names and on the files it has open, and from some call on its address is
a line of the blocked file. Every callback asks for it, but not on every path: an open that asks
for no write access and not for both creation and truncation, a write through a file the module
does not track and a truncation of one it can neither track nor name run unasked. These are the
only ones (`blocked_session_refused_iff`). `VfsSession.Risky` is the invariant of the files a
session has open: what is tracked is tracked as risky.
-/

namespace GfrGuard

/-! ## Calls of a session -/

/-- An operation of a session. Files are known by a number Samba gives them, and named as Samba
names them at the call. -/
inductive VfsOp where
  | openat (fd : Nat) (smbName fspName nameAfter : Option CStr) (flags : OpenFlags)
  | pwrite (fd : Nat) (name : Option CStr)
  | ftruncate (fd : Nat) (name : Option CStr)
  | renameat (src dst : Option CStr)
  | unlinkat (name : Option CStr)
  | mkdirat (name : Option CStr)
  | close (fd : Nat)

/-- A call, with what it observes and what the next module does. -/
structure VfsCall (store : CStr) where
  env : VfsEnv
  next : Next store
  op : VfsOp

/-- The files a session has open, and the state of the module. -/
structure VfsSession where
  handles : Nat → Option Handle
  state : VfsState

/-- A session without open files. -/
def VfsSession.start (s : VfsState) : VfsSession := ⟨fun _ => none, s⟩

/-- The next module ran and did not fail. -/
def Reply.opened : Reply → Bool
  | .next _ r => 0 ≤ r
  | .deny _ => false

/-- The callback returned -1 without the next module. -/
def Reply.refused : Reply → Bool
  | .deny _ => true
  | .next _ _ => false

/-- A call on an open file; there is none on another. -/
def onHandle (w : VfsSession) (fd : Nat) (call : Handle → VfsState → Reply × Handle × VfsState) :
    Option Reply × VfsSession :=
  match w.handles fd with
  | none => (none, w)
  | some h =>
    let (r, h, s) := call h w.state
    (some r, ⟨Function.update w.handles fd (some h), s⟩)

/-- A call on a name. -/
def onName (w : VfsSession) (call : VfsState → Reply × VfsState) : Option Reply × VfsSession :=
  let (r, s) := call w.state
  (some r, { w with state := s })

/-- One call of a session. -/
def vfsCall (conn : Conn) (w : VfsSession) (c : VfsCall conn.storePath.str) :
    Option Reply × VfsSession :=
  match c.op with
  | .openat fd smbName fspName nameAfter flags =>
    let (r, h, s) := gfOpenat conn c.env c.next smbName fspName nameAfter flags w.state
    (some r, ⟨if r.opened then Function.update w.handles fd (some h) else w.handles, s⟩)
  | .pwrite fd name =>
    onHandle w fd fun h => gfPwrite conn c.env c.next { h with name := name }
  | .ftruncate fd name =>
    onHandle w fd fun h => gfFtruncate conn c.env c.next { h with name := name }
  | .renameat src dst => onName w (gfRenameat conn c.env c.next src dst)
  | .unlinkat name => onName w (gfUnlinkat conn c.env c.next name)
  | .mkdirat name => onName w (gfMkdirat conn c.env c.next name)
  | .close fd =>
    match w.handles fd with
    | none => (none, w)
    | some h =>
      let (r, s) := gfClose conn c.env c.next h w.state
      (some r, ⟨Function.update w.handles fd none, s⟩)

/-- The session after a run of calls. -/
def vfsRun (conn : Conn) (s : VfsState) (cs : List (VfsCall conn.storePath.str)) : VfsSession :=
  Runs.run (fun w c => (vfsCall conn w c).2) (VfsSession.start s) cs

/-! ## Which calls are refused -/

/-- The call asks to modify something: it names or writes a file, or opens one for writing,
truncation or creation. -/
def VfsOp.modifies : VfsOp → Bool
  | .openat _ _ _ _ flags => flags.write || flags.trunc || flags.creat
  | .close _ => false
  | _ => true

/-- The callback comes to ask whether the session is blocked. An open does so for write access or
for creation with truncation, a write on a file that is tracked, and a truncation on one that is
tracked or has a name of its own. -/
def Asks (w : VfsSession) : VfsOp → Prop
  | .openat _ _ _ _ flags => flags.path = false ∧ (flags.write = true ∨ flags.createTrunc = true)
  | .pwrite fd _ => ∃ h, w.handles fd = some h ∧ h.ext ≠ none
  | .ftruncate fd name => (∃ h, w.handles fd = some h ∧ h.ext ≠ none) ∨
      ∃ n, name = some n ∧ isProcPath n = false
  | _ => True

/-- The state attached to each open file says that it is risky. -/
def VfsSession.Risky (w : VfsSession) : Prop :=
  ∀ fd h, w.handles fd = some h → ∀ fst, h.ext = some fst → fst.isRisky = true

section
variable {conn : Conn} {env : VfsEnv} {nxt : Next conn.storePath.str} {w : VfsSession} {h : Handle}
  {fst : FileState} {s : VfsState}

/-! ## What the callbacks attach -/

theorem gfDeferredBackup_isRisky (env : VfsEnv) (op : UInt8) (name : Option CStr) (fst : FileState)
    (s : VfsState) : (gfDeferredBackup conn env op name fst s).2.2.1.isRisky = fst.isRisky := by
  have hrisky := (resolvePath_frame name fst).1
  unfold gfDeferredBackup
  split
  · rfl
  · dsimp only
    split
    · exact hrisky
    · split
      · exact hrisky
      · split <;> exact hrisky

/-- An open attaches nothing, or a state that is risky. -/
theorem gfOpenat_isRisky (env : VfsEnv) (nxt : Next conn.storePath.str)
    (smbName fspName nameAfter : Option CStr) (flags : OpenFlags) (s : VfsState)
    (hext : (gfOpenat conn env nxt smbName fspName nameAfter flags s).2.1.ext = some fst) :
    fst.isRisky = true := by
  unfold gfOpenat openProcfd openNamed openRisky openOther at hext
  grind [newState, backedUpState]

theorem gfPwrite_isRisky (env : VfsEnv) (nxt : Next conn.storePath.str)
    (hrisky : ∀ fst, h.ext = some fst → fst.isRisky = true) (s : VfsState)
    (hext : (gfPwrite conn env nxt h s).2.1.ext = some fst) : fst.isRisky = true := by
  unfold gfPwrite passThrough at hext
  grind [gfDeferredBackup_isRisky]

theorem truncateUntracked_isRisky (env : VfsEnv) (nxt : Next conn.storePath.str)
    (hrisky : ∀ fst, h.ext = some fst → fst.isRisky = true) (s : VfsState)
    (hext : (truncateUntracked conn env nxt h s).2.1.ext = some fst) : fst.isRisky = true := by
  unfold truncateUntracked passThrough at hext
  split at hext
  · exact hrisky fst hext
  · split at hext
    · exact hrisky fst hext
    · split at hext
      · exact hrisky fst hext
      · dsimp only at hext
        split at hext
        · -- the handle is tracked from now on where the state can be attached
          have hnew : ∀ {rel : CStr} {ok : Bool},
              (if env.extOk then { h with ext := some (backedUpState conn rel ok) } else h).ext =
                some fst → fst.isRisky = true := fun {rel ok} hext => by
            split at hext
            · cases hext; rfl
            · exact hrisky fst hext
          split at hext <;> exact hnew hext
        · exact hrisky fst hext

theorem gfFtruncate_isRisky (env : VfsEnv) (nxt : Next conn.storePath.str)
    (hrisky : ∀ fst, h.ext = some fst → fst.isRisky = true) (s : VfsState)
    (hext : (gfFtruncate conn env nxt h s).2.1.ext = some fst) : fst.isRisky = true := by
  unfold gfFtruncate passThrough at hext
  grind [gfDeferredBackup_isRisky, truncateUntracked_isRisky]

/-- A file the session has opened has a risky state. -/
theorem VfsSession.Risky.update (hw : w.Risky) (fd : Nat) (s : VfsState)
    (hrisky : ∀ fst, h.ext = some fst → fst.isRisky = true) :
    VfsSession.Risky ⟨Function.update w.handles fd (some h), s⟩ := by
  intro fd' h' hh fst hext
  dsimp only at hh
  by_cases hfd : fd' = fd
  · rw [hfd, Function.update_self] at hh
    cases hh
    exact hrisky fst hext
  · rw [Function.update_of_ne hfd] at hh
    exact hw fd' h' hh fst hext

theorem VfsSession.Risky.onHandle (hw : w.Risky) (fd : Nat)
    {call : Handle → VfsState → Reply × Handle × VfsState}
    (hcall : ∀ h s fst, (∀ fst, h.ext = some fst → fst.isRisky = true) →
      (call h s).2.1.ext = some fst → fst.isRisky = true) :
    (onHandle w fd call).2.Risky := by
  unfold GfrGuard.onHandle
  split
  · exact hw
  · next h hh => exact hw.update fd _ fun fst hext => hcall h w.state fst (hw fd h hh) hext

/-- Each call keeps what is attached to the open files risky. -/
theorem VfsSession.Risky.call (hw : w.Risky) (c : VfsCall conn.storePath.str) :
    (vfsCall conn w c).2.Risky := by
  unfold vfsCall
  cases c.op with
  | openat fd smbName fspName nameAfter flags =>
    dsimp only
    split
    · exact hw.update fd _ fun fst hext => gfOpenat_isRisky c.env c.next _ _ _ _ _ hext
    · exact hw
  | pwrite fd name =>
    exact hw.onHandle fd fun h s fst hrisky hext =>
      gfPwrite_isRisky (h := { h with name := name }) c.env c.next hrisky s hext
  | ftruncate fd name =>
    exact hw.onHandle fd fun h s fst hrisky hext =>
      gfFtruncate_isRisky (h := { h with name := name }) c.env c.next hrisky s hext
  | renameat | unlinkat | mkdirat => exact hw
  | close fd =>
    dsimp only
    split
    · exact hw
    · intro fd' h' hh
      dsimp only at hh
      by_cases hfd : fd' = fd
      · simp [hfd] at hh
      · exact hw fd' h' (by rwa [Function.update_of_ne hfd] at hh)

/-- It is so in every state a session reaches. -/
theorem vfsRun_risky (s : VfsState) (cs : List (VfsCall conn.storePath.str)) :
    (vfsRun conn s cs).Risky :=
  Runs.run_invariant VfsSession.Risky (fun _ c hw => hw.call c) (fun _ _ h => by cases h) cs

/-! ## Who is asked -/

/-- A listed session is refused where it is asked for. -/
theorem isBlocked_of_listed (hlisted : conn.listed env = true) (s : VfsState) :
    conn.isBlocked env s = (true, conn.send conn.blockedMsg s) := by
  unfold Conn.isBlocked
  rw [if_pos hlisted]

theorem gfOpenat_refused (hprotect : conn.protect = true) (hlisted : conn.listed env = true)
    (smbName fspName nameAfter : Option CStr) (flags : OpenFlags) (s : VfsState) :
    (gfOpenat conn env nxt smbName fspName nameAfter flags s).1.refused = true ↔
      flags.path = false ∧ (flags.write = true ∨ flags.createTrunc = true) := by
  unfold gfOpenat
  split
  · next hskip =>
    refine iff_of_false Bool.false_ne_true fun hask => ?_
    rcases hask with ⟨hpath, hwrite | htrunc⟩
    · simp [hprotect, hpath, hwrite] at hskip
    · simp [hprotect, hpath, htrunc] at hskip
  · next hask =>
    refine iff_of_true ?_ ?_
    · dsimp only
      split
      · unfold openProcfd
        rw [isBlocked_of_listed hlisted]
        rfl
      · unfold openNamed
        rw [isBlocked_of_listed hlisted]
        rfl
    · simp only [hprotect, Bool.not_true, Bool.false_or, Bool.or_eq_true, Bool.and_eq_true,
        Bool.not_eq_true', not_or, not_and, Bool.not_eq_true, Bool.not_eq_false] at hask
      refine ⟨hask.1, ?_⟩
      cases hwrite : flags.write with
      | true => exact .inl rfl
      | false => exact .inr (hask.2 hwrite)

theorem gfPwrite_refused (hprotect : conn.protect = true) (hlisted : conn.listed env = true)
    (hrisky : ∀ fst, h.ext = some fst → fst.isRisky = true) (s : VfsState) :
    (gfPwrite conn env nxt h s).1.refused = true ↔ h.ext ≠ none := by
  unfold gfPwrite
  rw [hprotect, if_neg (by simp)]
  cases hext : h.ext with
  | none => exact iff_of_false Bool.false_ne_true fun hne => hne rfl
  | some fst =>
    dsimp only
    rw [hrisky fst hext, if_neg (by simp), isBlocked_of_listed hlisted]
    exact iff_of_true rfl nofun

theorem gfFtruncate_refused (hprotect : conn.protect = true) (hlisted : conn.listed env = true)
    (hrisky : ∀ fst, h.ext = some fst → fst.isRisky = true) (s : VfsState) :
    (gfFtruncate conn env nxt h s).1.refused = true ↔
      h.ext ≠ none ∨ ∃ n, h.name = some n ∧ isProcPath n = false := by
  unfold gfFtruncate
  rw [hprotect, if_neg (by simp)]
  cases hext : h.ext with
  | none =>
    dsimp only
    unfold truncateUntracked
    cases hname : h.name with
    | none =>
      refine iff_of_false Bool.false_ne_true ?_
      rintro (hne | ⟨n, hn, -⟩)
      · exact hne rfl
      · cases hn
    | some n =>
      dsimp only
      split
      · next hproc =>
        refine iff_of_false Bool.false_ne_true ?_
        rintro (hne | ⟨n', hn, hnot⟩)
        · exact hne rfl
        · cases hn
          rw [hproc] at hnot
          cases hnot
      · next hproc =>
        rw [isBlocked_of_listed hlisted]
        exact iff_of_true rfl (.inr ⟨n, rfl, Bool.eq_false_iff.2 hproc⟩)
  | some fst =>
    dsimp only
    rw [hrisky fst hext, if_neg (by simp), isBlocked_of_listed hlisted]
    exact iff_of_true rfl (.inl nofun)

theorem gfRenameat_refused (hprotect : conn.protect = true) (hlisted : conn.listed env = true)
    (src dst : Option CStr) (s : VfsState) : (gfRenameat conn env nxt src dst s).1.refused = true := by
  unfold gfRenameat
  rw [hprotect, if_neg (by simp), isBlocked_of_listed hlisted]
  rfl

theorem gfUnlinkat_refused (hprotect : conn.protect = true) (hlisted : conn.listed env = true)
    (name : Option CStr) (s : VfsState) : (gfUnlinkat conn env nxt name s).1.refused = true := by
  unfold gfUnlinkat
  rw [hprotect, if_neg (by simp), isBlocked_of_listed hlisted]
  rfl

theorem gfMkdirat_refused (hprotect : conn.protect = true) (hlisted : conn.listed env = true)
    (name : Option CStr) (s : VfsState) : (gfMkdirat conn env nxt name s).1.refused = true := by
  unfold gfMkdirat
  rw [hprotect, if_neg (by simp), isBlocked_of_listed hlisted]
  rfl

/-! ## Replies -/

theorem onName_reply {call : VfsState → Reply × VfsState} {r : Reply}
    (hr : (onName w call).1 = some r) : r = (call w.state).1 := (Option.some.inj hr).symm

/-- What `onHandle` answers is what the callback answers. -/
theorem onHandle_reply {fd : Nat} {call : Handle → VfsState → Reply × Handle × VfsState} {r : Reply}
    (hr : (onHandle w fd call).1 = some r) :
    ∃ h, w.handles fd = some h ∧ r = (call h w.state).1 := by
  unfold onHandle at hr
  split at hr
  · cases hr
  · next h hh =>
    cases hr
    exact ⟨h, hh, rfl⟩

/-- In every state a session reaches, a call that asks to modify something while the session's
address is on the blocked file is refused exactly when its callback comes to ask for that. -/
theorem blocked_session_refused_iff (hprotect : conn.protect = true) (s : VfsState)
    (cs : List (VfsCall conn.storePath.str)) (c : VfsCall conn.storePath.str) {r : Reply}
    (hlisted : conn.listed c.env = true) (hmod : c.op.modifies = true)
    (hr : (vfsCall conn (vfsRun conn s cs) c).1 = some r) :
    r.refused = true ↔ Asks (vfsRun conn s cs) c.op := by
  have hrisky := vfsRun_risky s cs
  generalize vfsRun conn s cs = w at hr hrisky
  unfold vfsCall at hr
  revert hr hmod
  cases c.op with
  | openat fd smbName fspName nameAfter flags =>
    intro _ hr
    cases hr
    exact gfOpenat_refused hprotect hlisted smbName fspName nameAfter flags w.state
  | pwrite fd name =>
    intro _ hr
    obtain ⟨h, hh, rfl⟩ := onHandle_reply hr
    refine (gfPwrite_refused (h := { h with name := name }) hprotect hlisted (hrisky fd h hh)
      w.state).trans ?_
    exact ⟨fun hext => ⟨h, hh, hext⟩, fun ⟨h', hh', hext⟩ => by cases hh.symm.trans hh'; exact hext⟩
  | ftruncate fd name =>
    intro _ hr
    obtain ⟨h, hh, rfl⟩ := onHandle_reply hr
    refine (gfFtruncate_refused (h := { h with name := name }) hprotect hlisted (hrisky fd h hh)
      w.state).trans ?_
    refine or_congr ⟨fun hext => ⟨h, hh, hext⟩, fun ⟨h', hh', hext⟩ => ?_⟩ Iff.rfl
    cases hh.symm.trans hh'
    exact hext
  | renameat src dst =>
    intro _ hr
    rw [onName_reply hr]
    exact iff_of_true (gfRenameat_refused hprotect hlisted src dst w.state) trivial
  | unlinkat name =>
    intro _ hr
    rw [onName_reply hr]
    exact iff_of_true (gfUnlinkat_refused hprotect hlisted name w.state) trivial
  | mkdirat name =>
    intro _ hr
    rw [onName_reply hr]
    exact iff_of_true (gfMkdirat_refused hprotect hlisted name w.state) trivial
  | close fd => exact fun hmod => absurd hmod Bool.false_ne_true

end

/-! ## A file opened before the block -/

/-- A call of the client while it is on the blocked file. -/
def blockedCall (op : VfsOp) : VfsCall sampleConn.storePath.str :=
  ⟨{ sampleVfsEnv with blocked := some (lit "10.0.0.5\n") }, .opens, op⟩

/-- An open of the file `a`, while the client is not blocked. -/
def earlierOpen (flags : OpenFlags) : VfsCall sampleConn.storePath.str :=
  ⟨sampleVfsEnv, .opens, .openat 3 (some (lit "a")) (some (lit "a")) (some (lit "a")) flags⟩

/-- A write to a file that was opened for overwriting is refused. -/
theorem blocked_session_refused_sample : ∃ r,
    (vfsCall sampleConn (vfsRun sampleConn ⟨sampleTree, []⟩
      [earlierOpen ⟨false, true, false, false, false⟩]) (blockedCall (.pwrite 3 (some (lit "a"))))).1 =
        some r ∧ r.refused = true := by
  refine ⟨_, rfl, ?_⟩
  exact (blocked_session_refused_iff rfl ⟨sampleTree, []⟩
    [earlierOpen ⟨false, true, false, false, false⟩] (blockedCall (.pwrite 3 (some (lit "a"))))
    (by decide) rfl rfl).2 ⟨_, rfl, by decide⟩

/-- A write to a file that was opened for appending is not. -/
theorem blocked_session_not_always_refused :
    ¬ ∀ (conn : Conn) (s : VfsState) (cs : List (VfsCall conn.storePath.str))
      (c : VfsCall conn.storePath.str) (r : Reply), conn.protect = true →
      conn.listed c.env = true → c.op.modifies = true →
      (vfsCall conn (vfsRun conn s cs) c).1 = some r → r.refused = true := by
  intro h
  have hrefused := h sampleConn ⟨sampleTree, []⟩ [earlierOpen ⟨false, true, false, false, true⟩]
    (blockedCall (.pwrite 3 (some (lit "a")))) _ rfl (by decide) rfl rfl
  revert hrefused
  decide

end GfrGuard
