import GfrGuard.Lib.Runs
import GfrGuard.NameOps

/-!
# Tracked handles

A handle opened on an existing file, or truncated, carries the state the module attached to
it. In strict mode a write or a truncation of the file behind a tracked handle runs only with
a preimage in the store, unless the module cannot tell which file it is: then it lets the
operation pass. `HandleInv` is the invariant of a handle over all its calls.
-/

namespace GfrGuard

/-- A call on a handle, with the name Samba gives the handle by then. -/
inductive HandleCall (store : CStr) where
  | pwrite (env : VfsEnv) (next : Next store) (name : Option CStr)
  | ftruncate (env : VfsEnv) (next : Next store) (name : Option CStr)

/-- One call on a handle. -/
def handleCall (conn : Conn) (hs : Handle × VfsState) :
    HandleCall conn.storePath.str → Reply × Handle × VfsState
  | .pwrite env next name => gfPwrite conn env next { hs.1 with name := name } hs.2
  | .ftruncate env next name => gfFtruncate conn env next { hs.1 with name := name } hs.2

/-- The module cannot tell which file the handle is: no name, or one that does not fit. -/
def Unresolvable (conn : Conn) (fst : FileState) : Prop :=
  fst.relativePath.str = [] ∨ pathMax ≤ (conn.absPath fst.relativePath.str).length

/-- Something stands at the place of the preimage of the handle's file, for the share's name
as the connection or the handle has it. -/
def HandleStands (conn : Conn) (fst : FileState) (fs : Fs) : Prop :=
  BackupStands conn.storePath.str conn.shareName fst.relativePath.str fs ∨
    BackupStands conn.storePath.str fst.shareName.str fst.relativePath.str fs

/-- Nothing but a copy stands there. -/
def HandleClear (conn : Conn) (fst : FileState) (fs : Fs) : Prop :=
  BackupClear conn.storePath.str conn.shareName fst.relativePath.str fs ∧
    BackupClear conn.storePath.str fst.shareName.str fst.relativePath.str fs

/-- The handle's file has a preimage. -/
def HandlePreimage (conn : Conn) (fst : FileState) (fs : Fs) : Prop :=
  HasPreimage conn.storePath.str conn.shareName fst.relativePath.str fs ∨
    HasPreimage conn.storePath.str fst.shareName.str fst.relativePath.str fs

/-- What holds of a handle between its calls. -/
def HandleInv (conn : Conn) (hs : Handle × VfsState) : Prop :=
  ∀ fst, hs.1.ext = some fst →
    fst.isRisky = true ∧ (fst.backupDone = true → HandleStands conn fst hs.2.fs)

/-- No backup of the handle's file has failed. -/
def NoFailedBackup (h : Handle) : Prop := ∀ fst, h.ext = some fst → fst.backupFailed = false

/-- When a call on a handle whose backups have not failed lets the next module run and leaves
the handle tracked, the next module ran in a tree with the preimage of the file, unless the
module cannot tell which file it is or something else stands at the place of the preimage. -/
def CallSafe (conn : Conn) (hs : Handle × VfsState) (call : HandleCall conn.storePath.str) :
    Prop :=
  NoFailedBackup hs.1 → ∀ before result fst,
    (handleCall conn hs call).1 = .next before result →
    (handleCall conn hs call).2.1.ext = some fst → HandleClear conn fst before →
    HandlePreimage conn fst before ∨ Unresolvable conn fst

section
variable {conn : Conn} {env : VfsEnv} {nxt : Next conn.storePath.str} {fst : FileState}
  {fs fs' : Fs} {s : VfsState} {h : Handle} {name : Option CStr} {op : UInt8} {rel : CStr}

theorem HandleStands.handlePreimage (hs : HandleStands conn fst fs)
    (hclear : HandleClear conn fst fs) : HandlePreimage conn fst fs :=
  hs.imp (·.hasPreimage hclear.1) (·.hasPreimage hclear.2)

theorem HandleStands.next (hs : HandleStands conn fst fs) (nxt : Next conn.storePath.str) :
    HandleStands conn fst (nxt.run fs).2 :=
  hs.imp (·.next nxt) (·.next nxt)

/-- What one call must give: the invariant, and safety when no backup has failed before. -/
structure CallResult (conn : Conn) (failed : Prop) (result : Reply × Handle × VfsState) : Prop where
  inv : HandleInv conn result.2
  safe : ¬ failed → ∀ before r fst, result.1 = .next before r → result.2.1.ext = some fst →
    HandleStands conn fst before ∨ Unresolvable conn fst

/-- A denied call. -/
theorem callResult_deny {failed : Prop} {e : Errno} (hinv : HandleInv conn (h, s)) :
    CallResult conn failed (.deny e, h, s) :=
  ⟨hinv, fun _ _ _ _ heq => by cases heq⟩

/-- A call that lets the next module run on a tree in which the preimage stands, or on a file
it cannot resolve. -/
theorem callResult_next (nxt : Next conn.storePath.str) {failed : Prop} {r : Int}
    {s' : VfsState} (hext : h.ext = some fst) (hrisky : fst.isRisky = true) (hfs : s'.fs = (nxt.run fs).2)
    (hdone : fst.backupDone = true → HandleStands conn fst fs)
    (hsafe : ¬ failed → HandleStands conn fst fs ∨ Unresolvable conn fst) :
    CallResult conn failed (.next fs r, h, s') where
  inv f hf := by
    obtain rfl := Option.some.inj (hext.symm.trans hf)
    exact ⟨hrisky, fun hd => hfs ▸ (hdone hd).next nxt⟩
  safe hok before r' f hnext hf := by
    obtain rfl := Option.some.inj (hext.symm.trans hf)
    cases hnext
    exact hsafe hok

/-- Passing an untracked handle through. -/
theorem callResult_untracked {failed : Prop} (hext : h.ext = none) :
    CallResult conn failed (passThrough conn nxt h s) := by
  refine ⟨fun f hf => ?_, fun _ _ _ f _ hf => ?_⟩ <;>
  · simp only [passThrough] at hf
    rw [hext] at hf
    cases hf

/-! ## Deferred backups -/

/-- What `gf_deferred_backup` can do in strict mode. -/
inductive DeferSpec (conn : Conn) (fst : FileState) (s : VfsState) :
    DeferRc × UInt16 × FileState × VfsState → Prop
  | failedBefore (flags : UInt16) (hfailed : fst.backupFailed = true) :
      DeferSpec conn fst s (.done, flags, fst, s)
  | unresolved (flags : UInt16) (fst' : FileState) (hun : Unresolvable conn fst')
      (hrisky : fst'.isRisky = fst.isRisky) (hdone : fst'.backupDone = fst.backupDone) :
      DeferSpec conn fst s (.unresolved, flags, fst', s)
  | backedUp (flags : UInt16) (fst' : FileState) (s' : VfsState)
      (hrisky : fst'.isRisky = fst.isRisky) (hstands : HandleStands conn fst' s'.fs) :
      DeferSpec conn fst s (.done, flags, fst', s')
  | denied (flags : UInt16) (fst' : FileState) (s' : VfsState)
      (hrisky : fst'.isRisky = fst.isRisky) (hdone : fst'.backupDone = fst.backupDone) :
      DeferSpec conn fst s (.deny, flags, fst', s')

theorem resolvePath_frame (name : Option CStr) (fst : FileState) :
    (resolvePath name fst).isRisky = fst.isRisky ∧
    (resolvePath name fst).backupDone = fst.backupDone := by
  unfold resolvePath
  split
  · split
    · split <;> exact ⟨rfl, rfl⟩
    · exact ⟨rfl, rfl⟩
  · exact ⟨rfl, rfl⟩

/-- `gf_deferred_backup` meets its specification. -/
theorem gfDeferredBackup_spec (env : VfsEnv) (op : UInt8) (name : Option CStr) (fst : FileState)
    (s : VfsState) (hstrict : conn.strict = true) :
    DeferSpec conn fst s (gfDeferredBackup conn env op name fst s) := by
  unfold gfDeferredBackup
  obtain ⟨hrisky, hdone⟩ := resolvePath_frame name fst
  split
  · next hfailed => exact .failedBefore _ hfailed
  · dsimp only
    split
    · next hun => exact .unresolved _ _ hun hrisky hdone
    · split
      · next fs' hbackup => exact .backedUp _ _ _ hrisky (.inr (doBackup_stands hbackup).1)
      · exact .denied _ _ _ hrisky hdone

/-! ## One call -/

theorem gfPwrite_result (hprotect : conn.protect = true) (hstrict : conn.strict = true)
    (hinv : HandleInv conn (h, s)) :
    CallResult conn (¬ NoFailedBackup h) (gfPwrite conn env nxt h s) := by
  unfold gfPwrite
  rw [hprotect, if_neg (by simp)]
  split
  · next hext => exact callResult_untracked hext
  · next fst hext =>
    obtain ⟨hrisky, hstands⟩ := hinv fst hext
    rw [hrisky, if_neg (by simp)]
    cases hlisted : conn.listed env with
    | true =>
      rw [Conn.isBlocked_of_listed hlisted]
      exact callResult_deny fun f hf => by simpa using hinv f hf
    | false =>
      rw [Conn.isBlocked_of_not_listed hlisted]
      dsimp only
      split
      · next hdone =>
        exact callResult_next nxt hext hrisky rfl (fun _ => hstands hdone)
          fun _ => .inl (hstands hdone)
      · next hdone =>
        have hdefer := gfDeferredBackup_spec env opWrite h.name fst s hstrict
        generalize gfDeferredBackup conn env opWrite h.name fst s = result at hdefer
        cases hdefer with
        | failedBefore flags hfailed =>
          have hbefore : ¬ NoFailedBackup h := fun hno => by
            rw [hno fst hext] at hfailed; cases hfailed
          dsimp only
          split <;>
          exact callResult_next nxt rfl hrisky (by simp [Next.step]) (fun hd => absurd hd hdone)
            fun hno => absurd hbefore hno
        | unresolved flags fst' hun hr hd =>
          exact callResult_next nxt rfl (hr.trans hrisky) rfl
            (fun hd' => absurd (hd.symm.trans hd') hdone) fun _ => .inr hun
        | backedUp flags fst' s' hr hst =>
          dsimp only
          split <;>
          exact callResult_next nxt rfl (hr.trans hrisky) (by simp [Next.step]) (fun _ => hst)
            fun _ => .inl hst
        | denied flags fst' s' hr hd =>
          refine callResult_deny fun f hf => ?_
          obtain rfl := Option.some.inj hf
          exact ⟨hr.trans hrisky, fun hd' => absurd (hd.symm.trans hd') hdone⟩

/-- The state attached after a successful backup: the preimage stands. -/
theorem backedUpState_stands {io : BackupIo} {src : CStr}
    (h : doBackup io conn.storePath.str src conn.shareName rel fs = (true, fs')) :
    HandleStands conn (backedUpState conn rel true) fs' := by
  obtain ⟨hstands, hfits⟩ := doBackup_stands h
  have hpath : (backedUpState conn rel true).relativePath.str = rel := CBuf.str_ofStr_of_lt hfits
  exact .inl (hpath.symm ▸ hstands)

theorem truncateUntracked_result (hstrict : conn.strict = true) (hext : h.ext = none) :
    CallResult conn (¬ NoFailedBackup h) (truncateUntracked conn env nxt h s) := by
  have huntracked : ∀ {s' : VfsState}, HandleInv conn (h, s') := fun f hf => by
    rw [hext] at hf; cases hf
  unfold truncateUntracked
  split
  · exact callResult_untracked hext
  · next rel hname =>
    split
    · exact callResult_untracked hext
    · cases hlisted : conn.listed env with
      | true =>
        rw [Conn.isBlocked_of_listed hlisted]
        exact callResult_deny huntracked
      | false =>
        rw [Conn.isBlocked_of_not_listed hlisted]
        dsimp only
        split
        · cases hmade : doBackup env.backup conn.storePath.str (conn.fullPath rel) conn.shareName
            rel s.fs with
          | mk ok fs' =>
            cases ok with
            | false =>
              simp only [Bool.not_false, hstrict, Bool.and_self, if_true]
              refine callResult_deny fun f hf => ?_
              split at hf
              · obtain rfl := Option.some.inj hf
                exact ⟨rfl, fun hd => by cases hd⟩
              · rw [hext] at hf; cases hf
            | true =>
              have hst := backedUpState_stands hmade
              simp only [Bool.not_true, Bool.false_and, Bool.false_eq_true, if_false]
              split
              · exact callResult_next nxt rfl rfl (by simp [Next.step]) (fun _ => hst)
                  fun _ => .inl hst
              · refine ⟨fun f hf => ?_, fun _ _ _ f _ hf => ?_⟩ <;>
                · rw [hext] at hf; cases hf
        · exact callResult_untracked hext

theorem gfFtruncate_result (hprotect : conn.protect = true) (hstrict : conn.strict = true)
    (hinv : HandleInv conn (h, s)) :
    CallResult conn (¬ NoFailedBackup h) (gfFtruncate conn env nxt h s) := by
  unfold gfFtruncate
  rw [hprotect, if_neg (by simp)]
  split
  · next hext => exact truncateUntracked_result hstrict hext
  · next fst hext =>
    obtain ⟨hrisky, hstands⟩ := hinv fst hext
    rw [hrisky, if_neg (by simp)]
    cases hlisted : conn.listed env with
    | true =>
      rw [Conn.isBlocked_of_listed hlisted]
      exact callResult_deny fun f hf => by simpa using hinv f hf
    | false =>
      rw [Conn.isBlocked_of_not_listed hlisted]
      dsimp only
      split
      · next hdone =>
        exact callResult_next nxt hext hrisky rfl (fun _ => hstands hdone)
          fun _ => .inl (hstands hdone)
      · next hdone =>
        have hdefer := gfDeferredBackup_spec env opTruncate h.name fst s hstrict
        generalize gfDeferredBackup conn env opTruncate h.name fst s = result at hdefer
        cases hdefer with
        | failedBefore flags hfailed =>
          have hbefore : ¬ NoFailedBackup h := fun hno => by
            rw [hno fst hext] at hfailed; cases hfailed
          exact callResult_next nxt rfl hrisky (by simp [Next.step]) (fun hd => absurd hd hdone)
            fun hno => absurd hbefore hno
        | unresolved flags fst' hun hr hd =>
          exact callResult_next nxt rfl (hr.trans hrisky) (by simp [Next.step])
            (fun hd' => absurd (hd.symm.trans hd') hdone) fun _ => .inr hun
        | backedUp flags fst' s' hr hst =>
          exact callResult_next nxt rfl (hr.trans hrisky) (by simp [Next.step]) (fun _ => hst)
            fun _ => .inl hst
        | denied flags fst' s' hr hd =>
          refine callResult_deny fun f hf => ?_
          obtain rfl := Option.some.inj hf
          exact ⟨hr.trans hrisky, fun hd' => absurd (hd.symm.trans hd') hdone⟩

/-- Every call keeps the invariant and is safe. -/
theorem handleCall_result (hprotect : conn.protect = true) (hstrict : conn.strict = true)
    {hs : Handle × VfsState} (hinv : HandleInv conn hs)
    (call : HandleCall conn.storePath.str) :
    CallResult conn (¬ NoFailedBackup hs.1) (handleCall conn hs call) := by
  cases call with
  | pwrite env next name =>
    exact gfPwrite_result (h := { hs.1 with name := name }) hprotect hstrict hinv
  | ftruncate env next name =>
    exact gfFtruncate_result (h := { hs.1 with name := name }) hprotect hstrict hinv

/-! ## Opening -/

/-- The open is of a file that is there, or reopens a descriptor whose name is not known. -/
def OpensExisting (conn : Conn) (smbName fspName : Option CStr) (s : VfsState) : Prop :=
  (isProcPath (fnameStr smbName) = true ∧ isProcPath (fspName.getD (fnameStr smbName)) = true) ∨
    ∃ content, s.fs.stat (conn.fullPath (fspName.getD (fnameStr smbName))) =
      some (.regular content)

/-- A handle with no state satisfies the invariant. -/
theorem handleInv_none {hs : Handle × VfsState} (hext : hs.1.ext = none) : HandleInv conn hs :=
  fun f hf => by rw [hext] at hf; cases hf

/-- A strict open of a file that is there leaves a handle that satisfies the invariant. -/
theorem openNamed_inv {flags : OpenFlags} {nameAfter : Option CStr} {content : Content}
    (hstrict : conn.strict = true)
    (hfile : s.fs.stat (conn.fullPath rel) = some (.regular content)) :
    HandleInv conn (openNamed conn env nxt flags rel nameAfter s).2 := by
  unfold openNamed
  cases hlisted : conn.listed env with
  | true => rw [Conn.isBlocked_of_listed hlisted]; exact handleInv_none rfl
  | false =>
    rw [Conn.isBlocked_of_not_listed hlisted]
    simp only [hfile]
    split
    · cases hmade : doBackup env.backup conn.storePath.str (conn.fullPath rel) conn.shareName
        rel s.fs with
      | mk ok fs' =>
        unfold openRisky
        cases ok with
        | false =>
          simp only [hmade, Bool.not_false, hstrict, Bool.and_self, if_true]
          exact handleInv_none rfl
        | true =>
          simp only [hmade, Bool.not_true, Bool.false_and, Bool.false_eq_true, if_false]
          intro f hf
          dsimp only at hf
          split at hf
          · obtain rfl := Option.some.inj hf
            refine ⟨rfl, fun _ => ?_⟩
            simpa [Next.step] using (backedUpState_stands hmade).next nxt
          · cases hf
    · unfold openOther
      simp only [Bool.not_true, Bool.false_and, Bool.false_eq_true, if_false]
      exact handleInv_none rfl

/-- The state attached when a descriptor is reopened records no backup. -/
theorem openProcfd_inv {nameAfter : Option CStr} :
    HandleInv conn (openProcfd conn env nxt nameAfter s).2 := by
  unfold openProcfd
  cases hlisted : conn.listed env with
  | true => rw [Conn.isBlocked_of_listed hlisted]; exact handleInv_none rfl
  | false =>
    rw [Conn.isBlocked_of_not_listed hlisted]
    intro f hf
    dsimp only at hf
    split at hf
    · obtain rfl := Option.some.inj hf
      exact ⟨rfl, fun hd => by cases hd⟩
    · cases hf

theorem gfOpenat_inv {flags : OpenFlags} {smbName fspName nameAfter : Option CStr}
    (hstrict : conn.strict = true) (hexist : OpensExisting conn smbName fspName s) :
    HandleInv conn (gfOpenat conn env nxt smbName fspName nameAfter flags s).2 := by
  unfold gfOpenat
  split
  · exact handleInv_none rfl
  · dsimp only
    split
    · exact openProcfd_inv
    · next hproc =>
      rcases hexist with hboth | ⟨content, hfile⟩
      · simp [hboth] at hproc
      · exact openNamed_inv hstrict hfile

end

/-! ## Runs -/

/-- In strict mode, for every handle opened on a file that is there or reopened from a
descriptor, every call of every sequence of writes and truncations on it is safe. -/
theorem tracked_handle_safe (conn : Conn) (env : VfsEnv) (next : Next conn.storePath.str)
    (smbName fspName nameAfter : Option CStr) (flags : OpenFlags) (s : VfsState)
    (calls : List (HandleCall conn.storePath.str)) (hprotect : conn.protect = true)
    (hstrict : conn.strict = true) (hexist : OpensExisting conn smbName fspName s) :
    Runs.AllSteps (fun hs call => (handleCall conn hs call).2) (CallSafe conn)
      (gfOpenat conn env next smbName fspName nameAfter flags s).2 calls := by
  refine Runs.allSteps_of_invariant (HandleInv conn) (fun hs call hinv => ?_)
    (fun hs call hinv => (handleCall_result hprotect hstrict hinv call).inv)
    (gfOpenat_inv hstrict hexist)
  intro hno before result fst hnext hext hclear
  have hsafe := (handleCall_result hprotect hstrict hinv call).safe (not_not_intro hno)
  exact (hsafe before result fst hnext hext).imp_left (·.handlePreimage hclear)

/-- Writing a file outside the store. -/
def Next.write {store : CStr} (loc : Loc) (content : Content) (result : Int)
    (hloc : ¬ pathComponents store <+: loc) : Next store where
  run fs := (result, fs.put loc (.regular content))
  keepsStore fs l hl := by
    have hne : l ≠ loc := by rintro rfl; exact hloc hl
    exact Fs.node_put_of_ne hne _

/-- The next module opens a file and changes nothing. -/
def Next.opens {store : CStr} : Next store := ⟨fun fs => (7, fs), fun _ _ _ => rfl⟩

/-- Writing `a` of the sample share after an open that backed it up. -/
theorem tracked_handle_safe_sample :
    CallSafe sampleConn
      (gfOpenat sampleConn sampleVfsEnv .opens none (some (lit "a")) (some (lit "a"))
        ⟨false, true, false, false, false⟩ ⟨sampleTree, []⟩).2
      (.pwrite sampleVfsEnv (.write [lit "h", lit "a"] [9] 1 (by decide))
        (some (lit "a"))) :=
  (tracked_handle_safe sampleConn sampleVfsEnv .opens none (some (lit "a")) (some (lit "a"))
    ⟨false, true, false, false, false⟩ ⟨sampleTree, []⟩
    [.pwrite sampleVfsEnv (.write [lit "h", lit "a"] [9] 1 (by decide))
      (some (lit "a"))] rfl rfl (.inr ⟨[1], by decide⟩)).1

/-- A descriptor reopened under a name that stays `/proc/self/fd/7`: the write to `a` passes
without a preimage. -/
theorem tracked_handle_not_always_safe :
    ¬ ∀ (conn : Conn) (env : VfsEnv) (opens writes : Next conn.storePath.str)
      (smbName fspName nameAfter : Option CStr) (flags : OpenFlags) (s s' : VfsState) (h : Handle)
      (fst : FileState) (rel : CStr) (content : Content) (opened before : Fs) (fd result : Int),
      conn.protect = true → conn.strict = true →
      gfOpenat conn env opens smbName fspName nameAfter flags s = (.next opened fd, h, s') →
      h.ext = some fst → fst.isRisky = true →
      s'.fs.stat (conn.absPath rel) = some (.regular content) →
      (gfPwrite conn env writes h s').1 = .next before result →
      (writes.run before).2.stat (conn.absPath rel) ≠ before.stat (conn.absPath rel) →
      HasPreimage conn.storePath.str conn.shareName rel before := by
  intro h
  obtain ⟨content, hcopy⟩ := h sampleConn sampleVfsEnv .opens
    (.write [lit "h", lit "a"] [9] 1 (by decide)) (some (lit "/proc/self/fd/7"))
    (some (lit "/proc/self/fd/7")) (some (lit "/proc/self/fd/7"))
    ⟨false, true, false, false, false⟩ ⟨sampleTree, []⟩ ⟨sampleTree, []⟩ _ _ (lit "a") [1]
    sampleTree sampleTree 7 1 rfl rfl rfl rfl rfl (by decide) rfl (by decide)
  have hnone : sampleTree.node (backupLoc (lit "/s") (lit "h") (lit "a")) = none := by
    decide
  cases hnone.symm.trans hcopy

end GfrGuard
