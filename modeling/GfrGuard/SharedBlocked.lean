import GfrGuard.Blocker
import GfrGuard.Lib.Sections
import GfrGuard.Lib.Slots
import Mathlib.Data.Fintype.Basic
import Mathlib.Data.List.DropRight

/-!
# The writers of the blocked file

`blocker_execute`, `blocker_sync_blacklist` and `blocker_unblock` replace the blocked file under
a lock; the unblock request of the web server reads and replaces it without, through the same
temporary file. Any number of them run in any order of their steps. As long as no web request
works on the file while another call does (`WebApart`), the file ends as the completed calls
leave it one after another, in the order of their completion (`blocked_file_serial`).
-/

namespace GfrGuard

/-! ## The web server's view of the file -/

/-- A byte that `str.strip` takes off ASCII text. -/
def isPySpace (b : UInt8) : Bool := b = 32 || (9 ≤ b && b ≤ 13) || (28 ≤ b && b ≤ 31)

/-- A byte at which `str.splitlines` ends a line of ASCII text. -/
def isPyLineEnd (b : UInt8) : Bool := (10 ≤ b && b ≤ 13) || (28 ≤ b && b ≤ 30)

/-- `str.strip`. -/
def pyStrip (s : CStr) : CStr := (s.dropWhile isPySpace).rdropWhile isPySpace

/-- `read_blocked`; the empty lines, which are dropped, may be more than those of
`splitlines`. -/
def readBlocked (content : Option CStr) : List CStr :=
  (((pyStrip (content.getD [])).splitOnP isPyLineEnd).map pyStrip).filter (· ≠ [])

/-- What `write_blocked` writes. -/
def blockedText (sessions : List CStr) : CStr :=
  if sessions = [] then [] else [newline].intercalate sessions ++ [newline]

/-! ## The calls -/

/-- A call that works on the blocked file. -/
inductive BlockedJob where
  /-- `blocker_execute`. -/
  | execute (ip : CStr)
  /-- `blocker_sync_blacklist`. -/
  | sync (bl : Blacklist)
  /-- `blocker_unblock`. -/
  | unblock (ip : CStr)
  /-- The web server's `unblock_session`, up to the policy. -/
  | web (key : CStr)

/-- It takes the lock. -/
def BlockedJob.locks : BlockedJob → Bool
  | .web _ => false
  | _ => true

/-- It does not come to the file: the address is no real one. -/
def BlockedJob.skips : BlockedJob → Bool
  | .execute ip => !validClientIp ip
  | _ => false

/-- What it writes, given what it has read; nothing where the file stays. -/
def BlockedJob.output : BlockedJob → Option CStr → Option CStr
  | .execute ip, content =>
    if !validClientIp ip || lineExists content ip then none
    else some (appendLine (content.getD []) ip)
  | .sync bl, _ => some (syncContent bl)
  | .unblock ip, content =>
    if ip ∈ blockedLines content then
      some (((blockedLines content).filter (· ≠ ip)).flatMap (· ++ [newline]))
    else none
  | .web key, content =>
    if key ∈ readBlocked content then some (blockedText ((readBlocked content).erase key)) else none

/-- The file after the call, made alone and without a failure. -/
def BlockedJob.perform (job : BlockedJob) (content : Option CStr) : Option CStr :=
  (job.output content).or content

/-- Where a call is. -/
inductive BlockedPc where
  | start
  /-- It has the lock. -/
  | locked
  /-- It has made the new content. -/
  | ready (out : CStr)
  /-- The temporary file is open, and written up to an offset. -/
  | writing (inode off : Nat) (out : CStr)
  /-- It is through with the file. -/
  | closing (ok : Bool)
  | finished (ok : Bool)

/-- The blocked file and its temporary file, and who has the lock. -/
structure BlockedDir (ι : Type*) where
  files : Slots UInt8
  lock : Option ι

/-- The file has been read. -/
def BlockedJob.afterRead (job : BlockedJob) (content : Option CStr) : BlockedPc :=
  match job.output content with
  | some out => .ready out
  | none => .closing true

section
variable {ι : Type*} [DecidableEq ι]

/-- One step of a call. -/
def blockedStep (jobs : ι → BlockedJob) (i : ι) (io : FileIo) (s : BlockedDir ι) :
    BlockedPc → BlockedDir ι × BlockedPc
  | .start =>
    if (jobs i).skips then (s, .finished true)
    else
      match io with
      | .fail => (s, .finished false)
      | .ok _ =>
        if (jobs i).locks then
          -- `flock` waits while another has the lock
          if s.lock.isNone then ({ s with lock := some i }, .locked) else (s, .start)
        else (s, (jobs i).afterRead s.files.read)
  | .locked =>
    match io with
    | .fail => (s, .closing false)
    | .ok _ => (s, (jobs i).afterRead s.files.read)
  | .ready out =>
    match io with
    | .fail => (s, .closing false)
    | .ok _ => ({ s with files := s.files.openTmp.2 }, .writing s.files.openTmp.1 0 out)
  | .writing n off out =>
    match io with
    | .fail =>
      -- `write_atomic` removes the temporary file, `write_blocked` does not
      ({ s with files := if (jobs i).locks then s.files.unlinkTmp else s.files }, .closing false)
    | .ok k =>
      if off < out.length then
        let bytes := Slots.chunk out off k
        ({ s with files := s.files.write n off bytes }, .writing n (off + bytes.length) out)
      else if s.files.tmp.isSome then ({ s with files := s.files.rename }, .closing true)
      else (s, .closing false)
  | .closing ok => ({ s with lock := if s.lock = some i then none else s.lock }, .finished ok)
  | .finished ok => (s, .finished ok)

/-- The calls on the blocked file; a call is in its section from the lock, or from its reading
of the file, until it is through. -/
def blockedCode (jobs : ι → BlockedJob) : Sections.Code ι (BlockedDir ι) BlockedPc FileIo where
  step := blockedStep jobs
  inside
    | .start | .finished _ => false
    | _ => true
  complete
    | .finished ok => ok
    | _ => false

/-- No call has begun. -/
def blockedStart (files : Slots UInt8) : Sections.World ι (BlockedDir ι) BlockedPc where
  shared := ⟨files, none⟩
  pc _ := .start
  log := []

/-- A step on the file is taken while no web request is between its reading and its writing,
and one of a web request while no call is. -/
def WebApart (jobs : ι → BlockedJob) (w : Sections.World ι (BlockedDir ι) BlockedPc)
    (e : ι × FileIo) : Prop :=
  (blockedCode jobs).touches w e = true → ∀ j, j ≠ e.1 →
    (jobs e.1).locks = false ∨ (jobs j).locks = false → (blockedCode jobs).inside (w.pc j) = false

instance [Fintype ι] (jobs : ι → BlockedJob) (w : Sections.World ι (BlockedDir ι) BlockedPc)
    (e : ι × FileIo) : Decidable (WebApart jobs w e) := by
  unfold WebApart; infer_instance

/-- The lines of the file are those that calls leave one after another. -/
def SerialIn (jobs : ι → BlockedJob) (before after : Option CStr) (order : List ι) : Prop :=
  ∀ line, line ∈ blockedLines after ↔
    line ∈ blockedLines (order.foldl (fun content i => (jobs i).perform content) before)

end

/-! ## Alone -/

/-- A call of `blocker_execute` made alone does what the daemon does. -/
theorem perform_execute (ip : CStr) (content : Option CStr) :
    blockerAppend content ip true true = some ((BlockedJob.execute ip).perform content) := by
  unfold blockerAppend BlockedJob.perform BlockedJob.output
  cases hip : validClientIp ip <;> cases hline : lineExists content ip <;> simp [hip, hline]

theorem perform_sync (bl : Blacklist) (content : Option CStr) :
    blockerSyncBlacklist content bl true = (BlockedJob.sync bl).perform content := rfl

theorem perform_unblock (ip : CStr) (content : Option CStr) :
    (blockerUnblock content ip true true).2 = (BlockedJob.unblock ip).perform content := by
  unfold blockerUnblock BlockedJob.perform BlockedJob.output
  by_cases h : ip ∈ blockedLines content <;> simp [h]

section
variable {ι : Type*} {jobs : ι → BlockedJob} {i : ι} {io : FileIo}
  {s : BlockedDir ι} {p : BlockedPc} {content : Option CStr}

/-- Inside a section that found the content. -/
def BlockedHold (jobs : ι → BlockedJob) (i : ι) (content : Option CStr) (s : BlockedDir ι)
    (p : BlockedPc) : Prop :=
  s.files.Wf ∧
    match p with
    | .start | .finished _ => False
    | .locked | .closing false => s.files.read = content
    | .ready out => s.files.read = content ∧ (jobs i).perform content = some out
    | .writing n off out => s.files.read = content ∧ (jobs i).perform content = some out ∧
        s.files.tmp = some n ∧ s.files.Written n off out
    | .closing true => s.files.read = (jobs i).perform content

/-- A call that has read the content has made what it writes, or is through. -/
theorem afterRead_hold (hwf : s.files.Wf) (hread : s.files.read = content) :
    BlockedHold jobs i content s ((jobs i).afterRead s.files.read) := by
  unfold BlockedJob.afterRead
  rw [hread]
  refine ⟨hwf, ?_⟩
  unfold BlockedJob.perform
  cases hout : (jobs i).output content with
  | some out => exact ⟨hread, rfl⟩
  | none => exact hread

variable [DecidableEq ι]

theorem inside_afterRead (jobs : ι → BlockedJob) (job : BlockedJob) (content : Option CStr) :
    (blockedCode jobs).inside (job.afterRead content) = true := by
  unfold BlockedJob.afterRead
  split <;> rfl

/-- A step that enters the section. -/
theorem blockedStep_enter (hp : (blockedCode jobs).inside p = false)
    (hp' : (blockedCode jobs).inside (blockedStep jobs i io s p).2 = true) (hwf : s.files.Wf)
    (hread : s.files.read = content) :
    BlockedHold jobs i content (blockedStep jobs i io s p).1 (blockedStep jobs i io s p).2 := by
  cases p with
  | start =>
    unfold blockedStep at hp' ⊢
    cases hskips : (jobs i).skips with
    | true => simp [hskips, blockedCode] at hp'
    | false =>
      cases io with
      | fail => simp [hskips, blockedCode] at hp'
      | ok k =>
        simp only [hskips, Bool.false_eq_true, if_false] at hp' ⊢
        cases hlocks : (jobs i).locks with
        | false =>
          simp only [Bool.false_eq_true, if_false]
          exact afterRead_hold hwf hread
        | true =>
          simp only [hlocks, if_true] at hp' ⊢
          split
          · exact ⟨hwf, hread⟩
          · next hlock =>
            rw [if_neg hlock] at hp'
            cases hp'
  | finished ok => cases hp'
  | locked | ready out | writing n off out | closing ok => cases hp

/-- A step inside the section. -/
theorem blockedStep_stay (hp : (blockedCode jobs).inside p = true)
    (hp' : (blockedCode jobs).inside (blockedStep jobs i io s p).2 = true)
    (h : BlockedHold jobs i content s p) :
    BlockedHold jobs i content (blockedStep jobs i io s p).1 (blockedStep jobs i io s p).2 := by
  obtain ⟨hwf, h⟩ := h
  cases p with
  | start | finished ok => cases hp
  | locked =>
    cases io with
    | fail => exact ⟨hwf, h⟩
    | ok k => exact afterRead_hold hwf h
  | ready out =>
    cases io with
    | fail => exact ⟨hwf, h.1⟩
    | ok k =>
      obtain ⟨htmp, hwritten⟩ := s.files.openTmp_written out
      exact ⟨hwf.openTmp, (Slots.read_openTmp hwf).trans h.1, h.2, htmp, hwritten⟩
  | writing n off out =>
    obtain ⟨hread, hout, htmp, hwritten⟩ := h
    unfold blockedStep
    cases io with
    | fail =>
      dsimp only
      split
      · exact ⟨hwf.unlinkTmp, hread⟩
      · exact ⟨hwf, hread⟩
    | ok k =>
      dsimp only
      split
      · exact ⟨hwf.write n off _, (Slots.read_write hwf htmp off _).trans hread, hout, htmp,
          hwritten.write k⟩
      · next hend =>
        split
        · exact ⟨hwf.rename, (Slots.read_rename htmp hwritten hend).trans hout.symm⟩
        · exact ⟨hwf, hread⟩
  | closing ok => cases hp'

/-- The step that leaves the section. -/
theorem blockedStep_leave (hp : (blockedCode jobs).inside p = true)
    (hp' : (blockedCode jobs).inside (blockedStep jobs i io s p).2 = false)
    (h : BlockedHold jobs i content s p) :
    if (blockedCode jobs).complete (blockedStep jobs i io s p).2 = true then
      ((blockedStep jobs i io s p).1.files.Wf ∧
        (blockedStep jobs i io s p).1.files.read = (jobs i).perform content) ∧ True
    else (blockedStep jobs i io s p).1.files.Wf ∧
      (blockedStep jobs i io s p).1.files.read = content := by
  obtain ⟨hwf, h⟩ := h
  cases p with
  | start | finished ok => cases hp
  | locked =>
    cases io with
    | fail => cases hp'
    | ok k => cases hp'.symm.trans (inside_afterRead jobs (jobs i) s.files.read)
  | ready out => cases io <;> cases hp'
  | writing n off out =>
    unfold blockedStep at hp'
    cases io with
    | fail => cases hp'
    | ok k =>
      dsimp only at hp'
      split at hp'
      · cases hp'
      · split at hp' <;> cases hp'
  | closing ok =>
    cases ok with
    | false => exact ⟨hwf, h⟩
    | true => exact ⟨⟨hwf, h⟩, trivial⟩

/-- A call outside its section changes nothing, and is complete only when it has nothing to
do. -/
theorem blockedStep_outside (hp : (blockedCode jobs).inside p = false)
    (hp' : (blockedCode jobs).inside (blockedStep jobs i io s p).2 = false) :
    (blockedStep jobs i io s p).1 = s ∧ ((blockedCode jobs).complete p = false →
      (blockedCode jobs).complete (blockedStep jobs i io s p).2 = true →
      ∀ content, (jobs i).perform content = content) := by
  cases p with
  | start =>
    unfold blockedStep at hp' ⊢
    cases hskips : (jobs i).skips with
    | true =>
      refine ⟨rfl, fun _ _ content => ?_⟩
      unfold BlockedJob.perform BlockedJob.output
      cases hjob : jobs i with
      | execute ip =>
        rw [hjob] at hskips
        have hip : (!validClientIp ip) = true := hskips
        simp [hip]
      | sync bl | unblock ip | web key => rw [hjob] at hskips; cases hskips
    | false =>
      cases io with
      | fail => exact ⟨rfl, fun _ h => by cases h⟩
      | ok k =>
        simp only [hskips, Bool.false_eq_true, if_false] at hp' ⊢
        split at hp'
        · next hlocks =>
          rw [if_pos hlocks]
          split at hp'
          · cases hp'
          · next hlock =>
            rw [if_neg hlock]
            exact ⟨rfl, fun _ h => by cases h⟩
        · cases hp'.symm.trans (inside_afterRead jobs (jobs i) s.files.read)
  | finished ok => exact ⟨rfl, fun h h' => by cases h.symm.trans h'⟩
  | locked | ready out | writing n off out | closing ok => cases hp

end

/-- What a call on the blocked file does when its section is alone. -/
def blockedSerial {ι : Type*} [DecidableEq ι] (jobs : ι → BlockedJob) :
    Sections.Serial (blockedCode jobs) (Option CStr) where
  op i := (jobs i).perform
  Post _ _ _ _ := True
  Ok _ _ _ _ _ := True
  Rest content s := s.files.Wf ∧ s.files.read = content
  Hold _ i content s p := BlockedHold jobs i content s p
  inside_not_complete {p} hp := by cases p <;> first | rfl | cases hp
  outside hp hp' := ⟨(blockedStep_outside hp hp').1, fun h h' _ content =>
    ⟨(blockedStep_outside hp hp').2 h h' content, trivial, fun _ _ _ => id⟩⟩
  enter _ hp hp' h := blockedStep_enter hp hp' h.1 h.2
  stay _ := blockedStep_stay
  leave _ := blockedStep_leave

/-! ## The lock -/

/-- The lock is held by the call that took it and is inside its section. -/
def LockHeld {ι : Type*} [DecidableEq ι] (jobs : ι → BlockedJob)
    (w : Sections.World ι (BlockedDir ι) BlockedPc) : Prop :=
  ∀ i, w.shared.lock = some i ↔ (jobs i).locks = true ∧ (blockedCode jobs).inside (w.pc i) = true

section
variable {ι : Type*} [DecidableEq ι] {jobs : ι → BlockedJob} {i : ι} {io : FileIo}
  {s : BlockedDir ι} {p : BlockedPc} {w : Sections.World ι (BlockedDir ι) BlockedPc}
  {e : ι × FileIo}

/-- A call that enters with the lock has found it free. -/
theorem blockedStep_locks (hp : (blockedCode jobs).inside p = false)
    (hp' : (blockedCode jobs).inside (blockedStep jobs i io s p).2 = true) :
    if (jobs i).locks = true then s.lock = none ∧ (blockedStep jobs i io s p).1.lock = some i
    else (blockedStep jobs i io s p).1.lock = s.lock := by
  cases p with
  | start =>
    unfold blockedStep at hp' ⊢
    cases hskips : (jobs i).skips with
    | true =>
      rw [hskips] at hp'
      cases hp'
    | false =>
      cases io with
      | fail =>
        rw [hskips] at hp'
        cases hp'
      | ok k =>
        simp only [hskips, Bool.false_eq_true, if_false] at hp' ⊢
        split
        · next hlocks =>
          rw [if_pos hlocks] at hp'
          split at hp'
          · next hlock =>
            rw [if_pos hlock]
            exact ⟨Option.isNone_iff_eq_none.1 hlock, rfl⟩
          · cases hp'
        · rfl
  | finished ok => cases hp'
  | locked | ready out | writing n off out | closing ok => cases hp

/-- Inside its section a call leaves the lock. -/
theorem blockedStep_keeps_lock (hp : (blockedCode jobs).inside p = true)
    (hp' : (blockedCode jobs).inside (blockedStep jobs i io s p).2 = true) :
    (blockedStep jobs i io s p).1.lock = s.lock := by
  cases p with
  | start | finished ok => cases hp
  | locked | ready out => cases io <;> rfl
  | writing n off out =>
    unfold blockedStep
    cases io with
    | fail => rfl
    | ok k =>
      dsimp only
      split
      · rfl
      · split <;> rfl
  | closing ok => cases hp'

/-- It gives the lock back with its last step. -/
theorem blockedStep_unlocks (hp : (blockedCode jobs).inside p = true)
    (hp' : (blockedCode jobs).inside (blockedStep jobs i io s p).2 = false) :
    (blockedStep jobs i io s p).1.lock = if s.lock = some i then none else s.lock := by
  cases p with
  | start | finished ok => cases hp
  | locked =>
    cases io with
    | fail => cases hp'
    | ok k => cases hp'.symm.trans (inside_afterRead jobs (jobs i) s.files.read)
  | ready out => cases io <;> cases hp'
  | writing n off out =>
    unfold blockedStep at hp'
    cases io with
    | fail => cases hp'
    | ok k =>
      dsimp only at hp'
      split at hp'
      · cases hp'
      · split at hp' <;> cases hp'
  | closing ok => rfl

theorem LockHeld.move (h : LockHeld jobs w) (e : ι × FileIo) :
    LockHeld jobs ((blockedCode jobs).move w e) := by
  have hself := (blockedCode jobs).move_pc_self w e
  have hlock : ((blockedCode jobs).move w e).shared.lock =
      (blockedStep jobs e.1 e.2 w.shared (w.pc e.1)).1.lock := rfl
  have hi := h e.1
  intro k
  have hk := h k
  rw [hlock]
  cases hp : (blockedCode jobs).inside (w.pc e.1) with
  | false =>
    cases hp' : (blockedCode jobs).inside (blockedStep jobs e.1 e.2 w.shared (w.pc e.1)).2 with
    | false =>
      rw [(blockedStep_outside hp hp').1]
      by_cases hke : k = e.1
      · rw [hke, hself, hi, hp]
        exact and_congr_right fun _ => by rw [← hp']; rfl
      · rw [Sections.Code.move_pc_of_ne hke, hk]
    | true =>
      have hlocks := blockedStep_locks hp hp'
      split at hlocks
      · next htakes =>
        rw [hlocks.2]
        by_cases hke : k = e.1
        · rw [hke, hself]
          exact iff_of_true rfl ⟨htakes, hp'⟩
        · rw [Sections.Code.move_pc_of_ne hke, ← hk, hlocks.1]
          exact iff_of_false (fun heq => hke (Option.some.inj heq).symm) nofun
      · next htakes =>
        rw [hlocks]
        by_cases hke : k = e.1
        · rw [hke, hi]
          exact iff_of_false (fun h => htakes h.1) fun h => htakes h.1
        · rw [Sections.Code.move_pc_of_ne hke, hk]
  | true =>
    cases hp' : (blockedCode jobs).inside (blockedStep jobs e.1 e.2 w.shared (w.pc e.1)).2 with
    | false =>
      rw [blockedStep_unlocks hp hp']
      by_cases hke : k = e.1
      · rw [hke, hself]
        refine iff_of_false ?_ fun h => Bool.false_ne_true (hp'.symm.trans h.2)
        split
        · nofun
        · assumption
      · rw [Sections.Code.move_pc_of_ne hke, ← hk]
        split
        · next hmine =>
          rw [hmine]
          exact iff_of_false nofun fun heq => hke (Option.some.inj heq).symm
        · rfl
    | true =>
      rw [blockedStep_keeps_lock hp hp']
      by_cases hke : k = e.1
      · rw [hke, hself, hi, hp]
        exact and_congr_right fun _ => by rw [← hp']; rfl
      · rw [Sections.Code.move_pc_of_ne hke, hk]

/-- Where web requests keep apart, the lock keeps the other calls apart. -/
theorem LockHeld.alone (h : LockHeld jobs w) (hapart : WebApart jobs w e) :
    (blockedCode jobs).Alone w e := by
  intro htouch j hj
  cases hlocks : (jobs e.1).locks with
  | false => exact hapart htouch j hj (.inl hlocks)
  | true =>
    cases hlocksj : (jobs j).locks with
    | false => exact hapart htouch j hj (.inr hlocksj)
    | true =>
      rw [Bool.eq_false_iff]
      intro hinside
      have hlock := (h j).2 ⟨hlocksj, hinside⟩
      cases hp : (blockedCode jobs).inside (w.pc e.1) with
      | true =>
        have hmine := (h e.1).2 ⟨hlocks, hp⟩
        exact hj (Option.some.inj (hlock.symm.trans hmine))
      | false =>
        unfold Sections.Code.touches at htouch
        rw [hp, Bool.false_or] at htouch
        have hfree := blockedStep_locks hp htouch
        rw [if_pos hlocks, hlock] at hfree
        cases hfree.1

end

/-- In every run in which web requests keep apart from the other calls and from each other, the
blocked file has at the end the lines that the completed calls leave one after another, in the
order of their completion. -/
theorem blocked_file_serial {ι : Type*} [DecidableEq ι] (jobs : ι → BlockedJob) (files : Slots UInt8)
    (hwf : files.Wf) (es : List (ι × FileIo))
    (hrun : Runs.AllSteps (blockedCode jobs).move (WebApart jobs) (blockedStart files) es)
    (hend : (blockedCode jobs).Quiet (Runs.run (blockedCode jobs).move (blockedStart files) es)) :
    SerialIn jobs files.read (Runs.run (blockedCode jobs).move (blockedStart files) es).shared.files.read
      (Runs.run (blockedCode jobs).move (blockedStart files) es).log := by
  have hlock : LockHeld jobs (blockedStart files) := fun i =>
    iff_of_false nofun fun h => Bool.false_ne_true h.2
  have halone : Runs.AllSteps (blockedCode jobs).move
      (fun w e => (blockedCode jobs).Alone w e ∧ True) (blockedStart files) es :=
    Runs.allSteps_imp (LockHeld jobs) (fun _ _ h hapart => ⟨h.alone hapart, trivial⟩)
      (fun _ e h _ => h.move e) hlock hrun
  have hrest := ((blockedSerial jobs).run (a := files.read) (fun _ => rfl) rfl ⟨hwf, rfl⟩ halone hend).2
  intro line
  rw [hrest.2]
  rfl

/-- The daemon blocks `10.0.0.5`, and a web request unblocks `10.0.0.9`. -/
def sampleJobs (i : Fin 2) : BlockedJob :=
  if i = 0 then .execute (lit "10.0.0.5") else .web (lit "10.0.0.9")

/-- The blocked file with one line. -/
def sampleSlots : Slots UInt8 := ⟨some 0, none, fun _ => lit "10.0.0.9\n", 1⟩

theorem sampleSlots_wf : sampleSlots.Wf :=
  ⟨fun _ h => by cases h; decide, nofun, nofun⟩

/-- The steps of the daemon's call: lock, read, open, write, rename, unlock. -/
def daemonSteps : List (Fin 2 × FileIo) := List.replicate 6 (0, .ok 100)

/-- The web request after it has read the file: open, rename, return. -/
def webSteps : List (Fin 2 × FileIo) := List.replicate 3 (1, .ok 100)

/-- The web request, then the daemon's call. -/
theorem blocked_file_serial_sample :
    (Runs.run (blockedCode sampleJobs).move (blockedStart sampleSlots)
        ((1, .ok 0) :: (webSteps ++ daemonSteps))).log = [1, 0] ∧
      SerialIn sampleJobs sampleSlots.read
        (Runs.run (blockedCode sampleJobs).move (blockedStart sampleSlots)
          ((1, .ok 0) :: (webSteps ++ daemonSteps))).shared.files.read
        (Runs.run (blockedCode sampleJobs).move (blockedStart sampleSlots)
          ((1, .ok 0) :: (webSteps ++ daemonSteps))).log :=
  ⟨by decide, blocked_file_serial sampleJobs sampleSlots sampleSlots_wf _ (by decide)
    (show ∀ i, _ by decide)⟩

/-- The web request reads the file, the daemon blocks its address, and the web request replaces
the file by what it made of what it had read. -/
theorem blocked_file_not_serial :
    ¬ ∀ (jobs : Fin 2 → BlockedJob) (files : Slots UInt8) (es : List (Fin 2 × FileIo)), files.Wf →
      (blockedCode jobs).Quiet (Runs.run (blockedCode jobs).move (blockedStart files) es) →
      ∃ order : List (Fin 2),
        order.Perm (Runs.run (blockedCode jobs).move (blockedStart files) es).log ∧
        SerialIn jobs files.read
          (Runs.run (blockedCode jobs).move (blockedStart files) es).shared.files.read order := by
  intro h
  obtain ⟨order, hperm, hserial⟩ := h sampleJobs sampleSlots
    ((1, .ok 0) :: (daemonSteps ++ webSteps)) sampleSlots_wf (show ∀ i, _ by decide)
  have hlog : (Runs.run (blockedCode sampleJobs).move (blockedStart sampleSlots)
      ((1, .ok 0) :: (daemonSteps ++ webSteps))).log = [0, 1] := by decide
  rw [hlog] at hperm
  have hline := (hserial (lit "10.0.0.5")).not.1 (by decide)
  clear hserial
  obtain ⟨i, j, rfl⟩ := List.length_eq_two.1 hperm.length_eq
  revert i j
  decide

end GfrGuard
