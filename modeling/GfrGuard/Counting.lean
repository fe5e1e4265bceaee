import GfrGuard.BlockCalls

/-!
# What a message counts

The counters of a session by name (`Counter`), which messages raise each of them, and what
the windows, the counters and the score leave: a counter is raised by at most one and starts
at 0 when the short window rolls (`counter_countSession_le`), the directories grow by the one
of the message and start empty when the long window rolls (`countSession_dirs`).
-/

namespace GfrGuard

/-- The counters the short window restarts. -/
inductive Counter where
  | modified
  | renamed
  | deleted
  | extChanged
  | ransomExt
deriving DecidableEq

/-- A counter of a session. -/
def SessionState.counter (s : SessionState) : Counter → UInt32
  | .modified => s.modifiedCount
  | .renamed => s.renameCount
  | .deleted => s.deleteCount
  | .extChanged => s.extChangeCount
  | .ransomExt => s.ransomExtCount

/-- An operation with these flags raises the counter. -/
def Counter.counts (k : Counter) (opType : UInt8) (flags : UInt16) : Bool :=
  let write := opType = opOpen || opType = opWrite || opType = opTruncate
  match k with
  | .modified => write && hasFlag flags flagRisky
  | .renamed => opType = opRename
  | .deleted => opType = opDelete
  | .extChanged => opType = opRename && hasFlag flags flagExtChange
  | .ransomExt => (write || opType = opRename) && hasFlag flags flagRansomExt

/-- The flags of a message before the content scans. -/
def nameFlags (p : Policy) (msg : EventMsg) : UInt16 :=
  msg.flags ||| renameFlags p msg ||| newFileFlags p msg

/-- The session after the windows and the counters. -/
def countSession (env : CallEnv) (p : Policy) (msg : EventMsg) (s : SessionState) :
    SessionState :=
  sessionUpdate (sessionCheckWindow s env.now (p.windows msg.sourceType).1
    (p.windows msg.sourceType).2) msg.opType (analysisFlags env p msg s)
    (dirHash msg.filePath.str)

/-- The number of touched directories is the size of the set. -/
def SessionState.DirsCounted (s : SessionState) : Prop :=
  s.touchedDirs.toNat = s.dirSet.hashes.length

section
variable {env : CallEnv} {p : Policy} {msg : EventMsg} {s : SessionState} {k : Counter}
  {opType : UInt8} {flags : UInt16} {hash : UInt64} {now short long : Int}

/-! ## Flags -/

theorem hasFlag_or (a b f : UInt16) : hasFlag (a ||| b) f = (hasFlag a f || hasFlag b f) := by
  have hdistrib : (a ||| b) &&& f = (a &&& f) ||| (b &&& f) :=
    UInt16.toBitVec_inj.1 BitVec.and_or_distrib_right
  unfold hasFlag
  rw [hdistrib, Bool.eq_iff_iff]
  simp only [bne_iff_ne, ne_eq, UInt16.or_eq_zero_iff, Bool.or_eq_true, not_and_or]

/-- The content scans raise only the flags of their own. -/
theorem hasFlag_analysisFlags {f : UInt16} (hentropy : hasFlag flagHighEntropy f = false)
    (hyara : hasFlag flagYaraMatch f = false) :
    hasFlag (analysisFlags env p msg s) f = hasFlag (nameFlags p msg) f := by
  have hzero : hasFlag 0 f = false := by
    unfold hasFlag
    rw [UInt16.zero_and]
    rfl
  have he : hasFlag (entropyFlags env p msg s) f = false := by
    unfold entropyFlags
    split
    · exact hentropy
    · exact hzero
  have hy : hasFlag (yaraFlags env p msg s) f = false := by
    unfold yaraFlags
    split
    · exact hyara
    · exact hzero
  unfold analysisFlags nameFlags
  rw [hasFlag_or, hasFlag_or, he, hy, Bool.or_false, Bool.or_false]

/-- The names raise only the flags of extensions. -/
theorem hasFlag_nameFlags {f : UInt16} (hext : hasFlag flagExtChange f = false)
    (hransom : hasFlag flagRansomExt f = false) :
    hasFlag (nameFlags p msg) f = hasFlag msg.flags f := by
  have hzero : hasFlag 0 f = false := by
    unfold hasFlag
    rw [UInt16.zero_and]
    rfl
  have hrename : hasFlag (renameFlags p msg) f = false := by
    unfold renameFlags
    split
    · rw [hasFlag_or, hext, Bool.false_or]
      split
      · exact hransom
      · exact hzero
    · exact hzero
  have hnew : hasFlag (newFileFlags p msg) f = false := by
    unfold newFileFlags
    split
    · exact hransom
    · exact hzero
  unfold nameFlags
  rw [hasFlag_or, hasFlag_or, hrename, hnew, Bool.or_false, Bool.or_false]

/-- Whether a message raises a counter does not depend on the scans. -/
theorem Counter.counts_analysisFlags (k : Counter) (env : CallEnv) (p : Policy) (msg : EventMsg)
    (s : SessionState) :
    k.counts msg.opType (analysisFlags env p msg s) = k.counts msg.opType (nameFlags p msg) := by
  unfold Counter.counts
  cases k <;> dsimp only
  · rw [hasFlag_analysisFlags (by decide) (by decide)]
  · rw [hasFlag_analysisFlags (by decide) (by decide)]
  · rw [hasFlag_analysisFlags (by decide) (by decide)]

/-! ## Counters -/

theorem satInc_le (c : UInt32) : (satInc c).toNat ≤ c.toNat + 1 := by
  unfold satInc
  split
  · rw [UInt32.toNat_add]
    exact Nat.mod_le _ _
  · exact Nat.le_succ _

theorem satInc_ite_le (b : Bool) (c : UInt32) :
    (if b then satInc c else c).toNat ≤ c.toNat + if b then 1 else 0 := by
  cases b with
  | false => exact Nat.le_refl _
  | true => exact satInc_le c

/-- A counter is raised by at most one, by the operations that count for it. -/
theorem counter_countOp_le (k : Counter) (s : SessionState) (opType : UInt8) (flags : UInt16) :
    ((countOp s opType flags).counter k).toNat ≤
      (s.counter k).toNat + if k.counts opType flags then 1 else 0 := by
  unfold countOp
  by_cases hwrite : opType = opOpen ∨ opType = opWrite ∨ opType = opTruncate
  · rw [if_pos hwrite]
    have hw : (opType = opOpen || opType = opWrite || opType = opTruncate) = true := by
      simpa [or_assoc] using hwrite
    cases k <;> simp only [SessionState.counter, Counter.counts, hw, Bool.true_and, Bool.true_or]
    · exact satInc_ite_le _ _
    · exact Nat.le_add_right _ _
    · exact Nat.le_add_right _ _
    · exact Nat.le_add_right _ _
    · exact satInc_ite_le _ _
  · rw [if_neg hwrite]
    by_cases hrename : opType = opRename
    · subst hrename
      rw [if_pos rfl]
      cases k <;> simp only [SessionState.counter, Counter.counts, decide_true, Bool.true_and,
        Bool.or_true]
      · exact Nat.le_add_right _ _
      · exact satInc_le _
      · exact Nat.le_add_right _ _
      · exact satInc_ite_le _ _
      · exact satInc_ite_le _ _
    · rw [if_neg hrename]
      by_cases hdelete : opType = opDelete
      · subst hdelete
        rw [if_pos rfl]
        cases k <;> simp only [SessionState.counter, Counter.counts, decide_true]
        · exact Nat.le_add_right _ _
        · exact Nat.le_add_right _ _
        · exact satInc_le _
        · exact Nat.le_add_right _ _
        · exact Nat.le_add_right _ _
      · rw [if_neg hdelete]
        split
        · next hclose =>
          cases k <;> simp only [SessionState.counter]
          · -- taking a modification back lowers the counter
            have hone : (1 : UInt32) ≤ s.modifiedCount := by
              have := hclose.2.2
              rw [UInt32.lt_iff_toNat_lt] at this
              rw [UInt32.le_iff_toNat_le]
              exact this
            rw [UInt32.toNat_sub_of_le _ _ hone]
            omega
          all_goals exact Nat.le_add_right _ _
        · exact Nat.le_add_right _ _

theorem counter_sessionUpdate (k : Counter) (s : SessionState) (opType : UInt8)
    (flags : UInt16) (hash : UInt64) :
    (sessionUpdate s opType flags hash).counter k = (countOp s opType flags).counter k := by
  unfold sessionUpdate dirAdd countContent
  dsimp only
  split <;> cases k <;> rfl

theorem counter_sessionCheckWindow (k : Counter) (s : SessionState) (now short long : Int) :
    (sessionCheckWindow s now short long).counter k =
      if s.shortExpired now short then 0 else s.counter k := by
  rw [sessionCheckWindow_eq]
  cases s.shortExpired now short <;> cases s.longExpired now long <;> cases k <;> rfl

/-- The short window restarts the counts of what the files hold, too. -/
theorem contentCounts_sessionCheckWindow (s : SessionState) (now short long : Int) :
    (sessionCheckWindow s now short long).contentSameCount =
        (if s.shortExpired now short then 0 else s.contentSameCount) ∧
      (sessionCheckWindow s now short long).highEntropyCount =
        (if s.shortExpired now short then 0 else s.highEntropyCount) ∧
      (sessionCheckWindow s now short long).yaraMatchCount =
        (if s.shortExpired now short then 0 else s.yaraMatchCount) := by
  rw [sessionCheckWindow_eq]
  cases s.shortExpired now short <;> cases s.longExpired now long <;> exact ⟨rfl, rfl, rfl⟩

theorem counter_scorerCalculate (k : Counter) (s : SessionState) (p : Policy) :
    (scorerCalculate s p).counter k = s.counter k := by
  cases k <;> rfl

/-- A counter after a message. -/
theorem counter_countSession_le (k : Counter) (env : CallEnv) (p : Policy) (msg : EventMsg)
    (s : SessionState) :
    ((countSession env p msg s).counter k).toNat ≤
      (if s.shortExpired env.now (p.windows msg.sourceType).1 then 0 else (s.counter k).toNat) +
        if k.counts msg.opType (nameFlags p msg) then 1 else 0 := by
  unfold countSession
  rw [counter_sessionUpdate]
  refine (counter_countOp_le ..).trans ?_
  rw [counter_sessionCheckWindow, k.counts_analysisFlags]
  refine Nat.add_le_add_right ?_ _
  split
  · exact Nat.zero_le _
  · exact Nat.le_refl _

/-- The score changes neither a counter, nor a window, nor the directories. -/
theorem scoreSession_frame (env : CallEnv) (p : Policy) (msg : EventMsg) (s : SessionState) :
    (∀ k, (scoreSession env p msg s).counter k = (countSession env p msg s).counter k) ∧
      (scoreSession env p msg s).windowStart10s = (countSession env p msg s).windowStart10s ∧
      (scoreSession env p msg s).windowStart30s = (countSession env p msg s).windowStart30s ∧
      (scoreSession env p msg s).dirSet = (countSession env p msg s).dirSet ∧
      (scoreSession env p msg s).touchedDirs = (countSession env p msg s).touchedDirs ∧
      (scoreSession env p msg s).contentSameCount = (countSession env p msg s).contentSameCount := by
  unfold scoreSession
  dsimp only
  split
  · exact ⟨fun _ => rfl, rfl, rfl, rfl, rfl, rfl⟩
  · exact ⟨fun k => counter_scorerCalculate k _ p, rfl, rfl, rfl, rfl, rfl⟩

/-! ## Windows -/

theorem sessionUpdate_windows (s : SessionState) (opType : UInt8) (flags : UInt16)
    (hash : UInt64) :
    (sessionUpdate s opType flags hash).windowStart10s = s.windowStart10s ∧
      (sessionUpdate s opType flags hash).windowStart30s = s.windowStart30s := by
  have hcount : (countOp s opType flags).windowStart10s = s.windowStart10s ∧
      (countOp s opType flags).windowStart30s = s.windowStart30s := by
    unfold countOp
    split_ifs <;> exact ⟨rfl, rfl⟩
  rw [← hcount.1, ← hcount.2]
  unfold sessionUpdate dirAdd countContent
  dsimp only
  split <;> exact ⟨rfl, rfl⟩

/-- The windows after a message. -/
theorem countSession_windows (env : CallEnv) (p : Policy) (msg : EventMsg) (s : SessionState) :
    (countSession env p msg s).windowStart10s =
        (if s.shortExpired env.now (p.windows msg.sourceType).1 then env.now
          else s.shortStart env.now) ∧
      (countSession env p msg s).windowStart30s =
        (if s.longExpired env.now (p.windows msg.sourceType).2 then env.now
          else s.longStart env.now) := by
  unfold countSession
  rw [(sessionUpdate_windows ..).1, (sessionUpdate_windows ..).2, sessionCheckWindow_eq]
  cases s.shortExpired env.now (p.windows msg.sourceType).1 <;>
    cases s.longExpired env.now (p.windows msg.sourceType).2 <;> exact ⟨rfl, rfl⟩

/-! ## Directories -/

/-- Recording a directory that is not in the set while there is room. -/
theorem dirAdd_dirs (s : SessionState) (hash : UInt64) (h : s.DirsCounted) :
    (dirAdd s hash).DirsCounted ∧
      (dirAdd s hash).dirSet.hashes =
        if hash ≠ 0 ∧ hash ∉ s.dirSet.hashes ∧ s.dirSet.hashes.length < 256 then
          s.dirSet.hashes ++ [hash]
        else s.dirSet.hashes := by
  unfold dirAdd
  split
  · next hnew =>
    refine ⟨?_, rfl⟩
    unfold SessionState.DirsCounted at h ⊢
    have hlt : s.touchedDirs < 0xFFFFFFFF := by
      rw [UInt32.lt_iff_toNat_lt, h]
      exact hnew.2.2.trans (by decide)
    rw [List.length_append, List.length_singleton, ← h]
    unfold satInc
    rw [if_pos hlt, UInt32.toNat_add, Nat.mod_eq_of_lt]
    · rfl
    · rw [h]
      have : UInt32.toNat 1 = 1 := rfl
      omega
  · exact ⟨h, rfl⟩

theorem countOp_dirs (s : SessionState) (opType : UInt8) (flags : UInt16) :
    (countOp s opType flags).dirSet = s.dirSet ∧
      (countOp s opType flags).touchedDirs = s.touchedDirs := by
  unfold countOp
  split_ifs <;> exact ⟨rfl, rfl⟩

/-- The long window restarts the directories. -/
theorem sessionCheckWindow_dirs (s : SessionState) (now short long : Int) :
    (sessionCheckWindow s now short long).dirSet =
        (if s.longExpired now long then .empty else s.dirSet) ∧
      (sessionCheckWindow s now short long).touchedDirs =
        (if s.longExpired now long then 0 else s.touchedDirs) := by
  rw [sessionCheckWindow_eq]
  cases s.shortExpired now short <;> cases s.longExpired now long <;> exact ⟨rfl, rfl⟩

/-- An operation records its directory. -/
theorem sessionUpdate_dirs (s : SessionState) (opType : UInt8) (flags : UInt16) (hash : UInt64)
    (h : s.DirsCounted) : (sessionUpdate s opType flags hash).DirsCounted ∧
      (sessionUpdate s opType flags hash).dirSet.hashes =
        if hash ≠ 0 ∧ hash ∉ s.dirSet.hashes ∧ s.dirSet.hashes.length < 256 then
          s.dirSet.hashes ++ [hash]
        else s.dirSet.hashes := by
  obtain ⟨hset, htouched⟩ := countOp_dirs s opType flags
  generalize hc : countContent (countOp s opType flags) flags = c
  have hcset : c.dirSet = s.dirSet := by rw [← hc, ← hset]; rfl
  have hctouched : c.touchedDirs = s.touchedDirs := by rw [← hc, ← htouched]; rfl
  have hcounted : c.DirsCounted := by
    unfold SessionState.DirsCounted
    rw [hcset, hctouched]
    exact h
  unfold sessionUpdate
  rw [hc, ← hcset]
  exact dirAdd_dirs c hash hcounted

/-- The directories after a message: its own is among them, or the set is full, and nothing else
is added. -/
theorem countSession_dirs (env : CallEnv) (p : Policy) (msg : EventMsg) (s : SessionState)
    (h : s.DirsCounted) :
    let base := if s.longExpired env.now (p.windows msg.sourceType).2 then []
      else s.dirSet.hashes
    let hash := dirHash msg.filePath.str
    (countSession env p msg s).DirsCounted ∧
      ((countSession env p msg s).dirSet.hashes = base ∨
        hash ≠ 0 ∧ hash ∉ base ∧ (countSession env p msg s).dirSet.hashes = base ++ [hash]) ∧
      (hash ≠ 0 → (countSession env p msg s).dirSet.hashes ≠ []) := by
  intro base hash
  unfold countSession
  have hwindow := sessionCheckWindow_dirs s env.now (p.windows msg.sourceType).1
    (p.windows msg.sourceType).2
  generalize sessionCheckWindow s env.now (p.windows msg.sourceType).1
    (p.windows msg.sourceType).2 = w at hwindow
  have hcounted : w.DirsCounted := by
    unfold SessionState.DirsCounted
    rw [hwindow.1, hwindow.2]
    split
    · rfl
    · exact h
  have hbase : w.dirSet.hashes = base := by
    rw [hwindow.1]
    unfold base
    split <;> rfl
  obtain ⟨hcounted', hhashes⟩ := sessionUpdate_dirs w msg.opType (analysisFlags env p msg s) hash hcounted
  rw [hbase] at hhashes
  refine ⟨hcounted', ?_, fun hne => ?_⟩
  · split at hhashes
    · next hnew => exact .inr ⟨hnew.1, hnew.2.1, hhashes⟩
    · exact .inl hhashes
  · rw [hhashes]
    split
    · simp
    · next hold =>
      intro hnil
      refine hold ⟨hne, ?_, ?_⟩
      · rw [hnil]
        exact List.not_mem_nil
      · rw [hnil]
        decide

end

end GfrGuard
