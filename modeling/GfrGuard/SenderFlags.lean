import GfrGuard.Counting
import GfrGuard.LegacySource

/-!
# Findings a sender claims

Four flags say what the daemon found out about the content and the name of a file. It starts from
those of the message and adds its own, so a sender can claim any of them. Two messages that differ
only there count differently exactly where one of them claims a finding that the daemon does not
make and a counter is left to raise, or where the claim decides whether the score is put off
(`scoreSession_eq_iff`). Elsewhere the daemon does the same for both (`forged_findings_iff`).
-/

namespace GfrGuard

/-- What the content analysis can find. -/
inductive Finding where
  | extChange
  | ransomExt
  | highEntropy
  | yaraMatch

namespace Finding

/-- Its flag. -/
def flag : Finding → UInt16
  | extChange => flagExtChange
  | ransomExt => flagRansomExt
  | highEntropy => flagHighEntropy
  | yaraMatch => flagYaraMatch

/-- The operations it is counted for. -/
def counted (opType : UInt8) : Finding → Bool
  | extChange => opType = opRename
  | ransomExt => opType = opOpen || opType = opWrite || opType = opTruncate || opType = opRename
  | highEntropy | yaraMatch => true

/-- Its counter. -/
def counter (s : SessionState) : Finding → UInt32
  | extChange => s.extChangeCount
  | ransomExt => s.ransomExtCount
  | highEntropy => s.highEntropyCount
  | yaraMatch => s.yaraMatchCount

/-- A write with it is scored at once. -/
def urgent : Finding → Bool
  | extChange => false
  | ransomExt | highEntropy | yaraMatch => true

/-- The sender claims it. -/
def claimed (msg : EventMsg) (k : Finding) : Bool := hasFlag msg.flags k.flag

/-- The daemon finds it out itself. -/
def made (env : CallEnv) (p : Policy) (msg : EventMsg) (s : SessionState) (k : Finding) : Bool :=
  hasFlag (renameFlags p msg) k.flag || hasFlag (newFileFlags p msg) k.flag ||
    hasFlag (entropyFlags env p msg s) k.flag || hasFlag (yaraFlags env p msg s) k.flag

end Finding

/-- The flags that are not findings. -/
def plainFlags : UInt16 :=
  ~~~(flagExtChange ||| flagRansomExt ||| flagHighEntropy ||| flagYaraMatch)

/-- The messages differ only in the findings they claim. -/
structure SameButFindings (msg msg' : EventMsg) : Prop where
  fields : msg' = { msg with flags := msg'.flags }
  plain : msg'.flags &&& plainFlags = msg.flags &&& plainFlags

/-- The session the counters of a message are raised in. -/
def windowSession (env : CallEnv) (p : Policy) (msg : EventMsg) (s : SessionState) : SessionState :=
  sessionCheckWindow s env.now (p.windows msg.sourceType).1 (p.windows msg.sourceType).2

/-- A session without its findings. -/
def SessionState.forgetFindings (s : SessionState) : SessionState :=
  { s with extChangeCount := 0, ransomExtCount := 0, highEntropyCount := 0, yaraMatchCount := 0 }

/-- Each finding the operation counts is claimed by both messages or by neither, or made anyway, or
its counter is full; and so for the findings a write is scored at once with, or the score is up to
date. -/
structure SameFindings (env : CallEnv) (p : Policy) (msg msg' : EventMsg) (s : SessionState) : Prop where
  counted : ∀ k : Finding, k.counted msg.opType = true →
    k.claimed msg = k.claimed msg' ∨ k.made env p msg s = true ∨
      k.counter s = 0xFFFFFFFF ∧ s.shortExpired env.now (p.windows msg.sourceType).1 = false
  scored : (msg.opType = opOpen ∨ msg.opType = opWrite ∨ msg.opType = opTruncate →
      ((∃ k : Finding, k.urgent = true ∧ k.claimed msg = true) ↔
        ∃ k : Finding, k.urgent = true ∧ k.claimed msg' = true) ∨
      ∃ k : Finding, k.urgent = true ∧ k.made env p msg s = true) ∨
    scorerCalculate (countSession env p msg s) p = countSession env p msg s

/-- If the message is accepted and its session has a slot, the findings come to the same there. -/
def ForgeryHarmless (env : CallEnv) (msg msg' : EventMsg) (d : Daemon) : Prop :=
  msg.msgType ≠ msgVfsBlocked → gate d.policy msg = .accept →
    ∀ i t, sessionFindOrCreate d.table msg.sessionKey env.now = some (i, t) →
      SameFindings env d.policy msg msg' (t.buckets i)

section
variable {env : CallEnv} {p : Policy} {msg msg' : EventMsg} {s s' : SessionState} {d : Daemon}
  {opType : UInt8} {flags flags' f : UInt16} {i : Fin sessionBuckets}

/-! ## Counters -/

theorem satInc_eq_self_iff (c : UInt32) : satInc c = c ↔ c = 0xFFFFFFFF := by
  unfold satInc
  constructor
  · intro h
    split at h
    · next hlt =>
      have hnat := congrArg UInt32.toNat h
      rw [UInt32.lt_iff_toNat_lt] at hlt
      rw [UInt32.toNat_add] at hnat
      have hmax : (0xFFFFFFFF : UInt32).toNat = 4294967295 := rfl
      have hone : (1 : UInt32).toNat = 1 := rfl
      omega
    · next hnot =>
      rw [UInt32.lt_iff_toNat_lt] at hnot
      have hmax : (0xFFFFFFFF : UInt32).toNat = 4294967295 := rfl
      have hlt := c.toNat_lt
      exact UInt32.toNat_inj.1 (by omega)
  · rintro rfl
    rfl

/-- A counter raised for one of two is the same for both when it is raised for both, or full. -/
theorem satInc_ite_eq_iff (b b' : Bool) (c : UInt32) :
    ((if b then satInc c else c) = if b' then satInc c else c) ↔ b = b' ∨ c = 0xFFFFFFFF := by
  have hself := satInc_eq_self_iff c
  cases b <;> cases b' <;> simp [hself, @eq_comm _ c (satInc c)]

/-! The counters of the findings an operation is counted with. -/

theorem countOp_content (s : SessionState) (opType : UInt8) (flags : UInt16) :
    (countOp s opType flags).highEntropyCount = s.highEntropyCount ∧
      (countOp s opType flags).yaraMatchCount = s.yaraMatchCount := by
  unfold countOp
  split_ifs <;> exact ⟨rfl, rfl⟩

theorem countOp_extChangeCount (s : SessionState) (opType : UInt8) (flags : UInt16) :
    (countOp s opType flags).extChangeCount =
      if decide (opType = opRename) && hasFlag flags flagExtChange then satInc s.extChangeCount
      else s.extChangeCount := by
  unfold countOp
  split
  · next hwrite =>
    have hrename : opType ≠ opRename := by
      rintro rfl
      exact absurd hwrite (by decide)
    rw [decide_eq_false hrename, Bool.false_and, if_neg Bool.false_ne_true]
  · split
    · next hrename => rw [decide_eq_true hrename, Bool.true_and]
    · next hrename =>
      rw [decide_eq_false hrename, Bool.false_and, if_neg Bool.false_ne_true]
      split_ifs <;> rfl

theorem countOp_ransomExtCount (s : SessionState) (opType : UInt8) (flags : UInt16) :
    (countOp s opType flags).ransomExtCount =
      if (decide (opType = opOpen) || decide (opType = opWrite) || decide (opType = opTruncate) ||
        decide (opType = opRename)) && hasFlag flags flagRansomExt then satInc s.ransomExtCount
      else s.ransomExtCount := by
  unfold countOp
  split
  · next hwrite =>
    have hcounted : (decide (opType = opOpen) || decide (opType = opWrite) ||
        decide (opType = opTruncate)) = true := by simpa [or_assoc] using hwrite
    rw [hcounted, Bool.true_or, Bool.true_and]
  · next hwrite =>
    have hcounted : (decide (opType = opOpen) || decide (opType = opWrite) ||
        decide (opType = opTruncate)) = false := by simpa [not_or, and_assoc] using hwrite
    rw [hcounted, Bool.false_or]
    split
    · next hrename => rw [decide_eq_true hrename, Bool.true_and]
    · next hrename =>
      rw [decide_eq_false hrename, Bool.false_and, if_neg Bool.false_ne_true]
      split_ifs <;> rfl

/-- The counter of a finding after a message. -/
theorem counter_finding (k : Finding) (s : SessionState) (opType : UInt8) (flags : UInt16)
    (hash : UInt64) : k.counter (sessionUpdate s opType flags hash) =
      if k.counted opType && hasFlag flags k.flag then satInc (k.counter s) else k.counter s := by
  have hupdate : k.counter (sessionUpdate s opType flags hash) =
      k.counter (countContent (countOp s opType flags) flags) := by
    unfold sessionUpdate dirAdd
    dsimp only
    split <;> cases k <;> rfl
  obtain ⟨hentropy, hyara⟩ := countOp_content s opType flags
  rw [hupdate]
  cases k with
  | highEntropy =>
    show (if hasFlag flags flagHighEntropy then satInc (countOp s opType flags).highEntropyCount
      else (countOp s opType flags).highEntropyCount) = _
    rw [hentropy]
    rfl
  | yaraMatch =>
    show (if hasFlag flags flagYaraMatch then satInc (countOp s opType flags).yaraMatchCount
      else (countOp s opType flags).yaraMatchCount) = _
    rw [hyara]
    rfl
  | extChange => exact countOp_extChangeCount s opType flags
  | ransomExt => exact countOp_ransomExtCount s opType flags

/-- A session is what is left without its findings, and their counters. -/
theorem eq_of_forgetFindings (h : s.forgetFindings = s'.forgetFindings)
    (hcounter : ∀ k : Finding, k.counter s = k.counter s') : s = s' := by
  have hsplit (s : SessionState) : s = { s.forgetFindings with
    extChangeCount := Finding.extChange.counter s
    ransomExtCount := Finding.ransomExt.counter s
    highEntropyCount := Finding.highEntropy.counter s
    yaraMatchCount := Finding.yaraMatch.counter s } := rfl
  refine (hsplit s).trans ?_
  rw [h, hcounter, hcounter, hcounter, hcounter]
  exact (hsplit s').symm

theorem dirAdd_forgetFindings (s : SessionState) (hash : UInt64) :
    (dirAdd s hash).forgetFindings = dirAdd s.forgetFindings hash := by
  unfold dirAdd SessionState.forgetFindings
  dsimp only
  split_ifs <;> rfl

/-- Findings apart, the flags are looked at for the risk and for a content that stayed. -/
theorem countOp_forgetFindings (hrisky : hasFlag flags flagRisky = hasFlag flags' flagRisky)
    (hsame : hasFlag flags flagContentSame = hasFlag flags' flagContentSame) :
    (countOp s opType flags).forgetFindings = (countOp s opType flags').forgetFindings := by
  unfold countOp
  rw [hrisky, hsame]
  by_cases hwrite : opType = opOpen ∨ opType = opWrite ∨ opType = opTruncate
  · rw [if_pos hwrite, if_pos hwrite]
    rfl
  · rw [if_neg hwrite, if_neg hwrite]
    by_cases hrename : opType = opRename
    · rw [if_pos hrename, if_pos hrename]
      rfl
    · rw [if_neg hrename, if_neg hrename]

/-- Two sets of flags count the same when they agree but for findings, and these come to the same. -/
theorem sessionUpdate_congr (hash : UInt64) (hrisky : hasFlag flags flagRisky = hasFlag flags' flagRisky)
    (hsame : hasFlag flags flagContentSame = hasFlag flags' flagContentSame)
    (hcounter : ∀ k : Finding, k.counter (sessionUpdate s opType flags hash) =
      k.counter (sessionUpdate s opType flags' hash)) :
    sessionUpdate s opType flags hash = sessionUpdate s opType flags' hash := by
  have hforget (flags : UInt16) : (sessionUpdate s opType flags hash).forgetFindings =
      let s' := dirAdd (countOp s opType flags).forgetFindings hash
      { s' with totalEvents := s'.totalEvents + 1 } := by
    have hdir := dirAdd_forgetFindings (countContent (countOp s opType flags) flags) hash
    have hcontent : (countContent (countOp s opType flags) flags).forgetFindings =
        (countOp s opType flags).forgetFindings := rfl
    rw [hcontent] at hdir
    rw [← hdir]
    rfl
  refine eq_of_forgetFindings ?_ hcounter
  rw [hforget, hforget, countOp_forgetFindings hrisky hsame]

/-! ## Flags -/

theorem SameButFindings.hasFlag_eq (h : SameButFindings msg msg') (hplain : f &&& plainFlags = f) :
    hasFlag msg.flags f = hasFlag msg'.flags f := by
  have hflags := h.plain
  have hmask (flags : UInt16) : flags &&& f = (flags &&& plainFlags) &&& f := by
    rw [UInt16.and_assoc, UInt16.and_comm plainFlags, hplain]
  unfold hasFlag
  rw [hmask, ← hflags, ← hmask]

theorem hasFlag_analysisFlags_or (env : CallEnv) (p : Policy) (msg : EventMsg) (s : SessionState)
    (f : UInt16) : hasFlag (analysisFlags env p msg s) f =
      (hasFlag msg.flags f || (hasFlag (renameFlags p msg) f || hasFlag (newFileFlags p msg) f ||
        hasFlag (entropyFlags env p msg s) f || hasFlag (yaraFlags env p msg s) f)) := by
  unfold analysisFlags
  rw [hasFlag_or, hasFlag_or, hasFlag_or, hasFlag_or]
  simp only [Bool.or_assoc]

theorem hasFlag_finding (k : Finding) : hasFlag (analysisFlags env p msg s) k.flag =
    (k.claimed msg || k.made env p msg s) :=
  hasFlag_analysisFlags_or env p msg s k.flag

/-- The daemon finds the same for both messages, so the flags differ in the findings claimed. -/
theorem SameButFindings.found_eq (h : SameButFindings msg msg') (env : CallEnv) (p : Policy)
    (s : SessionState) :
    renameFlags p msg' = renameFlags p msg ∧ newFileFlags p msg' = newFileFlags p msg ∧
      entropyFlags env p msg' s = entropyFlags env p msg s ∧
      yaraFlags env p msg' s = yaraFlags env p msg s := by
  refine ⟨by rw [h.fields]; rfl, ?_, ?_, by rw [h.fields]; rfl⟩
  · unfold newFileFlags
    rw [h.hasFlag_eq (f := flagNewFile) (by decide), h.fields]
  · unfold entropyFlags
    rw [h.hasFlag_eq (f := flagBackedUp) (by decide), h.fields]

theorem SameButFindings.made_eq (h : SameButFindings msg msg') (k : Finding) :
    k.made env p msg' s = k.made env p msg s := by
  obtain ⟨hrename, hnew, hentropy, hyara⟩ := h.found_eq env p s
  unfold Finding.made
  rw [hrename, hnew, hentropy, hyara]

theorem SameButFindings.hasFlag_analysisFlags_eq (h : SameButFindings msg msg')
    (hplain : f &&& plainFlags = f) :
    hasFlag (analysisFlags env p msg s) f = hasFlag (analysisFlags env p msg' s) f := by
  obtain ⟨hrename, hnew, hentropy, hyara⟩ := h.found_eq env p s
  rw [hasFlag_analysisFlags_or, hasFlag_analysisFlags_or, hrename, hnew, hentropy, hyara,
    h.hasFlag_eq hplain]

/-- The flags a write is scored at once with. -/
theorem hasFlag_urgent (flags : UInt16) :
    hasFlag flags (flagRansomExt ||| flagHighEntropy ||| flagYaraMatch) = true ↔
      ∃ k : Finding, k.urgent = true ∧ hasFlag flags k.flag = true := by
  have hcomm (f : UInt16) : hasFlag flags f = hasFlag f flags := by
    unfold hasFlag
    rw [UInt16.and_comm]
  rw [hcomm, hasFlag_or, hasFlag_or, ← hcomm, ← hcomm, ← hcomm, Bool.or_eq_true, Bool.or_eq_true]
  constructor
  · rintro ((h | h) | h)
    · exact ⟨.ransomExt, rfl, h⟩
    · exact ⟨.highEntropy, rfl, h⟩
    · exact ⟨.yaraMatch, rfl, h⟩
  · rintro ⟨k, hurgent, h⟩
    cases k with
    | extChange => cases hurgent
    | ransomExt => exact .inl (.inl h)
    | highEntropy => exact .inl (.inr h)
    | yaraMatch => exact .inr h

/-- The score of a write is put off when none of them is claimed or made. -/
theorem deferScore_analysisFlags : deferScore msg (analysisFlags env p msg s) = true ↔
    (msg.opType = opOpen ∨ msg.opType = opWrite ∨ msg.opType = opTruncate) ∧
      ¬ ((∃ k : Finding, k.urgent = true ∧ k.claimed msg = true) ∨
        ∃ k : Finding, k.urgent = true ∧ k.made env p msg s = true) := by
  have hurgent := hasFlag_urgent (analysisFlags env p msg s)
  simp only [hasFlag_finding, Bool.or_eq_true, and_or_left, exists_or] at hurgent
  unfold deferScore
  rw [← hurgent]
  simp only [Bool.and_eq_true, Bool.or_eq_true, decide_eq_true_eq, Bool.not_eq_true',
    Bool.not_eq_true, or_assoc]

theorem deferScore_eq_iff (h : SameButFindings msg msg') :
    deferScore msg (analysisFlags env p msg s) = deferScore msg' (analysisFlags env p msg' s) ↔
      (msg.opType = opOpen ∨ msg.opType = opWrite ∨ msg.opType = opTruncate →
        ((∃ k : Finding, k.urgent = true ∧ k.claimed msg = true) ↔
          ∃ k : Finding, k.urgent = true ∧ k.claimed msg' = true) ∨
        ∃ k : Finding, k.urgent = true ∧ k.made env p msg s = true) := by
  have hop : msg'.opType = msg.opType := by rw [h.fields]
  rw [Bool.eq_iff_iff, deferScore_analysisFlags, deferScore_analysisFlags, hop]
  simp only [h.made_eq]
  by_cases hwrite : msg.opType = opOpen ∨ msg.opType = opWrite ∨ msg.opType = opTruncate
  · by_cases hmade : ∃ k : Finding, k.urgent = true ∧ k.made env p msg s = true
    · simp only [hmade, or_true, not_true_eq_false, and_false, implies_true]
    · simp only [hwrite, hmade, or_false, true_and, true_imp_iff, not_iff_not]
  · simp only [hwrite, false_and, false_imp_iff]

/-! ## The score -/

/-- Both messages count the same when they raise the same findings. -/
theorem countSession_congr (h : SameButFindings msg msg') (hcounter : ∀ k : Finding,
      k.counter (countSession env p msg s) = k.counter (countSession env p msg' s)) :
    countSession env p msg s = countSession env p msg' s := by
  have hrisky : hasFlag (analysisFlags env p msg s) flagRisky =
      hasFlag (analysisFlags env p msg' s) flagRisky := h.hasFlag_analysisFlags_eq (by decide)
  have hsame : hasFlag (analysisFlags env p msg s) flagContentSame =
      hasFlag (analysisFlags env p msg' s) flagContentSame := h.hasFlag_analysisFlags_eq (by decide)
  obtain ⟨flags, rfl⟩ : ∃ flags, msg' = { msg with flags := flags } := ⟨_, h.fields⟩
  exact sessionUpdate_congr _ hrisky hsame hcounter

/-- A counter is full in the window when it was and the window goes on. -/
theorem counter_windowSession_eq_iff (k : Finding) :
    k.counter (windowSession env p msg s) = 0xFFFFFFFF ↔
      k.counter s = 0xFFFFFFFF ∧ s.shortExpired env.now (p.windows msg.sourceType).1 = false := by
  unfold windowSession
  rw [sessionCheckWindow_eq]
  dsimp only
  cases s.shortExpired env.now (p.windows msg.sourceType).1 with
  | true => cases s.longExpired env.now (p.windows msg.sourceType).2 <;> cases k <;>
    simp [Finding.counter, SessionState.rollShort, SessionState.rollLong]
  | false => cases s.longExpired env.now (p.windows msg.sourceType).2 <;> cases k <;>
    simp [Finding.counter, SessionState.started, SessionState.rollLong]

/-- They raise the counter of a finding the same when both or neither claim it, or the daemon makes
it, or it is full. -/
theorem counter_countSession_eq_iff (h : SameButFindings msg msg') (k : Finding) :
    k.counter (countSession env p msg s) = k.counter (countSession env p msg' s) ↔
      (k.counted msg.opType = true →
        k.claimed msg = k.claimed msg' ∨ k.made env p msg s = true ∨
          k.counter s = 0xFFFFFFFF ∧ s.shortExpired env.now (p.windows msg.sourceType).1 = false) := by
  have hfields : msg'.opType = msg.opType ∧ msg'.filePath = msg.filePath ∧
      windowSession env p msg' s = windowSession env p msg s := by
    rw [h.fields]
    exact ⟨rfl, rfl, rfl⟩
  obtain ⟨hop, hpath, hwindow⟩ := hfields
  have hcount (msg : EventMsg) : countSession env p msg s = sessionUpdate (windowSession env p msg s)
      msg.opType (analysisFlags env p msg s) (dirHash msg.filePath.str) := rfl
  rw [hcount msg, hcount msg', hop, hpath, hwindow, counter_finding, counter_finding,
    satInc_ite_eq_iff, hasFlag_finding, hasFlag_finding, h.made_eq, counter_windowSession_eq_iff]
  cases k.counted msg.opType <;> cases k.made env p msg s <;> simp

/-- Both messages leave the session in the same state exactly when the findings come to the same. -/
theorem scoreSession_eq_iff (h : SameButFindings msg msg') :
    scoreSession env p msg s = scoreSession env p msg' s ↔ SameFindings env p msg msg' s := by
  have hscore (msg : EventMsg) : scoreSession env p msg s =
      if deferScore msg (analysisFlags env p msg s) then countSession env p msg s
      else scorerCalculate (countSession env p msg s) p := rfl
  constructor
  · intro heq
    have hcounter (k : Finding) :
        k.counter (countSession env p msg s) = k.counter (countSession env p msg' s) := by
      have hkept (msg : EventMsg) :
          k.counter (scoreSession env p msg s) = k.counter (countSession env p msg s) := by
        rw [hscore]
        split
        · rfl
        · cases k <;> rfl
      rw [← hkept, ← hkept, heq]
    refine ⟨fun k => (counter_countSession_eq_iff h k).1 (hcounter k), ?_⟩
    rw [← deferScore_eq_iff h]
    rw [hscore, hscore, ← countSession_congr h hcounter] at heq
    cases hdefer : deferScore msg (analysisFlags env p msg s) <;>
      cases hdefer' : deferScore msg' (analysisFlags env p msg' s) <;>
      rw [hdefer, hdefer'] at heq
    · exact .inl rfl
    · exact .inr heq
    · exact .inr heq.symm
    · exact .inl rfl
  · rintro ⟨hcounted, hscored⟩
    rw [← deferScore_eq_iff h] at hscored
    rw [hscore, hscore, ← countSession_congr h fun k =>
      (counter_countSession_eq_iff h k).2 (hcounted k)]
    rcases hscored with hdefer | hscored
    · rw [hdefer]
    · rw [hscored, ite_self, ite_self]

theorem scoreSession_eq_of_bare (h : SameButFindings msg msg')
    (hbare : (scoreSession env p msg s).bare = (scoreSession env p msg' s).bare) :
    scoreSession env p msg s = scoreSession env p msg' s := by
  have hid : (scoreSession env p msg s).currentEventId =
      (scoreSession env p msg' s).currentEventId := by
    rw [scoreSession_currentEventId, scoreSession_currentEventId, h.fields]
  have heq := SessionState.eq_of_bare hbare
  rwa [hid] at heq

/-- Whether they do has nothing to do with the event. -/
theorem scoreSession_withEvent_eq_iff (h : SameButFindings msg msg') (id : CBuf 32) :
    scoreSession env p msg (s.withEvent id) = scoreSession env p msg' (s.withEvent id) ↔
      scoreSession env p msg s = scoreSession env p msg' s := by
  constructor
  · intro heq
    have hbare := congrArg SessionState.bare heq
    rw [scoreSession_withEvent, scoreSession_withEvent] at hbare
    exact scoreSession_eq_of_bare h hbare
  · intro heq
    refine scoreSession_eq_of_bare h ?_
    rw [scoreSession_withEvent, scoreSession_withEvent, heq]

/-! ## The message -/

/-- Up to the block both messages do the same where they leave the session in the same state. -/
theorem settleMsg_congr (h : SameButFindings msg msg')
    (hscore : ∀ id, scoreSession env d.policy msg ((d.session i).withEvent id) =
      scoreSession env d.policy msg' ((d.session i).withEvent id)) :
    settleMsg env msg i d = settleMsg env msg' i d := by
  have hbackup := h.hasFlag_eq (f := flagBackedUp) (by decide)
  have hnew := h.hasFlag_eq (f := flagNewFile) (by decide)
  have hsession := recordMsg_session env msg i d
  have hpolicy := recordMsg_policy env msg i d
  have hrecord : recordMsg env msg i d = recordMsg env msg' i d := by
    unfold recordMsg recordProtectedFile EventMsg.reportsBackup
    rw [hbackup, h.fields]
    rfl
  have hscored : scoreMsg env msg i d = scoreMsg env msg' i d := by
    unfold scoreMsg
    dsimp only
    rw [← hrecord, hsession, hpolicy]
    exact congrArg ((recordMsg env msg i d).setSession i) (hscore (ensuredId env msg i d))
  unfold settleMsg recordCreatedFile
  rw [hscored, hnew, h.fields]
  rfl

/-- A message that is not scored otherwise does the same. -/
theorem processMsg_congr (h : SameButFindings msg msg') (hharmless : ForgeryHarmless env msg msg' d) :
    processMsg env msg d = processMsg env msg' d := by
  have htype : msg'.msgType = msg.msgType := by rw [h.fields]
  have hkey : msg'.sessionKey = msg.sessionKey := by rw [h.fields]; rfl
  have hgates : gate d.policy msg' = gate d.policy msg := by rw [h.fields]; rfl
  have hvfs (d : Daemon) : vfsBlocked env msg' d = vfsBlocked env msg d := by rw [h.fields]; rfl
  have hblack (d : Daemon) : blacklistBlock env msg' d = blacklistBlock env msg d := by
    rw [h.fields]; rfl
  have hblock (i : Fin sessionBuckets) (d : Daemon) :
      blockIfCritical env msg' i d = blockIfCritical env msg i d := by rw [h.fields]; rfl
  unfold processMsg
  dsimp only
  rw [htype, hgates, hvfs, hblack]
  split
  · rfl
  · next hmsg =>
    cases hgate : gate d.policy msg with
    | accept =>
      dsimp only
      unfold acceptMsg
      rw [hkey]
      cases hfind : sessionFindOrCreate d.table msg.sessionKey env.now with
      | none => rfl
      | some found =>
        obtain ⟨i, t⟩ := found
        have hfound := hharmless hmsg hgate i t hfind
        show acceptSession env msg i _ = acceptSession env msg' i _
        unfold acceptSession
        rw [hblock, settleMsg_congr h fun id => ?_]
        exact (scoreSession_withEvent_eq_iff h id).2 ((scoreSession_eq_iff h).2 hfound)
    | blacklistBlock | protectionOff | extFilterSkip | exceptionBypass | whitelistBypass => rfl

/-- The score can be read off the session an accepted message leaves. -/
theorem scoreSession_of_acceptState (env : CallEnv) (p : Policy) (msg : EventMsg) (ok : Bool)
    (s : SessionState) :
    scoreSession env p msg s = { acceptState env p msg ok s with isBlocked := s.isBlocked } := by
  have hblocked : (scoreSession env p msg s).isBlocked = s.isBlocked :=
    (scoreSession_sameSession env p msg s).blocked
  unfold acceptState SessionState.blockOn
  rw [← hblocked]
  dsimp only
  split <;> rfl

/-- Where the outcome is the same, the findings come to the same. -/
theorem forgeryHarmless_of_outcome (h : SameButFindings msg msg')
    (hout : (processMsg env msg d).outcome = (processMsg env msg' d).outcome) :
    ForgeryHarmless env msg msg' d := by
  intro hmsg hgate i t hfind
  have hprocess (msg : EventMsg) (hmsg : msg.msgType ≠ msgVfsBlocked)
      (hgate : gate d.policy msg = .accept)
      (hfind : sessionFindOrCreate d.table msg.sessionKey env.now = some (i, t)) :
      processMsg env msg d = acceptSession env msg i { d with table := t, journal := [] } := by
    unfold processMsg acceptMsg
    dsimp only
    rw [if_neg hmsg, hgate]
    dsimp only
    rw [hfind]
  rw [hprocess msg hmsg hgate hfind,
    hprocess msg' (by rw [h.fields]; exact hmsg) (by rw [h.fields]; exact hgate)
      (by rw [h.fields]; exact hfind)] at hout
  have htable := congrArg Prod.fst hout
  have hsession : (acceptSession env msg i { d with table := t, journal := [] }).session i =
      (acceptSession env msg' i { d with table := t, journal := [] }).session i :=
    congrArg (fun t : SessionTable => t.buckets i) htable
  have hbare := congrArg SessionState.bare hsession
  rw [acceptSession_bare, acceptSession_bare] at hbare
  refine (scoreSession_eq_iff h).1 (scoreSession_eq_of_bare h ?_)
  rw [scoreSession_of_acceptState env _ msg (executes env msg { d with table := t, journal := [] }),
    scoreSession_of_acceptState env _ msg' (executes env msg' { d with table := t, journal := [] })]
  exact congrArg (fun s' : SessionState => { s' with isBlocked := (t.buckets i).isBlocked }) hbare

/-- Two messages that differ only in the findings they claim leave the same sessions, database, lists
and blocked file exactly when what they claim comes to the same. -/
theorem forged_findings_iff (h : SameButFindings msg msg') :
    (processMsg env msg d).outcome = (processMsg env msg' d).outcome ↔
      ForgeryHarmless env msg msg' d :=
  ⟨forgeryHarmless_of_outcome h, fun hharmless => congrArg Daemon.outcome (processMsg_congr h hharmless)⟩

end

/-- A write that claims a YARA match. -/
def forgedWrite : EventMsg :=
  { sampleWrite "a.txt" with flags := (sampleWrite "a.txt").flags ||| flagYaraMatch }

theorem sameButFindings_forgedWrite : SameButFindings (sampleWrite "a.txt") forgedWrite :=
  ⟨rfl, by decide⟩

/-- The claim is scored. -/
theorem forgedWrite_outcome :
    (processMsg (sampleEnv 0) (sampleWrite "a.txt") (Daemon.start .default .empty)).outcome ≠
      (processMsg (sampleEnv 0) forgedWrite (Daemon.start .default .empty)).outcome := by
  intro h
  have hpeak := congrArg (fun o => o.2.1.events.map EventRow.peakRiskScore) h
  exact absurd hpeak (by decide)

/-- So it is not harmless. -/
theorem forged_findings_sample :
    ¬ ForgeryHarmless (sampleEnv 0) (sampleWrite "a.txt") forgedWrite
      (Daemon.start .default .empty) :=
  fun h => forgedWrite_outcome ((forged_findings_iff sameButFindings_forgedWrite).2 h)

/-- A sender can raise the score of its session by a claim. -/
theorem forged_findings_score :
    ¬ ∀ (env : CallEnv) (msg msg' : EventMsg) (d : Daemon), SameButFindings msg msg' →
      (processMsg env msg d).outcome = (processMsg env msg' d).outcome :=
  fun h => forgedWrite_outcome (h _ _ _ _ sameButFindings_forgedWrite)

end GfrGuard
