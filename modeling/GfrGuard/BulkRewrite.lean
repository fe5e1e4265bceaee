import GfrGuard.SameClose
import GfrGuard.ScoreLaws
import GfrGuard.Evidence

/-!
# Bulk rewriting of identical data

Risky opens and writes raise `modified_count` and are not scored; a close that found the content
unchanged takes one back and is scored at once, while the other files of the burst are still
open. With the default weights 25 open files and their directory are critical, so the first
closes of a large burst block its session until half of its writes are known to be identical
(`HeldBack`). The messages of a session that rewrites files with what they held block it never
exactly when every close is held back (`identical_rewrites_iff`).
-/

namespace GfrGuard

/-- The weights and thresholds of the default policy. -/
def Policy.DefaultScores (p : Policy) : Prop :=
  p.scoring.weights = Policy.default.scoring.weights ∧
    p.scoring.thresholds = Policy.default.scoring.thresholds

/-- A policy that the event loads has the default weights and thresholds. -/
def DaemonEvent.LoadsDefaultScores : DaemonEvent → Prop
  | .reload (some np) _ => np.policy.DefaultScores
  | _ => True

/-- A risky open or write of an existing file. -/
def EventMsg.RewritesFile (msg : EventMsg) : Prop :=
  (msg.opType = opOpen ∨ msg.opType = opWrite) ∧ hasFlag msg.flags flagRisky = true ∧
    hasFlag msg.flags flagNewFile = false ∧ hasFlag msg.flags flagRansomExt = false

/-- A close that found the content unchanged. -/
def EventMsg.ClosesSame (msg : EventMsg) : Prop :=
  msg.opType = opClose ∧ hasFlag msg.flags flagContentSame = true

/-- Neither the message nor the scans of its file report a hit. -/
def EventMsg.NoHit (env : CallEnv) (msg : EventMsg) : Prop :=
  hasFlag msg.flags flagHighEntropy = false ∧ hasFlag msg.flags flagYaraMatch = false ∧
    env.entropySuspicious msg.filePath.str = false ∧ env.yaraMatches msg.filePath.str = false

/-- A message of a session that rewrites files of one directory with what they held. -/
def IdenticalRewrite (hash : UInt64) (env : CallEnv) (msg : EventMsg) : Prop :=
  (msg.RewritesFile ∨ msg.ClosesSame) ∧ msg.NoHit env ∧ dirHash msg.filePath.str = hash

/-- The event is no accepted message of the key, or one of such a session. -/
def RewritesOnly (key : CBuf 128) (hash : UInt64) (d : Daemon) : DaemonEvent → Prop
  | .message env msg => Accepts key d (.message env msg) → IdenticalRewrite hash env msg
  | _ => True

/-- The event is an accepted message of the key, and calls `blocker_execute`. -/
def AttemptsBlock (key : CBuf 128) (d : Daemon) : DaemonEvent → Prop
  | .message env msg => Accepts key d (.message env msg) ∧ (executeCall env msg d).isSome = true
  | _ => False

/-- A close with `m` modifications and `c` identical writes in its window is not critical: less
than 25 files stay modified, or half of the writes are then identical. -/
def HeldBack (m c : UInt32) : Prop :=
  m.toNat ≤ 25 ∨ 50 ≤ satInc c * 100 / (m - 1 + satInc c)

/-- An accepted close of the key in a directory, by a session that is not blocked and whose short
window has not run out, is held back. -/
def HoldsBack (key : CBuf 128) (d : Daemon) : DaemonEvent → Prop
  | .message env msg => Accepts key d (.message env msg) → msg.opType = opClose →
      dirHash msg.filePath.str ≠ 0 → ∀ s ∈ d.view key, s.isBlocked = false →
      s.shortExpired env.now (d.policy.windows msg.sourceType).1 = false →
      HeldBack s.modifiedCount s.contentSameCount
  | _ => True

instance (p : Policy) : Decidable p.DefaultScores := inferInstanceAs (Decidable (_ ∧ _))

instance (e : DaemonEvent) : Decidable e.LoadsDefaultScores := by
  unfold DaemonEvent.LoadsDefaultScores
  split <;> infer_instance

instance (msg : EventMsg) : Decidable msg.RewritesFile := inferInstanceAs (Decidable (_ ∧ _))

instance (msg : EventMsg) : Decidable msg.ClosesSame := inferInstanceAs (Decidable (_ ∧ _))

instance (env : CallEnv) (msg : EventMsg) : Decidable (msg.NoHit env) :=
  inferInstanceAs (Decidable (_ ∧ _))

instance (hash : UInt64) (env : CallEnv) (msg : EventMsg) :
    Decidable (IdenticalRewrite hash env msg) := inferInstanceAs (Decidable (_ ∧ _))

instance (key : CBuf 128) (hash : UInt64) (d : Daemon) : ∀ e : DaemonEvent, Decidable (RewritesOnly key hash d e)
  | .message .. => inferInstanceAs (Decidable (_ → _))
  | .lookup .. => inferInstanceAs (Decidable True)
  | .reload .. => inferInstanceAs (Decidable True)

instance (key : CBuf 128) (d : Daemon) : ∀ e : DaemonEvent, Decidable (AttemptsBlock key d e)
  | .message .. => inferInstanceAs (Decidable (_ ∧ _))
  | .lookup .. => inferInstanceAs (Decidable False)
  | .reload .. => inferInstanceAs (Decidable False)

instance (m c : UInt32) : Decidable (HeldBack m c) := inferInstanceAs (Decidable (_ ∨ _))

instance (key : CBuf 128) (d : Daemon) : ∀ e : DaemonEvent, Decidable (HoldsBack key d e)
  | .message .. => inferInstanceAs (Decidable (_ → _))
  | .lookup .. => inferInstanceAs (Decidable True)
  | .reload .. => inferInstanceAs (Decidable True)

/-- A session that shows nothing but modifications and one directory. -/
structure SessionState.RewriteOnly (hash : UInt64) (s : SessionState) : Prop where
  counters : ∀ k, k ≠ .modified → s.counter k = 0
  entropy : s.highEntropyCount = 0
  yara : s.yaraMatchCount = 0
  counted : s.DirsCounted
  dirs : s.dirSet.hashes = [] ∨ hash ≠ 0 ∧ s.dirSet.hashes = [hash]

section
variable {hash : UInt64} {key : CBuf 128} {env : CallEnv} {p : Policy} {msg : EventMsg}
  {s : SessionState} {d : Daemon} {e : DaemonEvent}

/-! ## The flags of a rewrite -/

theorem hasFlag_comm (a b : UInt16) : hasFlag a b = hasFlag b a := by
  unfold hasFlag
  rw [UInt16.and_comm]

/-- Without a hit the flags are those of the names. -/
theorem EventMsg.NoHit.analysisFlags_eq (h : msg.NoHit env) (p : Policy) (s : SessionState) :
    analysisFlags env p msg s = nameFlags p msg := by
  have he : entropyFlags env p msg s = 0 := by
    unfold entropyFlags
    rw [if_neg fun hscan => Bool.false_ne_true (h.2.2.1.symm.trans hscan.2.2.2.2.2)]
  have hy : yaraFlags env p msg s = 0 := by
    unfold yaraFlags
    rw [if_neg fun hscan => Bool.false_ne_true (h.2.2.2.symm.trans hscan.2.2.2.2.2)]
  unfold analysisFlags nameFlags
  rw [he, hy, UInt16.or_zero, UInt16.or_zero]

theorem EventMsg.NoHit.entropy (h : msg.NoHit env) (p : Policy) :
    hasFlag (nameFlags p msg) flagHighEntropy = false := by
  rw [hasFlag_nameFlags (by decide) (by decide)]
  exact h.1

theorem EventMsg.NoHit.yara (h : msg.NoHit env) (p : Policy) :
    hasFlag (nameFlags p msg) flagYaraMatch = false := by
  rw [hasFlag_nameFlags (by decide) (by decide)]
  exact h.2.1

/-- An existing file that is opened or written shows no extension. -/
theorem EventMsg.RewritesFile.nameFlags_eq (h : msg.RewritesFile) (p : Policy) :
    nameFlags p msg = msg.flags := by
  have hrename : renameFlags p msg = 0 := by
    unfold renameFlags
    refine if_neg fun hren => ?_
    rcases h.1 with hop | hop <;> exact absurd (hop.symm.trans hren.1) (by decide)
  have hnew : newFileFlags p msg = 0 := by
    unfold newFileFlags
    exact if_neg fun hnew => Bool.false_ne_true (h.2.2.1.symm.trans hnew.1)
  unfold nameFlags
  rw [hrename, hnew, UInt16.or_zero, UInt16.or_zero]

/-- A rewrite raises no counter but the modifications. -/
theorem IdenticalRewrite.counts (h : IdenticalRewrite hash env msg) {k : Counter}
    (hk : k ≠ .modified) : k.counts msg.opType (nameFlags p msg) = false := by
  rcases h.1 with hwrite | hclose
  · rw [hwrite.nameFlags_eq]
    have hransom := hwrite.2.2.2
    rcases hwrite.1 with hop | hop <;> rw [hop]
    all_goals
      cases k with
      | modified => exact absurd rfl hk
      | renamed | deleted | extChanged => rfl
      | ransomExt => exact hransom
  · rw [hclose.1]
    cases k with
    | modified => exact absurd rfl hk
    | renamed | deleted | extChanged | ransomExt => rfl

/-- Opens and writes of a rewrite are not scored, closes are. -/
theorem IdenticalRewrite.deferScore_eq (h : IdenticalRewrite hash env msg) (p : Policy)
    (s : SessionState) :
    deferScore msg (analysisFlags env p msg s) = true ↔ msg.opType ≠ opClose := by
  rw [h.2.1.analysisFlags_eq]
  unfold deferScore
  rcases h.1 with hwrite | hclose
  · have hflags : hasFlag (nameFlags p msg) (flagRansomExt ||| flagHighEntropy ||| flagYaraMatch) =
        false := by
      rw [hasFlag_comm, hasFlag_or, hasFlag_or, hasFlag_comm flagRansomExt,
        hasFlag_comm flagHighEntropy, hasFlag_comm flagYaraMatch, h.2.1.entropy, h.2.1.yara,
        hwrite.nameFlags_eq, hwrite.2.2.2]
      rfl
    rw [hflags]
    rcases hwrite.1 with hop | hop <;> rw [hop] <;> decide
  · rw [hclose.1]
    exact iff_of_false Bool.false_ne_true fun hne => hne rfl

/-! ## What a rewrite counts -/

theorem contentSignals_countSession (env : CallEnv) (p : Policy) (msg : EventMsg)
    (s : SessionState) :
    (countSession env p msg s).highEntropyCount =
        (let c := if s.shortExpired env.now (p.windows msg.sourceType).1 then 0
          else s.highEntropyCount
        if hasFlag (analysisFlags env p msg s) flagHighEntropy then satInc c else c) ∧
      (countSession env p msg s).yaraMatchCount =
        (let c := if s.shortExpired env.now (p.windows msg.sourceType).1 then 0
          else s.yaraMatchCount
        if hasFlag (analysisFlags env p msg s) flagYaraMatch then satInc c else c) := by
  obtain ⟨-, he, hy⟩ := contentCounts_sessionCheckWindow s env.now (p.windows msg.sourceType).1
    (p.windows msg.sourceType).2
  unfold countSession
  generalize sessionCheckWindow s env.now (p.windows msg.sourceType).1
    (p.windows msg.sourceType).2 = w at he hy
  have hcount : (countOp w msg.opType (analysisFlags env p msg s)).highEntropyCount =
        w.highEntropyCount ∧
      (countOp w msg.opType (analysisFlags env p msg s)).yaraMatchCount = w.yaraMatchCount := by
    unfold countOp
    split_ifs <;> exact ⟨rfl, rfl⟩
  unfold sessionUpdate dirAdd countContent
  dsimp only
  rw [hcount.1, hcount.2, he, hy]
  split <;> exact ⟨rfl, rfl⟩

/-- A rewrite leaves its session with modifications and one directory. -/
theorem SessionState.RewriteOnly.countSession (h : s.RewriteOnly hash)
    (hmsg : IdenticalRewrite hash env msg) : (countSession env p msg s).RewriteOnly hash := by
  obtain ⟨hentropy, hyara⟩ := contentSignals_countSession env p msg s
  rw [hmsg.2.1.analysisFlags_eq, hmsg.2.1.entropy, h.entropy, ite_self] at hentropy
  rw [hmsg.2.1.analysisFlags_eq, hmsg.2.1.yara, h.yara, ite_self] at hyara
  obtain ⟨hcounted, hdirs, -⟩ := countSession_dirs env p msg s h.counted
  refine ⟨fun k hk => ?_, hentropy, hyara, hcounted, ?_⟩
  · have hle := counter_countSession_le k env p msg s
    rw [hmsg.counts hk, h.counters k hk] at hle
    have hzero : (if s.shortExpired env.now (p.windows msg.sourceType).1 = true then 0
        else UInt32.toNat 0) = 0 := ite_self 0
    rw [hzero] at hle
    exact UInt32.toNat_inj.1 (Nat.eq_zero_of_le_zero hle)
  · rw [hmsg.2.2] at hdirs
    generalize hb : (if s.longExpired env.now (p.windows msg.sourceType).2 then []
      else s.dirSet.hashes) = base at hdirs
    have hbase : base = [] ∨ hash ≠ 0 ∧ base = [hash] := by
      rw [← hb]
      split
      · exact .inl rfl
      · exact h.dirs
    rcases hdirs with hsame | ⟨hne, hnot, hadd⟩
    · rwa [hsame]
    · rcases hbase with hnil | ⟨-, hone⟩
      · exact .inr ⟨hne, by rw [hadd, hnil]; rfl⟩
      · rw [hone] at hnot
        exact absurd (List.mem_singleton_self hash) hnot

/-- The modifications after a close. -/
theorem modifiedCount_of_closesSame (env : CallEnv) (p : Policy) (s : SessionState)
    (hclose : msg.ClosesSame) :
    (countSession env p msg s).modifiedCount =
      let m := if s.shortExpired env.now (p.windows msg.sourceType).1 then 0 else s.modifiedCount
      if 0 < m then m - 1 else m := by
  have hstep := modifiedCount_handleStep ⟨s, []⟩ ⟨env, p, msg, 0⟩
  have hsame : HandleMsg.SameClose ⟨env, p, msg, 0⟩ := hclose
  rw [if_neg (not_risky_of_sameClose hsame)] at hstep
  have hcounter : (scoreSession env p msg s).modifiedCount = _ :=
    (scoreSession_frame env p msg s).1 .modified
  refine hcounter.symm.trans (hstep.trans ?_)
  simp only [hsame, true_and]
  rfl

/-- The identical writes after a close that takes a modification back. -/
theorem contentSameCount_of_closesSame (hclose : msg.ClosesSame)
    (hshort : s.shortExpired env.now (p.windows msg.sourceType).1 = false)
    (hpos : 0 < s.modifiedCount) :
    (countSession env p msg s).contentSameCount = satInc s.contentSameCount := by
  have hsame := (contentCounts_sessionCheckWindow s env.now (p.windows msg.sourceType).1
    (p.windows msg.sourceType).2).1
  have hmod := counter_sessionCheckWindow .modified s env.now (p.windows msg.sourceType).1
    (p.windows msg.sourceType).2
  rw [hshort, if_neg Bool.false_ne_true] at hsame hmod
  have hflag : hasFlag (analysisFlags env p msg s) flagContentSame = true := by
    rw [hasFlag_analysisFlags (by decide) (by decide), hasFlag_nameFlags (by decide) (by decide)]
    exact hclose.2
  unfold countSession
  generalize sessionCheckWindow s env.now (p.windows msg.sourceType).1
    (p.windows msg.sourceType).2 = w at hsame hmod
  have hcount : (countOp w msg.opType (analysisFlags env p msg s)).contentSameCount =
      satInc w.contentSameCount := by
    have hfound : 0 < w.modifiedCount := by
      rw [show w.modifiedCount = s.modifiedCount from hmod]
      exact hpos
    unfold countOp
    rw [hclose.1, if_neg (by decide), if_neg (by decide), if_neg (by decide),
      if_pos ⟨rfl, hflag, hfound⟩]
  rw [← hsame, ← hcount]
  unfold sessionUpdate dirAdd countContent
  dsimp only
  split <;> rfl

/-! ## The score of a close -/

theorem Policy.DefaultScores.sane (h : p.DefaultScores) : p.scoring.Sane := by
  have hdefault := Policy.sane Policy.default_numericValid
  exact ⟨h.2 ▸ hdefault.warn, h.2 ▸ hdefault.high, h.2 ▸ hdefault.critical, h.2 ▸ hdefault.max,
    h.1 ▸ hdefault.weights⟩

/-- The weighted sum of modifications and directories. -/
theorem SessionState.RewriteOnly.rawScore_eq (h : s.RewriteOnly hash) :
    rawScore s Policy.default.scoring.weights =
      s.modifiedCount.toNat * 3 + s.touchedDirs.toNat * 5 := by
  have hrename : s.renameCount = 0 := h.counters .renamed (by decide)
  have hdelete : s.deleteCount = 0 := h.counters .deleted (by decide)
  have hext : s.extChangeCount = 0 := h.counters .extChanged (by decide)
  have hransom : s.ransomExtCount = 0 := h.counters .ransomExt (by decide)
  have h0 : UInt32.toNat 0 = 0 := rfl
  unfold rawScore
  rw [hrename, hdelete, hext, hransom, h.entropy, h.yara, h0]
  simp [Policy.default]

theorem SessionState.RewriteOnly.dimensions_eq (h : s.RewriteOnly hash) :
    dimensions s = (if 0 < s.modifiedCount then 1 else 0) + if 0 < s.touchedDirs then 1 else 0 := by
  have hrename : s.renameCount = 0 := h.counters .renamed (by decide)
  have hdelete : s.deleteCount = 0 := h.counters .deleted (by decide)
  have hext : s.extChangeCount = 0 := h.counters .extChanged (by decide)
  unfold dimensions
  rw [hrename, hdelete, hext]
  simp

/-- Modifications and one directory are critical from 25 on, unless half of the writes are
identical. -/
theorem SessionState.RewriteOnly.critical_iff (h : s.RewriteOnly hash) (hp : p.DefaultScores) :
    (scorerCalculate s p).riskLevel = .critical ↔
      s.dirSet.hashes ≠ [] ∧ 25 ≤ s.modifiedCount.toNat ∧
        ¬ 50 ≤ s.contentSameCount * 100 / (s.modifiedCount + s.contentSameCount) := by
  have hransom : s.ransomExtCount = 0 := h.counters .ransomExt (by decide)
  have hdelete : ¬ s.DeleteOnly := fun hd => by
    have hpos := hd.deleted
    rw [show s.deleteCount = 0 from h.counters .deleted (by decide)] at hpos
    exact absurd hpos (by decide)
  have hcritical : p.scoring.thresholds.critical = 80 := by
    rw [hp.2]
    rfl
  have hsuppress := critical_le_suppressSame_iff (s := s) (v := rawScore s p.scoring.weights)
    hp.sane.warn (hp.sane.high.trans hp.sane.critical)
  have hraw := h.rawScore_eq
  rw [← hp.1] at hraw
  have hdims := h.dimensions_eq
  have hdirs : s.touchedDirs.toNat = s.dirSet.hashes.length := h.counted
  have hone : s.dirSet.hashes.length ≤ 1 := by
    rcases h.dirs with hnil | ⟨-, hone⟩
    · rw [hnil]
      exact Nat.zero_le 1
    · rw [hone]
      exact Nat.le_refl 1
  have h0 : UInt32.toNat 0 = 0 := rfl
  simp only [UInt32.lt_iff_toNat_lt, h0] at hdims
  rw [riskLevel_eq_critical_iff hp.sane, riskScore_toNat hp.sane]
  dsimp only
  rw [if_neg hdelete, ← List.length_pos_iff_ne_nil, ← hdirs]
  rw [hcritical] at hsuppress ⊢
  by_cases hdim : dimensions s = 1
  · rw [if_pos ⟨hdim, hransom⟩]
    refine iff_of_false (by omega) fun hcrit => ?_
    rw [if_pos hcrit.1, if_pos (by omega)] at hdims
    omega
  · rw [if_neg fun hcap => hdim hcap.1]
    have hlow : 0 < s.touchedDirs.toNat ∨ s.modifiedCount.toNat = 0 := by
      by_contra hnot
      rw [not_or] at hnot
      rw [if_neg hnot.1, if_pos (Nat.pos_of_ne_zero hnot.2)] at hdims
      exact hdim hdims
    constructor
    · intro hscore
      obtain ⟨hshare, hge⟩ := hsuppress.1 (by omega)
      exact ⟨by omega, by omega, hshare⟩
    · rintro ⟨htouched, hmod, hshare⟩
      have hge := hsuppress.2 ⟨hshare, by omega⟩
      omega

/-- A rewrite makes its session critical exactly by a close that is not held back. -/
theorem scoreSession_critical_iff (h : s.RewriteOnly hash) (hmsg : IdenticalRewrite hash env msg)
    (hp : p.DefaultScores) (hclose : msg.opType = opClose) :
    (scoreSession env p msg s).riskLevel = .critical ↔
      hash ≠ 0 ∧ s.shortExpired env.now (p.windows msg.sourceType).1 = false ∧
        ¬ HeldBack s.modifiedCount s.contentSameCount := by
  have hsame : msg.ClosesSame := hmsg.1.resolve_left fun hwrite => by
    rcases hwrite.1 with hop | hop <;> exact absurd (hop.symm.trans hclose) (by decide)
  have hdefer : deferScore msg (analysisFlags env p msg s) = false :=
    Bool.eq_false_iff.2 fun hdefer => (hmsg.deferScore_eq p s).1 hdefer hclose
  have hcount := h.countSession (p := p) hmsg
  have hmod := modifiedCount_of_closesSame env p s hsame
  have h0 : UInt32.toNat 0 = 0 := rfl
  rw [scoreSession_eq, hdefer, if_neg Bool.false_ne_true, hcount.critical_iff hp]
  have hdir : (countSession env p msg s).dirSet.hashes ≠ [] ↔ hash ≠ 0 := by
    obtain ⟨-, -, hne⟩ := countSession_dirs env p msg s h.counted
    rw [hmsg.2.2] at hne
    refine ⟨fun hdirs => ?_, hne⟩
    exact (hcount.dirs.resolve_left hdirs).1
  rw [hdir]
  refine and_congr_right fun _ => ?_
  cases hshort : s.shortExpired env.now (p.windows msg.sourceType).1 with
  | true =>
    -- the close finds a new window, in which nothing is modified
    rw [hshort] at hmod
    have hzero : (countSession env p msg s).modifiedCount = 0 := hmod
    rw [hzero]
    exact iff_of_false (fun hcrit => absurd hcrit.1 (by decide)) fun hheld => absurd hheld.1
      (by decide)
  | false =>
    rw [hshort, if_neg Bool.false_ne_true] at hmod
    dsimp only at hmod
    rw [and_iff_right rfl, HeldBack, not_or]
    by_cases hpos : 0 < s.modifiedCount
    · have hnat : 0 < s.modifiedCount.toNat := UInt32.lt_iff_toNat_lt.1 hpos
      rw [if_pos hpos] at hmod
      rw [hmod, contentSameCount_of_closesSame hsame hshort hpos, toNat_pred hpos]
      refine and_congr_left fun _ => ?_
      omega
    · rw [if_neg hpos] at hmod
      rw [UInt32.lt_iff_toNat_lt, h0] at hpos
      rw [hmod]
      exact iff_of_false (fun hcrit => by omega) fun hheld => hheld.1 (by omega)

/-! ## The session of the key -/

/-- The session an accepted message finds calls `blocker_execute` exactly when the message makes
it critical and it is not blocked. -/
theorem executeCall_isSome_iff_view (haccept : Accepts key d (.message env msg)) :
    (executeCall env msg d).isSome = true ↔
      (scoreSession env d.policy msg (visit key env.now (d.view key))).riskLevel = .critical ∧
        (visit key env.now (d.view key)).isBlocked = false := by
  obtain ⟨rfl, htype, hgate, hslot⟩ := haccept
  obtain ⟨⟨i, t⟩, hfind⟩ := Option.isSome_iff_exists.1 hslot
  have hvisit := (sessionFindOrCreate_spec hfind).visited_view
  have hsettle := settleMsg_bare env msg i { d with table := t, journal := [] }
  have hscore := scoreSession_withEvent env d.policy msg (t.buckets i) (.empty 32)
  rw [show (t.buckets i).withEvent (.empty 32) = visit msg.sessionKey env.now
    (d.view msg.sessionKey) from hvisit] at hscore
  have hfound : ((settleMsg env msg i { d with table := t, journal := [] }).session i).bare =
      (scoreSession env d.policy msg (visit msg.sessionKey env.now (d.view msg.sessionKey))).bare :=
    hsettle.trans hscore.symm
  have hlevel := congrArg SessionState.riskLevel hfound
  have hblocked := congrArg SessionState.isBlocked hfound
  have hkeep := (scoreSession_sameSession env d.policy msg
    (visit msg.sessionKey env.now (d.view msg.sessionKey))).blocked
  unfold executeCall
  dsimp only
  rw [if_neg htype, hgate]
  dsimp only [criticalCall]
  rw [hfind]
  dsimp only at hlevel hblocked ⊢
  rw [← hkeep]
  simp only [SessionState.bare, SessionState.withEvent] at hlevel hblocked
  rw [hlevel, hblocked]
  split
  · next h => exact iff_of_true rfl h
  · next h => exact iff_of_false Bool.false_ne_true h

theorem SessionState.RewriteOnly.touch (h : s.RewriteOnly hash) (now : Int) :
    (s.touch now).RewriteOnly hash := by
  refine ⟨fun k hk => ?_, h.entropy, h.yara, h.counted, h.dirs⟩
  rw [← h.counters k hk]
  cases k <;> rfl

theorem SessionState.RewriteOnly.blockOn (h : s.RewriteOnly hash) (ok : Bool) :
    (s.blockOn ok).RewriteOnly hash := by
  refine ⟨fun k hk => ?_, h.entropy, h.yara, h.counted, h.dirs⟩
  rw [← h.counters k hk]
  cases k <;> rfl

theorem SessionState.rewriteOnly_fresh (hash : UInt64) (key : CBuf 128) (now : Int) :
    (SessionState.fresh key now).RewriteOnly hash := by
  refine ⟨fun k _ => ?_, rfl, rfl, rfl, .inl rfl⟩
  cases k <;> rfl

theorem SessionState.RewriteOnly.scoreSession (h : s.RewriteOnly hash)
    (hmsg : IdenticalRewrite hash env msg) (p : Policy) :
    (scoreSession env p msg s).RewriteOnly hash := by
  have hcount := h.countSession (p := p) hmsg
  rw [scoreSession_eq]
  split
  · exact hcount
  · exact ⟨fun k hk => (counter_scorerCalculate k _ p).trans (hcount.counters k hk),
      hcount.entropy, hcount.yara, hcount.counted, hcount.dirs⟩

/-- A session that rewrites files, and is blocked or below critical. -/
structure SessionState.Low (hash : UInt64) (s : SessionState) : Prop where
  only : s.RewriteOnly hash
  level : s.isBlocked = false → s.riskLevel ≠ .critical

/-- What holds in a run that never blocks such a session for its rewrites. -/
structure BulkState (key : CBuf 128) (hash : UInt64) (d : Daemon) : Prop where
  inv : d.Inv
  scores : d.policy.DefaultScores
  view : ∀ s ∈ d.view key, s.Low hash

/-- The session an accepted message finds. -/
theorem BulkState.visit (h : BulkState key hash d) (now : Int) :
    (visit key now (d.view key)).Low hash := by
  have hview := h.view
  cases hv : d.view key with
  | none => exact ⟨SessionState.rewriteOnly_fresh hash key now, fun _ hlevel => by cases hlevel⟩
  | some s =>
    have hs := hview s hv
    exact ⟨hs.only.touch now, hs.level⟩

/-- A rewrite attempts no block exactly when it is no close, or is held back. -/
theorem holdsBack_iff (h : BulkState key hash d) (hmsg : RewritesOnly key hash d e) :
    HoldsBack key d e ↔ ¬ AttemptsBlock key d e := by
  cases e with
  | lookup _ _ => exact iff_of_true trivial id
  | reload _ _ => exact iff_of_true trivial id
  | message env msg =>
    by_cases haccept : Accepts key d (.message env msg)
    · have hrewrite : IdenticalRewrite hash env msg := hmsg haccept
      obtain ⟨honly, hlow⟩ := h.visit env.now
      dsimp only [HoldsBack, AttemptsBlock]
      rw [and_iff_right haccept, executeCall_isSome_iff_view haccept, forall_prop_of_true haccept]
      by_cases hclose : msg.opType = opClose
      · rw [scoreSession_critical_iff honly hrewrite h.scores hclose,
          forall_prop_of_true hclose, hrewrite.2.2]
        cases hv : d.view key with
        | none =>
          exact iff_of_true (fun _ s hs => by cases hs) fun hcall =>
            hcall.1.2.2 (.inl (Nat.zero_le 25))
        | some s =>
          have hvisited : ∀ P : SessionState → Prop, (∀ s' ∈ (some s : Option SessionState), P s') ↔
              P s := fun P => ⟨fun hall => hall s rfl, fun hs s' hs' => by cases hs'; exact hs⟩
          rw [hvisited]
          constructor
          · rintro hheld ⟨⟨hne, hshort, hnot⟩, hblocked⟩
            exact hnot (hheld hne hblocked hshort)
          · intro hnot hne hblocked hshort
            by_contra hheld
            exact hnot ⟨⟨hne, hshort, hheld⟩, hblocked⟩
      · have hdefer := (hrewrite.deferScore_eq d.policy (visit key env.now (d.view key))).2 hclose
        rw [scoreSession_eq, hdefer, if_pos rfl]
        refine iff_of_true (fun h => absurd h hclose) fun hcall => ?_
        have hlevel := hcall.1
        rw [riskLevel_countSession] at hlevel
        split at hlevel
        · cases hlevel
        · exact hlow hcall.2 hlevel
    · exact iff_of_true (fun h => absurd h haccept) fun h => haccept h.1

/-- A rewrite that attempts no block leaves its session blocked or below critical. -/
theorem SessionState.Low.acceptState (h : s.Low hash) (hmsg : IdenticalRewrite hash env msg)
    (ok : Bool)
    (hcall : ¬ ((scoreSession env p msg s).riskLevel = .critical ∧ s.isBlocked = false)) :
    (acceptState env p msg ok s).Low hash := by
  have hscore := h.only.scoreSession hmsg p
  have hfree := (scoreSession_sameSession env p msg s).blocked
  unfold GfrGuard.acceptState
  dsimp only
  split
  · next hcritical =>
    refine ⟨hscore.blockOn ok, fun hblocked => ?_⟩
    have hfalse : (scoreSession env p msg s).isBlocked = false :=
      (Bool.or_eq_false_iff.1 hblocked).1
    exact absurd ⟨hcritical, hfree.symm.trans hfalse⟩ hcall
  · next hlevel => exact ⟨hscore, fun _ => hlevel⟩

/-- Only a reload changes the weights and the thresholds. -/
theorem Policy.DefaultScores.step (h : d.policy.DefaultScores) (hloads : e.LoadsDefaultScores) :
    (daemonStep d e).policy.DefaultScores := by
  have hkept : e.KeepsPolicy → (daemonStep d e).policy.DefaultScores := fun hkeep => by
    have hfollows : d.Follows d.policy := rfl
    rw [show (daemonStep d e).policy = _ from hfollows.step hkeep]
    exact h
  cases e with
  | message env msg => exact hkept trivial
  | lookup key now => exact hkept trivial
  | reload np syncOk =>
    cases np with
    | none => exact hkept rfl
    | some np => exact hloads

/-- An event that attempts no block for a rewrite keeps the session below critical. -/
theorem BulkState.step (h : BulkState key hash d) (hmsg : RewritesOnly key hash d e)
    (hloads : e.LoadsDefaultScores) (hnot : ¬ AttemptsBlock key d e) :
    BulkState key hash (daemonStep d e) := by
  refine ⟨h.inv.step e, h.scores.step hloads, fun s hs => ?_⟩
  have hspec := daemonStep_view h.inv key e
  generalize hv : (daemonStep d e).view key = v at hspec hs
  cases hspec with
  | same => exact h.view s hs
  | gone => cases hs
  | visited now block =>
    cases hs
    obtain ⟨honly, hlevel⟩ := h.visit now
    exact ⟨honly.blockOn block, fun hblocked => hlevel (Bool.or_eq_false_iff.1 hblocked).1⟩
  | accepted env msg he haccept =>
    cases hs
    subst he
    refine (h.visit env.now).acceptState (hmsg haccept) _ fun hcall => ?_
    exact hnot ⟨haccept, (executeCall_isSome_iff_view haccept).2 hcall⟩

end

/-! ## Runs -/

/-- In every run of the daemon with the default weights and thresholds, and for every session
whose accepted messages are risky opens and writes of existing files of one directory and closes
that found the content unchanged: no accepted message of the session attempts a block exactly when
every close is held back. -/
theorem identical_rewrites_iff (p : LoadedPolicy) (db : Db) (key : CBuf 128) (hash : UInt64)
    (es : List DaemonEvent) (hp : p.policy.DefaultScores)
    (hloads : ∀ e ∈ es, e.LoadsDefaultScores)
    (honly : Runs.AllSteps daemonStep (RewritesOnly key hash) (Daemon.start p db) es) :
    Runs.AllSteps daemonStep (HoldsBack key) (Daemon.start p db) es ↔
      Runs.AllSteps daemonStep (fun d e => ¬ AttemptsBlock key d e) (Daemon.start p db) es := by
  have hstart : BulkState key hash (Daemon.start p db) := by
    refine ⟨Daemon.inv_start p db, hp, fun s hs => ?_⟩
    rw [Daemon.view_start] at hs
    cases hs
  have hall := Runs.allSteps_and.2 ⟨honly, Runs.allSteps_of_forall hloads⟩
  have hiff : Runs.AllSteps daemonStep (fun d e => ¬ AttemptsBlock key d e ∧
        RewritesOnly key hash d e ∧ e.LoadsDefaultScores) (Daemon.start p db) es ↔
      Runs.AllSteps daemonStep (fun d e => HoldsBack key d e ∧
        RewritesOnly key hash d e ∧ e.LoadsDefaultScores) (Daemon.start p db) es :=
    Runs.allSteps_congr_of_kept (BulkState key hash)
      (fun d e h => and_congr_left fun hmsg => (holdsBack_iff h hmsg.1).symm)
      (fun d e h hP => h.step hP.2.1 hP.2.2 hP.1) hstart
  constructor
  · intro hheld
    exact (Runs.allSteps_and.1 (hiff.2 (Runs.allSteps_and.2 ⟨hheld, hall⟩))).1
  · intro hnot
    exact (Runs.allSteps_and.1 (hiff.1 (Runs.allSteps_and.2 ⟨hnot, hall⟩))).1

/-- A message about a file of the sample share. -/
def sampleRewrite (opType : UInt8) (flags : UInt16) (file : Nat) : EventMsg :=
  { sampleMsg with
    opType := opType
    flags := flags
    filePath := .ofStr 4096 (lit "/mnt/home/" ++ [UInt8.ofNat (65 + file)]) }

/-- The first files of the sample share are opened, then the first of them is closed unchanged. -/
def sampleBulk (files : Nat) : List DaemonEvent :=
  (List.range files).map (fun i => .message (sampleEnv 1) (sampleRewrite opOpen flagRisky i)) ++
    [.message (sampleEnv 2) (sampleRewrite opClose flagContentSame 0)]

/-- Two files opened and one closed unchanged. -/
theorem identical_rewrites_sample :
    Runs.AllSteps daemonStep (HoldsBack sampleMsg.sessionKey) (Daemon.start .default .empty)
        (sampleBulk 2) ↔
      Runs.AllSteps daemonStep (fun d e => ¬ AttemptsBlock sampleMsg.sessionKey d e)
        (Daemon.start .default .empty) (sampleBulk 2) :=
  identical_rewrites_iff .default .empty sampleMsg.sessionKey
    (dirHash (lit "/mnt/home/A")) (sampleBulk 2) ⟨rfl, rfl⟩ (by decide)
    (by decide)

/-- Twenty-six files are opened and the first is closed unchanged: 25 are still counted as
modified, and the session is blocked. -/
theorem identical_rewrites_block :
    ¬ ∀ (p : LoadedPolicy) (db : Db) (key : CBuf 128) (hash : UInt64) (es : List DaemonEvent)
        (handles : List HandleMsg), p.policy.DefaultScores →
      (∀ e ∈ es, e.LoadsDefaultScores) →
      Runs.AllSteps daemonStep (RewritesOnly key hash) (Daemon.start p db) es →
      handles.map (·.msg) = (received p db es key).map Prod.snd → ClosesOwnOpen handles →
      Runs.AllSteps daemonStep (fun d e => ¬ AttemptsBlock key d e) (Daemon.start p db) es := by
  intro h
  have hfree := h .default .empty sampleMsg.sessionKey (dirHash (lit "/mnt/home/A"))
    (sampleBulk 26)
    ((List.range 26).map (fun i =>
        ⟨sampleEnv 1, .default, sampleRewrite opOpen flagRisky i, i⟩) ++
      [⟨sampleEnv 2, .default, sampleRewrite opClose flagContentSame 0, 0⟩])
    ⟨rfl, rfl⟩ (by decide) (by decide) (by decide) (by decide)
  revert hfree
  decide +kernel

end GfrGuard
