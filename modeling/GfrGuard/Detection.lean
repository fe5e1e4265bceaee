import GfrGuard.Counting

/-!
# Detection

The windows tumble: a burst of renames can straddle a reset. A burst shorter than the short
window straddles at most one, so of `2 * N - 1` renames `N` are counted on one side of it, and
the last of those makes the session critical (`rename_burst_blocks`). `Burst` is the
invariant: how many of the renames so far were counted before the reset and how many since.
-/

namespace GfrGuard

/-- The event loads no policy. -/
def DaemonEvent.KeepsPolicy : DaemonEvent → Prop
  | .reload np _ => np = none
  | _ => True

/-- The call of `blocker_execute` for a message would succeed. -/
def DaemonEvent.Executes : DaemonEvent → Prop
  | .message env _ => env.readOk = true ∧ env.writeOk = true
  | _ => True

/-- The messages of the key come from one source. -/
def DaemonEvent.FromSource (key : CBuf 128) (src : UInt8) : DaemonEvent → Prop
  | .message _ msg => msg.sessionKey = key → msg.sourceType = src
  | _ => True

/-- No message of the key closes a file with what it held. -/
def DaemonEvent.NoSameClose (key : CBuf 128) : DaemonEvent → Prop
  | .message _ msg => msg.sessionKey = key →
      ¬ (msg.opType = opClose ∧ hasFlag msg.flags flagContentSame = true)
  | _ => True

instance : ∀ e : DaemonEvent, Decidable (e.KeepsPolicy)
  | .message .. => inferInstanceAs (Decidable True)
  | .lookup .. => inferInstanceAs (Decidable True)
  | .reload .. => inferInstanceAs (Decidable (_ = none))

instance : ∀ e : DaemonEvent, Decidable (e.Executes)
  | .message .. => inferInstanceAs (Decidable (_ ∧ _))
  | .lookup .. => inferInstanceAs (Decidable True)
  | .reload .. => inferInstanceAs (Decidable True)

instance (key : CBuf 128) (src : UInt8) : ∀ e : DaemonEvent, Decidable (e.FromSource key src)
  | .message .. => inferInstanceAs (Decidable (_ → _))
  | .lookup .. => inferInstanceAs (Decidable True)
  | .reload .. => inferInstanceAs (Decidable True)

instance (key : CBuf 128) : ∀ e : DaemonEvent, Decidable (e.NoSameClose key)
  | .message .. => inferInstanceAs (Decidable (_ → ¬ (_ ∧ _)))
  | .lookup .. => inferInstanceAs (Decidable True)
  | .reload .. => inferInstanceAs (Decidable True)

/-- The policy of the daemon, its blacklist apart. -/
def Daemon.Follows (d : Daemon) (p : Policy) : Prop :=
  d.policy = { p with blacklist := d.policy.blacklist }

/-- The step does not evict the session of the key. -/
def KeepsSession (key : CBuf 128) (d : Daemon) (e : DaemonEvent) : Prop :=
  HasSession d key → HasSession (daemonStep d e) key

/-- The accepted renames of the key on paths with a parent directory. -/
def acceptedRenames (key : CBuf 128) (d : Daemon) (e : DaemonEvent) : List EventMsg :=
  match e with
  | .message _ msg =>
    if Accepts key d e ∧ msg.opType = opRename ∧ dirHash msg.filePath.str ≠ 0 then [msg] else []
  | _ => []

/-- A session whose directories are counted and that has taken no write back. -/
structure SessionState.Plain (s : SessionState) : Prop where
  dirs : s.DirsCounted
  same : s.contentSameCount = 0

/-- Of `n` renames since `t0`, `n1` were counted before the short window rolled and `n2`
since, both fewer than `N`. -/
def Burst (N : Nat) (t0 : Int) (n : Nat) (s : SessionState) : Prop :=
  ∃ n1 n2, n = n1 + n2 ∧ n1 < N ∧ n2 < N ∧ n2 ≤ s.renameCount.toNat ∧
    (n1 = 0 ∨ s.windowStart10s = 0 ∨ t0 ≤ s.windowStart10s)

/-- The sessions of the key are plain. -/
def PlainView (key : CBuf 128) (d : Daemon) : Prop := ∀ s, d.view key = some s → s.Plain

/-- After `n` renames since `t0` the session of the key is blocked, or counts them. -/
def BurstState (key : CBuf 128) (N : Nat) (t0 : Int) (n : Nat) (d : Daemon) : Prop :=
  HasBlocked d key ∨
    (∀ s, d.view key = some s → Burst N t0 n s) ∧ (n = 0 ∨ (d.view key).isSome)

section
variable {d : Daemon} {key : CBuf 128} {src : UInt8} {e : DaemonEvent} {env : CallEnv}
  {msg : EventMsg} {p : Policy} {s : SessionState} {N n : Nat} {t0 now : Int} {ok : Bool}

/-! ## A fixed policy -/

theorem Daemon.follows_start (p : LoadedPolicy) (db : Db) : (Daemon.start p db).Follows p.policy :=
  rfl

/-- Only a reload changes more of the policy than the runtime blacklist. -/
theorem Daemon.Follows.step (h : d.Follows p) (hkeep : e.KeepsPolicy) :
    (daemonStep d e).Follows p := by
  have hsame : ∀ d' : Daemon, { d'.policy with blacklist := d.policy.blacklist } = d.policy →
      d'.Follows p := fun d' hd' => by
    unfold Daemon.Follows at h ⊢
    rw [h] at hd'
    exact (congrArg (fun q : Policy => { q with blacklist := d'.policy.blacklist }) hd' :)
  cases e with
  | message env msg =>
    have hspec := processMsg_spec env msg d
    show (processMsg env msg d).Follows p
    generalize processMsg env msg d = d' at hspec
    cases hspec with
    | idle => exact h
    | worked i t d' _ hstage _ _ => exact hsame d' hstage.policy
  | lookup key now =>
    simp only [daemonStep]
    split <;> exact h
  | reload np syncOk =>
    have hnp : np = none := hkeep
    subst hnp
    exact h

theorem Daemon.Follows.run (h : d.Follows p) {es : List DaemonEvent}
    (hkeep : ∀ e ∈ es, e.KeepsPolicy) : (Runs.run daemonStep d es).Follows p :=
  Runs.run_invariant_of_allSteps (Daemon.Follows · p) (fun _ _ h hk => h.step hk) h
    (Runs.allSteps_of_forall hkeep)

theorem Daemon.Follows.scoreSession (h : d.Follows p) (env : CallEnv) (msg : EventMsg)
    (s : SessionState) : scoreSession env d.policy msg s = scoreSession env p msg s := by
  rw [show d.policy = _ from h]
  rfl

/-- What a message makes of its session depends on the policy less its blacklist. -/
theorem Daemon.Follows.acceptState (h : d.Follows p) (env : CallEnv) (msg : EventMsg) (ok : Bool)
    (s : SessionState) : acceptState env d.policy msg ok s = acceptState env p msg ok s := by
  rw [show d.policy = _ from h]
  rfl

theorem executes_of_executes (h : (DaemonEvent.message env msg).Executes) (d : Daemon) :
    executes env msg d = true := by
  unfold executes blockerAppend
  rw [h.1, h.2, Bool.not_true, if_neg Bool.false_ne_true, if_pos rfl]
  split_ifs <;> rfl

/-! ## The score of a rename -/

theorem mul_weight_nonneg (c : UInt32) {w : Int} (hw : 0 ≤ w) : 0 ≤ (c.toNat : Int) * w :=
  Int.mul_nonneg (Int.natCast_nonneg _) hw

/-- The renames and one directory are part of the weighted sum. -/
theorem rawScore_ge {w : Weights} (hw : w.valid = true) (hdirs : 0 < s.touchedDirs) :
    s.renameCount.toNat * w.renameW + w.dirs ≤ rawScore s w := by
  simp only [Weights.valid, Bool.and_eq_true, decide_eq_true_eq] at hw
  obtain ⟨⟨⟨⟨⟨⟨⟨hmod, hren⟩, hdel⟩, hd⟩, hext⟩, hran⟩, hent⟩, hyara⟩ := hw
  have hone : 1 ≤ (s.touchedDirs.toNat : Int) := by
    rw [UInt32.lt_iff_toNat_lt] at hdirs
    have : UInt32.toNat 0 = 0 := rfl
    omega
  have hdir : w.dirs ≤ s.touchedDirs.toNat * w.dirs := by
    calc w.dirs = 1 * w.dirs := (Int.one_mul _).symm
      _ ≤ s.touchedDirs.toNat * w.dirs := Int.mul_le_mul_of_nonneg_right hone hd
  have hentropy : 0 ≤ (if s.highEntropyCount ≠ 0 then 1 else 0) * w.highEntropy := by
    split
    · rwa [Int.one_mul]
    · exact Int.le_of_eq (Int.zero_mul _).symm
  have hyaraHit : 0 ≤ (if s.yaraMatchCount ≠ 0 then 1 else 0) * w.yaraMatch := by
    split
    · rwa [Int.one_mul]
    · exact Int.le_of_eq (Int.zero_mul _).symm
  have h1 := mul_weight_nonneg s.modifiedCount hmod
  have h2 := mul_weight_nonneg s.deleteCount hdel
  have h3 := mul_weight_nonneg s.extChangeCount hext
  have h4 := mul_weight_nonneg s.ransomExtCount hran
  unfold rawScore
  omega

/-- Renames in a touched directory make a session critical as soon as they weigh enough: no
cap applies to them. -/
theorem scorerCalculate_critical (hvalid : p.numericValid = true) (hsame : s.contentSameCount = 0)
    (hrename : 0 < s.renameCount) (hdirs : 0 < s.touchedDirs)
    (h : p.scoring.thresholds.critical ≤
      s.renameCount.toNat * p.scoring.weights.renameW + p.scoring.weights.dirs) :
    (scorerCalculate s p).riskLevel = .critical := by
  simp only [Policy.numericValid, Bool.and_eq_true, decide_eq_true_eq] at hvalid
  obtain ⟨⟨⟨⟨⟨ht, hw⟩, -⟩, -⟩, -⟩, -⟩ := hvalid
  simp only [Thresholds.valid, Bool.and_eq_true, decide_eq_true_eq] at ht
  obtain ⟨⟨⟨hwarn, hhigh⟩, hcrit⟩, hmax⟩ := ht
  have hraw := Int.le_trans h (rawScore_ge hw hdirs)
  have hsuppress : suppressSame s p.scoring.thresholds (rawScore s p.scoring.weights) =
      rawScore s p.scoring.weights := by
    unfold suppressSame
    dsimp only
    rw [hsame, if_neg fun h => absurd h.2 (by decide)]
  have hdelete : ∀ v, capDeleteOnly s v = v := fun v => by
    unfold capDeleteOnly
    rw [if_neg]
    rintro ⟨-, hzero, -⟩
    rw [hzero] at hrename
    exact absurd hrename (by decide)
  have hdim : dimensions s ≠ 1 := by
    unfold dimensions
    rw [if_pos hrename, if_pos hdirs]
    omega
  have hone : ∀ v, capOneDimension s p.scoring.thresholds v = v := fun v => by
    unfold capOneDimension
    rw [if_neg fun h => hdim h.1]
  have hnat := toNat_clamp100 (rawScore s p.scoring.weights)
  show levelOf _ (capOneDimension s _ (capDeleteOnly s (clamp100 (suppressSame s _ _)))) = _
  rw [hsuppress, hdelete, hone]
  exact (levelOf_eq_critical_iff (by omega)).2 (by omega)

theorem scoreSession_eq (env : CallEnv) (p : Policy) (msg : EventMsg) (s : SessionState) :
    scoreSession env p msg s =
      if deferScore msg (analysisFlags env p msg s) then countSession env p msg s
      else scorerCalculate (countSession env p msg s) p := rfl

/-- An accepted message whose block would succeed blocks its session, or only scores it. -/
theorem acceptState_true (env : CallEnv) (p : Policy) (msg : EventMsg) (s : SessionState) :
    (acceptState env p msg true s).isBlocked = true ∨
      (scoreSession env p msg s).riskLevel ≠ .critical ∧
        acceptState env p msg true s = scoreSession env p msg s := by
  unfold acceptState
  dsimp only
  split
  · exact .inl (Bool.or_true _)
  · next hlevel => exact .inr ⟨hlevel, rfl⟩

/-! ## Plain sessions -/

theorem SessionState.Plain.visit {v : Option SessionState} (h : ∀ s, v = some s → s.Plain)
    (key : CBuf 128) (now : Int) : (visit key now v).Plain := by
  cases v with
  | none => exact ⟨rfl, rfl⟩
  | some s => exact ⟨(h s rfl).dirs, (h s rfl).same⟩

theorem SessionState.Plain.blockOn (h : s.Plain) (ok : Bool) : (s.blockOn ok).Plain :=
  ⟨h.dirs, h.same⟩

/-- Only a close that found the content unchanged counts as one. -/
theorem contentSameCount_countOp {opType : UInt8} {flags : UInt16}
    (hmsg : ¬ (opType = opClose ∧ hasFlag flags flagContentSame = true)) :
    (countOp s opType flags).contentSameCount = s.contentSameCount := by
  unfold countOp
  split
  · rfl
  · split
    · rfl
    · split
      · rfl
      · rw [if_neg fun h => hmsg ⟨h.1, h.2.1⟩]

theorem contentSameCount_countSession (h : s.contentSameCount = 0)
    (hmsg : ¬ (msg.opType = opClose ∧ hasFlag msg.flags flagContentSame = true)) :
    (countSession env p msg s).contentSameCount = 0 := by
  have hwindow : (sessionCheckWindow s env.now (p.windows msg.sourceType).1
      (p.windows msg.sourceType).2).contentSameCount = 0 := by
    rw [(contentCounts_sessionCheckWindow ..).1, h, ite_self]
  have hflag : hasFlag (analysisFlags env p msg s) flagContentSame =
      hasFlag msg.flags flagContentSame := by
    rw [hasFlag_analysisFlags (by decide) (by decide), hasFlag_nameFlags (by decide) (by decide)]
  generalize hw : sessionCheckWindow s env.now (p.windows msg.sourceType).1
    (p.windows msg.sourceType).2 = w at hwindow
  have hcount : (countOp w msg.opType (analysisFlags env p msg s)).contentSameCount = 0 :=
    (contentSameCount_countOp (by rwa [hflag])).trans hwindow
  unfold countSession
  rw [hw, ← hcount]
  unfold sessionUpdate dirAdd countContent
  dsimp only
  split <;> rfl

theorem SessionState.Plain.acceptState (h : s.Plain) (ok : Bool)
    (hmsg : ¬ (msg.opType = opClose ∧ hasFlag msg.flags flagContentSame = true)) :
    (acceptState env p msg ok s).Plain := by
  obtain ⟨-, -, -, hdirs, htouched, hsame⟩ := scoreSession_frame env p msg s
  have hscore : (scoreSession env p msg s).Plain := by
    refine ⟨?_, hsame.trans (contentSameCount_countSession h.same hmsg)⟩
    have := (countSession_dirs env p msg s h.dirs).1
    unfold SessionState.DirsCounted at this ⊢
    rw [htouched, this, hdirs]
  unfold GfrGuard.acceptState
  dsimp only
  split
  · exact hscore.blockOn ok
  · exact hscore

/-! ## A burst -/

/-- The windows of a policy that passes the checks are not empty. -/
theorem windows_pos (hvalid : p.numericValid = true) (src : UInt8) :
    0 < (p.windows src).1 ∧ 0 < (p.windows src).2 := by
  simp only [Policy.numericValid, Bool.and_eq_true, decide_eq_true_eq] at hvalid
  unfold Policy.windows
  dsimp only
  refine ⟨?_, ?_⟩
  · split <;> omega
  · split <;> omega

theorem renameCount_countOp (s : SessionState) (opType : UInt8) (flags : UInt16) :
    (countOp s opType flags).renameCount =
      if opType = opRename then satInc s.renameCount else s.renameCount := by
  unfold countOp
  split
  · next hwrite =>
    have hrename : opType ≠ opRename := by
      rcases hwrite with h | h | h <;> rw [h] <;> decide
    rw [if_neg hrename]
  · split
    · rfl
    · split
      · rfl
      · split <;> rfl

/-- The renames of a session after a message. -/
theorem renameCount_countSession (env : CallEnv) (p : Policy) (msg : EventMsg)
    (s : SessionState) :
    (countSession env p msg s).renameCount =
      let c := if s.shortExpired env.now (p.windows msg.sourceType).1 then 0 else s.renameCount
      if msg.opType = opRename then satInc c else c := by
  have hwindow := counter_sessionCheckWindow .renamed s env.now (p.windows msg.sourceType).1
    (p.windows msg.sourceType).2
  have hupdate := counter_sessionUpdate .renamed (sessionCheckWindow s env.now
    (p.windows msg.sourceType).1 (p.windows msg.sourceType).2) msg.opType
    (analysisFlags env p msg s) (dirHash msg.filePath.str)
  simp only [SessionState.counter] at hwindow hupdate
  unfold countSession
  rw [hupdate, renameCount_countOp, hwindow]

/-- A counter below its limit goes up by one; at its limit it stays. -/
theorem toNat_satInc (c : UInt32) :
    (satInc c).toNat = min (c.toNat + 1) 4294967295 := by
  have hmax : UInt32.toNat 0xFFFFFFFF = 4294967295 := rfl
  have hone : UInt32.toNat 1 = 1 := rfl
  have hlt := UInt32.toNat_lt c
  unfold satInc
  split
  · next h =>
    rw [UInt32.lt_iff_toNat_lt] at h
    rw [UInt32.toNat_add]
    omega
  · next h =>
    rw [UInt32.lt_iff_toNat_lt] at h
    omega

/-- After a rename in a directory that leaves its session below critical, the session has
fewer renames than it takes. -/
theorem renameCount_lt (hvalid : p.numericValid = true) (hweight : 0 < p.scoring.weights.renameW)
    (hN : p.scoring.thresholds.critical ≤
      N * p.scoring.weights.renameW + p.scoring.weights.dirs)
    (hs : s.contentSameCount = 0) (hdirs : 0 < s.touchedDirs) (hrename : 0 < s.renameCount)
    (hlevel : (scorerCalculate s p).riskLevel ≠ .critical) : s.renameCount.toNat < N := by
  by_contra hge
  refine hlevel (scorerCalculate_critical hvalid hs hrename hdirs (Int.le_trans hN ?_))
  have hle : (N : Int) ≤ s.renameCount.toNat := by omega
  have := Int.mul_le_mul_of_nonneg_right hle (Int.le_of_lt hweight)
  omega

/-- A rename in a directory is counted, and leaves fewer renames than it takes for critical. -/
theorem countSession_rename (hvalid : p.numericValid = true)
    (hweight : 0 < p.scoring.weights.renameW)
    (hN : p.scoring.thresholds.critical ≤
      N * p.scoring.weights.renameW + p.scoring.weights.dirs)
    (hplain : s.Plain) (hop : msg.opType = opRename) (hdir : dirHash msg.filePath.str ≠ 0)
    (hlevel : (scoreSession env p msg s).riskLevel ≠ .critical) :
    (countSession env p msg s).renameCount.toNat =
        (if s.shortExpired env.now (p.windows msg.sourceType).1 then 0
          else s.renameCount.toNat) + 1 ∧
      (countSession env p msg s).renameCount.toNat < N := by
  have hscore : scoreSession env p msg s = scorerCalculate (countSession env p msg s) p := by
    have hdefer : deferScore msg (analysisFlags env p msg s) = false := by
      unfold deferScore
      rw [hop]
      rfl
    rw [scoreSession_eq, hdefer, if_neg Bool.false_ne_true]
  rw [hscore] at hlevel
  have hsame : (countSession env p msg s).contentSameCount = 0 :=
    contentSameCount_countSession hplain.same
      (fun h => absurd (hop.symm.trans h.1) (by decide))
  obtain ⟨hcounted, -, hne⟩ := countSession_dirs env p msg s hplain.dirs
  have hdirs : 0 < (countSession env p msg s).touchedDirs := by
    rw [UInt32.lt_iff_toNat_lt, hcounted]
    exact List.length_pos_of_ne_nil (hne hdir)
  have hcount := renameCount_countSession env p msg s
  dsimp only at hcount
  rw [if_pos hop] at hcount
  generalize hc : (if s.shortExpired env.now (p.windows msg.sourceType).1 then 0
    else s.renameCount) = c at hcount
  have hpos : 0 < (countSession env p msg s).renameCount := by
    rw [hcount, UInt32.lt_iff_toNat_lt, toNat_satInc]
    have : UInt32.toNat 0 = 0 := rfl
    omega
  have hlt := renameCount_lt hvalid hweight hN hsame hdirs hpos hlevel
  -- a hundred renames are critical whatever their weight, so the counter is not at its limit
  have hhundred : (countSession env p msg s).renameCount.toNat < 100 := by
    refine renameCount_lt hvalid hweight ?_ hsame hdirs hpos hlevel
    simp only [Policy.numericValid, Thresholds.valid, Weights.valid, Bool.and_eq_true,
      decide_eq_true_eq] at hvalid
    omega
  refine ⟨?_, hlt⟩
  have hkept : c.toNat = if s.shortExpired env.now (p.windows msg.sourceType).1 then 0
      else s.renameCount.toNat := by
    rw [← hc]
    split <;> rfl
  rw [← hkept]
  rw [hcount, toNat_satInc] at hhundred ⊢
  omega

/-- The other messages of a session take no rename back. -/
theorem le_renameCount_countSession (env : CallEnv) (p : Policy) (msg : EventMsg)
    (s : SessionState) :
    (if s.shortExpired env.now (p.windows msg.sourceType).1 then 0 else s.renameCount.toNat) ≤
      (countSession env p msg s).renameCount.toNat := by
  have hlt := UInt32.toNat_lt s.renameCount
  rw [renameCount_countSession]
  dsimp only
  split
  · exact Nat.zero_le _
  · split
    · rw [toNat_satInc]
      omega
    · exact Nat.le_refl _

/-- An accepted message of a burst that does not make its session critical. -/
theorem Burst.scoreSession (h : Burst N t0 n s) (hvalid : p.numericValid = true)
    (hweight : 0 < p.scoring.weights.renameW)
    (hN : p.scoring.thresholds.critical ≤
      N * p.scoring.weights.renameW + p.scoring.weights.dirs)
    (hplain : s.Plain) (hstart : t0 ≤ env.now)
    (hend : env.now < t0 + (p.windows msg.sourceType).1)
    (hlevel : (scoreSession env p msg s).riskLevel ≠ .critical) :
    Burst N t0 (n + if msg.opType = opRename ∧ dirHash msg.filePath.str ≠ 0 then 1 else 0)
      (scoreSession env p msg s) := by
  obtain ⟨n1, n2, hn, hn1, hn2, hcounted, hbefore⟩ := h
  obtain ⟨hcounter, hwindow, -⟩ := scoreSession_frame env p msg s
  have hrenames : (GfrGuard.scoreSession env p msg s).renameCount =
      (countSession env p msg s).renameCount := hcounter .renamed
  rw [(countSession_windows env p msg s).1] at hwindow
  have hshort : 0 < (p.windows msg.sourceType).1 := (windows_pos hvalid msg.sourceType).1
  -- what is counted since the last roll, this message included
  obtain ⟨n2', hn2', hle, hlt⟩ : ∃ n2',
      n2' = (if s.shortExpired env.now (p.windows msg.sourceType).1 then 0 else n2) +
        (if msg.opType = opRename ∧ dirHash msg.filePath.str ≠ 0 then 1 else 0) ∧
      n2' ≤ (countSession env p msg s).renameCount.toNat ∧ n2' < N := by
    refine ⟨_, rfl, ?_⟩
    by_cases hop : msg.opType = opRename ∧ dirHash msg.filePath.str ≠ 0
    · obtain ⟨heq, hlt⟩ := countSession_rename hvalid hweight hN hplain hop.1 hop.2 hlevel
      rw [if_pos hop]
      split at heq <;> split <;> omega
    · have hge := le_renameCount_countSession env p msg s
      rw [if_neg hop]
      split at hge <;> split <;> omega
  have hroll : s.shortExpired env.now (p.windows msg.sourceType).1 = true →
      n1 = 0 := fun hexp => by
    unfold SessionState.shortExpired SessionState.shortStart at hexp
    rw [decide_eq_true_eq] at hexp
    split at hexp <;> omega
  cases hexp : s.shortExpired env.now (p.windows msg.sourceType).1 with
  | true =>
    -- the window rolls: what was counted so far was counted before
    rw [hexp] at hn2' hwindow
    have hzero := hroll hexp
    refine ⟨n2, n2', ?_, hn2, hlt, hrenames ▸ hle, .inr (.inr ?_)⟩
    · rw [if_pos rfl] at hn2'
      omega
    · rw [hwindow, if_pos rfl]
      exact hstart
  | false =>
    rw [hexp] at hn2' hwindow
    refine ⟨n1, n2', ?_, hn1, hlt, hrenames ▸ hle, ?_⟩
    · rw [if_neg Bool.false_ne_true] at hn2'
      omega
    · rw [hwindow, if_neg Bool.false_ne_true]
      unfold SessionState.shortStart
      split <;> omega

/-! ## Steps -/

theorem PlainView.step (h : PlainView key d) (hinv : d.Inv) (hsame : e.NoSameClose key) :
    PlainView key (daemonStep d e) := by
  have hspec := daemonStep_view hinv key e
  intro s hs
  rw [hs] at hspec
  generalize hv : (some s : Option SessionState) = v at hspec
  cases hspec with
  | same => exact h s hv.symm
  | gone => cases hv
  | visited now block =>
    cases hv
    exact (SessionState.Plain.visit h key now).blockOn block
  | accepted env msg he haccept =>
    cases hv
    subst he
    exact (SessionState.Plain.visit h key env.now).acceptState _ (hsame haccept.1)

theorem hasSession_iff_view (hinv : d.Inv) : HasSession d key ↔ (d.view key).isSome := by
  rw [Option.isSome_iff_exists]
  constructor
  · rintro ⟨i, hi⟩
    exact ⟨_, Daemon.view_eq_some hinv.placed hi⟩
  · rintro ⟨s, hs⟩
    obtain ⟨i, hi, -⟩ := Daemon.keyAt_of_view hs
    exact ⟨i, hi⟩

theorem HasBlocked.of_view (h : d.view key = some s) (hs : s.isBlocked = true) :
    HasBlocked d key := by
  obtain ⟨i, hi, rfl⟩ := Daemon.keyAt_of_view h
  exact ⟨i, hi, hs⟩

/-- A session just looked up goes on with its burst. -/
theorem Burst.visit {v : Option SessionState} (hN : 0 < N) (h : ∀ s, v = some s → Burst N t0 n s)
    (hn : n = 0 ∨ v.isSome) (key : CBuf 128) (now : Int) : Burst N t0 n (visit key now v) := by
  cases v with
  | none =>
    obtain rfl : n = 0 := hn.resolve_right Bool.false_ne_true
    exact ⟨0, 0, rfl, hN, hN, Nat.zero_le _, .inl rfl⟩
  | some s => exact h s rfl

/-- Every event of the burst keeps the count. -/
theorem BurstState.step (h : BurstState key N t0 n d) (hinv : d.Inv) (hplain : PlainView key d)
    (hfollows : d.Follows p) (hvalid : p.numericValid = true)
    (hweight : 0 < p.scoring.weights.renameW)
    (hN : p.scoring.thresholds.critical ≤
      N * p.scoring.weights.renameW + p.scoring.weights.dirs)
    (hpos : 0 < N) (hexec : e.Executes) (hsource : e.FromSource key src)
    (hkeeps : KeepsSession key d e)
    (hspan : ∀ t ∈ e.now?, t0 ≤ t ∧ t < t0 + (p.windows src).1) :
    BurstState key N t0 (n + (acceptedRenames key d e).length) (daemonStep d e) := by
  rcases h with hblocked | ⟨hburst, hsome⟩
  · exact .inl (hblocked.step e)
  have hnone : ¬ Accepts key d e → (acceptedRenames key d e).length = 0 := fun hnot => by
    unfold acceptedRenames
    split
    · rw [if_neg fun h => hnot h.1]
      rfl
    · rfl
  have hspec := daemonStep_view hinv key e
  generalize hv : (daemonStep d e).view key = v at hspec
  cases hspec with
  | same hnot =>
    rw [hnone hnot, Nat.add_zero]
    exact .inr ⟨fun s hs => hburst s (hv ▸ hs), hv ▸ hsome⟩
  | gone hnot =>
    rw [hnone hnot, Nat.add_zero]
    refine .inr ⟨fun s hs => ?_, .inl (hsome.resolve_right fun hview => ?_)⟩
    · cases hv.symm.trans hs
    · have hnext := (hasSession_iff_view (hinv.step e)).1
        (hkeeps ((hasSession_iff_view hinv).2 hview))
      rw [hv] at hnext
      cases hnext
  | visited now block hnot =>
    rw [hnone hnot, Nat.add_zero]
    cases block with
    | true => exact .inl (HasBlocked.of_view hv (Bool.or_true _))
    | false =>
      refine .inr ⟨fun s hs => ?_, .inr (by rw [hv]; rfl)⟩
      rw [SessionState.blockOn_false] at hv
      cases hv.symm.trans hs
      exact Burst.visit hpos hburst hsome key now
  | accepted env msg he haccept =>
    subst he
    rw [executes_of_executes hexec, hfollows.acceptState] at hv
    have htime := hspan env.now rfl
    rw [← hsource haccept.1] at htime
    have hcount : (acceptedRenames key d (.message env msg)).length =
        if msg.opType = opRename ∧ dirHash msg.filePath.str ≠ 0 then 1 else 0 := by
      unfold acceptedRenames
      dsimp only
      by_cases hop : msg.opType = opRename ∧ dirHash msg.filePath.str ≠ 0
      · rw [if_pos ⟨haccept, hop⟩, if_pos hop]
        rfl
      · rw [if_neg fun h => hop h.2, if_neg hop]
        rfl
    rcases acceptState_true env p msg (visit key env.now (d.view key)) with hb | ⟨hlevel, heq⟩
    · exact .inl (HasBlocked.of_view hv hb)
    · refine .inr ⟨fun s hs => ?_, .inr (by rw [hv]; rfl)⟩
      cases hv.symm.trans hs
      rw [hcount, heq]
      exact (Burst.visit hpos hburst hsome key env.now).scoreSession hvalid hweight hN
        (SessionState.Plain.visit hplain key env.now) htime.1 htime.2 hlevel

end

/-! ## Runs -/

/-- While a policy stays and blocks succeed, a session of one source that takes no write back
and stays in the table is blocked by `2 * N - 1` renames in directories within less than its
short window, where `N` renames and one directory weigh as much as the critical threshold. It
matters neither what other messages come between, nor how the windows lie, nor what the clock
does otherwise. -/
theorem rename_burst_blocks (p : LoadedPolicy) (db : Db) (pre mid : List DaemonEvent)
    (key : CBuf 128) (src : UInt8) (N : Nat) (t0 : Int)
    (hweight : 0 < p.policy.scoring.weights.renameW) (hpos : 1 ≤ N)
    (hN : p.policy.scoring.thresholds.critical ≤
      N * p.policy.scoring.weights.renameW + p.policy.scoring.weights.dirs)
    (hevents : ∀ e ∈ pre ++ mid,
      e.KeepsPolicy ∧ e.Executes ∧ e.FromSource key src ∧ e.NoSameClose key)
    (hkeeps : Runs.AllSteps daemonStep (KeepsSession key) (daemonRun p db pre) mid)
    (hspan : ∀ e ∈ mid, ∀ t ∈ e.now?, t0 ≤ t ∧ t < t0 + (p.policy.windows src).1)
    (hcount : 2 * N - 1 ≤
      (Runs.outputs daemonStep (acceptedRenames key) (daemonRun p db pre) mid).length) :
    HasBlocked (daemonRun p db (pre ++ mid)) key := by
  have hinv := daemonRun_inv p db pre
  have hpre : ∀ e ∈ pre, e ∈ pre ++ mid := fun e he => List.mem_append_left mid he
  have hmid : ∀ e ∈ mid, e ∈ pre ++ mid := fun e he => List.mem_append_right pre he
  have hfollows : (daemonRun p db pre).Follows p.policy :=
    (Daemon.follows_start p db).run fun e he => (hevents e (hpre e he)).1
  have hplain : PlainView key (daemonRun p db pre) := by
    have hstart : PlainView key (Daemon.start p db) := fun s hs => by
      rw [Daemon.view_start] at hs
      cases hs
    refine (Runs.run_invariant_of_allSteps (fun d => d.Inv ∧ PlainView key d)
      (fun _ _ h hsame => ⟨h.1.step _, h.2.step h.1 hsame⟩) ⟨Daemon.inv_start p db, hstart⟩
      (Runs.allSteps_of_forall (p := DaemonEvent.NoSameClose key) fun e he =>
        (hevents e (hpre e he)).2.2.2)).2
  have hall : Runs.AllSteps daemonStep (fun d e => KeepsSession key d e ∧
      (e.KeepsPolicy ∧ e.Executes ∧ e.FromSource key src ∧ e.NoSameClose key) ∧
      ∀ t ∈ e.now?, t0 ≤ t ∧ t < t0 + (p.policy.windows src).1) (daemonRun p db pre) mid :=
    Runs.allSteps_and.2 ⟨hkeeps, Runs.allSteps_of_forall fun e he =>
      ⟨hevents e (hmid e he), hspan e he⟩⟩
  have hburst : BurstState key N t0 0 (daemonRun p db pre) := by
    by_cases hb : HasBlocked (daemonRun p db pre) key
    · exact .inl hb
    · exact .inr ⟨fun s _ => ⟨0, 0, rfl, hpos, hpos, Nat.zero_le _, .inl rfl⟩, .inl rfl⟩
  have hrun := Runs.run_invariant_outputs (acceptedRenames key)
    (fun l d => d.Inv ∧ d.Follows p.policy ∧ PlainView key d ∧
      BurstState key N t0 l.length d)
    (fun l d e ⟨hi, hf, hp, hb⟩ ⟨hk, ⟨hpol, hex, hsrc, hsame⟩, ht⟩ => by
      rw [List.length_append]
      exact ⟨hi.step e, hf.step hpol, hp.step hi hsame,
        hb.step hi hp hf p.valid hweight hN hpos hex hsrc hk ht⟩)
    (l := []) ⟨hinv, hfollows, hplain, hburst⟩ hall
  obtain ⟨-, -, -, hstate⟩ := hrun
  rw [List.nil_append] at hstate
  rw [daemonRun, Runs.run_append]
  rcases hstate with hblocked | ⟨hview, hsome⟩
  · exact hblocked
  · -- fewer than `N` before a roll and fewer than `N` since are too few
    rcases hsome with hzero | hsome
    · omega
    · obtain ⟨s, hs⟩ := Option.isSome_iff_exists.1 hsome
      obtain ⟨n1, n2, hn, hn1, hn2, -⟩ := hview s hs
      omega

/-- The default policy with renames scored so that two make a session critical. -/
def pairPolicy : LoadedPolicy where
  policy := { Policy.default with scoring := { Policy.default.scoring with
    weights := { Policy.default.scoring.weights with renameW := 40 } } }
  valid := by decide
  noAuto := rfl

/-- The short window rolls between the first rename and the second: the third blocks. -/
theorem rename_burst_sample : HasBlocked (daemonRun pairPolicy .empty
    [.message (sampleEnv 1) (sampleWrite "a.doc"), .message (sampleEnv 8) sampleRename,
      .message (sampleEnv 12) sampleRename, .message (sampleEnv 13) sampleRename])
    sampleRename.sessionKey :=
  rename_burst_blocks pairPolicy .empty [.message (sampleEnv 1) (sampleWrite "a.doc")]
    [.message (sampleEnv 8) sampleRename, .message (sampleEnv 12) sampleRename,
      .message (sampleEnv 13) sampleRename]
    sampleRename.sessionKey sourceSmb 2 (sampleEnv 8).now (by decide) (by decide) (by decide)
    (by decide)
    ⟨fun _ => ⟨SessionTable.probe sampleRename.sessionKey 0, by decide⟩,
      fun _ => ⟨SessionTable.probe sampleRename.sessionKey 0, by decide⟩,
      fun _ => ⟨SessionTable.probe sampleRename.sessionKey 0, by decide⟩, trivial⟩
    (by decide) (by decide)

end GfrGuard
