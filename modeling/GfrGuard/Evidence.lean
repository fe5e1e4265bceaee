import GfrGuard.Detection
import Mathlib.Data.List.Dedup
import Mathlib.Data.List.Perm.Subperm

/-!
# What a block rests on

A session's counters are of its accepted messages since the short window started, its
directories of those since the long window started, and its level is never left critical
without a block (`Recorded`). So a block for a critical session is for the score computed in
the same call, from messages of the windows before it (`ransom_block_recent`). A window that
started at time 0 counts as not started: at that time alone the windows do not bound what is
counted (`ransom_block_not_always_recent`).
-/

namespace GfrGuard

/-- The accepted messages of the key, each with the time it was received at. -/
def acceptedMsgs (key : CBuf 128) (d : Daemon) (e : DaemonEvent) : List (Int × EventMsg) :=
  match e with
  | .message env msg => if Accepts key d e then [(env.now, msg)] else []
  | _ => []

/-- The parent directory of a path. -/
def parentDir (filePath : CStr) : CStr :=
  match strrchr filePath slash with
  | none => []
  | some s => filePath.take (filePath.length - s.length)

/-- The messages received in `(t - span, t]`. -/
def recent (t span : Int) (l : List (Int × EventMsg)) : List (Int × EventMsg) :=
  l.filter fun m => t - span < m.1 && m.1 ≤ t

/-- The message raises the counter. -/
def raises (p : Policy) (k : Counter) (m : Int × EventMsg) : Bool :=
  k.counts m.2.opType (nameFlags p m.2)

/-- The parent directories of the messages, each once. -/
def touched (l : List (Int × EventMsg)) : List CStr :=
  (l.map fun m => parentDir m.2.filePath.str).dedup

/-- The session `s` is critical, for a score of the message itself on the session found, from
counters and directories of messages accepted in the windows before it. -/
structure Evidence (env : CallEnv) (p : Policy) (msg : EventMsg) (src : UInt8)
    (found : SessionState) (accepted : List (Int × EventMsg)) (s : SessionState) : Prop where
  critical : s.riskLevel = .critical
  notDeferred : deferScore msg (analysisFlags env p msg found) = false
  scored : s.bare = (scorerCalculate (countSession env p msg found) p).bare
  counters : ∀ k, ((countSession env p msg found).counter k).toNat ≤
    (recent env.now (p.windows src).1 accepted).countP (raises p k)
  dirs : (countSession env p msg found).touchedDirs.toNat ≤
    (touched (recent env.now (p.windows src).2 accepted)).length

/-- How many of the messages since `start` raise a counter. -/
def countSince (p : Policy) (k : Counter) (start : Int) (l : List (Int × EventMsg)) : Nat :=
  l.countP fun m => start ≤ m.1 && raises p k m

/-- The counters, windows and directories of a session that accepted the messages `l`. -/
structure Counted (p : Policy) (l : List (Int × EventMsg)) (s : SessionState) : Prop where
  counters : ∀ k, (s.counter k).toNat ≤ countSince p k s.windowStart10s l
  unset : s.windowStart10s = 0 → ∀ k, (s.counter k).toNat = 0
  started : s.windowStart10s = 0 ∨ ∃ m ∈ l, m.1 = s.windowStart10s
  dirsCounted : s.DirsCounted
  nodup : s.dirSet.hashes.Nodup
  dirs : ∀ hash ∈ s.dirSet.hashes, hash ≠ 0 ∧
    ∃ m ∈ l, s.windowStart30s ≤ m.1 ∧ dirHash m.2.filePath.str = hash
  dirsUnset : s.windowStart30s = 0 → s.dirSet.hashes = []
  dirsStarted : s.windowStart30s = 0 ∨ ∃ m ∈ l, m.1 = s.windowStart30s

/-- A session that accepted the messages `l`, between two messages. -/
structure Recorded (p : Policy) (l : List (Int × EventMsg)) (s : SessionState) : Prop
    extends Counted p l s where
  level : s.isBlocked = false → s.riskLevel ≠ .critical

section
variable {d : Daemon} {key : CBuf 128} {e : DaemonEvent} {env : CallEnv} {msg : EventMsg}
  {p : Policy} {s : SessionState} {k : Counter} {l l' : List (Int × EventMsg)} {t : Int}
  {m : Int × EventMsg}

/-! ## Directories -/

/-- A hash that is not 0 is of the parent directory. -/
theorem dirHash_eq {path : CStr} (h : dirHash path ≠ 0) : dirHash path = fnv1a64 (parentDir path) := by
  unfold dirHash at h ⊢
  unfold parentDir
  cases hs : strrchr path slash with
  | none => rw [hs] at h; exact absurd rfl h
  | some s =>
    rw [hs] at h
    dsimp only at h ⊢
    split at h
    · next hpos => rw [if_pos hpos]
    · exact absurd rfl h

/-- Different hashes are of different directories. -/
theorem length_le_touched {hashes : List UInt64} (hnodup : hashes.Nodup)
    (h : ∀ hash ∈ hashes, hash ≠ 0 ∧ ∃ m ∈ l, dirHash m.2.filePath.str = hash) :
    hashes.length ≤ (touched l).length := by
  have hsub : hashes ⊆ (touched l).map fnv1a64 := fun hash hmem => by
    obtain ⟨hne, m, hm, rfl⟩ := h hash hmem
    rw [dirHash_eq hne]
    exact List.mem_map_of_mem (List.mem_dedup.2 (List.mem_map_of_mem hm))
  have hle := (hnodup.subperm hsub).length_le
  rwa [List.length_map] at hle

/-! ## Counts -/

/-- A message received since the start is counted when it raises the counter. -/
theorem countSince_concat {start : Int} (h : start ≤ t) (p : Policy) (k : Counter)
    (l : List (Int × EventMsg)) (msg : EventMsg) : countSince p k start (l ++ [(t, msg)]) =
      countSince p k start l + if raises p k (t, msg) then 1 else 0 := by
  unfold countSince
  rw [List.countP_append, List.countP_singleton, decide_eq_true h, Bool.true_and]

/-- What is counted since a start inside the window is of the window. -/
theorem countSince_le_recent {start span : Int} (hstart : t - span < start)
    (hl : ∀ m ∈ l, m.1 ≤ t) : countSince p k start l ≤ (recent t span l).countP (raises p k) := by
  unfold countSince recent
  rw [List.countP_filter]
  refine List.countP_mono_left fun m hm hcount => ?_
  simp only [Bool.and_eq_true, decide_eq_true_eq] at hcount ⊢
  exact ⟨hcount.2, by omega, hl m hm⟩

/-- What a message leaves of the short window: a start at the message with nothing counted,
or the window as it was. -/
theorem Counted.short_cases (h : Counted p l s) (env : CallEnv) (msg : EventMsg) :
    ((countSession env p msg s).windowStart10s = env.now ∧ ∀ k,
        (if s.shortExpired env.now (p.windows msg.sourceType).1 then 0
          else (s.counter k).toNat) = 0) ∨
      (countSession env p msg s).windowStart10s = s.windowStart10s ∧ s.windowStart10s ≠ 0 ∧
        s.shortExpired env.now (p.windows msg.sourceType).1 = false := by
  rw [(countSession_windows env p msg s).1]
  cases hexp : s.shortExpired env.now (p.windows msg.sourceType).1 with
  | true => exact .inl ⟨rfl, fun _ => rfl⟩
  | false =>
    unfold SessionState.shortStart
    by_cases hzero : s.windowStart10s = 0
    · rw [if_pos hzero]
      exact .inl ⟨rfl, fun k => h.unset hzero k⟩
    · rw [if_neg hzero]
      exact .inr ⟨rfl, hzero, rfl⟩

/-- What a message leaves of the long window. -/
theorem Counted.long_cases (h : Counted p l s) (env : CallEnv) (msg : EventMsg) :
    ((countSession env p msg s).windowStart30s = env.now ∧
        (if s.longExpired env.now (p.windows msg.sourceType).2 then [] else s.dirSet.hashes) = []) ∨
      (countSession env p msg s).windowStart30s = s.windowStart30s ∧ s.windowStart30s ≠ 0 ∧
        s.longExpired env.now (p.windows msg.sourceType).2 = false := by
  rw [(countSession_windows env p msg s).2]
  cases hexp : s.longExpired env.now (p.windows msg.sourceType).2 with
  | true => exact .inl ⟨rfl, rfl⟩
  | false =>
    unfold SessionState.longStart
    by_cases hzero : s.windowStart30s = 0
    · rw [if_pos hzero]
      exact .inl ⟨rfl, h.dirsUnset hzero⟩
    · rw [if_neg hzero]
      exact .inr ⟨rfl, hzero, rfl⟩

/-- A message at a time other than 0, no earlier than the messages counted. -/
theorem Counted.concat (h : Counted p l s) (hnow : env.now ≠ 0)
    (hl : ∀ m ∈ l, m.1 ≤ env.now) :
    Counted p (l ++ [(env.now, msg)]) (countSession env p msg s) := by
  have hlast : (env.now, msg) ∈ l ++ [(env.now, msg)] :=
    List.mem_append_right l (List.mem_singleton_self _)
  have hold : ∀ {m}, m ∈ l → m ∈ l ++ [(env.now, msg)] := fun hm => List.mem_append_left _ hm
  obtain ⟨hcounted, hdirs, -⟩ := countSession_dirs env p msg s h.dirsCounted
  have hraise : ∀ k, ((countSession env p msg s).counter k).toNat ≤
      (if s.shortExpired env.now (p.windows msg.sourceType).1 then 0 else (s.counter k).toNat) +
        if raises p k (env.now, msg) then 1 else 0 :=
    fun k => counter_countSession_le k env p msg s
  refine ⟨fun k => ?_, fun hzero => ?_, ?_, hcounted, ?_, fun hash hmem => ?_, fun hzero => ?_, ?_⟩
  · refine (hraise k).trans ?_
    rcases h.short_cases env msg with ⟨hstart, hkept⟩ | ⟨hstart, hne, hexp⟩
    · rw [hkept k, hstart, countSince_concat (Int.le_refl _)]
      exact Nat.add_le_add_right (Nat.zero_le _) _
    · have hle : s.windowStart10s ≤ env.now := by
        obtain ⟨m, hm, heq⟩ := h.started.resolve_left hne
        exact heq ▸ hl m hm
      rw [hexp, if_neg Bool.false_ne_true, hstart, countSince_concat hle]
      exact Nat.add_le_add_right (h.counters k) _
  · rcases h.short_cases env msg with ⟨hstart, -⟩ | ⟨hstart, hne, -⟩
    · exact absurd (hstart.symm.trans hzero) hnow
    · exact absurd (hstart.symm.trans hzero) hne
  · rcases h.short_cases env msg with ⟨hstart, -⟩ | ⟨hstart, hne, -⟩
    · exact .inr ⟨_, hlast, hstart.symm⟩
    · obtain ⟨m, hm, heq⟩ := h.started.resolve_left hne
      exact .inr ⟨m, hold hm, heq.trans hstart.symm⟩
  · have hbase : (if s.longExpired env.now (p.windows msg.sourceType).2 then []
        else s.dirSet.hashes).Nodup := by
      split
      · exact List.nodup_nil
      · exact h.nodup
    rcases hdirs with heq | ⟨-, hnew, heq⟩
    · rw [heq]; exact hbase
    · rw [heq]
      exact List.nodup_append.2 ⟨hbase, List.nodup_singleton _, fun a ha b hb hab =>
        hnew (List.mem_singleton.1 hb ▸ hab ▸ ha)⟩
  · -- a directory kept from before, or the one of the message
    have hcases : hash ∈ (if s.longExpired env.now (p.windows msg.sourceType).2 then []
        else s.dirSet.hashes) ∨ hash ≠ 0 ∧ hash = dirHash msg.filePath.str := by
      rcases hdirs with heq | ⟨hne, -, heq⟩
      · exact .inl (heq ▸ hmem)
      · rw [heq, List.mem_append, List.mem_singleton] at hmem
        exact hmem.imp_right fun heq => ⟨by rw [heq]; exact hne, heq⟩
    rcases h.long_cases env msg with ⟨hstart, hkept⟩ | ⟨hstart, hne, hexp⟩
    · rw [hkept] at hcases
      obtain ⟨hne, heq⟩ := hcases.resolve_left List.not_mem_nil
      exact ⟨hne, _, hlast, Int.le_of_eq hstart, heq.symm⟩
    · rw [hexp, if_neg Bool.false_ne_true] at hcases
      rcases hcases with hmem | ⟨hzero, heq⟩
      · obtain ⟨hzero, m, hm, hle, heq⟩ := h.dirs hash hmem
        exact ⟨hzero, m, hold hm, hstart ▸ hle, heq⟩
      · obtain ⟨m, hm, hstarted⟩ := h.dirsStarted.resolve_left hne
        exact ⟨hzero, _, hlast, by rw [hstart, ← hstarted]; exact hl m hm, heq.symm⟩
  · rcases h.long_cases env msg with ⟨hstart, -⟩ | ⟨hstart, hne, -⟩
    · exact absurd (hstart.symm.trans hzero) hnow
    · exact absurd (hstart.symm.trans hzero) hne
  · rcases h.long_cases env msg with ⟨hstart, -⟩ | ⟨hstart, hne, -⟩
    · exact .inr ⟨_, hlast, hstart.symm⟩
    · obtain ⟨m, hm, heq⟩ := h.dirsStarted.resolve_left hne
      exact .inr ⟨m, hold hm, heq.trans hstart.symm⟩

/-- What is counted does not depend on the rest of the session. -/
theorem Counted.congr {s' : SessionState} (h : Counted p l s) (hcounter : ∀ k, s'.counter k = s.counter k)
    (hshort : s'.windowStart10s = s.windowStart10s) (hlong : s'.windowStart30s = s.windowStart30s)
    (hdirs : s'.dirSet = s.dirSet) (htouched : s'.touchedDirs = s.touchedDirs) :
    Counted p l s' where
  counters k := by rw [hcounter, hshort]; exact h.counters k
  unset hzero k := by rw [hcounter]; exact h.unset (hshort.symm.trans hzero) k
  started := by rw [hshort]; exact h.started
  dirsCounted := by
    unfold SessionState.DirsCounted
    rw [htouched, hdirs]
    exact h.dirsCounted
  nodup := by rw [hdirs]; exact h.nodup
  dirs := by rw [hdirs, hlong]; exact h.dirs
  dirsUnset hzero := by rw [hdirs]; exact h.dirsUnset (hlong.symm.trans hzero)
  dirsStarted := by rw [hlong]; exact h.dirsStarted

theorem Counted.scored (h : Counted p l s) (hnow : env.now ≠ 0)
    (hl : ∀ m ∈ l, m.1 ≤ env.now) :
    Counted p (l ++ [(env.now, msg)]) (scoreSession env p msg s) := by
  obtain ⟨hcounter, hshort, hlong, hdirs, htouched, -⟩ := scoreSession_frame env p msg s
  exact (h.concat hnow hl).congr hcounter hshort hlong hdirs htouched

/-! ## Sessions between messages -/

theorem Recorded.fresh (p : Policy) (l : List (Int × EventMsg)) (key : CBuf 128) (now : Int) :
    Recorded p l (.fresh key now) where
  counters k := by cases k <;> exact Nat.zero_le _
  unset _ k := by cases k <;> rfl
  started := .inl rfl
  dirsCounted := rfl
  nodup := List.nodup_nil
  dirs _ hmem := absurd hmem List.not_mem_nil
  dirsUnset _ := rfl
  dirsStarted := .inl rfl
  level _ h := by cases h

theorem Recorded.visit {v : Option SessionState} (h : ∀ s, v = some s → Recorded p l s)
    (key : CBuf 128) (now : Int) : Recorded p l (visit key now v) := by
  cases v with
  | none => exact Recorded.fresh p l key now
  | some s =>
    exact ⟨(h s rfl).toCounted.congr (fun k => by cases k <;> rfl) rfl rfl rfl rfl, (h s rfl).level⟩

theorem Recorded.blockOn (h : Recorded p l s) (ok : Bool) : Recorded p l (s.blockOn ok) :=
  ⟨h.toCounted.congr (fun k => by cases k <;> rfl) rfl rfl rfl rfl,
    fun hfree => h.level (Bool.or_eq_false_iff.1 hfree).1⟩

/-- A message whose block would succeed leaves its session recorded. -/
theorem Recorded.concat (h : Recorded p l s) (hnow : env.now ≠ 0)
    (hl : ∀ m ∈ l, m.1 ≤ env.now) :
    Recorded p (l ++ [(env.now, msg)]) (acceptState env p msg true s) := by
  have hscore := (h.toCounted.scored hnow hl : Counted p (l ++ [(env.now, msg)]) _)
  rcases acceptState_true env p msg s with hblocked | ⟨hlevel, heq⟩
  · refine ⟨?_, fun hfree => absurd (hfree.symm.trans hblocked) Bool.false_ne_true⟩
    unfold acceptState
    dsimp only
    split
    · exact hscore.congr (fun k => by cases k <;> rfl) rfl rfl rfl rfl
    · exact hscore
  · rw [heq]
    exact ⟨hscore, fun _ => hlevel⟩

/-- Every event keeps the session of a key recorded. -/
theorem recordedView_step (h : ∀ s, d.view key = some s → Recorded p l s) (hinv : d.Inv)
    (hfollows : d.Follows p) (hexec : e.Executes) (hzero : e.now? ≠ some 0)
    (hl : ∀ m ∈ l, ∀ now ∈ e.now?, m.1 ≤ now) :
    ∀ s, (daemonStep d e).view key = some s → Recorded p (l ++ acceptedMsgs key d e) s := by
  have hnone : ¬ Accepts key d e → acceptedMsgs key d e = [] := fun hnot => by
    unfold acceptedMsgs
    split
    · exact if_neg hnot
    · rfl
  have hspec := daemonStep_view hinv key e
  generalize (daemonStep d e).view key = v at hspec
  intro s hs
  cases hspec with
  | same hnot => rw [hnone hnot, List.append_nil]; exact h s hs
  | gone => cases hs
  | visited now block hnot =>
    cases hs
    rw [hnone hnot, List.append_nil]
    exact (Recorded.visit h key now).blockOn block
  | accepted env msg he haccept =>
    cases hs
    subst he
    rw [executes_of_executes hexec, hfollows.acceptState,
      show acceptedMsgs key d (.message env msg) = [(env.now, msg)] from if_pos haccept]
    exact (Recorded.visit h key env.now).concat (fun hnow => hzero (congrArg some hnow))
      fun m hm => hl m hm env.now rfl

end

/-! ## Runs -/

/-- The messages of a key a run accepted. -/
def received (p : LoadedPolicy) (db : Db) (es : List DaemonEvent) (key : CBuf 128) :
    List (Int × EventMsg) :=
  Runs.outputs daemonStep (acceptedMsgs key) (Daemon.start p db) es

theorem mem_acceptedMsgs {key : CBuf 128} {d : Daemon} {e : DaemonEvent} {m : Int × EventMsg}
    (h : m ∈ acceptedMsgs key d e) : e.now? = some m.1 := by
  unfold acceptedMsgs at h
  split at h
  · split at h
    · rw [List.mem_singleton.1 h]; rfl
    · cases h
  · cases h

/-- What was received was received no later than the clock reads now. -/
theorem received_le {p : LoadedPolicy} {db : Db} {es : List DaemonEvent} {e : DaemonEvent}
    {key : CBuf 128} (hclock : Clocked (es ++ [e])) :
    ∀ m ∈ received p db es key, ∀ now ∈ e.now?, m.1 ≤ now := by
  intro m hm now hnow
  obtain ⟨e', he', d, hmem⟩ := Runs.mem_outputs hm
  unfold Clocked at hclock
  rw [List.filterMap_append, List.pairwise_append] at hclock
  refine hclock.2.2 m.1 (List.mem_filterMap.2 ⟨e', he', mem_acceptedMsgs hmem⟩) now ?_
  exact List.mem_filterMap.2 ⟨e, List.mem_singleton_self e, hnow⟩

/-- In every run whose blocks succeed and whose clock never reads 0 the sessions of a key are
recorded. -/
theorem daemonRun_recorded (p : LoadedPolicy) (db : Db) (es : List DaemonEvent) (key : CBuf 128)
    (hevents : ∀ e ∈ es, e.KeepsPolicy ∧ e.Executes ∧ e.now? ≠ some 0) (hclock : Clocked es) :
    ∀ s, (daemonRun p db es).view key = some s → Recorded p.policy (received p db es key) s := by
  induction es using List.reverseRecOn with
  | nil =>
    intro s hs
    cases (Daemon.view_start p db key).symm.trans hs
  | append_singleton es e ih =>
    have hes : ∀ e ∈ es, e.KeepsPolicy ∧ e.Executes ∧ e.now? ≠ some 0 :=
      fun e he => hevents e (List.mem_append_left _ he)
    obtain ⟨-, hexec, hzero⟩ := hevents e (List.mem_append_right es (List.mem_singleton_self e))
    have hclock' : Clocked es := by
      unfold Clocked at hclock ⊢
      rw [List.filterMap_append] at hclock
      exact (List.pairwise_append.1 hclock).1
    have hfollows : (daemonRun p db es).Follows p.policy :=
      (Daemon.follows_start p db).run fun e he => (hes e he).1
    have hstep := recordedView_step (ih hes hclock') (daemonRun_inv p db es) hfollows hexec hzero
      (received_le hclock)
    unfold daemonRun received at hstep ⊢
    rw [Runs.run_append, Runs.outputs_concat]
    exact hstep

theorem riskLevel_countSession (env : CallEnv) (p : Policy) (msg : EventMsg) (s : SessionState) :
    (countSession env p msg s).riskLevel =
      if s.longExpired env.now (p.windows msg.sourceType).2 then .normal else s.riskLevel := by
  have hupdate : ∀ (s : SessionState) opType flags hash,
      (sessionUpdate s opType flags hash).riskLevel = s.riskLevel := fun s opType flags hash => by
    have hcount : (countOp s opType flags).riskLevel = s.riskLevel := by
      unfold countOp
      split_ifs <;> rfl
    rw [← hcount]
    unfold sessionUpdate dirAdd countContent
    dsimp only
    split <;> rfl
  unfold countSession
  rw [hupdate, sessionCheckWindow_eq]
  cases s.shortExpired env.now (p.windows msg.sourceType).1 <;>
    cases s.longExpired env.now (p.windows msg.sourceType).2 <;> rfl

/-- A session that was not critical is made critical by the score of the message itself. -/
theorem scored_of_critical {env : CallEnv} {p : Policy} {msg : EventMsg} {s : SessionState}
    (h : s.riskLevel ≠ .critical) (hlevel : (scoreSession env p msg s).riskLevel = .critical) :
    deferScore msg (analysisFlags env p msg s) = false := by
  cases hdefer : deferScore msg (analysisFlags env p msg s) with
  | false => rfl
  | true =>
    rw [scoreSession_eq, if_pos hdefer, riskLevel_countSession] at hlevel
    split at hlevel
    · cases hlevel
    · exact absurd hlevel h

theorem status_eq_ransom {c : ExecuteCall} {msg : EventMsg}
    (h : c.status msg = lit "blocked_ransom") : c.cause = .critical := by
  unfold ExecuteCall.status at h
  cases hc : c.cause with
  | critical => rfl
  | blacklisted =>
    rw [hc] at h
    dsimp only [blacklistStatus] at h
    split at h
    · exact absurd h (by decide)
    · exact absurd h (by decide)

/-- After a message at `t` the short window reaches back less than its length. -/
theorem Counted.short_recent {p : Policy} {l : List (Int × EventMsg)} {s : SessionState}
    (h : Counted p l s) (hvalid : p.numericValid = true) (env : CallEnv) (msg : EventMsg) :
    env.now - (p.windows msg.sourceType).1 < (countSession env p msg s).windowStart10s := by
  have hpos := (windows_pos hvalid msg.sourceType).1
  rcases h.short_cases env msg with ⟨hstart, -⟩ | ⟨hstart, hne, hexp⟩
  · omega
  · unfold SessionState.shortExpired SessionState.shortStart at hexp
    rw [if_neg hne, decide_eq_false_iff_not] at hexp
    omega

/-- After a message at `t` the long window reaches back less than its length. -/
theorem Counted.long_recent {p : Policy} {l : List (Int × EventMsg)} {s : SessionState}
    (h : Counted p l s) (hvalid : p.numericValid = true) (env : CallEnv) (msg : EventMsg) :
    env.now - (p.windows msg.sourceType).2 < (countSession env p msg s).windowStart30s := by
  have hpos := (windows_pos hvalid msg.sourceType).2
  rcases h.long_cases env msg with ⟨hstart, -⟩ | ⟨hstart, hne, hexp⟩
  · omega
  · unfold SessionState.longExpired SessionState.longStart at hexp
    rw [if_neg hne, decide_eq_false_iff_not] at hexp
    omega

/-- In every run with a fixed policy whose blocks succeed and whose clock never goes back and
never reads 0: the score a block for a critical session is for is computed in the same call,
from counters of messages within the short window before it and directories of messages
within the long window before it. -/
theorem ransom_block_recent (p : LoadedPolicy) (db : Db) (es : List DaemonEvent) (env : CallEnv)
    (msg : EventMsg) (src : UInt8) (c : ExecuteCall)
    (hevents : ∀ e ∈ es ++ [.message env msg],
      e.KeepsPolicy ∧ e.Executes ∧ e.FromSource msg.sessionKey src ∧ e.now? ≠ some 0)
    (hclock : Clocked (es ++ [.message env msg]))
    (hcall : executeCall env msg (daemonRun p db es) = some c)
    (hstatus : c.status msg = lit "blocked_ransom") :
    Evidence env p.policy msg src
      (visit msg.sessionKey env.now ((daemonRun p db es).view msg.sessionKey))
      (received p db (es ++ [.message env msg]) msg.sessionKey) (c.daemon.session c.slot) := by
  generalize hfound : visit msg.sessionKey env.now ((daemonRun p db es).view msg.sessionKey) = found
  generalize hreceived : received p db (es ++ [.message env msg]) msg.sessionKey = accepted
  have hes : ∀ e ∈ es, e.KeepsPolicy ∧ e.Executes ∧ e.now? ≠ some 0 := fun e he =>
    have h := hevents e (List.mem_append_left _ he)
    ⟨h.1, h.2.1, h.2.2.2⟩
  obtain ⟨-, -, hsource, hzero⟩ :=
    hevents _ (List.mem_append_right es (List.mem_singleton_self _))
  obtain rfl : msg.sourceType = src := hsource rfl
  have hnow : env.now ≠ 0 := fun h => hzero (congrArg some h)
  have hclock' : Clocked es := by
    unfold Clocked at hclock ⊢
    rw [List.filterMap_append] at hclock
    exact (List.pairwise_append.1 hclock).1
  have hrecorded : Recorded p.policy (received p db es msg.sessionKey) found :=
    hfound ▸ Recorded.visit (daemonRun_recorded p db es msg.sessionKey hes hclock')
      msg.sessionKey env.now
  have hfollows : (daemonRun p db es).Follows p.policy :=
    (Daemon.follows_start p db).run fun e he => (hes e he).1
  have hbefore : ∀ m ∈ received p db es msg.sessionKey, m.1 ≤ env.now := fun m hm =>
    received_le hclock m hm env.now rfl
  have hcause := status_eq_ransom hstatus
  have hspec := executeCall_spec hcall
  have hscored := hspec.scored hcause
  rw [hfollows.scoreSession, hfound] at hscored
  cases hspec with
  | blacklisted => cases hcause
  | critical i t hfind htype hgate hflag hlevel =>
    have haccepted : accepted = received p db es msg.sessionKey ++ [(env.now, msg)] := by
      rw [← hreceived]
      unfold received
      rw [Runs.outputs_concat]
      exact congrArg _ (if_pos ⟨rfl, htype, hgate, by
        show (sessionFindOrCreate (daemonRun p db es).table msg.sessionKey env.now).isSome
        rw [hfind]; rfl⟩)
    have hfree : found.isBlocked = false := by
      have := congrArg SessionState.isBlocked (sessionFindOrCreate_spec hfind).visited_view
      rw [hfound] at this
      exact this.symm.trans hflag
    have hcrit : (scoreSession env p.policy msg found).riskLevel = .critical :=
      (congrArg SessionState.riskLevel hscored :).symm.trans hlevel
    have hdefer := scored_of_critical (hrecorded.level hfree) hcrit
    have hscore : scoreSession env p.policy msg found =
        scorerCalculate (countSession env p.policy msg found) p.policy := by
      rw [scoreSession_eq, hdefer, if_neg Bool.false_ne_true]
    rw [hscore] at hscored
    have hcounted : Counted p.policy accepted (countSession env p.policy msg found) :=
      haccepted ▸ hrecorded.toCounted.concat hnow hbefore
    have hlast : ∀ m ∈ accepted, m.1 ≤ env.now := fun m hm => by
      rw [haccepted, List.mem_append, List.mem_singleton] at hm
      rcases hm with hm | rfl
      · exact hbefore m hm
      · exact Int.le_refl _
    refine ⟨hlevel, hdefer, hscored, fun k => ?_, ?_⟩
    · exact (hcounted.counters k).trans
        (countSince_le_recent (hrecorded.short_recent p.valid env msg) hlast)
    · rw [hcounted.dirsCounted]
      refine length_le_touched hcounted.nodup fun hash hmem => ?_
      obtain ⟨hne, m, hm, hle, heq⟩ := hcounted.dirs hash hmem
      have hlong := hrecorded.long_recent p.valid env msg
      refine ⟨hne, m, List.mem_filter.2 ⟨hm, ?_⟩, heq⟩
      rw [Bool.and_eq_true, decide_eq_true_eq, decide_eq_true_eq]
      exact ⟨Int.lt_of_lt_of_le hlong hle, hlast m hm⟩

/-- Two renames a second apart: the block rests on both. -/
theorem ransom_block_recent_sample : ∃ c,
    executeCall (sampleEnv 2) sampleRename
      (daemonRun pairPolicy .empty [.message (sampleEnv 1) sampleRename]) = some c ∧
    Evidence (sampleEnv 2) pairPolicy.policy sampleRename sourceSmb
      (visit sampleRename.sessionKey (sampleEnv 2).now ((daemonRun pairPolicy .empty
        [.message (sampleEnv 1) sampleRename]).view sampleRename.sessionKey))
      (received pairPolicy .empty ([.message (sampleEnv 1) sampleRename] ++
        [.message (sampleEnv 2) sampleRename]) sampleRename.sessionKey)
      (c.daemon.session c.slot) := by
  have hstatus : (executeCall (sampleEnv 2) sampleRename (daemonRun pairPolicy .empty
      [.message (sampleEnv 1) sampleRename])).map (·.status sampleRename) =
      some (lit "blocked_ransom") := by decide
  obtain ⟨c, hcall, hc⟩ := Option.map_eq_some_iff.1 hstatus
  exact ⟨c, hcall, ransom_block_recent pairPolicy .empty [.message (sampleEnv 1) sampleRename]
    (sampleEnv 2) sampleRename sourceSmb c (by decide) (by decide) hcall hc⟩

/-- A rename at time 0 and one 1000 s later: the window of the first counts as not started,
so the block of the second counts both. -/
theorem ransom_block_not_always_recent :
    ¬ ∀ (p : LoadedPolicy) (db : Db) (es : List DaemonEvent) (env : CallEnv) (msg : EventMsg)
      (src : UInt8) (c : ExecuteCall),
      (∀ e ∈ es ++ [.message env msg],
        e.KeepsPolicy ∧ e.Executes ∧ e.FromSource msg.sessionKey src) →
      Clocked (es ++ [.message env msg]) →
      executeCall env msg (daemonRun p db es) = some c →
      c.status msg = lit "blocked_ransom" →
      Evidence env p.policy msg src
        (visit msg.sessionKey env.now ((daemonRun p db es).view msg.sessionKey))
        (received p db (es ++ [.message env msg]) msg.sessionKey) (c.daemon.session c.slot) := by
  intro h
  -- the sample clock at the epoch
  have hstatus : (executeCall (sampleEnv (-1767224600)) sampleRename (daemonRun pairPolicy .empty
      [.message (sampleEnv (-1767225600)) sampleRename])).map (·.status sampleRename) =
      some (lit "blocked_ransom") := by decide
  obtain ⟨c, hcall, hc⟩ := Option.map_eq_some_iff.1 hstatus
  have hcounters := (h pairPolicy .empty [.message (sampleEnv (-1767225600)) sampleRename]
    (sampleEnv (-1767224600)) sampleRename sourceSmb c (by decide) (by decide)
    hcall hc).counters .renamed
  revert hcounters
  decide

end GfrGuard
