import GfrGuard.CloudTasks
import GfrGuard.FtpTitle
import GfrGuard.JsonEscape
import GfrGuard.Lib.JsonAccept
import GfrGuard.ProcTree
import GfrGuard.ProcessMsg
import GfrGuard.ScoreLaws

/-!
# The details of the log

Every call of `rguard_log_write` has a detail that should be a JSON object. The calls that
`process_msg`, `ftp_parse_cmdline` and `cloud_block_task` make are given here, with the texts the
source prints. Some texts go in raw, some are escaped and then cut. Exactly when all details of a call
are objects is said by `log_details_iff`: never for a message that is not a notification of the VFS
module, because its flags are printed in hexadecimal.
-/

namespace GfrGuard

/-! ## Calls -/

/-- A call of `rguard_log_write`, its level and session apart. -/
structure LogCall where
  event : CStr
  detail : CStr
deriving DecidableEq

/-- `%d`. -/
def decInt (n : Int) : CStr := if n < 0 then dash :: dec n.natAbs else dec n.natAbs

/-- `%0wx`. -/
def hexLowPad (w n : Nat) : CStr :=
  let digits := (Nat.toDigits 16 n).map fun c => c.toNat.toUInt8
  List.replicate (w - digits.length) 48 ++ digits

/-- What `process_msg` prints and finds while it logs, besides what a call observes anyway. -/
structure LogEnv where
  /-- The entropy of a file as `%.2f`. -/
  entropy : CStr → CStr
  /-- The threshold of the policy as `%.1f`. -/
  threshold : CStr
  /-- The rule that matches a file. -/
  matchedRule : CStr → CStr
  /-- `db_insert_protected_file` succeeds. -/
  insertOk : Bool
  /-- The fork for `smbcontrol` succeeds. -/
  closeForks : Bool
  /-- There is no policy file to write to, or `config_persist_blacklist_ip` succeeds. -/
  persistOk : Bool
  /-- The fork of the restore succeeds. -/
  restoreForks : Bool
  /-- `auto_restore.delay_seconds`. -/
  delaySeconds : Int32

/-- The calls of `session_find_or_create`. -/
def findCalls (t : SessionTable) (key : CBuf 128) : List LogCall :=
  match t.search key with
  | .full =>
    match t.oldest with
    | none => [⟨lit "SESSION_TABLE_FULL",
        lit "\x7b\"reason\":\"all slots blocked, new session dropped\"\x7d"⟩]
    | some _ => [⟨lit "SESSION_EVICT",
        lit "\x7b\"reason\":\"table full, evicting least recently active\"\x7d"⟩]
  | _ => []

/-! ### Gates -/

/-- The calls for a session the VFS module denied. -/
def vfsBlockedCalls (msg : EventMsg) (d : Daemon) : List LogCall :=
  ⟨lit "VFS_BLOCKED", snprintf 512 (lit "\x7b\"reason\":\"blocked_ip\",\"share\":\"" ++
    (msg.shareName.str.take 60 ++ lit "\"\x7d"))⟩ :: findCalls d.table msg.sessionKey

/-- The call for every other message. -/
def msgRecvCall (msg : EventMsg) : LogCall :=
  ⟨lit "MSG_RECV", snprintf 600 (lit "\x7b\"op\":" ++ (dec msg.opType.toNat ++ (lit ",\"flags\":0x" ++
    (hexLowPad 4 msg.flags.toNat ++ lit ",\"path\":\"" ++ msg.filePath.str.take 300 ++
      lit "\",\"new_name\":\"" ++ msg.newName.str.take 100 ++ lit "\",\"share\":\"" ++
      msg.shareName.str.take 60 ++ lit "\"\x7d"))))⟩

/-- The reason that a message is not looked at. -/
def protectionOffDetail (p : Protection) (sourceType : UInt8) : CStr :=
  if !p.enabled then lit "\x7b\"reason\":\"master_switch\"\x7d"
  else if sourceType = sourceSmb then lit "\x7b\"reason\":\"smb_sub_switch\"\x7d"
  else if sourceType = sourceCloudSync then lit "\x7b\"reason\":\"cloud_sub_switch\"\x7d"
  else if sourceType = sourceFtp then lit "\x7b\"reason\":\"ftp_sub_switch\"\x7d"
  else if sourceType = sourceHost then lit "\x7b\"reason\":\"host_sub_switch\"\x7d"
  else lit "\x7b\"reason\":\"smb_sub_switch(legacy)\"\x7d"

/-- The call where the extension filter stops a message. -/
def extFilterCall (msg : EventMsg) : LogCall :=
  ⟨lit "EXT_FILTER_SKIP", snprintf 512 (lit "\x7b\"path\":\"" ++ msg.filePath.str.take 200 ++
    lit "\",\"ext\":\"" ++ (strrchr msg.filePath.str dot).getD (lit "(none)") ++ lit "\"\x7d")⟩

/-- The call where an exception or the whitelist lets a message pass. -/
def bypassCall (event : CStr) (size precision : Nat) (msg : EventMsg) : LogCall :=
  ⟨event, snprintf size (lit "\x7b\"op\":" ++ dec msg.opType.toNat ++ lit ",\"path\":\"" ++
    msg.filePath.str.take precision ++ lit "\"\x7d")⟩

/-! ### Blocks -/

/-- The calls of `blocker_execute` where it succeeds. -/
def closeShareCalls (log : LogEnv) (msg : EventMsg) : List LogCall :=
  if msg.shareName.str ≠ [] ∧ log.closeForks = false then
    [⟨lit "BLOCKER_FORK_FAILED", lit "\x7b\"helper\":\"smbcontrol\"\x7d"⟩]
  else []

/-- The call where a block fails. -/
def blockFailedCall : LogCall := ⟨lit "BLOCK_FAILED", lit "\x7b\x7d"⟩

/-- The calls for a blacklisted session. -/
def blacklistCalls (log : LogEnv) (env : CallEnv) (msg : EventMsg) (d : Daemon) : List LogCall :=
  ⟨lit "BLACKLIST_BLOCK", snprintf 256 (lit "\x7b\"op\":" ++ dec msg.opType.toNat ++
    lit ",\"path\":\"" ++ msg.filePath.str.take 200 ++ lit "\",\"reason\":\"" ++
    blacklistStatus d.policy msg ++ lit "\"\x7d")⟩ :: findCalls d.table msg.sessionKey ++
    match sessionFindOrCreate d.table msg.sessionKey env.now with
    | none => []
    | some (i, t) =>
      let d := { d with table := t }
      if (d.session i).isBlocked then []
      else
        let d := ensureBlockedEvent env msg i d
        match blockerExecute env (blockIp msg) (d.session i).currentEventId.str
            (blacklistStatus d.policy msg) d with
        | (true, _) => closeShareCalls log msg
        | (false, _) => [blockFailedCall]

/-- The calls of `restore_trigger_auto`. -/
def restoreCalls (log : LogEnv) (p : Policy) (eventId : CStr) : List LogCall :=
  if p.autoRestore = false ∨ eventId = [] then []
  else
    ⟨lit "AUTO_RESTORE_STARTED", snprintf 256 (lit "\x7b\"event_id\":\"" ++ eventId ++
      lit "\",\"delay_seconds\":" ++ decInt log.delaySeconds.toInt ++ lit "\x7d")⟩ ::
    if log.restoreForks then []
    else [⟨lit "AUTO_RESTORE_FAILED", lit "\x7b\"reason\":\"fork failed\"\x7d"⟩]

/-- The calls of the block of a critical session. -/
def criticalCalls (log : LogEnv) (env : CallEnv) (msg : EventMsg) (i : Fin sessionBuckets)
    (d : Daemon) : List LogCall :=
  if (d.session i).riskLevel = .critical ∧ (d.session i).isBlocked = false then
    let s := d.session i
    match blockerExecute env (blockIp msg) s.currentEventId.str (lit "blocked_ransom") d with
    | (true, _) =>
      closeShareCalls log msg ++
        [⟨lit "BLOCK_EXECUTED", snprintf 256 (lit "\x7b\"event_id\":\"" ++ s.currentEventId.str ++
          lit "\",\"score\":" ++ dec s.riskScore.toNat ++ lit "\x7d")⟩] ++
        (if log.persistOk then []
        else [⟨lit "AUTO_BL_PERSIST_FAILED",
          lit "\x7b\"msg\":\"in-memory entry still active\"\x7d"⟩]) ++
        restoreCalls log d.policy s.currentEventId.str
    | (false, _) => [blockFailedCall]
  else []

/-! ### Accepted messages -/

/-- The calls about the preimage. -/
def recordCalls (log : LogEnv) (p : Policy) (msg : EventMsg) (eventId : CStr) : List LogCall :=
  if msg.reportsBackup then
    match recordBackupPath p.storePath.str msg with
    | none => [⟨lit "BACKUP_PATH_TRUNCATED",
        snprintf 300 (lit "\x7b\"path\":\"" ++ msg.filePath.str.take 250 ++ lit "\"\x7d")⟩]
    | some _ =>
      if log.insertOk then
        [⟨lit "BACKUP_SUCCESS", snprintf 600 (lit "\x7b\"event_id\":\"" ++ eventId ++
          lit "\",\"path\":\"" ++ msg.filePath.str.take 200 ++ lit "\",\"share\":\"" ++
          msg.shareName.str.take 60 ++ lit "\"\x7d")⟩]
      else []
  else if hasFlag msg.flags flagBackupFailed then
    [⟨lit "BACKUP_FAILED", snprintf 600 (lit "\x7b\"event_id\":\"" ++ eventId ++ lit "\",\"path\":\"" ++
      msg.filePath.str.take 200 ++ lit "\"\x7d")⟩]
  else []

/-- The calls about the content. -/
def contentCalls (log : LogEnv) (env : CallEnv) (p : Policy) (msg : EventMsg) (s : SessionState) :
    List LogCall :=
  (if hasFlag msg.flags flagRisky ∧ msg.filePath.str ≠ [] then
    [⟨lit "RISK_HIT", snprintf 600 (lit "\x7b\"path\":\"" ++ msg.filePath.str.take 200 ++
      lit "\",\"op\":" ++ dec msg.opType.toNat ++ lit "\x7d")⟩]
  else []) ++
  (if entropyFlags env p msg s ≠ 0 then
    [⟨lit "HIGH_ENTROPY", snprintf 600 (lit "\x7b\"path\":\"" ++ msg.filePath.str.take 200 ++
      lit "\",\"entropy\":" ++ log.entropy msg.filePath.str ++ lit ",\"threshold\":" ++
      log.threshold ++ lit "\x7d")⟩]
  else []) ++
  if yaraFlags env p msg s ≠ 0 then
    [⟨lit "YARA_MATCH", snprintf 600 (lit "\x7b\"path\":\"" ++ msg.filePath.str.take 200 ++
      lit "\",\"rule\":\"" ++ (log.matchedRule msg.filePath.str).take 100 ++ lit "\"\x7d")⟩]
  else []

/-- `level_str`. -/
def levelStr : RiskLevel → CStr
  | .critical => lit "CRITICAL"
  | .high => lit "HIGH"
  | .suspicious => lit "SUSPICIOUS"
  | .normal => lit "NORMAL"

/-- The call for a session that rises to a level above normal, from its level before the score. -/
def escalationCalls (before : RiskLevel) (s : SessionState) : List LogCall :=
  if s.riskLevel ≠ .normal ∧ before.value < s.riskLevel.value then
    [⟨lit "SCORE_ESCALATION", snprintf 256 (lit "\x7b\"event_id\":\"" ++ s.currentEventId.str ++
      lit "\",\"score\":" ++ dec s.riskScore.toNat ++ lit ",\"level\":\"" ++ levelStr s.riskLevel ++
      lit "\"\x7d")⟩]
  else []

/-- The calls for an accepted message. -/
def acceptCalls (log : LogEnv) (env : CallEnv) (msg : EventMsg) (d : Daemon) : List LogCall :=
  findCalls d.table msg.sessionKey ++
    match sessionFindOrCreate d.table msg.sessionKey env.now with
    | none => []
    | some (i, t) =>
      let d := { d with table := t }
      let recorded := recordMsg env msg i d
      let s := recorded.session i
      let windows := d.policy.windows msg.sourceType
      let before := (sessionCheckWindow s env.now windows.1 windows.2).riskLevel
      recordCalls log d.policy msg s.currentEventId.str ++ contentCalls log env d.policy msg s ++
        escalationCalls before ((scoreMsg env msg i d).session i) ++
        criticalCalls log env msg i (settleMsg env msg i d)

/-- The calls of `process_msg`. -/
def processMsgCalls (log : LogEnv) (env : CallEnv) (msg : EventMsg) (d : Daemon) : List LogCall :=
  if msg.msgType = msgVfsBlocked then vfsBlockedCalls msg d
  else
    msgRecvCall msg ::
      match gate d.policy msg with
      | .protectionOff => [⟨lit "PROTECTION_OFF", protectionOffDetail d.policy.protection msg.sourceType⟩]
      | .extFilterSkip => [extFilterCall msg]
      | .exceptionBypass => [bypassCall (lit "EXCEPTION_BYPASS") 512 400 msg]
      | .whitelistBypass => [bypassCall (lit "WHITELIST_BYPASS") 256 200 msg]
      | .blacklistBlock => blacklistCalls log env msg d
      | .accept => acceptCalls log env msg d

/-! ### Channels -/

/-- What `ftp_parse_cmdline` parses of what it read. -/
def titleText (bytes : List UInt8) : CStr := (collapse (bytes.take 511)).takeWhile (· ≠ 0)

/-- The calls of `ftp_parse_cmdline`. -/
def ftpParseCmdlineCalls (pid : Int32) (cmdline : Option (List UInt8)) : List LogCall :=
  match cmdline with
  | none => []
  | some bytes =>
    if bytes.take 511 = [] then []
    else
      [⟨lit "FTP_CMDLINE_READ", snprintf 580 (lit "\x7b\"pid\":" ++ (decInt pid.toInt ++
        (lit ",\"cmdline_len\":" ++ (decInt (bytes.take 511).length ++ (lit ",\"head\":\"" ++
          ((jsonEscaped 256 (titleText bytes)).take 120 ++ lit "\"\x7d"))))))⟩]

/-- `true` or `false`. -/
def boolText (b : Bool) : CStr := if b then lit "true" else lit "false"

/-- The text, or `(unavailable)`. -/
def orUnavailable (s : CStr) : CStr := if s = [] then lit "(unavailable)" else s

/-- The process tree below the one that is killed. -/
structure KillTree where
  root : Int32
  alive : Bool
  reads : ChildReads

/-- The calls of `cloud_kill_process_tree`. The walk ends: it stores an entry before it goes down. -/
def killTreeCalls (t : KillTree) : List LogCall :=
  if t.alive = false then []
  else
    match collectChildren t.reads 256 257 t.root.toInt .start with
    | some (true, w) => [⟨lit "PROC_TREE_TRUNCATED", snprintf 96 (lit "\x7b\"root\":" ++
        (decInt t.root.toInt ++ (lit ",\"collected\":" ++ (decInt w.pids.length ++
          lit ",\"cap\":256\x7d"))))⟩]
    | _ => []

/-- The calls of `cloud_block_task`: what the query printed goes into the first. -/
def cloudBlockTaskCalls (task : CStr) (stdout : Option CStr) (eventId : Option CStr)
    (db deleteOk : Bool) (tree : KillTree) : List LogCall :=
  let (queried, expression, command) := neoCronerQuery task stdout
  ⟨lit "CLOUD_BLOCK_EXECUTED", snprintf 4096 (lit "\x7b\"task\":\"" ++ (task ++
    (lit "\",\"expression\":\"" ++ (jsonEscaped 512 (orUnavailable expression.str) ++
      (lit "\",\"command\":\"" ++ ((jsonEscaped 600 (orUnavailable command.str)).take 256 ++
        (lit "\",\"queried\":" ++ (boolText queried ++ (lit ",\"event_id\":\"" ++ (eventId.getD [] ++
          (lit "\",\"saved_to_db\":" ++ (boolText db ++ lit "\x7d"))))))))))))⟩ ::
    (if validTaskName task && deleteOk then ⟨lit "CLOUD_TASK_DELETED", lit "\x7b\x7d"⟩
    else ⟨lit "CLOUD_TASK_DELETE_FAILED",
      lit "\x7b\"reason\":\"neo-croner unavailable or delete failed\"\x7d"⟩) ::
    killTreeCalls tree

/-! ## Numbers -/

section
variable {n N : Nat} {src id t : CStr} {stack : List JsonText.Frame} {m : JsonText.Mode} {c : UInt8}
  {s : List UInt8}

open JsonText (quote Body LeavesOpen IsObject run start done)

theorem dec_append (h : 10 ≤ n) : dec n = dec (n / 10) ++ dec (n % 10) := by
  have hdigit : Nat.toDigits 10 (n % 10) = [(n % 10).digitChar] :=
    Nat.toDigits_of_lt_base (Nat.mod_lt n (by decide))
  rw [dec_eq, dec_eq, dec_eq, Nat.toDigits_of_base_le (by decide) h, List.map_append, hdigit]

/-- A number does not start with a zero that does not belong there. -/
theorem dec_head (h : 0 < n) : ∃ d ds, dec n = d :: ds ∧ d ≠ 48 := by
  induction n using Nat.strongRecOn with
  | ind n ih =>
    rcases Nat.lt_or_ge n 10 with hlt | hge
    · have hsmall : ∀ k < 10, 0 < k → ∃ d ds, dec k = d :: ds ∧ d ≠ 48 := by
        have htable : ∀ k < 10, 0 < k → dec k = [48 + k.toUInt8] ∧ 48 + k.toUInt8 ≠ 48 := by decide
        exact fun k hk hpos => ⟨_, [], (htable k hk hpos).1, (htable k hk hpos).2⟩
      exact hsmall n hlt h
    · obtain ⟨d, ds, hdec, hd⟩ := ih (n / 10) (by omega) (by omega)
      exact ⟨d, ds ++ dec (n % 10), by rw [dec_append hge, hdec, List.cons_append], hd⟩

theorem whole_dec (n : Nat) (r : List UInt8) : JsonText.Whole (dec n ++ r) r := by
  rcases Nat.eq_zero_or_pos n with rfl | hpos
  · exact .inl rfl
  · obtain ⟨d, ds, hdec, hd⟩ := dec_head hpos
    have hdigits : ∀ b ∈ d :: ds, JsonText.isDigit b = true := fun b hb =>
      isDigit_of_mem_dec (n := n) (hdec ▸ hb)
    refine .inr ⟨d, ds ++ r, by rw [hdec, List.cons_append], hdigits d List.mem_cons_self, hd, ?_⟩
    exact JsonText.many_append (fun b hb => hdigits b (List.mem_cons_of_mem d hb)) r

theorem number_decInt (k : Int) (r : List UInt8) : JsonText.Number (decInt k ++ r) r := by
  unfold decInt
  split
  · exact ⟨_, r, r, .inr rfl, whole_dec _ r, .inl rfl, .inl rfl⟩
  · exact ⟨_, r, r, .inl rfl, whole_dec _ r, .inl rfl, .inl rfl⟩

/-- A number is read as a value. -/
theorem run_decInt (k : Int) (hc : c = 44 ∨ c = 125 ∨ c = 93) (s : List UInt8) :
    run ⟨.value, stack⟩ (decInt k ++ c :: s) = run ⟨.next, stack⟩ (c :: s) := by
  have hvalue : JsonText.Mode.opens .value = true := rfl
  obtain ⟨m, hm, hrun⟩ := JsonText.run_number hvalue (number_decInt k (c :: s)) stack
  rw [hrun, JsonText.run_ended hm hc]

/-- A number and the text behind it. -/
theorem run_int (st : JsonText.State) (ht : t.head? = some 44) (hrun : run ⟨.next, stack⟩ t = some st)
    (k : Int) (s : List UInt8) : run ⟨.value, stack⟩ (decInt k ++ (t ++ s)) = run st s := by
  cases t with
  | nil => cases ht
  | cons c t =>
    cases ht
    rw [List.cons_append, run_decInt k (.inl rfl), ← List.cons_append, JsonText.run_append, hrun,
      Option.bind_some]

theorem decInt_natCast (n : Nat) : decInt n = dec n := by
  rw [decInt, if_neg (Int.natCast_nonneg n).not_gt, Int.natAbs_natCast]

theorem length_decInt_le (k : Int32) : (decInt k.toInt).length ≤ 11 := by
  have hlow := k.le_toInt
  have hhigh := k.toInt_lt
  have hdec : (dec k.toInt.natAbs).length ≤ 10 := (length_dec_le (by decide)).2 (by omega)
  unfold decInt
  split
  · exact Nat.succ_le_succ hdec
  · exact Nat.le_succ_of_le hdec

/-! ## Cuts of an escaped text -/

/-- A cut that does not fall inside the form of a byte. -/
def EndsWhole (n : Nat) (src : CStr) : Prop := ∃ k, (escapeText src).take n = escapeText (src.take k)

theorem endsWhole_nil (n : Nat) : EndsWhole n [] := ⟨0, List.take_nil⟩

theorem endsWhole_cons (h : (escapeByte c).length ≤ n) :
    EndsWhole n (c :: src) ↔ EndsWhole (n - (escapeByte c).length) src := by
  have hpos := length_escapeByte_pos c
  have htake : (escapeText (c :: src)).take n =
      escapeByte c ++ (escapeText src).take (n - (escapeByte c).length) := by
    rw [escapeText_cons, List.take_append, List.take_of_length_le h]
  unfold EndsWhole
  rw [htake]
  constructor
  · rintro ⟨k, hk⟩
    cases k with
    | zero =>
      have hlen := congrArg List.length hk
      rw [List.length_append] at hlen
      have hnil : (escapeText ((c :: src).take 0)).length = 0 := rfl
      omega
    | succ k =>
      rw [List.take_succ_cons, escapeText_cons] at hk
      exact ⟨k, List.append_cancel_left hk⟩
  · rintro ⟨k, hk⟩
    exact ⟨k + 1, by rw [List.take_succ_cons, escapeText_cons, hk]⟩

theorem not_endsWhole_cons (hpos : 0 < n) (h : n < (escapeByte c).length) : ¬ EndsWhole n (c :: src) := by
  rintro ⟨k, hk⟩
  have hlen := congrArg List.length hk
  rw [List.length_take, escapeText_cons, List.length_append] at hlen
  cases k with
  | zero =>
    have hnil : (escapeText ((c :: src).take 0)).length = 0 := rfl
    omega
  | succ k =>
    rw [List.take_succ_cons, escapeText_cons, List.length_append] at hlen
    omega

/-- Inside the form of a byte the recogniser is inside an escape. -/
theorem run_inside (hpos : 0 < n) (h : n < (escapeByte c).length) (stack : List JsonText.Frame) :
    ∃ m, m ≠ .str false ∧ run ⟨.str false, stack⟩ ((escapeByte c).take n) = some ⟨m, stack⟩ := by
  rcases escapeByte_cases c with ⟨-, heq⟩ | ⟨hcontrol, heq⟩ | ⟨-, heq⟩
  · rw [heq] at h ⊢
    obtain rfl : n = 1 := by
      rw [List.length_cons, List.length_singleton] at h
      omega
    exact ⟨.esc false, by decide, rfl⟩
  · obtain ⟨hhigh, -, -⟩ := hxDigit_control hcontrol
    rw [heq] at h ⊢
    have hlast := JsonText.step_hex_succ hhigh 0 false stack
    have hn : n = 1 ∨ n = 2 ∨ n = 3 ∨ n = 4 ∨ n = 5 := by
      simp only [List.length_cons, List.length_nil] at h
      omega
    rcases hn with rfl | rfl | rfl | rfl | rfl
    · exact ⟨.esc false, by decide, rfl⟩
    · exact ⟨.hex false 3, by decide, rfl⟩
    · exact ⟨.hex false 2, by decide, rfl⟩
    · exact ⟨.hex false 1, by decide, rfl⟩
    · exact ⟨.hex false 0, by decide, (JsonText.run_cons hlast []).trans rfl⟩
  · rw [heq, List.length_singleton] at h
    omega

/-- A cut of an escaped text is read inside the string, up to its end or into an escape. -/
theorem run_cut (n : Nat) (src : CStr) (stack : List JsonText.Frame) :
    ∃ m, run ⟨.str false, stack⟩ ((escapeText src).take n) = some ⟨m, stack⟩ ∧
      (m = .str false ↔ EndsWhole n src) := by
  induction src generalizing n with
  | nil =>
    exact ⟨.str false, congrArg (run ⟨.str false, stack⟩) List.take_nil, iff_of_true rfl (endsWhole_nil n)⟩
  | cons c src ih =>
    rcases Nat.lt_or_ge n (escapeByte c).length with hlt | hle
    · rcases Nat.eq_zero_or_pos n with rfl | hpos
      · exact ⟨.str false, rfl, iff_of_true rfl ⟨0, rfl⟩⟩
      · obtain ⟨m, hm, hrun⟩ := run_inside hpos hlt stack
        refine ⟨m, ?_, iff_of_false hm (not_endsWhole_cons hpos hlt)⟩
        rwa [escapeText_cons, List.take_append_of_le_length hlt.le]
    · obtain ⟨m, hrun, hm⟩ := ih (n - (escapeByte c).length)
      refine ⟨m, ?_, hm.trans (endsWhole_cons hle).symm⟩
      rw [escapeText_cons, List.take_append, List.take_of_length_le hle, JsonText.run_append,
        JsonText.run_body (body_escapeByte c), Option.bind_some, hrun]

/-- A buffer that has room behind the cut changes nothing. -/
theorem take_jsonEscaped (h : n + 7 ≤ N) (src : CStr) :
    (jsonEscaped N src).take n = (escapeText src).take n := by
  have hsplit : escapeText src = jsonEscaped N src ++ escapeText (src.drop (escapedCount N 0 src)) := by
    rw [jsonEscaped, escapedFrom, ← escapeText_append, List.take_append_drop]
  rcases escapedCount_spec N 0 src with hall | hfull
  · rw [jsonEscaped, escapedFrom, hall, List.take_length]
  · have hlen : n ≤ (jsonEscaped N src).length := by
      rw [jsonEscaped]
      omega
    rw [hsplit, List.take_append_of_le_length hlen]

/-! ## Members -/

/-- A text that starts at an open string value. -/
theorem run_opened (ht : run start t = some ⟨.str false, [.object]⟩) (s : List UInt8) :
    run start (t ++ s) = run ⟨.str false, [.object]⟩ s := by
  rw [JsonText.run_append, ht, Option.bind_some]

/-- A text that ends a string value and opens the one of another member, or another value. Where that
value and the rest end the object when nothing else is open, so do they here. -/
theorem run_member (key value : CStr) (ht : t = quote :: 44 :: quote :: (key ++ quote :: 58 :: value))
    (hkey : (key.all JsonText.isPlain && key.head?.any JsonText.isLower) = true) {Q : Prop}
    (hvalue : ∀ rest, run ⟨.value, .object :: rest⟩ (value ++ s) = some done ↔ rest = [] ∧ Q) :
    run ⟨m, stack⟩ (t ++ s) = some done ↔ m = .str false ∧ stack = [.object] ∧ Q := by
  rw [Bool.and_eq_true] at hkey
  cases key with
  | nil => cases hkey.2
  | cons c k =>
    have hfield := JsonText.run_field hkey.2 (JsonText.body_of_plain hkey.1) m stack (value ++ s) done
    have htext : t ++ s = quote :: 44 :: quote :: ((c :: k) ++ quote :: 58 :: (value ++ s)) := by
      rw [ht]
      simp
    rw [htext, hfield]
    constructor
    · rintro ⟨rest, hm, rfl, hrun⟩
      obtain ⟨rfl, hq⟩ := (hvalue rest).1 hrun
      exact ⟨hm, rfl, hq⟩
    · rintro ⟨hm, rfl, hq⟩
      exact ⟨[], hm, rfl, (hvalue []).2 ⟨rfl, hq⟩⟩

theorem lit_close : lit "\"\x7d" = [quote, 125] := by decide

/-- A text of someone else in the string value of a last member. -/
theorem run_last (ht : run start t = some ⟨.str false, [.object]⟩) (s : CStr) :
    run start (t ++ (s ++ lit "\"\x7d")) = some done ↔ LeavesOpen s := by
  rw [run_opened ht, JsonText.run_append, LeavesOpen, lit_close]
  cases run ⟨.str false, [.object]⟩ s with
  | none => exact iff_of_false (fun h => by cases h) fun h => by cases h
  | some st =>
    obtain ⟨m, stack⟩ := st
    rw [Option.bind_some, JsonText.run_close, Option.some.injEq, JsonText.State.mk.injEq]

theorem body_of_isEventId (h : IsEventId id) : Body id := by
  obtain ⟨tail, rfl, htail, -⟩ := h
  refine (JsonText.body_of_plain (by decide)).append (JsonText.body_of_plain ?_)
  rw [List.all_eq_true]
  intro b hb
  rcases htail b hb with hdigit | rfl
  · have hrange : 48 ≤ b ∧ b ≤ 57 := by simpa [isDigit] using hdigit
    rw [JsonText.isPlain_iff]
    refine ⟨UInt8.le_trans (by decide) hrange.1, ?_, ?_⟩
    all_goals
      rintro rfl
      cases hdigit
  · rfl

/-! ## `process_msg` -/

theorem isObject_findCalls (t : SessionTable) (key : CBuf 128) :
    ∀ call ∈ findCalls t key, IsObject call.detail := by
  unfold findCalls
  split
  · split
    · exact List.forall_mem_singleton.2 (by decide)
    · exact List.forall_mem_singleton.2 (by decide)
  · exact fun call h => by cases h

theorem vfsBlockedCalls_iff (msg : EventMsg) (d : Daemon) :
    (∀ call ∈ vfsBlockedCalls msg d, IsObject call.detail) ↔ LeavesOpen (msg.shareName.str.take 60) := by
  have hopen : run start (lit "\x7b\"reason\":\"blocked_ip\",\"share\":\"") =
      some ⟨.str false, [.object]⟩ := by decide
  have hshort : (lit "\x7b\"reason\":\"blocked_ip\",\"share\":\"" ++
      (msg.shareName.str.take 60 ++ lit "\"\x7d")).length < 512 := by
    have hhead : (lit "\x7b\"reason\":\"blocked_ip\",\"share\":\"").length = 32 := by decide
    have hclose : (lit "\"\x7d").length = 2 := rfl
    rw [List.length_append, List.length_append, List.length_take]
    omega
  unfold vfsBlockedCalls
  rw [List.forall_mem_cons, and_iff_left (isObject_findCalls _ _), snprintf_of_lt hshort,
    JsonText.isObject_iff, run_last hopen]

/-- The flags are printed as no number of JSON. -/
theorem not_isObject_msgRecv (msg : EventMsg) : ¬ IsObject (msgRecvCall msg).detail := by
  have hhead : (lit "\x7b\"op\":").length = 6 := by decide
  have hflags : (lit ",\"flags\":0x").length = 11 := by decide
  have hop : (dec msg.opType.toNat).length ≤ 3 :=
    (length_dec_le (by decide)).2 (msg.opType.toNat_lt.trans (by decide))
  have hopen : run start (lit "\x7b\"op\":") = some ⟨.value, [.object]⟩ := by decide
  have hx : ∀ s, lit ",\"flags\":0x" ++ s = 44 :: (34 :: 102 :: 108 :: 97 :: 103 :: 115 :: 34 :: 58 ::
      48 :: 120 :: s) := fun s => by
    rw [show lit ",\"flags\":0x" = [44, 34, 102, 108, 97, 103, 115, 34, 58, 48, 120] by decide]
    rfl
  rw [JsonText.isObject_iff, msgRecvCall, snprintf, List.take_append, List.take_of_length_le (by omega),
    List.take_append, List.take_of_length_le (by omega), List.take_append,
    List.take_of_length_le (by omega), JsonText.run_append, hopen, Option.bind_some, hx,
    ← decInt_natCast, run_decInt _ (.inl rfl)]
  intro h
  cases h

theorem processMsgCalls_iff (log : LogEnv) (env : CallEnv) (msg : EventMsg) (d : Daemon) :
    (∀ call ∈ processMsgCalls log env msg d, IsObject call.detail) ↔
      msg.msgType = msgVfsBlocked ∧ LeavesOpen (msg.shareName.str.take 60) := by
  unfold processMsgCalls
  split
  · next hvfs => rw [vfsBlockedCalls_iff, and_iff_right hvfs]
  · next hvfs =>
    exact iff_of_false (fun h => not_isObject_msgRecv msg (h _ List.mem_cons_self)) fun h => hvfs h.1

/-! ## `ftp_parse_cmdline` -/

/-- The title at the end of its detail. -/
theorem run_title (src : CStr) : run ⟨.str false, [.object]⟩ ((jsonEscaped 256 src).take 120 ++ lit "\"\x7d") =
    some done ↔ EndsWhole 120 src := by
  obtain ⟨m, hrun, hm⟩ := run_cut 120 src [.object]
  rw [take_jsonEscaped (by decide), JsonText.run_append, hrun, Option.bind_some, lit_close,
    JsonText.run_close, hm, and_iff_left rfl]

theorem ftpParseCmdlineCalls_iff (pid : Int32) (cmdline : Option (List UInt8)) :
    (∀ call ∈ ftpParseCmdlineCalls pid cmdline, IsObject call.detail) ↔
      ∀ bytes, cmdline = some bytes → EndsWhole 120 (titleText bytes) := by
  cases cmdline with
  | none => exact iff_of_true (fun call h => by cases h) fun bytes h => by cases h
  | some bytes =>
    unfold ftpParseCmdlineCalls
    dsimp only
    split
    · next hnil =>
      refine iff_of_true (fun call h => by cases h) fun bytes' h => ?_
      cases h
      have htitle : titleText bytes = [] := by
        rw [titleText, hnil]
        rfl
      exact htitle ▸ endsWhole_nil 120
    · have hpid := length_decInt_le pid
      have hread : (decInt (bytes.take 511).length).length ≤ 3 := by
        rw [decInt_natCast, length_dec_le (by decide), List.length_take]
        omega
      have hcut : ((jsonEscaped 256 (titleText bytes)).take 120).length ≤ 120 := List.length_take_le _ _
      have hhead : (lit "\x7b\"pid\":").length = 7 := by decide
      have hmid : (lit ",\"cmdline_len\":").length = 15 := by decide
      have hlast : (lit ",\"head\":\"").length = 9 := by decide
      have hclose : (lit "\"\x7d").length = 2 := rfl
      have hopen : run start (lit "\x7b\"pid\":") = some ⟨.value, [.object]⟩ := by decide
      rw [List.forall_mem_singleton, snprintf_of_lt (by simp only [List.length_append]; omega),
        JsonText.isObject_iff, JsonText.run_append, hopen, Option.bind_some,
        run_int ⟨.value, [.object]⟩ (by decide) (by decide),
        run_int ⟨.str false, [.object]⟩ (by decide) (by decide), run_title]
      refine ⟨fun h bytes' hbytes => ?_, fun h => h bytes rfl⟩
      cases hbytes
      exact h

/-! ## `cloud_block_task` -/

theorem isObject_killTree (tree : KillTree) : ∀ call ∈ killTreeCalls tree, IsObject call.detail := by
  unfold killTreeCalls
  split
  · exact fun call h => by cases h
  · obtain ⟨⟨overflow, w⟩, hwalk, hmax⟩ := collectChildren_start tree.reads tree.root.toInt
    rw [hwalk]
    cases overflow with
    | false => exact fun call h => by cases h
    | true =>
      have hroot := length_decInt_le tree.root
      have hcollected : (decInt w.pids.length).length ≤ 3 := by
        rw [decInt_natCast, length_dec_le (by decide)]
        exact hmax.trans_lt (by decide)
      have hhead : (lit "\x7b\"root\":").length = 8 := by decide
      have hmid : (lit ",\"collected\":").length = 13 := by decide
      have hlast : (lit ",\"cap\":256\x7d").length = 11 := by decide
      have hopen : run start (lit "\x7b\"root\":") = some ⟨.value, [.object]⟩ := by decide
      have hend : ∀ k, run ⟨.value, [.object]⟩ (decInt k ++ lit ",\"cap\":256\x7d") = some done := fun k => by
        have hlast : run ⟨.next, [.object]⟩ (lit ",\"cap\":256\x7d") = some done := by decide
        have hrun := run_int done (by decide) hlast k []
        rwa [List.append_nil] at hrun
      rw [List.forall_mem_singleton, snprintf_of_lt (by simp only [List.length_append]; omega),
        JsonText.isObject_iff, JsonText.run_append, hopen, Option.bind_some,
        run_int ⟨.value, [.object]⟩ (by decide) (by decide), hend]

/-- The end of the detail: whether the config is saved. -/
theorem run_saved (db : Bool) :
    run ⟨m, stack⟩ (lit "\",\"saved_to_db\":" ++ (boolText db ++ lit "\x7d")) = some done ↔
      m = .str false ∧ stack = [.object] := by
  have hvalue : ∀ rest, run ⟨.value, .object :: rest⟩ (boolText db ++ lit "\x7d") = some done ↔
      rest = [] ∧ True := by
    intro rest
    have hrun : run ⟨.value, .object :: rest⟩ (boolText db ++ lit "\x7d") = some ⟨.next, rest⟩ := by
      cases db <;> rfl
    rw [hrun, Option.some.injEq, done, JsonText.State.mk.injEq]
    exact and_comm.trans (and_congr_right fun _ => iff_of_true rfl trivial)
  exact (run_member (lit "saved_to_db") [] (by decide) (by decide) hvalue).trans
    (and_congr_right fun _ => and_iff_left trivial)

/-- From the end of the command on. -/
theorem run_queried (queried db : Bool) (hid : Body id) :
    run ⟨m, stack⟩ (lit "\",\"queried\":" ++ (boolText queried ++ (lit ",\"event_id\":\"" ++ (id ++
      (lit "\",\"saved_to_db\":" ++ (boolText db ++ lit "\x7d")))))) = some done ↔
      m = .str false ∧ stack = [.object] := by
  have hopen : ∀ rest s, run ⟨.value, .object :: rest⟩ (boolText queried ++ (lit ",\"event_id\":\"" ++ s)) =
      run ⟨.str false, .object :: rest⟩ s := by
    intro rest s
    cases queried <;> rfl
  have hvalue : ∀ rest, run ⟨.value, .object :: rest⟩ (boolText queried ++ (lit ",\"event_id\":\"" ++ (id ++
      (lit "\",\"saved_to_db\":" ++ (boolText db ++ lit "\x7d"))))) = some done ↔ rest = [] ∧ True := by
    intro rest
    rw [hopen, JsonText.run_append, JsonText.run_body hid, Option.bind_some, run_saved]
    simp
  exact (run_member (lit "queried") [] (by decide) (by decide) hvalue).trans
    (and_congr_right fun _ => and_iff_left trivial)

/-- From the end of the expression on. -/
theorem run_command (command : CStr) (queried db : Bool) (hid : Body id) :
    run ⟨m, stack⟩ (lit "\",\"command\":\"" ++ ((jsonEscaped 600 command).take 256 ++
      (lit "\",\"queried\":" ++ (boolText queried ++ (lit ",\"event_id\":\"" ++ (id ++
        (lit "\",\"saved_to_db\":" ++ (boolText db ++ lit "\x7d")))))))) = some done ↔
      m = .str false ∧ stack = [.object] ∧ EndsWhole 256 command := by
  refine run_member (lit "command") [quote] (by decide) (by decide) fun rest => ?_
  have hopen : ∀ s, run ⟨.value, .object :: rest⟩ ([quote] ++ s) = run ⟨.str false, .object :: rest⟩ s :=
    fun _ => rfl
  obtain ⟨m', hrun, hm'⟩ := run_cut 256 command (.object :: rest)
  rw [hopen, take_jsonEscaped (by decide), JsonText.run_append, hrun, Option.bind_some,
    run_queried queried db hid, hm', and_comm, List.cons_eq_cons, and_iff_right rfl]

/-- From the end of the task on. -/
theorem run_expression (expression command : CStr) (queried db : Bool) (hid : Body id) :
    run ⟨m, stack⟩ (lit "\",\"expression\":\"" ++ (jsonEscaped 512 expression ++
      (lit "\",\"command\":\"" ++ ((jsonEscaped 600 command).take 256 ++ (lit "\",\"queried\":" ++
        (boolText queried ++ (lit ",\"event_id\":\"" ++ (id ++ (lit "\",\"saved_to_db\":" ++
          (boolText db ++ lit "\x7d")))))))))) = some done ↔
      m = .str false ∧ stack = [.object] ∧ EndsWhole 256 command := by
  refine run_member (lit "expression") [quote] (by decide) (by decide) fun rest => ?_
  have hopen : ∀ s, run ⟨.value, .object :: rest⟩ ([quote] ++ s) = run ⟨.str false, .object :: rest⟩ s :=
    fun _ => rfl
  rw [hopen, JsonText.run_append, jsonEscaped, escapedFrom, JsonText.run_body (body_escapeText _),
    Option.bind_some, run_command command queried db hid, and_iff_right rfl, List.cons_eq_cons,
    and_iff_right rfl]

/-- What is shown of the command. -/
def shownCommand (task : CStr) (stdout : Option CStr) : CStr :=
  orUnavailable (neoCronerQuery task stdout).2.2.str

theorem cloudBlockTaskCalls_iff (task : CBuf 64) (stdout : Option CStr) {eventId : Option CStr}
    (hid : ∀ id, eventId = some id → IsEventId id) (db deleteOk : Bool) (tree : KillTree) :
    (∀ call ∈ cloudBlockTaskCalls task.str stdout eventId db deleteOk tree, IsObject call.detail) ↔
      LeavesOpen task.str ∧ EndsWhole 256 (shownCommand task.str stdout) := by
  have hbody : Body (eventId.getD []) := by
    cases eventId with
    | none => exact .nil
    | some id => exact body_of_isEventId (hid id rfl)
  have hidLen : (eventId.getD []).length < 32 := by
    cases eventId with
    | none => decide
    | some id =>
      obtain ⟨tail, -, -, hlen⟩ := hid id rfl
      exact hlen
  have hdeleted : IsObject (if validTaskName task.str && deleteOk then
      (⟨lit "CLOUD_TASK_DELETED", lit "\x7b\x7d"⟩ : LogCall)
    else ⟨lit "CLOUD_TASK_DELETE_FAILED",
      lit "\x7b\"reason\":\"neo-croner unavailable or delete failed\"\x7d"⟩).detail := by
    split <;> decide
  have hopen : run start (lit "\x7b\"task\":\"") = some ⟨.str false, [.object]⟩ := by decide
  unfold cloudBlockTaskCalls shownCommand
  rcases neoCronerQuery task.str stdout with ⟨queried, expression, command⟩
  dsimp only
  rw [List.forall_mem_cons, List.forall_mem_cons, and_iff_left ⟨hdeleted, isObject_killTree tree⟩,
    snprintf_of_lt, JsonText.isObject_iff, run_opened hopen, JsonText.run_append]
  · cases htask : run ⟨.str false, [.object]⟩ task.str with
    | none =>
      refine iff_of_false (fun h => by cases h) fun h => ?_
      cases htask.symm.trans h.1
    | some st =>
      obtain ⟨m, stack⟩ := st
      rw [Option.bind_some, run_expression _ _ _ _ hbody, LeavesOpen, htask, Option.some.injEq,
        JsonText.State.mk.injEq, and_assoc]
  · have htask := task.fits
    have hexpr : 0 + (jsonEscaped 512 (orUnavailable expression.str)).length < 512 :=
      length_escapedFrom_lt (by decide) _
    have hcommand : ((jsonEscaped 600 (orUnavailable command.str)).take 256).length ≤ 256 :=
      List.length_take_le _ _
    have hbool : ∀ b, (boolText b).length ≤ 5 := by decide
    have hqueried := hbool queried
    have hsaved := hbool db
    have h1 : (lit "\x7b\"task\":\"").length = 9 := by decide
    have h2 : (lit "\",\"expression\":\"").length = 16 := by decide
    have h3 : (lit "\",\"command\":\"").length = 13 := by decide
    have h4 : (lit "\",\"queried\":").length = 12 := by decide
    have h5 : (lit ",\"event_id\":\"").length = 13 := by decide
    have h6 : (lit "\",\"saved_to_db\":").length = 16 := by decide
    have h7 : (lit "\x7d").length = 1 := rfl
    simp only [List.length_append]
    omega

end

/-- All details that a message, a title or a block brings into the log are objects, exactly when: the
message is a notification of the VFS module and what is shown of its share name leaves the value open
that it is put into; the title is not cut inside an escape; the task leaves its value open and the
command is not cut inside an escape. -/
theorem log_details_iff (log : LogEnv) (env : CallEnv) (msg : EventMsg) (d : Daemon) (pid : Int32)
    (cmdline : Option (List UInt8)) (task : CBuf 64) (stdout eventId : Option CStr) (db deleteOk : Bool)
    (tree : KillTree) :
    ((∀ call ∈ processMsgCalls log env msg d, JsonText.IsObject call.detail) ↔
      msg.msgType = msgVfsBlocked ∧ JsonText.LeavesOpen (msg.shareName.str.take 60)) ∧
    ((∀ call ∈ ftpParseCmdlineCalls pid cmdline, JsonText.IsObject call.detail) ↔
      ∀ bytes, cmdline = some bytes → EndsWhole 120 (titleText bytes)) ∧
    ((∀ id, eventId = some id → IsEventId id) →
      ((∀ call ∈ cloudBlockTaskCalls task.str stdout eventId db deleteOk tree,
          JsonText.IsObject call.detail) ↔
        JsonText.LeavesOpen task.str ∧ EndsWhole 256 (shownCommand task.str stdout))) :=
  ⟨processMsgCalls_iff log env msg d, ftpParseCmdlineCalls_iff pid cmdline, fun hid =>
    cloudBlockTaskCalls_iff task stdout hid db deleteOk tree⟩

/-- The block of a task with a short command. -/
theorem log_details_photos :
    ∀ call ∈ cloudBlockTaskCalls (CBuf.ofStr 64 (lit "photos")).str (some sampleReport.text)
      (some (lit "evt-20260101-001")) true true ⟨4, false, fun _ _ => none⟩,
      JsonText.IsObject call.detail :=
  ((log_details_iff ⟨fun _ => [], [], fun _ => [], true, true, true, true, 3⟩ (sampleEnv 1)
    (sampleWrite "report.txt") (.init .default) 1 none _ _ _ _ _ _).2.2 (fun id hid => by
    cases hid
    exact ⟨lit "20260101-001", rfl, by decide +kernel, by decide⟩)).2
    ⟨by decide, 20, by decide⟩

/-- The message of a write, a title of 119 letters and a quote, and a task with a quote in its name. -/
theorem log_details_broken :
    (¬ ∀ (log : LogEnv) (env : CallEnv) (msg : EventMsg) (d : Daemon),
      ∀ call ∈ processMsgCalls log env msg d, JsonText.IsObject call.detail) ∧
    (¬ ∀ (pid : Int32) (cmdline : Option (List UInt8)),
      ∀ call ∈ ftpParseCmdlineCalls pid cmdline, JsonText.IsObject call.detail) ∧
    ¬ ∀ (task : CBuf 64) (stdout eventId : Option CStr) (db deleteOk : Bool) (tree : KillTree),
      (∀ id, eventId = some id → IsEventId id) →
      ∀ call ∈ cloudBlockTaskCalls task.str stdout eventId db deleteOk tree,
        JsonText.IsObject call.detail := by
  refine ⟨fun h => ?_, fun h => ?_, fun h => ?_⟩
  · have hvfs := ((processMsgCalls_iff ⟨fun _ => [], [], fun _ => [], true, true, true, true, 3⟩
      (sampleEnv 1) (sampleWrite "report.txt") (.init .default)).1 (h _ _ _ _)).1
    revert hvfs
    decide
  · have htitle := h 1 (some (List.replicate 119 120 ++ [JsonText.quote]))
    revert htitle
    decide +kernel
  · have htask := h (.ofStr 64 (lit "a\"b")) none none true true ⟨4, false, fun _ _ => none⟩
      (fun id hid => by cases hid)
    revert htask
    decide

end GfrGuard
