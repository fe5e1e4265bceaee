import GfrGuard.HostIdentity
import GfrGuard.TableRuns
import GfrGuard.NameOps

/-!
# Sessions and principals

All channels put what they know of a client into two text fields, and the session is the two joined
by an `@`, with no mark of the channel. `Collide` lists the ways in which the messages of two
principals come to one session: fields cut to the same text, a user name that goes on where an
address or a task begins, and names that make one process read as another. Two messages of one
session are of one principal exactly otherwise (`sessions_separate_iff`).
-/

namespace GfrGuard

/-- Where a message comes from: an SMB or FTP user at an address, a cloud task, or a process read
under a name with a start time. -/
inductive Origin where
  | client (user ip : CStr)
  | task (name : CStr)
  | process (p : ProcInstance) (name : CBuf 64) (start : Nat)

/-- Who it comes from. -/
inductive Principal where
  | client (user ip : CStr)
  | task (name : CStr)
  | process (p : ProcInstance)
deriving DecidableEq

def Origin.principal : Origin → Principal
  | client user ip => .client user ip
  | task name => .task name
  | process p _ _ => .process p

/-- The channel's message carries the identity it resolved. -/
def ChannelCtx.Carries (ctx : ChannelCtx) (msg : EventMsg) : Prop :=
  msg.username = ctx.username ∧ msg.clientIp = ctx.clientIp

/-- The messages of an origin: what the VFS module sends for a connection, and what carries the
identity a channel resolved. The fixed sessions of unresolved processes have no origin. -/
inductive Origin.Sends : Origin → EventMsg → Prop
  | smb (conn : Conn) {msg : EventMsg} (hmsg : msg.username = .ofStr 64 conn.user)
      (hip : msg.clientIp = .ofStr 48 conn.ip) : Sends (.client conn.user conn.ip) msg
  | ftp {proc : ProcInfo} {ev : FanotifyEvent} {ctx : ChannelCtx} {user : CBuf 64} {ip : CBuf 48}
      {msg : EventMsg} (hpid : ev.pidKnown = true) (hsession : proc.ftpSession = some (user, ip))
      (hctx : ftpResolve proc ev = some ctx) (hmsg : ctx.Carries msg) :
      Sends (.client user.str ip.str) msg
  | cloud {proc : ProcInfo} {ev : FanotifyEvent} {ctx : ChannelCtx} {name : CStr} {msg : EventMsg}
      (htask : cloudResolveTask proc.cmdline = some name) (hctx : cloudResolve proc ev = some ctx)
      (hmsg : ctx.Carries msg) : Sends (.task name) msg
  | host {p : ProcInstance} {s : Sighting} {ctx : ChannelCtx} {name : CBuf 64} {start : Nat}
      {msg : EventMsg} (hread : s.reads p = some (name, start))
      (hctx : localResolve (s.proc p) (s.event p) = some ctx) (hmsg : ctx.Carries msg) :
      Sends (.process p name start) msg

/-! ## Collisions -/

/-- What is left of a user name and of an address or task on the wire. -/
def wireUser (user : CStr) : CStr := user.take 63
def wireIp (ip : CStr) : CStr := ip.take 47

/-- The first identity ends where the second goes on with its user name. -/
def Shifted (u i u' i' : CStr) : Prop := ∃ w, u' = u ++ atSign :: w ∧ i = w ++ atSign :: i'

/-- A client comes to the session of a cloud task. -/
def ClientTask (user ip name : CStr) : Prop :=
  (wireUser user = lit "cloud" ∧ wireIp ip = wireIp name) ∨
    Shifted (lit "cloud") (wireIp name) (wireUser user) (wireIp ip)

/-- A client comes to the session of a process. -/
def ClientProcess (user ip : CStr) (p : ProcInstance) (name : CBuf 64) (start : Nat) : Prop :=
  (wireUser user = name.str ∧ wireIp ip = localIp p.pid start) ∨
    Shifted (wireUser user) (wireIp ip) name.str (localIp p.pid start)

/-- Two principals come to one session. -/
def Collide : Origin → Origin → Prop
  | .client u i, .client u' i' => (u ≠ u' ∨ i ≠ i') ∧
      ((wireUser u = wireUser u' ∧ wireIp i = wireIp i') ∨
        Shifted (wireUser u) (wireIp i) (wireUser u') (wireIp i') ∨
        Shifted (wireUser u') (wireIp i') (wireUser u) (wireIp i))
  | .client u i, .task name | .task name, .client u i => ClientTask u i name
  | .client u i, .process p name start | .process p name start, .client u i =>
      ClientProcess u i p name start
  | .task name, .task name' => name ≠ name' ∧ wireIp name = wireIp name'
  | .process p name start, .process q name' start' =>
      p ≠ q ∧ p.pid = q.pid ∧ name = name' ∧ start = start'
  | .task _, .process _ _ _ | .process _ _ _, .task _ => False

/-! ## The fields on the wire -/

/-- The user name and the address of the messages of an origin. -/
def Origin.wire : Origin → CStr × CStr
  | client user ip => (wireUser user, wireIp ip)
  | task name => (lit "cloud", wireIp name)
  | process p name start => (name.str, localIp p.pid start)

/-- The key of its session. -/
def Origin.text (o : Origin) : CStr := o.wire.1 ++ atSign :: o.wire.2

section
variable {a b : Origin} {msg msg' : EventMsg} {proc : ProcInfo} {name : CStr} {t t' : SessionTable}
  {i : Fin sessionBuckets} {now : Int}

/-- The name of a task holds no colon. -/
theorem colon_not_mem_task (h : cloudResolveTask proc.cmdline = some name) : colon ∉ name := by
  unfold cloudResolveTask at h
  split at h
  · cases h
  · dsimp only at h
    split_ifs at h
    obtain ⟨token, -, htoken⟩ := List.exists_of_findSome?_eq_some h
    unfold cloudTaskOf at htoken
    dsimp only at htoken
    split_ifs at htoken
    cases htoken
    intro hmem
    simpa using List.mem_takeWhile_imp (List.mem_of_mem_take hmem)

/-- The fields of a message are those of its origin. -/
theorem Origin.Sends.wire (h : a.Sends msg) :
    msg.username.str = a.wire.1 ∧ msg.clientIp.str = a.wire.2 := by
  cases h with
  | smb conn hmsg hip => rw [hmsg, hip]; exact ⟨rfl, rfl⟩
  | @ftp proc ev ctx user ip msg hpid hsession hctx hmsg =>
    rw [ftpResolve, hpid, hsession] at hctx
    cases hctx
    rw [hmsg.1, hmsg.2]
    exact ⟨(user.snprintf_str le_rfl).symm, (ip.snprintf_str le_rfl).symm⟩
  | @cloud proc ev ctx name msg htask hctx hmsg =>
    rw [cloudResolve, htask] at hctx
    dsimp only at hctx
    split_ifs at hctx
    cases hctx
    rw [hmsg.1, hmsg.2]
    exact ⟨CBuf.str_ofStr_of_lt (n := 64) (s := lit "cloud") (by decide), rfl⟩
  | @host p s ctx name start msg hread hctx hmsg =>
    rw [localResolve_of_reads hread] at hctx
    cases hctx
    rw [hmsg.1, hmsg.2]
    exact ⟨rfl, CBuf.str_ofStr_of_lt (length_localIp p (Sighting.reads_start_lt hread))⟩

theorem Origin.Sends.sessionKey_str (h : a.Sends msg) : msg.sessionKey.str = a.text := by
  rw [msg.sessionKey_str, h.wire.1, h.wire.2, Origin.text]

theorem Origin.Sends.sessionKey_eq_iff (ha : a.Sends msg) (hb : b.Sends msg') :
    msg.sessionKey = msg'.sessionKey ↔ a.text = b.text := by
  rw [← ha.sessionKey_str, ← hb.sessionKey_str]
  exact ⟨congrArg _, CBuf.ext⟩

/-! ## Families -/

theorem client_text_eq_iff (u i u' i' : CStr) :
    (Origin.client u i).text = (Origin.client u' i').text ↔
      (wireUser u = wireUser u' ∧ wireIp i = wireIp i') ∨
        Shifted (wireUser u) (wireIp i) (wireUser u') (wireIp i') ∨
        Shifted (wireUser u') (wireIp i') (wireUser u) (wireIp i) :=
  ListSearch.join_eq_join_iff

theorem clientTask_iff (u i name : CStr) :
    (Origin.client u i).text = (Origin.task name).text ↔ ClientTask u i name := by
  have hcloud : ¬ ∃ w, lit "cloud" = wireUser u ++ atSign :: w ∧ wireIp i = w ++ atSign :: wireIp name := by
    rintro ⟨w, hw, -⟩
    have hmem : atSign ∈ lit "cloud" := by simp [hw]
    exact absurd hmem (by decide)
  refine ListSearch.join_eq_join_iff.trans ?_
  dsimp only [Origin.wire]
  rw [or_iff_right hcloud]
  rfl

theorem clientProcess_iff (u i : CStr) (p : ProcInstance) (name : CBuf 64) (start : Nat) :
    (Origin.client u i).text = (Origin.process p name start).text ↔ ClientProcess u i p name start := by
  have hlocal : ¬ ∃ w, wireUser u = name.str ++ atSign :: w ∧
      localIp p.pid start = w ++ atSign :: wireIp i := by
    rintro ⟨w, -, hw⟩
    exact atSign_not_mem_localIp p.pid start (by simp [hw])
  refine ListSearch.join_eq_join_iff.trans ?_
  dsimp only [Origin.wire]
  rw [or_iff_left hlocal]
  rfl

/-- The key of a process has a colon, that of a task has none. -/
theorem task_text_ne_process {name : CStr} (h : colon ∉ name) (p : ProcInstance) (n : CBuf 64)
    (start : Nat) : (Origin.task name).text ≠ (Origin.process p n start).text := by
  intro heq
  have hcolon : colon ∈ (Origin.process p n start).text := by simp [Origin.text, Origin.wire, localIp]
  rw [← heq, Origin.text, Origin.wire, List.mem_append, List.mem_cons] at hcolon
  rcases hcolon with hc | hc | hc
  · exact absurd (show colon ∈ lit "cloud" from hc) (by decide)
  · cases hc
  · exact h (List.mem_of_mem_take hc)

theorem task_text_eq_iff (name name' : CStr) :
    (Origin.task name).text = (Origin.task name').text ↔ wireIp name = wireIp name' := by
  simp [Origin.text, Origin.wire]

theorem process_text_eq_iff (p q : ProcInstance) (name name' : CBuf 64) (start start' : Nat) :
    (Origin.process p name start).text = (Origin.process q name' start').text ↔
      p.pid = q.pid ∧ name = name' ∧ start = start' := by
  refine (ListSearch.join_eq_join_iff_of_not_mem (atSign_not_mem_localIp _ _)
    (atSign_not_mem_localIp _ _)).trans ?_
  constructor
  · rintro ⟨hname, hip⟩
    obtain ⟨hpid, hstart⟩ := localIp_inj hip
    exact ⟨hpid, CBuf.ext hname, hstart⟩
  · rintro ⟨hpid, rfl, rfl⟩
    exact ⟨rfl, congrArg (localIp · start) hpid⟩

theorem Origin.Sends.colon_not_mem {name : CStr} (h : (Origin.task name).Sends msg) : colon ∉ name := by
  cases h with
  | cloud htask hctx hmsg => exact colon_not_mem_task htask

/-- Origins collide exactly when their keys are one and their principals are not. -/
theorem collide_iff (ha : a.Sends msg) (hb : b.Sends msg') :
    Collide a b ↔ a.principal ≠ b.principal ∧ a.text = b.text := by
  cases a with
  | client u i =>
    cases b with
    | client u' i' =>
      simp only [Collide, client_text_eq_iff, Origin.principal, ne_eq, Principal.client.injEq,
        not_and_or]
    | task name => simp [Collide, ← clientTask_iff, Origin.principal]
    | process q name start => simp [Collide, ← clientProcess_iff, Origin.principal]
  | task name =>
    cases b with
    | client u i => simp [Collide, ← clientTask_iff, Origin.principal, eq_comm]
    | task name' => simp [Collide, task_text_eq_iff, Origin.principal]
    | process q n start => simp [Collide, task_text_ne_process ha.colon_not_mem]
  | process p name start =>
    cases b with
    | client u i => simp [Collide, ← clientProcess_iff, Origin.principal, eq_comm]
    | task name' => simp [Collide, (task_text_ne_process hb.colon_not_mem p name start).symm]
    | process q name' start' => simp [Collide, process_text_eq_iff, Origin.principal]

/-! ## Sessions -/

/-- A lookup finds the session in a slot exactly for its key. -/
theorem SessionTable.WellPlaced.search_eq_hit_iff {key key' : CBuf 128} (hw : t.WellPlaced)
    (hslot : t.keyAt i = some key) : t.search key' = .hit i ↔ key = key' := by
  constructor
  · intro hhit
    have := SessionTable.keyAt_of_hit hhit
    rw [hslot] at this
    exact Option.some.inj this
  · rintro rfl
    exact OpenAddressing.Placed.search_eq_hit hw hslot

/-- A message that comes to the session of another is of the same principal, exactly unless their
origins collide. -/
theorem sessions_separate_iff (hw : t.WellPlaced) (ha : a.Sends msg) (hb : b.Sends msg')
    (hslot : t.keyAt i = some msg.sessionKey) :
    (t.search msg'.sessionKey = .hit i → a.principal = b.principal) ↔ ¬ Collide a b := by
  rw [hw.search_eq_hit_iff hslot, ha.sessionKey_eq_iff hb, collide_iff ha hb]
  tauto

end

/-! ## A user named cloud -/

/-- The process of an rclone run over a remote. -/
def rcloneProc (remote : String) : ProcInfo where
  cmdline := some (lit "rclone" ++ 0 :: lit "sync" ++ 0 :: lit "/srv" ++ 0 :: lit (remote ++ ":b") ++ [0])
  procStat := none
  exe := []
  ftpSession := none

/-- The message of its event. -/
def taskMsg (remote : String) : EventMsg :=
  ChannelCtx.identify ⟨.ofStr 64 (lit "cloud"), .ofStr 48 (lit remote), .ofStr 64 (lit remote)⟩ .zero

/-- The table after a first message. -/
def firstTable (msg : EventMsg) : SessionTable :=
  { sessionTableInit.set (SessionTable.probe msg.sessionKey 0) (.fresh msg.sessionKey 1) with
    count := 1 }

theorem cloudResolve_rcloneProc {remote : String}
    (h : cloudResolveTask (rcloneProc remote).cmdline = some (lit remote)) :
    cloudResolve (rcloneProc remote) (sampleFanEvent "/srv/a") =
      some ⟨.ofStr 64 (lit "cloud"), .ofStr 48 (lit remote), .ofStr 64 (lit remote)⟩ := by
  rw [cloudResolve, h]
  rfl

theorem rclone_sends {remote : String} (h : cloudResolveTask (rcloneProc remote).cmdline = some (lit remote)) :
    (Origin.task (lit remote)).Sends (taskMsg remote) :=
  .cloud h (cloudResolve_rcloneProc h) ⟨rfl, rfl⟩

theorem firstTable_spec (msg : EventMsg) : FindOrCreateSpec sessionTableInit msg.sessionKey 1
    (SessionTable.probe msg.sessionKey 0) (firstTable msg) :=
  sessionFindOrCreate_spec rfl

theorem firstTable_wellPlaced (msg : EventMsg) : (firstTable msg).WellPlaced :=
  (firstTable_spec msg).wellPlaced SessionTable.wellPlaced_init

theorem firstTable_keyAt (msg : EventMsg) :
    (firstTable msg).keyAt (SessionTable.probe msg.sessionKey 0) = some msg.sessionKey :=
  SessionTable.keyAt_eq_some_iff.2 (firstTable_spec msg).slot

/-- Tasks of different names stay apart. -/
theorem sessions_separate_sample :
    (firstTable (taskMsg "gdrive")).search (taskMsg "onedrive").sessionKey ≠
      .hit (SessionTable.probe (taskMsg "gdrive").sessionKey 0) := by
  have hgdrive : (Origin.task (lit "gdrive")).Sends (taskMsg "gdrive") := rclone_sends (by decide)
  have honedrive : (Origin.task (lit "onedrive")).Sends (taskMsg "onedrive") :=
    rclone_sends (by decide)
  have hsame := (sessions_separate_iff (firstTable_wellPlaced _) hgdrive honedrive
    (firstTable_keyAt _)).2 fun h => absurd h.2 (by decide)
  intro hhit
  cases hsame hhit

/-- The SMB user `cloud` at 10.0.0.5 and the cloud task `10.0.0.5` share a session. -/
theorem sessions_not_always_separate :
    ¬ ∀ (t : SessionTable) (i : Fin sessionBuckets) (a b : Origin) (msg msg' : EventMsg),
      t.WellPlaced → a.Sends msg → b.Sends msg' → t.keyAt i = some msg.sessionKey →
      t.search msg'.sessionKey = .hit i → a.principal = b.principal := by
  intro h
  let conn : Conn := { sampleConn with user := lit "cloud", ip := lit "10.0.0.5" }
  let msg := conn.eventMsg opOpen flagRisky (lit "a") none none
  have hkey : (taskMsg "10.0.0.5").sessionKey = msg.sessionKey := by decide
  have hsame := h (firstTable msg) _ (.client conn.user conn.ip) (.task (lit "10.0.0.5")) msg
    (taskMsg "10.0.0.5") (firstTable_wellPlaced msg) (.smb conn rfl rfl)
    (rclone_sends (by decide)) (firstTable_keyAt msg)
    ((firstTable_wellPlaced msg).search_eq_hit_iff (firstTable_keyAt msg) |>.2 hkey.symm)
  cases hsame

end GfrGuard
