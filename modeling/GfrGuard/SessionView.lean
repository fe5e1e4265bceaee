import GfrGuard.Coverage
import GfrGuard.Enforcement

/-!
# One session at a time

The table holds the sessions of all clients; `Daemon.view` is what it holds for one key, the
text of the event id left out. A message of the key changes the view as `messageView` says,
from the view alone, the policy and the outcome of `blocker_execute`
(`processMsg_view`). A message of another key leaves it, unless the table was full and the
session evicted (`processMsg_view_of_ne`). `daemonStep_view` sums up what any event can do.
-/

namespace GfrGuard

/-- A session with another event. -/
def SessionState.withEvent (s : SessionState) (id : CBuf 32) : SessionState :=
  { s with currentEventId := id }

/-- A session without its event. -/
def SessionState.bare (s : SessionState) : SessionState := s.withEvent (.empty 32)

/-- The session of a key, if the table has one. -/
def Daemon.sessionOf (d : Daemon) (key : CBuf 128) : Option SessionState :=
  match d.table.search key with
  | .hit i => some (d.session i)
  | _ => none

/-- The session of a key but for its event. -/
def Daemon.view (d : Daemon) (key : CBuf 128) : Option SessionState :=
  (d.sessionOf key).map SessionState.bare

/-- The session a lookup finds or creates. -/
def visit (key : CBuf 128) (now : Int) (v : Option SessionState) : SessionState :=
  match v with
  | some s => s.touch now
  | none => .fresh key now

/-- `blocker_execute` succeeds for a message. -/
def executes (env : CallEnv) (msg : EventMsg) (d : Daemon) : Bool :=
  (blockerAppend d.blocked (blockIp msg) env.readOk env.writeOk).isSome

/-- A session whose block is attempted. -/
def SessionState.blockOn (s : SessionState) (ok : Bool) : SessionState :=
  { s with isBlocked := s.isBlocked || ok }

/-- An accepted message: the score, then the block if it is critical. -/
def acceptState (env : CallEnv) (p : Policy) (msg : EventMsg) (ok : Bool) (s : SessionState) :
    SessionState :=
  let s := scoreSession env p msg s
  if s.riskLevel = .critical then s.blockOn ok else s

/-- What a message makes of the view of its session. -/
def messageView (env : CallEnv) (p : Policy) (msg : EventMsg) (ok : Bool)
    (v : Option SessionState) : Option SessionState :=
  let s := visit msg.sessionKey env.now v
  if msg.msgType = msgVfsBlocked then some s
  else
    match gate p msg with
    | .blacklistBlock => some (s.blockOn ok)
    | .accept => some (acceptState env p msg ok s)
    | _ => v

/-- The event is a message of the key that passes all gates, and its session has a slot. -/
def Accepts (key : CBuf 128) (d : Daemon) : DaemonEvent → Prop
  | .message env msg => msg.sessionKey = key ∧ msg.msgType ≠ msgVfsBlocked ∧
      gate d.policy msg = .accept ∧ (sessionFindOrCreate d.table key env.now).isSome
  | _ => False

instance (key : CBuf 128) (d : Daemon) : ∀ e : DaemonEvent, Decidable (Accepts key d e)
  | .message .. => inferInstanceAs (Decidable (_ ∧ _))
  | .lookup .. => inferInstanceAs (Decidable False)
  | .reload .. => inferInstanceAs (Decidable False)

section
variable {d d' : Daemon} {key key' : CBuf 128} {i j : Fin sessionBuckets} {t : SessionTable}
  {now : Int} {env : CallEnv} {msg : EventMsg} {s s' : SessionState} {p : Policy} {ok : Bool}
  {id : CBuf 32} {e : DaemonEvent}

/-! ## The event is not looked at -/

@[simp] theorem SessionState.withEvent_withEvent (s : SessionState) (id id' : CBuf 32) :
    (s.withEvent id).withEvent id' = s.withEvent id' := rfl

@[simp] theorem SessionState.bare_withEvent (s : SessionState) (id : CBuf 32) :
    (s.withEvent id).bare = s.bare := rfl

@[simp] theorem SessionState.bare_bare (s : SessionState) : s.bare.bare = s.bare := rfl

/-- Sessions that agree but for the event. -/
theorem SessionState.eq_of_bare (h : s.bare = s'.bare) : s = s'.withEvent s.currentEventId :=
  (congrArg (fun x : SessionState => x.withEvent s.currentEventId) h :)

theorem countOp_withEvent (s : SessionState) (id : CBuf 32) (opType : UInt8) (flags : UInt16) :
    countOp (s.withEvent id) opType flags = (countOp s opType flags).withEvent id := by
  unfold countOp SessionState.withEvent
  dsimp only
  split_ifs <;> rfl

theorem dirAdd_withEvent (s : SessionState) (id : CBuf 32) (hash : UInt64) :
    dirAdd (s.withEvent id) hash = (dirAdd s hash).withEvent id := by
  unfold dirAdd SessionState.withEvent
  dsimp only
  split_ifs <;> rfl

theorem sessionUpdate_withEvent (s : SessionState) (id : CBuf 32) (opType : UInt8)
    (flags : UInt16) (hash : UInt64) :
    sessionUpdate (s.withEvent id) opType flags hash =
      (sessionUpdate s opType flags hash).withEvent id := by
  have hdir := dirAdd_withEvent (countContent (countOp s opType flags) flags) id hash
  unfold sessionUpdate
  rw [countOp_withEvent]
  exact congrArg (fun s : SessionState => { s with totalEvents := s.totalEvents + 1 }) hdir

/-- The session with both windows running. -/
def SessionState.started (s : SessionState) (now : Int) : SessionState :=
  { s with windowStart10s := s.shortStart now, windowStart30s := s.longStart now }

/-- Whether a window rolls is decided by when it started. -/
theorem sessionCheckWindow_eq (s : SessionState) (now short long : Int) :
    sessionCheckWindow s now short long =
      let s' := if s.shortExpired now short then (s.started now).rollShort now else s.started now
      if s.longExpired now long then s'.rollLong now else s' := by
  unfold sessionCheckWindow SessionState.shortExpired SessionState.longExpired
  by_cases hshort : short ≤ now - s.shortStart now
  · by_cases hlong : long ≤ now - s.longStart now
    · simp [hshort, hlong, SessionState.started, SessionState.rollShort]
    · simp [hshort, hlong, SessionState.started, SessionState.rollShort]
  · by_cases hlong : long ≤ now - s.longStart now
    · simp [hshort, hlong, SessionState.started]
    · simp [hshort, hlong, SessionState.started]

theorem sessionCheckWindow_bare (s : SessionState) (id : CBuf 32) (now short long : Int) :
    (sessionCheckWindow (s.withEvent id) now short long).bare =
      (sessionCheckWindow s now short long).bare := by
  rw [sessionCheckWindow_eq, sessionCheckWindow_eq]
  have hshort : (s.withEvent id).shortExpired now short = s.shortExpired now short := rfl
  have hlong : (s.withEvent id).longExpired now long = s.longExpired now long := rfl
  rw [hshort, hlong]
  cases s.shortExpired now short <;> cases s.longExpired now long <;> rfl

/-- The score of a session does not depend on its event. -/
theorem scoreSession_withEvent (env : CallEnv) (p : Policy) (msg : EventMsg) (s : SessionState)
    (id : CBuf 32) :
    (scoreSession env p msg (s.withEvent id)).bare = (scoreSession env p msg s).bare := by
  have hflags : analysisFlags env p msg (s.withEvent id) = analysisFlags env p msg s := rfl
  unfold scoreSession
  dsimp only
  rw [hflags]
  generalize hw : sessionCheckWindow s env.now (p.windows msg.sourceType).1
    (p.windows msg.sourceType).2 = w
  have hwindow := SessionState.eq_of_bare (sessionCheckWindow_bare s id env.now
    (p.windows msg.sourceType).1 (p.windows msg.sourceType).2)
  rw [hw] at hwindow
  rw [hwindow, sessionUpdate_withEvent]
  split <;> rfl

theorem acceptState_bare (env : CallEnv) (p : Policy) (msg : EventMsg) (ok : Bool)
    (h : s.bare = s'.bare) : (acceptState env p msg ok s).bare = (acceptState env p msg ok s').bare := by
  have hs := SessionState.eq_of_bare h
  have hscore := scoreSession_withEvent env p msg s' s.currentEventId
  rw [← hs] at hscore
  have hlevel : (scoreSession env p msg s).riskLevel = (scoreSession env p msg s').riskLevel :=
    (congrArg SessionState.riskLevel hscore :)
  unfold acceptState
  dsimp only
  rw [hlevel]
  split
  · exact (congrArg (fun x : SessionState => x.blockOn ok) hscore :)
  · exact hscore

/-- A view that a message works on stays without an event. -/
theorem acceptState_of_bare (env : CallEnv) (p : Policy) (msg : EventMsg) (ok : Bool)
    (h : s.bare = s) : (acceptState env p msg ok s).bare = acceptState env p msg ok s := by
  have hid : (scoreSession env p msg s).currentEventId = .empty 32 := by
    rw [scoreSession_currentEventId, show s.currentEventId = .empty 32 from
      (congrArg SessionState.currentEventId h).symm, ite_self]
  have hscore : (scoreSession env p msg s).bare = scoreSession env p msg s := by
    rw [SessionState.bare, ← hid]
    rfl
  unfold acceptState
  dsimp only
  split
  · exact (congrArg (fun x : SessionState => x.blockOn ok) hscore :)
  · exact hscore

/-! ## The session in the table -/

theorem Daemon.sessionOf_eq_some (hw : d.table.WellPlaced) (hk : d.table.keyAt i = some key) :
    d.sessionOf key = some (d.session i) := by
  have hhit : d.table.search key = .hit i := OpenAddressing.Placed.search_eq_hit hw hk
  unfold Daemon.sessionOf
  rw [hhit]

theorem Daemon.keyAt_of_sessionOf (h : d.sessionOf key = some s) :
    ∃ i, d.table.keyAt i = some key ∧ d.session i = s := by
  unfold Daemon.sessionOf at h
  have hspec := OpenAddressing.searchSpec (SessionTable.probe key) d.table.keyAt key sessionBuckets
  split at h
  · next i hs =>
    rw [← SessionTable.search, hs] at hspec
    cases hspec with
    | hit p _ hkey _ => exact ⟨_, hkey, Option.some.inj h⟩
  · cases h

theorem Daemon.sessionOf_eq_none (h : ∀ i, d.table.keyAt i ≠ some key) :
    d.sessionOf key = none := by
  cases hs : d.sessionOf key with
  | none => rfl
  | some s =>
    obtain ⟨i, hi, -⟩ := Daemon.keyAt_of_sessionOf hs
    exact absurd hi (h i)

theorem Daemon.keyAt_ne_of_sessionOf (hw : d.table.WellPlaced) (h : d.sessionOf key = none)
    (i : Fin sessionBuckets) : d.table.keyAt i ≠ some key := fun hi => by
  rw [Daemon.sessionOf_eq_some hw hi] at h
  cases h

/-- A lookup visits the session of the key. -/
theorem FindOrCreateSpec.visited (hfind : FindOrCreateSpec d.table key now i t) :
    t.buckets i = visit key now (d.sessionOf key) := by
  cases hfind with
  | found hsearch _ hset =>
    rw [hset, SessionTable.set_self, Daemon.sessionOf, hsearch]
    rfl
  | created hsearch _ hset =>
    have hnone : d.sessionOf key = none := by
      unfold Daemon.sessionOf
      rcases hsearch with h | h <;> rw [h]
    rw [hset, SessionTable.set_self, hnone]
    rfl

/-- A session in view is in the table. -/
theorem Daemon.keyAt_of_view (h : d.view key = some s) :
    ∃ i, d.table.keyAt i = some key ∧ (d.session i).bare = s := by
  obtain ⟨s', hs', rfl⟩ := Option.map_eq_some_iff.1 h
  obtain ⟨i, hi, rfl⟩ := Daemon.keyAt_of_sessionOf hs'
  exact ⟨i, hi, rfl⟩

/-- A daemon just started has no session. -/
theorem Daemon.view_start (p : LoadedPolicy) (db : Db) (key : CBuf 128) :
    (Daemon.start p db).view key = none := by
  refine Option.eq_none_iff_forall_ne_some.2 fun s hs => ?_
  obtain ⟨i, hi, -⟩ := Daemon.keyAt_of_view hs
  cases hi

/-- A session that is in the table is in view. -/
theorem Daemon.view_eq_some (hw : d.table.WellPlaced) (hk : d.table.keyAt i = some key) :
    d.view key = some (d.session i).bare := by
  rw [Daemon.view, Daemon.sessionOf_eq_some hw hk]
  rfl

/-- The session of another key stays as it was, unless the table was full and the session
is gone. -/
theorem FindOrCreateSpec.sessionOf_of_ne (hw : d.table.WellPlaced) (hw' : d'.table.WellPlaced)
    (hfind : FindOrCreateSpec d.table key' now i t)
    (hstage : Stage i { d with table := t, journal := [] } d') (hne : key ≠ key') :
    d'.sessionOf key = d.sessionOf key ∨
      d.table.search key' = .full ∧ d'.sessionOf key = none := by
  have hslot : d'.table.keyAt i = some key' := hfind.keyAt_stage hstage
  -- a slot that holds the key now is another one, and held it before
  have hback : ∀ j, d'.table.keyAt j = some key →
      d.table.keyAt j = some key ∧ d'.session j = d.session j := fun j hj => by
    have hji : j ≠ i := by
      rintro rfl
      exact hne (Option.some.inj (hj.symm.trans hslot))
    have hsame := hfind.session_stage hstage hji
    refine ⟨?_, hsame⟩
    simp only [Daemon.session] at hsame
    rwa [SessionTable.keyAt, hsame] at hj
  cases hs : d.sessionOf key with
  | none =>
    exact .inl (Daemon.sessionOf_eq_none fun j hj =>
      Daemon.keyAt_ne_of_sessionOf hw hs j (hback j hj).1)
  | some s =>
    obtain ⟨j, hj, rfl⟩ := Daemon.keyAt_of_sessionOf hs
    by_cases hji : j = i
    · subst hji
      refine .inr ⟨?_, Daemon.sessionOf_eq_none fun j' hj' => ?_⟩
      · cases hfind with
        | found _ hkey _ => exact absurd (Option.some.inj (hj.symm.trans hkey)) hne
        | created hsearch _ _ =>
          refine hsearch.resolve_left fun hhole => ?_
          have hspec := OpenAddressing.searchSpec (SessionTable.probe key') d.table.keyAt key'
            sessionBuckets
          rw [← SessionTable.search, hhole] at hspec
          cases hspec with
          | hole p _ hfree _ => cases hj.symm.trans hfree
      · have hold := hback j' hj'
        have hjj : j' = j := OpenAddressing.Placed.unique hw hold.1 hj
        rw [hjj, hslot] at hj'
        exact hne (Option.some.inj hj').symm
    · have hsame := hfind.session_stage hstage hji
      have hkey : d'.table.keyAt j = some key := by
        simp only [Daemon.session] at hsame
        rwa [SessionTable.keyAt, hsame]
      exact .inl (by rw [Daemon.sessionOf_eq_some hw' hkey, hsame])

/-! ## One message -/

theorem blockerExecute_fst (env : CallEnv) (ip eventId status : CStr) (d : Daemon) :
    (blockerExecute env ip eventId status d).1 =
      (blockerAppend d.blocked ip env.readOk env.writeOk).isSome := by
  unfold blockerExecute
  split
  · next h => rw [h]; rfl
  · next h =>
    rw [h]
    dsimp only
    split <;> rfl

/-- `blocker_execute` leaves the sessions alone. -/
theorem blockerExecute_table (env : CallEnv) (ip eventId status : CStr) (d : Daemon) :
    (blockerExecute env ip eventId status d).2.table = d.table := by
  unfold blockerExecute
  split
  · rfl
  · dsimp only
    split <;> rfl

/-- The block stage on a session. -/
theorem blockIfCritical_session (env : CallEnv) (msg : EventMsg) (i : Fin sessionBuckets)
    (d : Daemon) : (blockIfCritical env msg i d).session i =
      if (d.session i).riskLevel = .critical then (d.session i).blockOn (executes env msg d)
      else d.session i := by
  unfold blockIfCritical
  by_cases hcrit : (d.session i).riskLevel = .critical
  · rw [if_pos hcrit]
    cases hflag : (d.session i).isBlocked with
    | true =>
      rw [if_neg fun h => Bool.false_ne_true h.2.symm]
      unfold SessionState.blockOn
      rw [hflag, Bool.true_or, ← hflag]
    | false =>
      rw [if_pos ⟨hcrit, rfl⟩]
      have hfst := blockerExecute_fst env (blockIp msg) (d.session i).currentEventId.str
        (lit "blocked_ransom") d
      have htable := blockerExecute_table env (blockIp msg) (d.session i).currentEventId.str
        (lit "blocked_ransom") d
      generalize blockerExecute env (blockIp msg) (d.session i).currentEventId.str
        (lit "blocked_ransom") d = result at hfst htable
      obtain ⟨ok, d'⟩ := result
      have hsess : d'.session i = d.session i := by
        simp only [Daemon.session]
        rw [show d'.table = d.table from htable]
      have hok : executes env msg d = ok := hfst.symm
      rw [hok]
      unfold SessionState.blockOn
      rw [hflag, Bool.false_or]
      cases ok with
      | true =>
        show (d'.setSession i { d'.session i with isBlocked := true }).session i = _
        rw [session_setSession, hsess]
      | false =>
        show d'.session i = _
        rw [hsess, ← hflag]
  · rw [if_neg hcrit, if_neg fun h => hcrit h.1]

/-- Up to the block an accepted message scores the session it found. -/
theorem settleMsg_bare (env : CallEnv) (msg : EventMsg) (i : Fin sessionBuckets) (d : Daemon) :
    ((settleMsg env msg i d).session i).bare =
      (scoreSession env d.policy msg (d.session i)).bare := by
  have hscore : (settleMsg env msg i d).session i = (scoreMsg env msg i d).session i := by
    unfold settleMsg recordCreatedFile
    split <;> rfl
  have hsession : (scoreMsg env msg i d).session i = scoreSession env d.policy msg
      ((d.session i).withEvent (ensuredId env msg i d)) := by
    show ((Daemon.setSession _ i _).session i) = _
    rw [session_setSession, recordMsg_session, recordMsg_policy]
    rfl
  rw [hscore, hsession, scoreSession_withEvent]

/-- An accepted message on the session it found. -/
theorem acceptSession_bare (env : CallEnv) (msg : EventMsg) (i : Fin sessionBuckets)
    (d : Daemon) : ((acceptSession env msg i d).session i).bare =
      (acceptState env d.policy msg (executes env msg d) (d.session i)).bare := by
  have hsettle := settleMsg_bare env msg i d
  have hexec : executes env msg (settleMsg env msg i d) = executes env msg d := by
    unfold executes
    rw [(settleMsg_frame env msg i d).1]
  have hlevel : ((settleMsg env msg i d).session i).riskLevel =
      (scoreSession env d.policy msg (d.session i)).riskLevel :=
    (congrArg SessionState.riskLevel hsettle :)
  show ((blockIfCritical env msg i (settleMsg env msg i d)).session i).bare = _
  rw [blockIfCritical_session, hexec, hlevel]
  unfold acceptState
  dsimp only
  split
  · exact (congrArg (fun s : SessionState => s.blockOn (executes env msg d)) hsettle :)
  · exact hsettle

/-- A blacklist block on the session it found. -/
theorem blacklistBlock_bare
    (hfind : sessionFindOrCreate d.table msg.sessionKey env.now = some (i, t)) :
    ((blacklistBlock env msg d).session i).bare =
      ((t.buckets i).blockOn (executes env msg d)).bare := by
  unfold blacklistBlock
  rw [hfind]
  dsimp only
  split
  · next hflag =>
    have hflag : (t.buckets i).isBlocked = true := hflag
    unfold SessionState.blockOn
    rw [hflag, Bool.true_or, ← hflag]
    rfl
  · next hflag =>
    have hflag : (t.buckets i).isBlocked = false := Bool.eq_false_iff.2 hflag
    have hens := ensureBlockedEvent_ensured env msg i { d with table := t }
    generalize ensureBlockedEvent env msg i { d with table := t } = d1 at hens
    have hfst := blockerExecute_fst env (blockIp msg) (d1.session i).currentEventId.str
      (blacklistStatus d1.policy msg) d1
    have htable := blockerExecute_table env (blockIp msg) (d1.session i).currentEventId.str
      (blacklistStatus d1.policy msg) d1
    generalize blockerExecute env (blockIp msg) (d1.session i).currentEventId.str
      (blacklistStatus d1.policy msg) d1 = result at hfst htable
    obtain ⟨ok, d2⟩ := result
    have hok : executes env msg d = ok := by
      rw [hens.blocked] at hfst
      exact hfst.symm
    have hsess : d2.session i = (t.buckets i).withEvent (d1.session i).currentEventId := by
      simp only [Daemon.session]
      rw [show d2.table = d1.table from htable]
      exact hens.session
    rw [hok]
    unfold SessionState.blockOn
    rw [hflag, Bool.false_or]
    cases ok with
    | true =>
      dsimp only
      rw [session_setSession, hsess]
      rfl
    | false =>
      dsimp only
      rw [session_setSession, hsess]
      rfl

theorem visit_bare (key : CBuf 128) (now : Int) (v : Option SessionState) :
    (visit key now v).bare = visit key now (v.map SessionState.bare) := by
  cases v <;> rfl

/-- The session a message worked on is its session. -/
theorem FindOrCreateSpec.view_stage (hw' : d'.table.WellPlaced)
    (hfind : FindOrCreateSpec d.table key now i t)
    (hstage : Stage i { d with table := t, journal := [] } d') :
    d'.view key = some (d'.session i).bare :=
  Daemon.view_eq_some hw' (hfind.keyAt_stage hstage)

/-- A lookup visits the view of the key. -/
theorem FindOrCreateSpec.visited_view (hfind : FindOrCreateSpec d.table key now i t) :
    (t.buckets i).bare = visit key now (d.view key) := by
  rw [hfind.visited, visit_bare]
  rfl

/-- A message on the view of its session. -/
theorem processMsg_view (hinv : d.Inv)
    (hslot : (sessionFindOrCreate d.table msg.sessionKey env.now).isSome) :
    (processMsg env msg d).view msg.sessionKey =
      messageView env d.policy msg (executes env msg d) (d.view msg.sessionKey) := by
  obtain ⟨⟨i, t⟩, hfind⟩ := Option.isSome_iff_exists.1 hslot
  have hspec := sessionFindOrCreate_spec hfind
  have hvisit := hspec.visited_view
  have hnext : (processMsg env msg d).table.WellPlaced := (hinv.step (.message env msg)).placed
  have hdone : ∀ {d' : Daemon} {s : SessionState}, d'.table.WellPlaced →
      Stage i { d with table := t, journal := [] } d' → (d'.session i).bare = s →
      d'.view msg.sessionKey = some s := fun hw hstage hs => by
    rw [hspec.view_stage hw hstage, hs]
  revert hnext
  unfold messageView processMsg
  dsimp only
  split
  · intro hnext
    unfold vfsBlocked at hnext ⊢
    rw [hfind] at hnext ⊢
    dsimp only at hnext ⊢
    rw [if_neg (ensureId_ne_nil env i _)] at hnext ⊢
    refine hdone hnext (vfsBlocked_stage env msg i _) ?_
    rw [← hvisit]
    exact (congrArg SessionState.bare (ensureId_frame env i
      { d with table := t, journal := [] }).2.2.2.2 :)
  · cases hgate : gate d.policy msg with
    | blacklistBlock =>
      intro hnext
      refine hdone hnext (blacklistBlock_stage (d := { d with journal := [] }) hfind) ?_
      rw [blacklistBlock_bare (d := { d with journal := [] }) hfind, ← hvisit]
      rfl
    | accept =>
      intro hnext
      dsimp only at hnext ⊢
      unfold acceptMsg at hnext ⊢
      rw [hfind] at hnext ⊢
      refine hdone hnext (acceptSession_stage env msg i _) ?_
      rw [acceptSession_bare, ← hvisit]
      rw [← acceptState_of_bare env d.policy msg _ (SessionState.bare_bare (t.buckets i))]
      exact acceptState_bare env d.policy msg _ rfl
    | protectionOff | extFilterSkip | exceptionBypass | whitelistBypass => intro _; rfl

/-- A message whose session finds no slot changes no session. -/
theorem processMsg_view_of_none
    (hslot : sessionFindOrCreate d.table msg.sessionKey env.now = none) (key : CBuf 128) :
    (processMsg env msg d).view key = d.view key := by
  unfold processMsg vfsBlocked blacklistBlock acceptMsg
  dsimp only
  simp only [hslot]
  split
  · rfl
  · split <;> rfl

/-- A message leaves the session of another key as it was, unless the table was full and the
session is gone. -/
theorem processMsg_view_of_ne (hinv : d.Inv) (hne : key ≠ msg.sessionKey) :
    (processMsg env msg d).view key = d.view key ∨
      d.table.search msg.sessionKey = .full ∧ (processMsg env msg d).view key = none := by
  have hspec := processMsg_spec env msg d
  have hnext : (processMsg env msg d).table.WellPlaced := (hinv.step (.message env msg)).placed
  generalize processMsg env msg d = d' at hspec hnext
  cases hspec with
  | idle => exact .inl rfl
  | worked i t d' hfind hstage _ _ =>
    unfold Daemon.view
    rcases hfind.sessionOf_of_ne hinv.placed hnext hstage hne with hsame | ⟨hfull, hgone⟩
    · exact .inl (by rw [hsame])
    · exact .inr ⟨hfull, by rw [hgone]; rfl⟩

/-! ## Any event -/

/-- What an event can do to the view of a key: nothing, take its session out of a full
table, look it up and perhaps block it, or accept a message of it. -/
inductive ViewSpec (key : CBuf 128) (d : Daemon) (e : DaemonEvent) : Option SessionState → Prop
  | same (hnot : ¬ Accepts key d e) : ViewSpec key d e (d.view key)
  | gone (hnot : ¬ Accepts key d e) : ViewSpec key d e none
  | visited (now : Int) (block : Bool) (hnot : ¬ Accepts key d e) (hnow : e.now? = some now) :
      ViewSpec key d e (some ((visit key now (d.view key)).blockOn block))
  | accepted (env : CallEnv) (msg : EventMsg) (he : e = .message env msg)
      (haccept : Accepts key d e) :
      ViewSpec key d e (some (acceptState env d.policy msg (executes env msg d)
        (visit key env.now (d.view key))))

theorem SessionState.blockOn_false (s : SessionState) : s.blockOn false = s := by
  unfold SessionState.blockOn
  rw [Bool.or_false]

/-- Every event meets the specification. -/
theorem daemonStep_view (hinv : d.Inv) (key : CBuf 128) (e : DaemonEvent) :
    ViewSpec key d e ((daemonStep d e).view key) := by
  have hnext := (hinv.step e).placed
  cases e with
  | message env msg =>
    simp only [daemonStep]
    by_cases hkey : msg.sessionKey = key
    · subst hkey
      cases hslot : sessionFindOrCreate d.table msg.sessionKey env.now with
      | none =>
        rw [processMsg_view_of_none hslot]
        exact .same fun h => by
          have := h.2.2.2
          rw [hslot] at this
          cases this
      | some found =>
        rw [processMsg_view hinv (by rw [hslot]; rfl)]
        unfold messageView
        dsimp only
        split
        · next htype =>
          have h : ViewSpec msg.sessionKey d (.message env msg) _ :=
            .visited env.now false (fun h => h.2.1 htype) rfl
          rwa [SessionState.blockOn_false] at h
        · next htype =>
          split
          · next hgate =>
            exact .visited env.now _ (fun h => by cases hgate.symm.trans h.2.2.1) rfl
          · next hgate =>
            exact .accepted env msg rfl ⟨rfl, htype, hgate, by rw [hslot]; rfl⟩
          · next hblack haccept => exact .same fun h => haccept h.2.2.1
    · have hnot : ¬ Accepts key d (.message env msg) := fun h => hkey h.1
      have hview : (processMsg env msg d).view key = d.view key ∨
          d.table.search msg.sessionKey = .full ∧ (processMsg env msg d).view key = none :=
        processMsg_view_of_ne hinv (Ne.symm hkey)
      rcases hview with hsame | ⟨-, hgone⟩
      · rw [hsame]; exact .same hnot
      · rw [hgone]; exact .gone hnot
  | lookup k now =>
    simp only [daemonStep] at hnext ⊢
    cases hslot : sessionFindOrCreate d.table k now with
    | none => exact .same id
    | some found =>
      obtain ⟨i, t⟩ := found
      rw [hslot] at hnext
      have hspec := sessionFindOrCreate_spec hslot
      dsimp only at hnext ⊢
      by_cases hkey : k = key
      · subst hkey
        have h : ViewSpec k d (.lookup k now) _ := .visited now false id rfl
        rw [SessionState.blockOn_false] at h
        rw [hspec.view_stage hnext (Stage.refl i _)]
        exact hspec.visited_view ▸ h
      · unfold Daemon.view
        rcases hspec.sessionOf_of_ne hinv.placed hnext (Stage.refl i _) (Ne.symm hkey) with
          hsame | ⟨-, hgone⟩
        · rw [hsame]; exact .same id
        · rw [hgone]; exact .gone id
  | reload np syncOk => cases np <;> exact .same id

end

end GfrGuard
