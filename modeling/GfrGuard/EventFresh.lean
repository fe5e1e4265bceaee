import GfrGuard.EventHistory

/-!
# Fresh event ids

An event id is the date and the next number of the day. The number is kept in memory and taken from
the database when the date of the clock is not the one of the anchor. A daemon that has made no id
yet has its anchor at time 0, which is a date as well: on that date the number starts from 1,
whatever the database holds. `SeedsCounter` is that this does not happen, and every id made in a run
of which all steps meet it is new, over restarts and with a clock that goes anywhere
(`event_ids_fresh`).
-/

namespace GfrGuard

/-- `localtime_r` in one time zone: a day of a year has one date, and the fields have a `struct tm`'s
bounds. -/
structure LocalClock where
  localtime : Int → Tm
  date : ∀ s t, (localtime s).year = (localtime t).year → (localtime s).yday = (localtime t).yday →
    (localtime s).mon = (localtime t).mon ∧ (localtime s).mday = (localtime t).mday
  bounds : ∀ t, (localtime t).year < 2 ^ 31 ∧ (localtime t).mon < 12 ∧ (localtime t).mday ≤ 31

/-- What happens to a daemon that is started again and again. -/
inductive FreshEvent where
  /-- The daemon works; its clock is the one of its time zone. -/
  | daemon (e : DaemonEvent)
  | restart (p : LoadedPolicy) (clock : LocalClock)

/-- The daemon and the time zone it was started in. -/
structure FreshState where
  daemon : Daemon
  clock : LocalClock

/-- The event by the clock. -/
def DaemonEvent.at (clock : LocalClock) : DaemonEvent → DaemonEvent
  | .message env msg => .message { env with localtime := clock.localtime } msg
  | e => e

/-- One event. A restart keeps the database only. -/
def freshStep (s : FreshState) : FreshEvent → FreshState
  | .daemon e => { s with daemon := daemonStep s.daemon (e.at s.clock) }
  | .restart p clock => ⟨Daemon.start p s.daemon.db, clock⟩

/-- The message makes an event id. -/
def makesId (env : CallEnv) (msg : EventMsg) (d : Daemon) : Bool :=
  match sessionFindOrCreate d.table msg.sessionKey env.now with
  | none => false
  | some (i, t) =>
    (t.buckets i).newEvent &&
      (msg.msgType = msgVfsBlocked ||
        match gate d.policy msg with
        | .blacklistBlock => !(t.buckets i).isBlocked
        | .accept => true
        | _ => false)

/-- If the event makes an id, no event has it yet. -/
def FreshId (s : FreshState) (e : FreshEvent) : Prop :=
  ∀ e', e = .daemon e' → ∀ env msg, e'.at s.clock = .message env msg →
    makesId env msg s.daemon = true → s.daemon.db.hasEvent (makeEventId env s.daemon).1.str = false

/-- If the event makes an id, it is not the first since the start on the date of time 0 with events
of that date in the database; and the number fits an `int`. -/
def SeedsCounter (s : FreshState) (e : FreshEvent) : Prop :=
  ∀ e', e = .daemon e' → ∀ env msg, e'.at s.clock = .message env msg →
    makesId env msg s.daemon = true →
      ¬ (s.daemon.dailySeq = 0 ∧ dayChanged env s.daemon.dayAnchor = false ∧
        0 < s.daemon.db.maxDailySeq (env.localtime env.now).dateText) ∧
      -2 ^ 31 ≤ (makeEventId env s.daemon).2.dailySeq ∧ (makeEventId env s.daemon).2.dailySeq < 2 ^ 31

/-- The numbers of the events of a date. -/
def Db.dayNumbers (db : Db) (date : CStr) : List Int :=
  (db.events.filter fun ev =>
    ((lit "evt-" ++ date ++ [dash]).map toLower).isPrefixOf (ev.eventId.map toLower)).map
      fun ev => atoi (ev.eventId.drop ((lit "evt-" ++ date).length + 1))

/-- The counter of event ids. -/
def Daemon.counter (d : Daemon) : Int × Int := (d.dailySeq, d.dayAnchor)

/-- No id has been made since the start, or the counter has passed the events of the anchor's date. -/
def CounterAhead (clock : LocalClock) (d : Daemon) : Prop :=
  d.dailySeq = 0 ∨ ∀ n ∈ d.db.dayNumbers (clock.localtime d.dayAnchor).dateText, n ≤ d.dailySeq

section
variable {env : CallEnv} {msg : EventMsg} {d d' : Daemon} {db : Db} {date s : CStr} {n : Int}
  {i : Fin sessionBuckets} {t : SessionTable} {clock : LocalClock} {w : EventWrite}

/-! ## Numbers -/

theorem atoi_dash (h : ∀ b ∈ s, isDigit b = true) : atoi (dash :: s) = -digitsValue s := by
  have hdrop : (dash :: s).dropWhile isSpace = dash :: s :=
    List.dropWhile_cons_of_neg (by decide)
  unfold atoi
  rw [hdrop]
  show -(digitsValue (s.takeWhile isDigit) : Int) = _
  rw [List.takeWhile_eq_self_iff.2 h]

/-- The number of an id is read back. -/
theorem atoi_decPadInt (w : Nat) (n : Int) : atoi (decPadInt w n) = n := by
  unfold decPadInt
  split
  · next hneg =>
    rw [atoi_dash fun _ => isDigit_of_mem_decPad, digitsValue_decPad]
    omega
  · next hpos =>
    rw [atoi_digits fun _ => isDigit_of_mem_decPad, digitsValue_decPad]
    omega

/-- `db_get_max_daily_seq` is not below the number of an event of the date. -/
theorem le_maxDailySeq (h : n ∈ db.dayNumbers date) : n ≤ db.maxDailySeq date := by
  have hfold (ns : List Int) (a : Int) : a ≤ ns.foldl max a ∧ ∀ x ∈ ns, x ≤ ns.foldl max a := by
    induction ns generalizing a with
    | nil => exact ⟨le_rfl, fun _ hx => absurd hx List.not_mem_nil⟩
    | cons b ns ih =>
      obtain ⟨hacc, hrest⟩ := ih (max a b)
      refine ⟨(le_max_left a b).trans hacc, fun x hx => ?_⟩
      rcases List.mem_cons.1 hx with rfl | hx
      · exact (le_max_right a x).trans hacc
      · exact hrest x hx
  unfold Db.maxDailySeq
  dsimp only
  split
  · next hnumbers =>
    change db.dayNumbers date = [] at hnumbers
    rw [hnumbers] at h
    cases h
  · next a ns hnumbers =>
    change db.dayNumbers date = a :: ns at hnumbers
    rw [hnumbers] at h
    rcases List.mem_cons.1 h with rfl | h
    · exact (hfold ns n).1
    · exact (hfold ns a).2 n h

/-- The number in an id of the date. -/
theorem number_of_id (date : CStr) (n : Int) :
    atoi ((lit "evt-" ++ date ++ dash :: decPadInt 3 n).drop ((lit "evt-" ++ date).length + 1)) = n := by
  have hsplit : lit "evt-" ++ date ++ dash :: decPadInt 3 n =
      (lit "evt-" ++ date ++ [dash]) ++ decPadInt 3 n := by
    rw [List.append_assoc _ [dash]]
    rfl
  have hlen : (lit "evt-" ++ date).length + 1 = (lit "evt-" ++ date ++ [dash]).length := by
    simp only [List.length_append, List.length_singleton]
  rw [hsplit, hlen, List.drop_left, atoi_decPadInt]

/-- An event with the id of a date and a number counts for the date. -/
theorem mem_dayNumbers {ev : EventRow} (hev : ev ∈ db.events)
    (hid : ev.eventId = lit "evt-" ++ date ++ dash :: decPadInt 3 n) : n ∈ db.dayNumbers date := by
  refine List.mem_map.2 ⟨ev, List.mem_filter.2 ⟨hev, ?_⟩, ?_⟩
  · rw [hid, List.isPrefixOf_iff_prefix]
    refine List.IsPrefix.map toLower ⟨decPadInt 3 n, ?_⟩
    rw [List.append_assoc]
    rfl
  · rw [hid]
    exact number_of_id date n

/-- A number of the date that is not one of an id is of an event with another id. -/
theorem dayNumbers_of_ids {db' : Db} {P : CStr → Prop}
    (hids : ∀ ev ∈ db'.events, db.hasEvent ev.eventId = true ∨ P ev.eventId)
    (h : n ∈ db'.dayNumbers date) : n ∈ db.dayNumbers date ∨
      ∃ id, P id ∧ atoi (id.drop ((lit "evt-" ++ date).length + 1)) = n := by
  obtain ⟨ev, hev, rfl⟩ := List.mem_map.1 h
  obtain ⟨hev, hday⟩ := List.mem_filter.1 hev
  rcases hids ev hev with hold | hnew
  · obtain ⟨old, hmem, hid⟩ := List.any_eq_true.1 hold
    have hid : old.eventId = ev.eventId := of_decide_eq_true hid
    refine .inl (List.mem_map.2 ⟨old, List.mem_filter.2 ⟨hmem, ?_⟩, ?_⟩)
    · rw [hid]
      exact hday
    · rw [hid]
  · exact .inr ⟨ev.eventId, hnew, rfl⟩

/-! ## The id made -/

theorem length_dateText_le (clock : LocalClock) (now : Int) :
    (clock.localtime now).dateText.length ≤ 14 := by
  obtain ⟨hyear, hmon, hmday⟩ := clock.bounds now
  have hy : (decPad 4 ((clock.localtime now).year + 1900)).length ≤ 10 :=
    length_decPad_le (by decide) (by decide) (by omega)
  have hm : (decPad 2 ((clock.localtime now).mon + 1)).length ≤ 2 :=
    length_decPad_le (by decide) (by decide) (by omega)
  have hd : (decPad 2 (clock.localtime now).mday).length ≤ 2 :=
    length_decPad_le (by decide) (by decide) (by omega)
  unfold Tm.dateText
  rw [List.length_append, List.length_append]
  omega

/-- An id whose number fits an `int` fits its buffer. -/
theorem makeEventId_str (hclock : env.localtime = clock.localtime)
    (hlow : -2 ^ 31 ≤ (makeEventId env d).2.dailySeq) (hhigh : (makeEventId env d).2.dailySeq < 2 ^ 31) :
    (makeEventId env d).1.str = lit "evt-" ++ (env.localtime env.now).dateText ++
      dash :: decPadInt 3 (makeEventId env d).2.dailySeq := by
  have hdate := length_dateText_le clock env.now
  have hnumber : (decPadInt 3 (makeEventId env d).2.dailySeq).length ≤ 11 := by
    unfold decPadInt
    split
    · rw [List.length_cons]
      have hdigits : (decPad (3 - 1) (makeEventId env d).2.dailySeq.natAbs).length ≤ 10 :=
        length_decPad_le (by decide) (by decide) (by omega)
      omega
    · exact length_decPad_le (by decide) (by decide) (by omega)
  rw [← hclock] at hdate
  refine CBuf.str_ofStr_of_lt ?_
  have hstem : (lit "evt-").length = 4 := rfl
  rw [List.length_append, List.length_append, List.length_cons, hstem]
  show _ + _ + ((decPadInt 3 (makeEventId env d).2.dailySeq).length + 1) < 32
  omega

/-- The anchor's date is today's unless it has changed. -/
theorem dateText_of_sameDay (hclock : env.localtime = clock.localtime)
    (h : dayChanged env d.dayAnchor = false) :
    (clock.localtime d.dayAnchor).dateText = (env.localtime env.now).dateText := by
  unfold dayChanged at h
  rw [Bool.or_eq_false_iff, decide_eq_false_iff_not, decide_eq_false_iff_not, not_not, not_not,
    hclock] at h
  obtain ⟨hmon, hmday⟩ := clock.date _ _ h.1 h.2
  unfold Tm.dateText
  rw [hclock, h.1, hmon, hmday]

/-! ## The counter over a message -/

theorem ensureId_counter (env : CallEnv) (i : Fin sessionBuckets) (d : Daemon) :
    (ensureId env i d).counter =
      if (d.session i).newEvent then (makeEventId env d).2.counter else d.counter := by
  unfold ensureId SessionState.newEvent
  by_cases hnew : (d.session i).currentEventId.str = []
  · rw [if_pos hnew, if_pos (decide_eq_true hnew)]
    rfl
  · rw [if_neg hnew, if_neg (by simpa using hnew)]

theorem ensureEvent_counter (env : CallEnv) (msg : EventMsg) (i : Fin sessionBuckets) (d : Daemon) :
    (ensureEvent env msg i d).counter = (ensureId env i d).counter := by
  unfold ensureEvent
  split
  · rfl
  · next hnew => rw [ensureId_of_ne_nil hnew]

theorem ensureBlockedEvent_counter (env : CallEnv) (msg : EventMsg) (i : Fin sessionBuckets)
    (d : Daemon) : (ensureBlockedEvent env msg i d).counter = (ensureId env i d).counter := by
  unfold ensureBlockedEvent
  split
  · rfl
  · next hnew => rw [ensureId_of_ne_nil hnew]

theorem blockerExecute_counter (env : CallEnv) (ip eventId status : CStr) (d : Daemon) :
    (blockerExecute env ip eventId status d).2.counter = d.counter := by
  unfold blockerExecute
  split
  · rfl
  · dsimp only
    split <;> rfl

theorem acceptSession_counter (env : CallEnv) (msg : EventMsg) (i : Fin sessionBuckets) (d : Daemon) :
    (acceptSession env msg i d).counter = (ensureId env i d).counter := by
  have hsettle : (settleMsg env msg i d).counter = (ensureEvent env msg i d).counter := by
    unfold settleMsg recordCreatedFile scoreMsg recordMsg recordProtectedFile
    split
    · split
      · split <;> rfl
      · rfl
    · split
      · split <;> rfl
      · rfl
  rw [← ensureEvent_counter env msg, ← hsettle]
  unfold acceptSession blockIfCritical
  split
  · have hexec := blockerExecute_counter env (blockIp msg)
      ((settleMsg env msg i d).session i).currentEventId.str (lit "blocked_ransom")
      (settleMsg env msg i d)
    generalize blockerExecute env (blockIp msg) ((settleMsg env msg i d).session i).currentEventId.str
      (lit "blocked_ransom") (settleMsg env msg i d) = result at hexec ⊢
    rw [← hexec]
    obtain ⟨ok, d'⟩ := result
    cases ok <;> rfl
  · rfl

theorem blacklistBlock_counter
    (hfind : sessionFindOrCreate d.table msg.sessionKey env.now = some (i, t)) :
    (blacklistBlock env msg d).counter =
      if (t.buckets i).isBlocked then d.counter
      else (ensureId env i { d with table := t }).counter := by
  have hens := ensureBlockedEvent_counter env msg i { d with table := t }
  unfold blacklistBlock
  rw [hfind]
  dsimp only
  generalize ensureBlockedEvent env msg i { d with table := t } = d₁ at hens ⊢
  change (if (t.buckets i).isBlocked = true then { d with table := t } else _).counter = _
  split
  · rfl
  · have hexec := blockerExecute_counter env (blockIp msg) (d₁.session i).currentEventId.str
      (blacklistStatus d₁.policy msg) d₁
    generalize blockerExecute env (blockIp msg) (d₁.session i).currentEventId.str
      (blacklistStatus d₁.policy msg) d₁ = result at hexec ⊢
    rw [← hens, ← hexec]
    obtain ⟨ok, d'⟩ := result
    cases ok <;> rfl

theorem makesId_of_found (hfind : sessionFindOrCreate d.table msg.sessionKey env.now = some (i, t)) :
    makesId env msg d = ((t.buckets i).newEvent &&
      (msg.msgType = msgVfsBlocked ||
        match gate d.policy msg with
        | .blacklistBlock => !(t.buckets i).isBlocked
        | .accept => true
        | _ => false)) := by
  unfold makesId
  rw [hfind]

/-- A message moves the counter when it makes an id. -/
theorem processMsg_counter (env : CallEnv) (msg : EventMsg) (d : Daemon) :
    (processMsg env msg d).counter =
      if makesId env msg d then (makeEventId env d).2.counter else d.counter := by
  cases hfind : sessionFindOrCreate d.table msg.sessionKey env.now with
  | none =>
    unfold processMsg vfsBlocked blacklistBlock acceptMsg makesId
    dsimp only
    rw [hfind]
    split
    · rfl
    · split <;> rfl
  | some found =>
    obtain ⟨i, t⟩ := found
    have hid : (ensureId env i { d with table := t, journal := [] }).counter =
        if (t.buckets i).newEvent then (makeEventId env d).2.counter else d.counter :=
      ensureId_counter env i { d with table := t, journal := [] }
    rw [makesId_of_found hfind]
    unfold processMsg
    dsimp only
    by_cases htype : msg.msgType = msgVfsBlocked
    · rw [if_pos htype, decide_eq_true htype, Bool.true_or, Bool.and_true, ← hid]
      unfold vfsBlocked
      dsimp only
      rw [hfind]
      dsimp only
      rw [if_neg (ensureId_ne_nil env i _)]
      rfl
    · rw [if_neg htype, decide_eq_false htype, Bool.false_or]
      cases hgate : gate d.policy msg with
      | blacklistBlock =>
        refine (blacklistBlock_counter (d := { d with journal := [] }) hfind).trans ?_
        dsimp only
        cases (t.buckets i).isBlocked with
        | true =>
          rw [if_pos rfl, Bool.not_true, Bool.and_false]
          rfl
        | false =>
          rw [if_neg Bool.false_ne_true, Bool.not_false, Bool.and_true]
          exact hid
      | accept =>
        dsimp only
        rw [Bool.and_true, ← hid]
        unfold acceptMsg
        rw [hfind]
        exact acceptSession_counter env msg i _
      | protectionOff | extFilterSkip | exceptionBypass | whitelistBypass =>
        dsimp only
        rw [Bool.and_false]
        rfl

/-! ## The events over a message -/

theorem hasEvent_eq_marks (db : Db) (eventId : CStr) :
    db.hasEvent eventId = db.marks.any (EventMark.eventId · = eventId) := by
  unfold Db.hasEvent Db.marks
  rw [List.any_map]
  rfl

/-- The row a message adds is of the event of its session, and of a new one only if it makes an
id. -/
theorem eventWrite_adds (hfind : sessionFindOrCreate d.table msg.sessionKey env.now = some (i, t))
    (hw : eventWrite env msg d = some w) (hnew : w.new ≠ none) :
    w.eventId = (recordEventId env d (t.buckets i)).str ∧
      ((t.buckets i).newEvent = true → makesId env msg d = true) := by
  rw [makesId_of_found hfind]
  unfold eventWrite at hw
  rw [hfind] at hw
  dsimp only at hw
  by_cases htype : msg.msgType = msgVfsBlocked
  · rw [if_pos htype] at hw
    cases hw
    exact ⟨rfl, fun h => by rw [h, decide_eq_true htype]; rfl⟩
  · rw [if_neg htype] at hw
    cases hgate : gate d.policy msg with
    | blacklistBlock =>
      rw [hgate] at hw
      dsimp only at hw
      split at hw
      · cases hw
      · next hflag =>
        split at hw
        · cases hw
          exact ⟨rfl, fun h => by simp [h, hflag]⟩
        · split at hw
          · cases hw
            exact absurd rfl hnew
          · cases hw
    | accept =>
      rw [hgate] at hw
      cases hw
      exact ⟨rfl, fun h => by simp [h]⟩
    | protectionOff | extFilterSkip | exceptionBypass | whitelistBypass =>
      rw [hgate] at hw
      cases hw

/-- The events after a message are those before it, and the one it makes an id for. -/
theorem processMsg_ids (hinv : d.Inv) {ev : EventRow} (hev : ev ∈ (processMsg env msg d).db.events) :
    d.db.hasEvent ev.eventId = true ∨
      makesId env msg d = true ∧ ev.eventId = (makeEventId env d).1.str := by
  have hmark : ev.mark ∈ applyWrite (eventWrite env msg d) d.db.marks := by
    rw [← processMsg_marks]
    exact List.mem_map_of_mem hev
  cases hwrite : eventWrite env msg d with
  | none =>
    rw [hwrite] at hmark
    exact .inl (by
      rw [hasEvent_eq_marks]
      exact List.any_eq_true.2 ⟨ev.mark, hmark, decide_eq_true rfl⟩)
  | some w =>
    rw [hwrite] at hmark
    have hkey (m : EventMark) (h : m.eventId = w.eventId) : (w.rewrite m).eventId = w.eventId := h
    rcases UniqueTable.key_mem_change hkey hmark with hold | ⟨hfree, hadded⟩
    · exact .inl ((hasEvent_eq_marks _ _).trans hold)
    · have hid : ev.eventId = w.eventId := eventWrite_new hwrite _ hadded
      have hnew : w.new ≠ none := fun hnone => by
        rw [hnone] at hadded
        cases hadded
      cases hfind : sessionFindOrCreate d.table msg.sessionKey env.now with
      | none =>
        unfold eventWrite at hwrite
        rw [hfind] at hwrite
        cases hwrite
      | some found =>
        obtain ⟨i, t⟩ := found
        obtain ⟨hevent, hmakes⟩ := eventWrite_adds hfind hwrite hnew
        by_cases hfresh : (t.buckets i).currentEventId.str = []
        · refine .inr ⟨hmakes (decide_eq_true hfresh), ?_⟩
          rw [hid, hevent, recordEventId, if_pos hfresh]
        · -- the session's own event has a row
          have hknown := (sessionFindOrCreate_spec hfind).eventsKnown hinv.known i hfresh
          refine .inl ?_
          rw [hid, hevent, recordEventId, if_neg hfresh]
          exact hknown

/-! ## Runs -/

/-- Where the counter is ahead and is not started over, the number made is above those of the date. -/
theorem CounterAhead.number_lt (h : CounterAhead clock d) (hclock : env.localtime = clock.localtime)
    (hseeds : ¬ (d.dailySeq = 0 ∧ dayChanged env d.dayAnchor = false ∧
      0 < d.db.maxDailySeq (env.localtime env.now).dateText))
    (hn : n ∈ d.db.dayNumbers (env.localtime env.now).dateText) :
    n < (makeEventId env d).2.dailySeq := by
  have hmax := le_maxDailySeq hn
  have hseq : (makeEventId env d).2.dailySeq = (if dayChanged env d.dayAnchor then
      d.db.maxDailySeq (env.localtime env.now).dateText else d.dailySeq) + 1 := rfl
  rw [hseq]
  cases hchanged : dayChanged env d.dayAnchor with
  | true =>
    rw [if_pos rfl]
    omega
  | false =>
    rw [if_neg Bool.false_ne_true]
    rcases h with hzero | hahead
    · have hnone : ¬ 0 < d.db.maxDailySeq (env.localtime env.now).dateText :=
        fun hpos => hseeds ⟨hzero, hchanged, hpos⟩
      omega
    · rw [dateText_of_sameDay hclock hchanged] at hahead
      have := hahead n hn
      omega

/-- The id made is new. -/
theorem CounterAhead.fresh (h : CounterAhead clock d) (hclock : env.localtime = clock.localtime)
    (hseeds : ¬ (d.dailySeq = 0 ∧ dayChanged env d.dayAnchor = false ∧
      0 < d.db.maxDailySeq (env.localtime env.now).dateText))
    (hlow : -2 ^ 31 ≤ (makeEventId env d).2.dailySeq) (hhigh : (makeEventId env d).2.dailySeq < 2 ^ 31) :
    d.db.hasEvent (makeEventId env d).1.str = false := by
  refine Bool.eq_false_iff.2 fun hevent => ?_
  obtain ⟨ev, hev, hid⟩ := List.any_eq_true.1 hevent
  have hid := (of_decide_eq_true hid).trans (makeEventId_str hclock hlow hhigh)
  exact absurd (h.number_lt hclock hseeds (mem_dayNumbers hev hid)) (lt_irrefl _)

/-- A message keeps the counter ahead. -/
theorem CounterAhead.message (hinv : d.Inv) (h : CounterAhead clock d)
    (hclock : env.localtime = clock.localtime)
    (hseeds : makesId env msg d = true → ¬ (d.dailySeq = 0 ∧ dayChanged env d.dayAnchor = false ∧
        0 < d.db.maxDailySeq (env.localtime env.now).dateText) ∧
      -2 ^ 31 ≤ (makeEventId env d).2.dailySeq ∧ (makeEventId env d).2.dailySeq < 2 ^ 31) :
    CounterAhead clock (processMsg env msg d) := by
  have hcounter := processMsg_counter env msg d
  have hids (ev : EventRow) (hev : ev ∈ (processMsg env msg d).db.events) :=
    processMsg_ids hinv hev
  cases hmakes : makesId env msg d with
  | false =>
    rw [hmakes, if_neg Bool.false_ne_true] at hcounter
    have hseq : (processMsg env msg d).dailySeq = d.dailySeq := congrArg Prod.fst hcounter
    have hanchor : (processMsg env msg d).dayAnchor = d.dayAnchor := congrArg Prod.snd hcounter
    unfold CounterAhead
    rw [hseq, hanchor]
    refine h.imp_right fun hahead n hn => ?_
    rcases dayNumbers_of_ids (P := fun _ => False)
      (fun ev hev => (hids ev hev).imp_right fun hmade => by
        rw [hmakes] at hmade
        exact Bool.false_ne_true hmade.1) hn with hold | ⟨id, hfalse, -⟩
    · exact hahead n hold
    · exact hfalse.elim
  | true =>
    obtain ⟨hseeded, hlow, hhigh⟩ := hseeds hmakes
    rw [hmakes, if_pos rfl] at hcounter
    have hseq : (processMsg env msg d).dailySeq = (makeEventId env d).2.dailySeq :=
      congrArg Prod.fst hcounter
    have hanchor : (clock.localtime (processMsg env msg d).dayAnchor).dateText =
        (env.localtime env.now).dateText := by
      have hmade : (processMsg env msg d).dayAnchor =
          if dayChanged env d.dayAnchor then env.now else d.dayAnchor := congrArg Prod.snd hcounter
      rw [hmade]
      cases hchanged : dayChanged env d.dayAnchor with
      | true => rw [if_pos rfl, hclock]
      | false =>
        rw [if_neg Bool.false_ne_true]
        exact dateText_of_sameDay hclock hchanged
    refine .inr fun n hn => ?_
    rw [hanchor] at hn
    rw [hseq]
    rcases dayNumbers_of_ids (P := fun id => id = (makeEventId env d).1.str)
      (fun ev hev => (hids ev hev).imp_right And.right) hn with hold | ⟨id, rfl, hnumber⟩
    · exact (h.number_lt hclock hseeded hold).le
    · rw [makeEventId_str hclock hlow hhigh, number_of_id] at hnumber
      exact hnumber.symm.le

/-- The daemon's invariant, and its counter ahead. -/
def FreshState.Inv (s : FreshState) : Prop := s.daemon.Inv ∧ CounterAhead s.clock s.daemon

theorem freshStep_inv {s : FreshState} (h : s.Inv) (e : FreshEvent) (hseeds : SeedsCounter s e) :
    (freshStep s e).Inv := by
  cases e with
  | restart p clock => exact ⟨Daemon.inv_start p _, .inl rfl⟩
  | daemon e =>
    refine ⟨h.1.step _, ?_⟩
    cases e with
    | message env msg => exact h.2.message h.1 rfl fun hmakes => hseeds _ rfl _ _ rfl hmakes
    | lookup key now =>
      show CounterAhead s.clock (daemonStep s.daemon (.lookup key now))
      unfold daemonStep
      dsimp only
      split <;> exact h.2
    | reload np syncOk => cases np <;> exact h.2

/-- Every id made in a run that does not start the counter over is of no event yet. -/
theorem event_ids_fresh (p : LoadedPolicy) (db : Db) (clock : LocalClock) (es : List FreshEvent)
    (h : Runs.AllSteps freshStep SeedsCounter ⟨Daemon.start p db, clock⟩ es) :
    Runs.AllSteps freshStep FreshId ⟨Daemon.start p db, clock⟩ es := by
  refine Runs.allSteps_imp FreshState.Inv (fun s e hinv hseeds => ?_)
    (fun s e hinv hseeds => freshStep_inv hinv e hseeds) ⟨Daemon.inv_start p db, .inl rfl⟩ h
  intro e' he env msg hmsg hmakes
  obtain ⟨hseeded, hlow, hhigh⟩ := hseeds e' he env msg hmsg hmakes
  have hclock : env.localtime = s.clock.localtime := by
    cases e' with
    | message env' msg' =>
      cases hmsg
      rfl
    | lookup key now => cases hmsg
    | reload np syncOk => cases hmsg
  exact hinv.2.fresh hclock hseeded hlow hhigh

end

/-- A clock that shows the first day of 1970 and, from 2026 on, that of 2026. -/
def sampleClock : LocalClock where
  localtime s := if s < 1767225600 then ⟨70, 0, 0, 1, 0, 0, 0⟩ else ⟨126, 0, 0, 1, 0, 0, 0⟩
  date s t _ _ := by
    split <;> split <;> exact ⟨rfl, rfl⟩
  bounds t := by
    split <;> decide

/-- Alice writes at a time, and again after a restart of the daemon. -/
def writeAgain (now : Int) : List FreshEvent :=
  [.daemon (.message { sampleEnv 0 with now := now } (sampleWrite "a.txt")),
    .restart .default sampleClock,
    .daemon (.message { sampleEnv 0 with now := now } (sampleWrite "a.txt"))]

/-- In 2026 the second number is taken from the database. -/
theorem event_ids_fresh_sample :
    Runs.AllSteps freshStep FreshId ⟨Daemon.start .default .empty, sampleClock⟩
      (writeAgain 1767225600) := by
  refine event_ids_fresh .default .empty sampleClock (writeAgain 1767225600)
    ⟨fun e he env msg hmsg _ => ?_, fun e he => ?_, fun e he env msg hmsg _ => ?_, trivial⟩
  · cases he
    cases hmsg
    decide
  · cases he
  · cases he
    cases hmsg
    decide

/-- On the first day of 1970 it starts over. -/
theorem event_ids_not_always_fresh :
    ¬ ∀ (p : LoadedPolicy) (db : Db) (clock : LocalClock) (es : List FreshEvent),
      Runs.AllSteps freshStep FreshId ⟨Daemon.start p db, clock⟩ es := by
  intro h
  have hfresh := (h .default .empty sampleClock (writeAgain 5)).2.2.1 _ rfl _ _ rfl (by decide)
  exact absurd hfresh (by decide)

end GfrGuard
