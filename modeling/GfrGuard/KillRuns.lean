import GfrGuard.HostIdentity
import GfrGuard.Run

/-!
# The killers

A channel resolves the process of an event, and when its session is to be stopped signals go to the
process id: from the daemon at once, and from a reaper child after a while. Between any two steps
processes exit and their ids are given to others. The start time is checked once if it is known, and
not again before the later signals. Every signal that reaches a process reaches the one that was
resolved, or a descendant that was collected from it, when the id denotes that process where the
killer starts and no id it still signals is given away after (`kill_on_target`).
-/

namespace GfrGuard

/-! ## Processes -/

/-- A process, with what `/proc` shows of it. No two processes of a run have the same `id`. -/
structure Proc extends ProcInstance where
  id : Nat
  parent : Option Nat
  comm : Comm
  fields : StatFields

/-- The processes there are, by process id. -/
structure ProcTable where
  proc : Nat → Option Proc
  nextId : Nat
  pid_eq : ∀ k q, proc k = some q → q.pid = k
  id_lt : ∀ k q, proc k = some q → q.id < nextId

/-- What happens to processes whatever the killers do. -/
inductive ProcEvent where
  | spawn (p : ProcInstance) (parent : Option Nat) (comm : Comm) (fields : StatFields)
  | exit (pid : Nat)
  | change (pid : Nat) (parent : Option Nat) (comm : Comm) (fields : StatFields)

namespace ProcTable

/-- A new process, under an id that is free. -/
def spawn (t : ProcTable) (p : ProcInstance) (parent : Option Nat) (comm : Comm)
    (fields : StatFields) (_hfree : t.proc p.pid = none) : ProcTable where
  proc k := if k = p.pid then some ⟨p, t.nextId, parent, comm, fields⟩ else t.proc k
  nextId := t.nextId + 1
  pid_eq k q h := by
    split at h
    · next hk => cases h; exact hk.symm
    · exact t.pid_eq k q h
  id_lt k q h := by
    split at h
    · cases h; exact Nat.lt_succ_self _
    · exact (t.id_lt k q h).trans (Nat.lt_succ_self _)

/-- The table without a process. -/
def exit (t : ProcTable) (pid : Nat) : ProcTable where
  proc k := if k = pid then none else t.proc k
  nextId := t.nextId
  pid_eq k q h := t.pid_eq k q (Option.ite_none_left_eq_some.1 h).2
  id_lt k q h := t.id_lt k q (Option.ite_none_left_eq_some.1 h).2

/-- A process that renames itself, runs on or gets another parent. -/
def change (t : ProcTable) (pid : Nat) (parent : Option Nat) (comm : Comm)
    (fields : StatFields) : ProcTable where
  proc k := if k = pid then (t.proc k).map fun q => ⟨q.toProcInstance, q.id, parent, comm, fields⟩
    else t.proc k
  nextId := t.nextId
  pid_eq k q h := by
    split at h
    · obtain ⟨q, hq, rfl⟩ := Option.map_eq_some_iff.1 h
      exact t.pid_eq k q hq
    · exact t.pid_eq k q h
  id_lt k q h := by
    split at h
    · obtain ⟨q, hq, rfl⟩ := Option.map_eq_some_iff.1 h
      exact t.id_lt k q hq
    · exact t.id_lt k q h

/-- One event; no process gets an id that another one has. -/
def step (t : ProcTable) : ProcEvent → ProcTable
  | .spawn p parent comm fields =>
    if hfree : t.proc p.pid = none then t.spawn p parent comm fields hfree else t
  | .exit pid => t.exit pid
  | .change pid parent comm fields => t.change pid parent comm fields

/-- The process an id denotes. -/
def denotes (t : ProcTable) (pid : Int) : Option Proc := if 0 < pid then t.proc pid.toNat else none

/-- `/proc/<pid>/stat`. -/
def statFile (t : ProcTable) (pid : Int) : Option CStr :=
  (t.denotes pid).map fun q => statText q.toProcInstance q.comm q.fields

/-- What `/proc` shows of an id. -/
def shows (t : ProcTable) (pid : Int) (proc : ProcInfo) : ProcInfo :=
  { proc with
    procStat := fanProcStat (t.statFile pid)
    cmdline := (t.denotes pid).bind fun _ => proc.cmdline }

/-- `/proc/<pid>/task/<pid>/children`, in some order. -/
def children (t : ProcTable) (pid : Int) (order : List Nat) : List (Int × Nat) :=
  match t.denotes pid with
  | none => []
  | some p =>
    order.dedup.filterMap fun k =>
      match t.proc k with
      | some q => if q.parent = some p.id then some (k, q.id) else none
      | none => none

end ProcTable

/-! ## The killers -/

/-- The signals that are sent. -/
inductive Signal where
  | term
  | kill
deriving DecidableEq

/-- A step of a killer: a signal, or `kill(pid, 0) == 0` of an id above a bound, on which the next
steps depend. -/
inductive KillOp where
  | signal (pid : Int) (sig : Signal)
  | guard (above pid : Int) (skip : Nat)
deriving DecidableEq

def KillOp.pid : KillOp → Int
  | .signal pid _ => pid
  | .guard _ pid _ => pid

/-- How far the killing for an event has come. -/
inductive Killer where
  | idle
  /-- `ftp_resolve` has the session and not yet the start time. -/
  | named (pid : Int)
  /-- The event has its `fan_channel_ctx`; the start time is 0 where it is not known. -/
  | resolved (c : Channel) (pid : Int) (start : Nat)
  /-- `cloud_kill_process_tree` has found the root alive. -/
  | rooted (root : Int)
  /-- `collect_children` has these ids, and those are still to be taken from the files read. -/
  | collecting (root : Int) (pids todo : List Int)
  /-- Signals are sent; then, if it is to come, the fork: what follows without a reaper, and what
  the reaper does. -/
  | running (plan : List KillOp) (reaper : Option (List KillOp × List KillOp))
deriving DecidableEq

/-- The check with which a channel's killer starts: of `local_kill` the start time if it is known, of
`ftp_block_execute` the name too, of `cloud_kill_process_tree` that there is such a process. -/
def ProcTable.killCheck (t : ProcTable) (c : Channel) (pid : Int) (start : Nat) : Bool :=
  match c with
  | .host => start = 0 || fanProcStart (t.statFile pid) = some start
  | .ftp =>
    match fanProcStat (t.statFile pid) with
    | none => false
    | some (comm, now) => (lit "vsftpd").isPrefixOf comm.str && (start = 0 || now = start)
  | .cloud => 1 < pid && (t.denotes pid).isSome

/-- A signal to each of the ids that is alive, the last collected first. -/
def signalEach (sig : Signal) (pids : List Int) : List KillOp :=
  pids.reverse.flatMap fun pid => [.guard 1 pid 1, .signal pid sig]

/-- What a killer does once its check has passed. -/
def Channel.killer (c : Channel) (pid : Int) : Killer :=
  match c with
  | .host => .running [.signal pid .kill] none
  | .ftp =>
    .running [.signal pid .term] (some ([.signal pid .kill], [.guard 0 pid 1, .signal pid .kill]))
  | .cloud => .rooted pid

/-- `cloud_kill_process_tree` with the descendants collected. -/
def cloudKiller (root : Int) (pids : List Int) : Killer :=
  .running (signalEach .term pids) (some ([.signal root .term, .signal root .kill],
    signalEach .kill pids ++
      [.guard 1 root 3, .signal root .term, .guard 1 root 1, .signal root .kill]))

/-- The cap of `collect_children`. -/
abbrev maxPids : Nat := 256

/-- The processes and one killer among them. -/
structure KillSystem where
  table : ProcTable
  killer : Killer
  /-- The process resolved for the event, and the descendants collected from it. -/
  targets : List (Int × Nat)

/-- A process event, the resolution of an event, or the next step of the killer with what it
observes. -/
inductive KillEvent where
  | world (e : ProcEvent)
  | resolve (c : Channel) (path : CBuf pathMax) (pid : Int) (proc : ProcInfo)
  | go (order : List Nat) (forkOk : Bool)

namespace KillSystem

/-- The ids a killer still depends on after its check. -/
def held (s : KillSystem) : List Int :=
  match s.killer with
  | .idle | .named _ | .resolved _ _ _ => []
  | .rooted root => [root]
  | .collecting root pids todo => root :: (pids ++ todo)
  | .running plan none => plan.map KillOp.pid
  | .running plan (some (failed, child)) => (plan ++ failed ++ child).map KillOp.pid

/-- The channel resolves an event; the killer of an earlier one has not started or is done. -/
def resolve (s : KillSystem) (c : Channel) (path : CBuf pathMax) (pid : Int) (proc : ProcInfo) :
    KillSystem :=
  let proc := s.table.shows pid proc
  match c.ops.resolve proc ⟨path, 0 < pid, dec pid.toNat⟩ with
  | none => { s with killer := .idle }
  | some _ =>
    { s with
      killer := match c with
        | .host => .resolved .host pid ((proc.procStat.map Prod.snd).getD 0)
        | .ftp => .named pid
        | .cloud => .resolved .cloud pid 0
      targets := (s.table.denotes pid).toList.map fun q => (pid, q.id) }

/-- `collect_children` reads a file: what it lists comes first, and is collected from a target if the
process it lists the children of is one. -/
def read (s : KillSystem) (root pid : Int) (pids todo : List Int) (order : List Nat) : KillSystem :=
  let listed := s.table.children pid order
  { s with
    killer := .collecting root pids (listed.map Prod.fst ++ todo)
    targets :=
      if (s.table.denotes pid).any fun p => (pid, p.id) ∈ s.targets then listed ++ s.targets
      else s.targets }

/-- The next step of the killer. -/
def go (s : KillSystem) (order : List Nat) (forkOk : Bool) : KillSystem :=
  match s.killer with
  | .idle => s
  | .named pid =>
    { s with killer := .resolved .ftp pid ((fanProcStart (s.table.statFile pid)).getD 0) }
  | .resolved c pid start =>
    { s with killer := if s.table.killCheck c pid start then c.killer pid else .idle }
  | .rooted root => s.read root root [] [] order
  | .collecting root pids [] => { s with killer := cloudKiller root pids }
  | .collecting root pids (k :: todo) =>
    if maxPids ≤ pids.length ∨ k ≤ 1 then { s with killer := .collecting root pids todo }
    else if pids.length + 1 = maxPids then { s with killer := .collecting root (pids ++ [k]) todo }
    else s.read root k (pids ++ [k]) todo order
  | .running (.signal _ _ :: plan) reaper => { s with killer := .running plan reaper }
  | .running (.guard above pid skip :: plan) reaper =>
    { s with
      killer := .running
        (if above < pid ∧ (s.table.denotes pid).isSome then plan else plan.drop skip) reaper }
  | .running [] (some (failed, child)) =>
    { s with killer := .running (if forkOk then child else failed) none }
  | .running [] none => { s with killer := .idle }

/-- The id a killer starts on, once its check lets it. -/
def begins (s : KillSystem) : Option Int :=
  match s.killer with
  | .resolved c pid start => if s.table.killCheck c pid start then some pid else none
  | _ => none

/-- The signal a step sends. -/
def signal (s : KillSystem) : KillEvent → Option (Int × Signal)
  | .go _ _ =>
    match s.killer with
    | .running (.signal pid sig :: _) _ => some (pid, sig)
    | _ => none
  | _ => none

/-- The system before an event is resolved. -/
def start (t : ProcTable) : KillSystem := ⟨t, .idle, []⟩

end KillSystem

/-- One step; an event is resolved when no killer is at work. -/
def killStep (s : KillSystem) : KillEvent → KillSystem
  | .world e => { s with table := s.table.step e }
  | .resolve c path pid proc => if s.held = [] then s.resolve c path pid proc else s
  | .go order forkOk => s.go order forkOk

/-- An id is a process id, and denotes a target if it denotes anything. -/
def KillSystem.Tracked (s : KillSystem) (pid : Int) : Prop :=
  0 < pid ∧ ∀ q ∈ s.table.denotes pid, (pid, q.id) ∈ s.targets

instance (s : KillSystem) (pid : Int) : Decidable (s.Tracked pid) :=
  inferInstanceAs (Decidable (_ ∧ _))

/-- A signal goes to a target, or to an id of no process. -/
def OnTarget (s : KillSystem) (e : KillEvent) : Prop :=
  ∀ r ∈ s.signal e, s.Tracked r.1

instance (s : KillSystem) (e : KillEvent) : Decidable (OnTarget s e) :=
  inferInstanceAs (Decidable (∀ _ ∈ _, _))

/-- The id a new process gets. -/
def ProcEvent.takes (t : ProcTable) : ProcEvent → Option Nat
  | .spawn p _ _ _ => if t.proc p.pid = none then some p.pid else none
  | _ => none

/-- A killer starts on the process that was resolved, and no id it holds is given to another. -/
def Undisturbed (s : KillSystem) : KillEvent → Prop
  | .world e => ∀ k ∈ e.takes s.table, (k : Int) ∉ s.held
  | .resolve _ _ _ _ => True
  | .go _ _ => ∀ k ∈ s.begins, s.Tracked k

instance : ∀ (s : KillSystem) (e : KillEvent), Decidable (Undisturbed s e)
  | _, .world _ => inferInstanceAs (Decidable (∀ _ ∈ _, _))
  | _, .resolve _ _ _ _ => inferInstanceAs (Decidable True)
  | _, .go _ _ => inferInstanceAs (Decidable (∀ _ ∈ _, _))

/-- Every id the killer depends on is tracked. -/
def KillSystem.Safe (s : KillSystem) : Prop :=
  ∀ k ∈ s.held, s.Tracked k

section
variable {t : ProcTable} {s s' : KillSystem} {pid k root : Int} {q : Proc} {e : ProcEvent}
  {pids todo : List Int} {order : List Nat} {c : Channel} {start : Nat} {sig : Signal}

/-! ## What a process event changes -/

/-- What an id denotes after an event it denoted before, unless the id is just being given away. -/
theorem ProcTable.step_denotes (h : q ∈ (t.step e).denotes k) :
    (∃ q' ∈ t.denotes k, q'.id = q.id) ∨ ∃ n ∈ e.takes t, (n : Int) = k := by
  obtain ⟨hpos, hq⟩ := Option.ite_none_right_eq_some.1 h
  have hdenotes : ∀ q', t.proc k.toNat = some q' → q' ∈ t.denotes k := fun q' hq' =>
    Option.ite_none_right_eq_some.2 ⟨hpos, hq'⟩
  cases e with
  | spawn p parent comm fields =>
    unfold ProcTable.step at hq
    dsimp only at hq
    split at hq
    · next hfree =>
      rw [ProcTable.spawn] at hq
      dsimp only at hq
      split at hq
      · next hk => exact .inr ⟨p.pid, by simp [ProcEvent.takes, hfree], by omega⟩
      · exact .inl ⟨q, hdenotes q hq, rfl⟩
    · exact .inl ⟨q, hdenotes q hq, rfl⟩
  | exit pid => exact .inl ⟨q, hdenotes q (Option.ite_none_left_eq_some.1 hq).2, rfl⟩
  | change pid parent comm fields =>
    rw [ProcTable.step, ProcTable.change] at hq
    dsimp only at hq
    split at hq
    · obtain ⟨q', hq', rfl⟩ := Option.map_eq_some_iff.1 hq
      exact .inl ⟨q', hdenotes q' hq', rfl⟩
    · exact .inl ⟨q, hdenotes q hq, rfl⟩

theorem KillSystem.Safe.world (hs : s.Safe) (he : Undisturbed s (.world e)) :
    (killStep s (.world e)).Safe := by
  intro k hk
  obtain ⟨hpos, htargets⟩ := hs k hk
  refine ⟨hpos, fun q hq => ?_⟩
  rcases ProcTable.step_denotes hq with ⟨q', hq', hid⟩ | ⟨n, hn, rfl⟩
  · rw [← hid]
    exact htargets q' hq'
  · exact absurd hk (he n hn)

/-! ## What the killer does -/

/-- An id stays tracked while the processes stay and targets are added. -/
theorem KillSystem.Tracked.mono (h : s.Tracked k) (htable : s'.table = s.table)
    (htargets : s.targets ⊆ s'.targets) : s'.Tracked k :=
  ⟨h.1, fun q hq => htargets (h.2 q (htable ▸ hq))⟩

/-- What is listed are ids of processes. -/
theorem ProcTable.of_mem_children {r : Int × Nat} (h : r ∈ t.children pid order) :
    ∃ q, t.denotes r.1 = some q ∧ r.2 = q.id ∧ 0 < r.1 := by
  unfold ProcTable.children at h
  split at h
  · cases h
  · obtain ⟨k, -, hk⟩ := List.mem_filterMap.1 h
    split at hk
    · next q hq =>
      obtain ⟨-, hr⟩ := Option.ite_none_right_eq_some.1 hk
      cases hr
      have hpos : 0 < (k : Int) := by
        have := q.pid_pos
        rw [t.pid_eq k q hq] at this
        omega
      exact ⟨q, by rw [ProcTable.denotes, if_pos hpos]; exact hq, rfl, hpos⟩
    · cases hk

/-- Reading the children of a tracked id keeps every id tracked. -/
theorem KillSystem.Safe.read (hpid : s.Tracked pid) (hroot : s.Tracked root)
    (hpids : ∀ k ∈ pids, s.Tracked k) (htodo : ∀ k ∈ todo, s.Tracked k) :
    (s.read root pid pids todo order).Safe := by
  have hmono : ∀ k, s.Tracked k → (s.read root pid pids todo order).Tracked k := fun k hk => by
    refine hk.mono rfl ?_
    unfold KillSystem.read
    dsimp only
    split
    · exact List.subset_append_right _ _
    · exact List.Subset.refl _
  intro k hk
  have hk : k ∈ root :: (pids ++ ((s.table.children pid order).map Prod.fst ++ todo)) := hk
  simp only [List.mem_cons, List.mem_append, List.mem_map] at hk
  rcases hk with rfl | hk | ⟨r, hr, rfl⟩ | hk
  · exact hmono _ hroot
  · exact hmono k (hpids k hk)
  · obtain ⟨q, hq, hid, hpos⟩ := ProcTable.of_mem_children hr
    refine ⟨hpos, fun q' hq' => ?_⟩
    obtain rfl : q = q' := Option.some.inj (hq.symm.trans hq')
    -- the process whose children are listed is a target
    have htarget : (s.table.denotes pid).any (fun p => (pid, p.id) ∈ s.targets) = true := by
      cases hp : s.table.denotes pid with
      | none => simp [ProcTable.children, hp] at hr
      | some p => simpa using hpid.2 p hp
    rw [KillSystem.read]
    dsimp only
    rw [if_pos htarget]
    exact List.mem_append_left _ (by rw [← hid]; exact hr)
  · exact hmono k (htodo k hk)

theorem pid_of_mem_signalEach (h : k ∈ (signalEach sig pids).map KillOp.pid) : k ∈ pids := by
  obtain ⟨op, hop, rfl⟩ := List.mem_map.1 h
  obtain ⟨p, hp, hop⟩ := List.mem_flatMap.1 hop
  have hpid : op.pid = p := by
    rcases List.mem_cons.1 hop with rfl | hop
    · rfl
    · rw [List.mem_singleton.1 hop]
      rfl
  rw [hpid]
  exact List.mem_reverse.1 hp

/-- What a killer depends on after its check is the id it checked. -/
theorem held_killer {targets : List (Int × Nat)} (h : k ∈ KillSystem.held ⟨t, c.killer pid, targets⟩) :
    k = pid := by
  cases c <;> simpa [Channel.killer, KillSystem.held, KillOp.pid] using h

theorem held_cloudKiller {targets : List (Int × Nat)}
    (h : k ∈ KillSystem.held ⟨t, cloudKiller root pids, targets⟩) : k = root ∨ k ∈ pids := by
  simp only [cloudKiller, KillSystem.held, List.map_append, List.mem_append] at h
  rcases h with (h | h) | h | h
  · exact .inr (pid_of_mem_signalEach h)
  · exact .inl (by simpa [KillOp.pid] using h)
  · exact .inr (pid_of_mem_signalEach h)
  · exact .inl (by simpa [KillOp.pid] using h)

theorem held_running_subset {plan plan' : List KillOp} {reaper : Option (List KillOp × List KillOp)}
    {targets : List (Int × Nat)} (hplan : plan ⊆ plan')
    (h : k ∈ KillSystem.held ⟨t, .running plan reaper, targets⟩) :
    k ∈ KillSystem.held ⟨t, .running plan' reaper, targets⟩ := by
  cases reaper with
  | none => exact List.map_subset _ hplan h
  | some next =>
    simp only [KillSystem.held, List.map_append, List.mem_append] at h ⊢
    exact h.imp_left (Or.imp_left fun h => List.map_subset _ hplan h)

/-- A killer that only goes on holds what it held. -/
theorem KillSystem.Safe.of_held (hs : s.Safe) (htable : s'.table = s.table)
    (htargets : s.targets ⊆ s'.targets) (hheld : ∀ k ∈ s'.held, k ∈ s.held) : s'.Safe :=
  fun k hk => (hs k (hheld k hk)).mono htable htargets

/-- A killer starts on the id it has checked. -/
theorem KillSystem.Safe.begin {forkOk : Bool} {targets : List (Int × Nat)}
    (he : Undisturbed ⟨t, .resolved c pid start, targets⟩ (.go order forkOk)) :
    (KillSystem.go ⟨t, .resolved c pid start, targets⟩ order forkOk).Safe := by
  cases hcheck : t.killCheck c pid start with
  | false =>
    intro k hk
    simp [KillSystem.go, hcheck, held] at hk
  | true =>
    have hpid := he pid (by simp [begins, hcheck])
    intro k hk
    simp only [KillSystem.go, hcheck, if_true] at hk ⊢
    obtain rfl := held_killer hk
    exact hpid.mono rfl (List.Subset.refl _)

/-- The ids that are collected were tracked when their files were read. -/
theorem KillSystem.Safe.collect {forkOk : Bool} {targets : List (Int × Nat)}
    (hs : KillSystem.Safe ⟨t, .collecting root pids todo, targets⟩) :
    (KillSystem.go ⟨t, .collecting root pids todo, targets⟩ order forkOk).Safe := by
  have hroot := hs root List.mem_cons_self
  have hpids := fun k hk => hs k (List.mem_cons_of_mem _ (List.mem_append_left todo hk))
  cases todo with
  | nil =>
    intro k hk
    rcases held_cloudKiller hk with rfl | hk
    · exact hroot.mono rfl (List.Subset.refl _)
    · exact (hpids k hk).mono rfl (List.Subset.refl _)
  | cons k todo =>
    have hk := hs k (List.mem_cons_of_mem _ (List.mem_append_right pids List.mem_cons_self))
    have hrest := fun k' hk' =>
      hs k' (List.mem_cons_of_mem _ (List.mem_append_right pids (List.mem_cons_of_mem k hk')))
    simp only [KillSystem.go]
    split_ifs
    · refine hs.of_held rfl (List.Subset.refl _) fun k' hk' => ?_
      simp only [held, List.mem_cons, List.mem_append] at hk' ⊢
      tauto
    · refine hs.of_held rfl (List.Subset.refl _) fun k' hk' => ?_
      simp only [held, List.mem_cons, List.mem_append, List.not_mem_nil, or_false] at hk' ⊢
      tauto
    · refine .read hk hroot (fun k' hk' => ?_) hrest
      rcases List.mem_append.1 hk' with hk' | hk'
      · exact hpids k' hk'
      · rw [List.mem_singleton.1 hk']
        exact hk

/-- A killer that sends its signals holds no more than before. -/
theorem KillSystem.Safe.runOn {forkOk : Bool} {plan : List KillOp}
    {reaper : Option (List KillOp × List KillOp)} {targets : List (Int × Nat)}
    (hs : KillSystem.Safe ⟨t, .running plan reaper, targets⟩) :
    (KillSystem.go ⟨t, .running plan reaper, targets⟩ order forkOk).Safe := by
  cases plan with
  | nil =>
    cases reaper with
    | none => exact nofun
    | some next =>
      refine hs.of_held rfl (List.Subset.refl _) fun k hk => ?_
      cases forkOk <;> simp_all [KillSystem.go, held]
  | cons op plan =>
    cases op with
    | signal pid sig =>
      exact hs.of_held rfl (List.Subset.refl _) fun k hk =>
        held_running_subset (List.subset_cons_self _ plan) hk
    | guard above pid skip =>
      refine hs.of_held rfl (List.Subset.refl _) fun k hk => held_running_subset ?_ hk
      split_ifs
      · exact List.subset_cons_self _ plan
      · exact fun op hop => List.mem_cons_of_mem _ (List.mem_of_mem_drop hop)

/-- The next step of the killer keeps every id tracked. -/
theorem KillSystem.Safe.go {forkOk : Bool} (hs : s.Safe) (he : Undisturbed s (.go order forkOk)) :
    (s.go order forkOk).Safe := by
  obtain ⟨t, killer, targets⟩ := s
  cases killer with
  | idle => exact hs
  | named pid => exact nofun
  | resolved c pid start => exact .begin he
  | rooted root =>
    have hroot := hs root List.mem_cons_self
    exact .read hroot hroot nofun nofun
  | collecting root pids todo => exact hs.collect
  | running plan reaper => exact hs.runOn

theorem KillSystem.Safe.step {e : KillEvent} (hs : s.Safe) (he : Undisturbed s e) :
    (killStep s e).Safe := by
  cases e with
  | world e => exact hs.world he
  | go order forkOk => exact hs.go he
  | resolve c path pid proc =>
    unfold killStep
    dsimp only
    split
    · unfold KillSystem.resolve
      dsimp only
      split
      · exact nofun
      · cases c <;> exact nofun
    · exact hs

/-- A signal goes to an id the killer holds. -/
theorem mem_held_of_signal {e : KillEvent} {r : Int × Signal} (h : s.signal e = some r) : r.1 ∈ s.held := by
  cases e with
  | world e => cases h
  | resolve c path pid proc => cases h
  | go order forkOk =>
    obtain ⟨t, killer, targets⟩ := s
    unfold KillSystem.signal at h
    dsimp only at h
    split at h
    · next pid sig plan reaper =>
      cases h
      cases reaper <;> exact List.mem_cons_self
    · cases h

/-- In a run in which killers start on the processes resolved for their events, and the ids they hold
are not given to others, every signal goes to its target. -/
theorem kill_on_target (t : ProcTable) (es : List KillEvent)
    (h : Runs.AllSteps killStep Undisturbed (KillSystem.start t) es) :
    Runs.AllSteps killStep OnTarget (KillSystem.start t) es :=
  Runs.allSteps_imp KillSystem.Safe (fun _ _ hs _ r hr => hs r.1 (mem_held_of_signal hr))
    (fun _ _ hs he => hs.step he) nofun h

/-! ## The start time -/

/-- A start time that is known lets a process of another one pass only under a name with a newline. -/
theorem killCheck_start (hc : c ≠ .cloud) (hstart : start ≠ 0) (hq : t.denotes pid = some q)
    (hnl : newline ∉ q.comm.str) (hcheck : t.killCheck c pid start = true) : q.start = start := by
  have hfile : t.statFile pid = some (statText q.toProcInstance q.comm q.fields) := by
    rw [ProcTable.statFile, hq, Option.map_some]
  cases c with
  | cloud => exact absurd rfl hc
  | host =>
    rw [ProcTable.killCheck, hfile, fanProcStart_statText, readAs, if_neg hnl] at hcheck
    split_ifs at hcheck
    · simp [hstart] at hcheck
    · simpa [hstart] using hcheck
  | ftp =>
    rw [ProcTable.killCheck, hfile, fanProcStat_statText, readAs, if_neg hnl] at hcheck
    split_ifs at hcheck
    simpa [hstart] using (Bool.and_eq_true_iff.1 hcheck).2

end

/-! ## An id that is given away -/

/-- No name. -/
def noComm : Comm := ⟨[], by decide, by decide⟩

/-- The process of an FTP session. -/
def ftpProc : ProcEvent :=
  .spawn sampleProc none ⟨lit "vsftpd", by decide, by decide⟩ (sampleSighting noComm).fields

/-- Another process that gets its id. -/
def laterProc : ProcEvent :=
  .spawn ⟨7, sampleProc.pid_pos, sampleProc.pid_lt, 200, by decide⟩ none
    ⟨lit "sh", by decide, by decide⟩ (sampleSighting noComm).fields

/-- No processes. -/
def ProcTable.empty : ProcTable := ⟨fun _ => none, 0, nofun, nofun⟩

/-- The killer goes on. -/
def goOn : KillEvent := .go [] true

/-- The FTP process is resolved, and its killer has sent the first signal and forked. -/
def ftpKilling : List KillEvent :=
  [.world ftpProc, .resolve .ftp (.ofStr pathMax (lit "/srv/a")) 7 ⟨none, none, [], none⟩,
    goOn, goOn, goOn, goOn]

/-- The reaper kills the process, and its id is given away after. -/
theorem kill_on_target_sample : Runs.AllSteps killStep OnTarget (KillSystem.start .empty)
    (ftpKilling ++ [goOn, goOn, .world (.exit 7), .world laterProc]) :=
  kill_on_target .empty _ (by decide)

/-- The process exits, its id is given away, and the reaper kills the other one. -/
theorem kill_not_always_on_target : ¬ ∀ (t : ProcTable) (es : List KillEvent),
    Runs.AllSteps killStep OnTarget (KillSystem.start t) es := by
  intro h
  have hrun := h .empty (ftpKilling ++ [.world (.exit 7), .world laterProc, goOn, goOn])
  revert hrun
  decide

end GfrGuard
