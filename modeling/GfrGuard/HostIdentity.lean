import GfrGuard.DenySignal
import GfrGuard.ProcStat

/-!
# The session of a process

The host channel keys a session by the name of the process, its id and its start time, each as read
from `/proc`. The name is the process's to change: a process stays in one session exactly as long
as its names read alike, and two processes are told apart exactly as long as one of them is read and
no name makes a process of the same id read as the other (`host_identity_iff`).
-/

namespace GfrGuard

/-- What an event of a process is resolved from: the name it has then, nothing once `/proc` shows it
no more, and its executable, one that is not whitelisted. -/
structure Sighting where
  path : CBuf pathMax
  comm : Option Comm
  fields : StatFields
  exe : CStr
  exe_ne_nil : exe ≠ []
  exe_not_mem : exe ∉ exeWhitelist

/-- The event, in `/proc` and from the kernel. -/
def Sighting.proc (p : ProcInstance) (s : Sighting) : ProcInfo where
  cmdline := none
  procStat := fanProcStat (s.comm.map (statText p · s.fields))
  exe := s.exe
  ftpSession := none

def Sighting.event (p : ProcInstance) (s : Sighting) : FanotifyEvent := ⟨s.path, true, dec p.pid⟩

/-- The key of the session an event of a process is resolved to. -/
def hostKey (p : ProcInstance) (s : Sighting) : Option (CBuf 128) :=
  (localResolve (s.proc p) (s.event p)).map ChannelCtx.sessionKey

/-- What the process is read as at the event. -/
def Sighting.reads (p : ProcInstance) (s : Sighting) : Option (CBuf 64 × Nat) :=
  s.comm.bind (readAs p.start ·.str)

/-- The session identifies the process, over the events of one and those of another. -/
structure HostIdentity (p q : ProcInstance) (ss ts : List Sighting) : Prop where
  stable : ∀ s ∈ ss, ∀ s' ∈ ss, hostKey p s = hostKey p s'
  injective : p ≠ q → ∀ s ∈ ss, ∀ t ∈ ts, hostKey p s ≠ hostKey q t

/-- Two events show nothing to tell their processes apart: neither can be read, or the ids are equal
and both are read as the same name and start time. -/
def Confused (p : ProcInstance) (s : Sighting) (q : ProcInstance) (t : Sighting) : Prop :=
  s.reads p = t.reads q ∧ (s.reads p = none ∨ p.pid = q.pid)

/-- The names of the one process read alike, and none is confused with the other process. -/
structure NamesTell (p q : ProcInstance) (ss ts : List Sighting) : Prop where
  alike : ∀ s ∈ ss, ∀ s' ∈ ss, s.reads p = s'.reads p
  apart : p ≠ q → ∀ s ∈ ss, ∀ t ∈ ts, ¬ Confused p s q t

section
variable {p q : ProcInstance} {s t : Sighting} {ss ts : List Sighting} {ctx : ChannelCtx}
  {name name' : CBuf 64} {n n' : Nat} {comm : CStr}

theorem Sighting.reads_start_lt (h : s.reads p = some (name, n)) : n < 2 ^ 64 := by
  obtain ⟨comm, -, hcomm⟩ := Option.bind_eq_some_iff.1 h
  exact readAs_start_lt p.start_lt hcomm

/-- What the channel puts in place of an address. -/
def localIp (pid start : Nat) : CStr := lit "local:" ++ dec pid ++ colon :: dec start

theorem length_localIp (p : ProcInstance) (hn : n < 2 ^ 64) : (localIp p.pid n).length < 48 := by
  have hpid : (dec p.pid).length ≤ 10 :=
    (length_dec_le (by decide)).2 (p.pid_lt.trans (by decide))
  have hstart : (dec n).length ≤ 20 := (length_dec_le (by decide)).2 (hn.trans (by decide))
  rw [localIp, List.length_append, List.length_append, List.length_cons,
    show (lit "local:").length = 6 by decide]
  omega

theorem atSign_not_mem_localIp (pid start : Nat) : atSign ∉ localIp pid start := by
  have hpid : atSign ∉ dec pid := not_mem_dec (by decide)
  have hstart : atSign ∉ dec start := not_mem_dec (by decide)
  simp only [localIp, List.mem_append, List.mem_cons, not_or]
  exact ⟨⟨by decide, hpid⟩, by decide, hstart⟩

theorem localIp_inj {pid pid' : Nat} (h : localIp pid n = localIp pid' n') : pid = pid' ∧ n = n' := by
  have hparts := (ListSearch.join_eq_join_iff_of_not_mem (not_mem_dec (by decide))
    (not_mem_dec (by decide))).1 h
  exact ⟨dec_injective (List.append_cancel_left hparts.1), dec_injective hparts.2⟩

/-! ## Keys -/

/-- The key of a context is its name and its address, whole. -/
theorem ChannelCtx.sessionKey_str (ctx : ChannelCtx) :
    ctx.sessionKey.str = ctx.username.str ++ atSign :: ctx.clientIp.str :=
  EventMsg.sessionKey_str (ctx.identify .zero)

/-- `/proc` shows the process as it is read. -/
theorem Sighting.procStat_proc (p : ProcInstance) (s : Sighting) :
    (s.proc p).procStat = s.reads p := by
  unfold Sighting.proc Sighting.reads
  cases s.comm with
  | none => rfl
  | some comm => exact fanProcStat_statText p comm s.fields

theorem Sighting.not_whitelisted (s : Sighting) (comm : CStr) :
    localWhitelistMatch comm s.exe = false := by
  rw [localWhitelistMatch, if_pos s.exe_ne_nil]
  exact decide_eq_false s.exe_not_mem

/-- A process that is read is resolved to its name, its id and its start time. -/
theorem localResolve_of_reads (h : s.reads p = some (name, n)) :
    localResolve (s.proc p) (s.event p) =
      some ⟨name, .ofStr 48 (localIp p.pid n), .ofStr 64 (lit "local")⟩ := by
  rw [localResolve, s.procStat_proc, h]
  exact if_neg (by simp [Sighting.proc, s.not_whitelisted])

/-- The key of a process that is read. -/
theorem hostKey_of_reads (h : s.reads p = some (name, n)) :
    ∃ key, hostKey p s = some key ∧ key.str = name.str ++ atSign :: localIp p.pid n := by
  refine ⟨_, by rw [hostKey, localResolve_of_reads h, Option.map_some], ?_⟩
  rw [ChannelCtx.sessionKey_str,
    CBuf.str_ofStr_of_lt (length_localIp p (Sighting.reads_start_lt h))]

/-- The key of a process that is not. -/
theorem hostKey_of_unread (h : s.reads p = none) :
    ∃ key, hostKey p s = some key ∧ key.str = lit "local" ++ atSign :: lit "unknown" := by
  have hresolve : localResolve (s.proc p) (s.event p) =
      some ⟨.ofStr 64 (lit "local"), .ofStr 48 (lit "unknown"), .ofStr 64 (lit "local")⟩ := by
    rw [localResolve, s.procStat_proc, h]
    rfl
  exact ⟨_, by rw [hostKey, hresolve, Option.map_some], by decide⟩

/-- No process that is read has the key of those that are not. -/
theorem localIp_ne_unknown (pid start : Nat) : localIp pid start ≠ lit "unknown" := by
  intro h
  have hcolon : colon ∈ localIp pid start := by simp [localIp]
  rw [h] at hcolon
  exact absurd hcolon (by decide)

/-- Two events are resolved to one session exactly when they are confused. -/
theorem hostKey_eq_iff : hostKey p s = hostKey q t ↔ Confused p s q t := by
  have hjoin : ∀ {k k' : CBuf 128}, k = k' ↔ k.str = k'.str := ⟨congrArg _, CBuf.ext⟩
  unfold Confused
  cases hs : s.reads p with
  | none =>
    obtain ⟨k, hk, hkstr⟩ := hostKey_of_unread hs
    cases ht : t.reads q with
    | none =>
      obtain ⟨k', hk', hkstr'⟩ := hostKey_of_unread ht
      simp [hk, hk', hjoin, hkstr, hkstr']
    | some r =>
      obtain ⟨k', hk', hkstr'⟩ := hostKey_of_reads ht
      rw [hk, hk', Option.some.injEq, hjoin, hkstr, hkstr',
        ListSearch.join_eq_join_iff_of_not_mem (by decide) (atSign_not_mem_localIp _ _)]
      simp [(localIp_ne_unknown q.pid r.2).symm]
  | some r =>
    obtain ⟨k, hk, hkstr⟩ := hostKey_of_reads hs
    cases ht : t.reads q with
    | none =>
      obtain ⟨k', hk', hkstr'⟩ := hostKey_of_unread ht
      rw [hk, hk', Option.some.injEq, hjoin, hkstr, hkstr',
        ListSearch.join_eq_join_iff_of_not_mem (atSign_not_mem_localIp _ _) (by decide)]
      simp [localIp_ne_unknown p.pid r.2]
    | some r' =>
      obtain ⟨k', hk', hkstr'⟩ := hostKey_of_reads ht
      rw [hk, hk', Option.some.injEq, hjoin, hkstr, hkstr',
        ListSearch.join_eq_join_iff_of_not_mem (atSign_not_mem_localIp _ _)
          (atSign_not_mem_localIp _ _)]
      constructor
      · rintro ⟨hname, hip⟩
        obtain ⟨hpid, hstart⟩ := localIp_inj hip
        exact ⟨congrArg some (Prod.ext (CBuf.ext hname) hstart), .inr hpid⟩
      · rintro ⟨hread, hpid⟩
        cases hread
        rw [hpid.resolve_left (by simp)]
        exact ⟨rfl, rfl⟩

/-- The session identifies the process exactly when its names tell it. -/
theorem host_identity_iff (p q : ProcInstance) (ss ts : List Sighting) :
    HostIdentity p q ss ts ↔ NamesTell p q ss ts := by
  have hown : ∀ s s' : Sighting, Confused p s p s' ↔ s.reads p = s'.reads p := fun s s' => by
    simp [Confused]
  constructor
  · rintro ⟨hstable, hinj⟩
    exact ⟨fun s hs s' hs' => (hown s s').1 (hostKey_eq_iff.1 (hstable s hs s' hs')),
      fun hne s hs t ht hconf => hinj hne s hs t ht (hostKey_eq_iff.2 hconf)⟩
  · rintro ⟨halike, hapart⟩
    exact ⟨fun s hs s' hs' => hostKey_eq_iff.2 ((hown s s').2 (halike s hs s' hs')),
      fun hne s hs t ht hkey => hapart hne s hs t ht (hostKey_eq_iff.1 hkey)⟩

/-! ## Names without a newline -/

/-- The event shows a name without a newline, of a process with a start time. -/
def Sighting.Plain (p : ProcInstance) (s : Sighting) : Prop :=
  p.start ≠ 0 ∧ ∃ comm, s.comm = some comm ∧ newline ∉ comm.str

theorem Sighting.Plain.reads (h : s.Plain p) :
    ∃ comm, s.comm = some comm ∧ s.reads p = some (.ofStr 64 comm.str, p.start) := by
  obtain ⟨hstart, comm, hcomm, hnl⟩ := h
  refine ⟨comm, hcomm, ?_⟩
  rw [Sighting.reads, hcomm, Option.bind_some, readAs, if_neg hnl, if_neg hstart]

/-- Processes with such names are not confused. -/
theorem Sighting.Plain.eq_of_confused (hs : s.Plain p) (ht : t.Plain q) (h : Confused p s q t) :
    p = q := by
  obtain ⟨_, -, hread⟩ := hs.reads
  obtain ⟨_, -, hread'⟩ := ht.reads
  obtain ⟨heq, hpid⟩ := h
  rw [hread, hread', Option.some.injEq, Prod.mk.injEq] at heq
  have hpid := hpid.resolve_left (by simp [hread])
  cases p; cases q
  simp_all

end

/-! ## A process that renames itself -/

/-- A process with id 7. -/
def sampleProc : ProcInstance := ⟨7, by decide, by decide, 100, by decide⟩

/-- Its event under a name. -/
def sampleSighting (comm : Comm) : Sighting where
  path := .ofStr pathMax (lit "/srv/a")
  comm := some comm
  fields := ⟨List.replicate 19 (lit "0"), by decide, by decide, lit "0", by decide⟩
  exe := lit "/tmp/x"
  exe_ne_nil := by decide
  exe_not_mem := by decide

/-- `prctl` with two names puts it in two sessions. -/
theorem host_identity_broken : ¬ ∀ (p q : ProcInstance) (ss ts : List Sighting), HostIdentity p q ss ts := by
  intro h
  let a : Comm := ⟨lit "a", by decide, by decide⟩
  let b : Comm := ⟨lit "b", by decide, by decide⟩
  have hstable := (h sampleProc sampleProc [sampleSighting a, sampleSighting b] []).stable
    (sampleSighting a) (by simp) (sampleSighting b) (by simp)
  have hreads := (hostKey_eq_iff.1 hstable).1
  revert hreads
  decide

end GfrGuard
