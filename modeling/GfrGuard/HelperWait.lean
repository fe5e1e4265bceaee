import GfrGuard.CloudTasks

/-!
# Waiting for neo-croner

`neo_croner_query` polls the output of the helper, a tenth of a second at a time, and gives up and
kills it after five seconds without any. When the output ends or fills the buffer it waits for
the helper instead, however long that takes (`helper_wait_iff`); what it has read is parsed by
`neoCronerQuery`. The deletion waits with `rguard_wait_timeout`, which kills first
(`waitTimeoutOps_noBlindWait`). The polls are bounded in any case.
-/

namespace GfrGuard

/-! ## The query -/

/-- How a poll of the pipe comes back, with the read that follows it. -/
inductive PollOutcome where
  /-- `poll` fails with `EINTR`. -/
  | interrupted
  | failed
  /-- Nothing in a tenth of a second. -/
  | quiet
  /-- A read of at least a byte. -/
  | data (b : UInt8) (bytes : CStr)
  | eof
  /-- `read` fails with `EINTR` or `EAGAIN`. -/
  | readAgain
  | readFailed
deriving DecidableEq

/-- A round of the loop, and whether the helper has exited by its end. -/
structure PollRound where
  outcome : PollOutcome
  exited : Bool

/-- The loop: what has been read, and for how long nothing was. -/
structure PollLoop where
  buf : CStr
  idle : Nat

/-- What comes of a round. -/
inductive RoundResult where
  | again (s : PollLoop)
  | leave (failed : Bool)

/-- `sizeof(buf) - 1`. -/
def queryCap : Nat := 8191

/-- `NEO_CRONER_TIMEOUT_MS`. -/
def neoCronerTimeoutMs : Nat := 5000

/-- The end of a round. -/
def PollLoop.tick (s : PollLoop) : RoundResult :=
  if neoCronerTimeoutMs ≤ s.idle + 100 then .leave true else .again { s with idle := s.idle + 100 }

/-- A round of the loop. -/
def PollLoop.round (s : PollLoop) : PollOutcome → RoundResult
  | .interrupted => .again s
  | .failed => .leave true
  | .quiet => s.tick
  | .data b bytes =>
    let buf := s.buf ++ (b :: bytes).take (queryCap - s.buf.length)
    if queryCap ≤ buf.length then .leave false else PollLoop.tick ⟨buf, 0⟩
  | .eof => .leave false
  | .readAgain => s.tick
  | .readFailed => .leave true

/-- What is done about the helper. A blocking `waitpid` is noted with whether the helper has
exited. -/
inductive HelperOp where
  | poll (outcome : PollOutcome)
  | kill
  | wait (exited : Bool)
deriving DecidableEq

/-- The calls of the loop, and those after it. -/
def queryOps (s : PollLoop) : List PollRound → List HelperOp
  | [] => []
  | r :: rounds =>
    .poll r.outcome ::
      match s.round r.outcome with
      | .again s => queryOps s rounds
      | .leave true => [.kill, .wait r.exited]
      | .leave false => [.wait r.exited]

/-- `neo_croner_query`, after the fork. -/
def neoCronerOps (rounds : List PollRound) : List HelperOp := queryOps ⟨[], 0⟩ rounds

/-- The loop after some rounds, if it goes on. -/
def PollLoop.after (s : PollLoop) : List PollRound → Option PollLoop
  | [] => some s
  | r :: rounds =>
    match s.round r.outcome with
    | .again s => s.after rounds
    | .leave _ => none

/-- The output ends, or fills the buffer. -/
def PollLoop.Stops (s : PollLoop) : PollOutcome → Prop
  | .eof => True
  | .data b bytes => queryCap ≤ s.buf.length + (b :: bytes).length
  | _ => False

/-- No blocking wait for a helper that runs and has not been killed. -/
def NoBlindWait (ops : List HelperOp) : Prop :=
  ∀ before after, ops = before ++ .wait false :: after → .kill ∈ before

/-- A poll that is not interrupted. -/
def HelperOp.isPoll : HelperOp → Bool
  | .poll outcome => outcome ≠ .interrupted
  | _ => false

/-! ## The deletion -/

/-- How `waitpid` with `WNOHANG` comes back. -/
inductive WaitOutcome where
  | reaped
  | interrupted
  | failed
  | running

/-- `rguard_wait_timeout`, of outcomes and whether the helper has exited by then. -/
def waitTimeoutOps (timeout : Nat) : (waited : Nat) → List (WaitOutcome × Bool) → List HelperOp
  | _, [] => []
  | _, (.reaped, _) :: _ => []
  | waited, (.interrupted, _) :: rounds => waitTimeoutOps timeout waited rounds
  | _, (.failed, _) :: _ => []
  | waited, (.running, exited) :: rounds =>
    if timeout ≤ waited then [.kill, .wait exited] else waitTimeoutOps timeout (waited + 10) rounds

section
variable {s : PollLoop} {r : PollRound} {rounds : List PollRound} {op : HelperOp} {ops : List HelperOp}

/-! ## Waits -/

theorem noBlindWait_nil : NoBlindWait [] := fun before after h => by simp at h

theorem noBlindWait_cons (hop : op ≠ .wait false) (hkill : op ≠ .kill) :
    NoBlindWait (op :: ops) ↔ NoBlindWait ops := by
  constructor
  · intro h before after heq
    rcases List.mem_cons.1 (h (op :: before) after (by rw [heq]; rfl)) with hk | hk
    · exact absurd hk.symm hkill
    · exact hk
  · intro h before after heq
    cases before with
    | nil => exact absurd (List.cons.inj heq).1 hop
    | cons first before =>
      obtain ⟨-, htail⟩ := List.cons.inj heq
      exact List.mem_cons_of_mem first (h before after htail)

theorem noBlindWait_killed (exited : Bool) : NoBlindWait [.kill, .wait exited] := by
  intro before after heq
  cases before with
  | nil => cases heq
  | cons first before =>
    obtain ⟨hfirst, -⟩ := List.cons.inj heq
    rw [← hfirst]
    exact List.mem_cons_self

theorem noBlindWait_wait (exited : Bool) : NoBlindWait [.wait exited] ↔ exited = true := by
  constructor
  · intro h
    by_contra hrunning
    rw [Bool.not_eq_true] at hrunning
    exact List.not_mem_nil (h [] [] (by rw [hrunning]; rfl))
  · rintro rfl before after heq
    cases before with
    | nil => cases heq
    | cons first before => cases before <;> cases heq

/-- The deletion kills before it waits. -/
theorem waitTimeoutOps_noBlindWait (timeout waited : Nat) (rounds : List (WaitOutcome × Bool)) :
    NoBlindWait (waitTimeoutOps timeout waited rounds) := by
  induction rounds generalizing waited with
  | nil => exact noBlindWait_nil
  | cons r rounds ih =>
    obtain ⟨outcome, exited⟩ := r
    cases outcome with
    | reaped | failed => exact noBlindWait_nil
    | interrupted => exact ih waited
    | running =>
      rw [waitTimeoutOps]
      split
      · exact noBlindWait_killed exited
      · exact ih (waited + 10)

/-! ## Rounds -/

/-- The loop is left for a wait without a kill exactly when the output stops. -/
theorem PollLoop.round_leave_iff {outcome : PollOutcome} : s.round outcome = .leave false ↔ s.Stops outcome := by
  have htick : ∀ t : PollLoop, t.tick ≠ .leave false := by
    intro t h
    unfold PollLoop.tick at h
    split at h <;> cases h
  cases outcome with
  | interrupted => exact iff_of_false (fun h => by cases h) id
  | failed => exact iff_of_false (fun h => by cases h) id
  | quiet => exact iff_of_false (htick s) id
  | eof => exact iff_of_true rfl trivial
  | readAgain => exact iff_of_false (htick s) id
  | readFailed => exact iff_of_false (fun h => by cases h) id
  | data b bytes =>
    have hfull : queryCap ≤ (s.buf ++ (b :: bytes).take (queryCap - s.buf.length)).length ↔
        queryCap ≤ s.buf.length + (b :: bytes).length := by
      rw [List.length_append, List.length_take]
      omega
    unfold PollLoop.round PollLoop.Stops
    dsimp only
    split
    · next h => exact iff_of_true rfl (hfull.1 h)
    · next h => exact iff_of_false (htick _) fun h' => h (hfull.2 h')

/-- The waits of the calls from a state of the loop on. -/
theorem queryOps_noBlindWait_iff (s : PollLoop) (rounds : List PollRound) :
    NoBlindWait (queryOps s rounds) ↔
      ∀ before r after t, rounds = before ++ r :: after → s.after before = some t → t.Stops r.outcome →
        r.exited = true := by
  induction rounds generalizing s with
  | nil => exact iff_of_true noBlindWait_nil fun before r after t h => by simp at h
  | cons first rounds ih =>
    rw [queryOps, noBlindWait_cons (by simp) (by simp)]
    cases hround : s.round first.outcome with
    | again next =>
      dsimp only
      rw [ih next]
      constructor
      · intro h before r after t heq hafter hstops
        cases before with
        | nil =>
          obtain ⟨rfl, rfl⟩ := List.cons.inj heq
          cases hafter
          rw [PollLoop.round_leave_iff.2 hstops] at hround
          cases hround
        | cons head before =>
          obtain ⟨rfl, rfl⟩ := List.cons.inj heq
          rw [PollLoop.after, hround] at hafter
          exact h before r after t rfl hafter hstops
      · intro h before r after t heq hafter hstops
        refine h (first :: before) r after t (by rw [heq]; rfl) ?_ hstops
        rw [PollLoop.after, hround]
        exact hafter
    | leave failed =>
      have hnone : ∀ before r after t, first :: rounds = before ++ r :: after → s.after before = some t →
          before = [] ∧ r = first ∧ t = s := by
        intro before r after t heq hafter
        cases before with
        | nil =>
          cases hafter
          exact ⟨rfl, (List.cons.inj heq).1.symm, rfl⟩
        | cons head before =>
          obtain ⟨rfl, -⟩ := List.cons.inj heq
          rw [PollLoop.after, hround] at hafter
          cases hafter
      cases failed with
      | true =>
        refine iff_of_true (noBlindWait_killed first.exited) fun before r after t heq hafter hstops => ?_
        obtain ⟨-, rfl, rfl⟩ := hnone before r after t heq hafter
        rw [PollLoop.round_leave_iff.2 hstops] at hround
        cases hround
      | false =>
        dsimp only
        rw [noBlindWait_wait]
        constructor
        · intro h before r after t heq hafter _
          obtain ⟨-, rfl, -⟩ := hnone before r after t heq hafter
          exact h
        · exact fun h => h [] first rounds s rfl rfl (PollLoop.round_leave_iff.1 hround)

/-! ## Polls -/

/-- How long the loop can go on, in milliseconds: five seconds for every byte that has room, and
what is left of the last five. -/
def PollLoop.budget (s : PollLoop) : Nat := (queryCap - s.buf.length) * 5000 + (5000 - s.idle)

theorem PollLoop.tick_budget {t : PollLoop} (h : s.tick = .again t) : t.budget + 100 ≤ s.budget := by
  unfold PollLoop.tick neoCronerTimeoutMs at h
  split at h
  · cases h
  · cases h
    unfold PollLoop.budget
    dsimp only
    omega

/-- A round that is not interrupted takes its share of the budget. -/
theorem PollLoop.round_budget {t : PollLoop} {outcome : PollOutcome}
    (h : s.round outcome = .again t) (hpoll : outcome ≠ .interrupted) :
    t.budget + 100 ≤ s.budget := by
  cases outcome with
  | interrupted => exact absurd rfl hpoll
  | failed | eof | readFailed => cases h
  | quiet | readAgain => exact PollLoop.tick_budget h
  | data b bytes =>
    unfold PollLoop.round at h
    dsimp only at h
    split at h
    · cases h
    · next hroom =>
      have hbudget := PollLoop.tick_budget h
      rw [List.length_append, List.length_take, List.length_cons] at hroom
      unfold PollLoop.budget at hbudget ⊢
      dsimp only at hbudget
      rw [List.length_append, List.length_take, List.length_cons] at hbudget
      generalize queryCap = cap at hroom hbudget ⊢
      have hbytes : cap - (s.buf.length + min (cap - s.buf.length) (bytes.length + 1)) + 1 ≤
          cap - s.buf.length := by omega
      calc _ ≤ _ := hbudget
        _ = (cap - (s.buf.length + min (cap - s.buf.length) (bytes.length + 1)) + 1) * 5000 := by
          rw [Nat.add_mul]
        _ ≤ (cap - s.buf.length) * 5000 := Nat.mul_le_mul_right 5000 hbytes
        _ ≤ _ := Nat.le_add_right _ _

theorem queryOps_polls (s : PollLoop) (rounds : List PollRound) :
    100 * (queryOps s rounds).countP HelperOp.isPoll ≤ s.budget + 100 := by
  induction rounds generalizing s with
  | nil => exact Nat.zero_le _
  | cons r rounds ih =>
    rw [queryOps]
    cases hround : s.round r.outcome with
    | leave failed =>
      have hlast : ∀ exited, [HelperOp.kill, .wait exited].countP HelperOp.isPoll = 0 := fun _ => rfl
      have hlast' : ∀ exited, [HelperOp.wait exited].countP HelperOp.isPoll = 0 := fun _ => rfl
      cases failed with
      | true =>
        dsimp only
        rw [List.countP_cons, hlast]
        split <;> omega
      | false =>
        dsimp only
        rw [List.countP_cons, hlast']
        split <;> omega
    | again t =>
      dsimp only
      rw [List.countP_cons]
      by_cases hpoll : r.outcome = .interrupted
      · rw [hpoll] at hround ⊢
        cases hround
        rw [if_neg (by decide)]
        exact ih s
      · have hbudget := PollLoop.round_budget hround hpoll
        have hrest := ih t
        split <;> omega

end

/-- Whatever the helper does: the query never waits for it, without a kill, while it runs, and its
polls that are not interrupted are bounded, exactly when the helper has exited by the time its
output ends or fills the buffer. -/
theorem helper_wait_iff (rounds : List PollRound) :
    (NoBlindWait (neoCronerOps rounds) ∧ (neoCronerOps rounds).countP HelperOp.isPoll ≤ 409601) ↔
      ∀ before r after t, rounds = before ++ r :: after → PollLoop.after ⟨[], 0⟩ before = some t →
        t.Stops r.outcome → r.exited = true := by
  have hpolls := queryOps_polls ⟨[], 0⟩ rounds
  have hbudget : PollLoop.budget ⟨[], 0⟩ = 40960000 := by simp [PollLoop.budget, queryCap]
  have hbound : (neoCronerOps rounds).countP HelperOp.isPoll ≤ 409601 := by
    rw [hbudget] at hpolls
    exact Nat.le_of_mul_le_mul_left (hpolls.trans (by decide)) (by decide)
  exact (and_iff_left hbound).trans (queryOps_noBlindWait_iff ⟨[], 0⟩ rounds)

/-- The helper closes its output and goes on. -/
theorem helper_waited_blindly : ¬ NoBlindWait (neoCronerOps [⟨.eof, false⟩]) := fun h =>
  absurd (h [.poll .eof] [] rfl) (by decide)

end GfrGuard
