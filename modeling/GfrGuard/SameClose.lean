import GfrGuard.Detection

/-!
# Closes that found the content unchanged

A close with `CONTENT_SAME` takes one from `modified_count`, for the risky open of its handle.
The counter does not know handles: a close whose open an earlier window counted takes back the
open of another. `HandleSession` is the session beside the handles its counter should still stand for,
those of the risky messages of the short window that no such close has answered. The counter
covers them after every message of a run exactly when no step of it takes back the open of
another handle (`closes_keep_count_iff`).
-/

namespace GfrGuard

/-- A message of a session, and the handle it is about. -/
structure HandleMsg where
  env : CallEnv
  policy : Policy
  msg : EventMsg
  handle : Nat

/-- A risky open, write or truncation. -/
def HandleMsg.Risky (m : HandleMsg) : Prop :=
  (m.msg.opType = opOpen ∨ m.msg.opType = opWrite ∨ m.msg.opType = opTruncate) ∧
    hasFlag m.msg.flags flagRisky = true

/-- A close that found the content unchanged. -/
def HandleMsg.SameClose (m : HandleMsg) : Prop :=
  m.msg.opType = opClose ∧ hasFlag m.msg.flags flagContentSame = true

instance (m : HandleMsg) : Decidable m.Risky := inferInstanceAs (Decidable (_ ∧ _))

instance (m : HandleMsg) : Decidable m.SameClose := inferInstanceAs (Decidable (_ ∧ _))

/-- A session, and the handles of the risky messages received in its short window, one for each,
that have not been closed with `CONTENT_SAME`. -/
structure HandleSession where
  session : SessionState
  risky : List Nat

/-- The message finds the short window run out. -/
def HandleSession.expired (t : HandleSession) (m : HandleMsg) : Bool :=
  t.session.shortExpired m.env.now (m.policy.windows m.msg.sourceType).1

/-- The handles that a message finds in the short window. -/
def HandleSession.inWindow (t : HandleSession) (m : HandleMsg) : List Nat :=
  if t.expired m then [] else t.risky

/-- The modifications that a message finds counted. -/
def HandleSession.counted (t : HandleSession) (m : HandleMsg) : UInt32 :=
  if t.expired m then 0 else t.session.modifiedCount

/-- One message. -/
def handleStep (t : HandleSession) (m : HandleMsg) : HandleSession where
  session := scoreSession m.env m.policy m.msg t.session
  risky :=
    if m.Risky then m.handle :: t.inWindow m
    else if m.SameClose then (t.inWindow m).filter (· ≠ m.handle)
    else t.inWindow m

/-- The counter covers the handles. -/
def HandleSession.Covered (t : HandleSession) : Prop := t.risky.length ≤ t.session.modifiedCount.toNat

/-- The message takes nothing from the counter that stands for the open of another handle: a
close with `CONTENT_SAME` answers a risky message of the same window, or the counter holds more
than the unanswered ones. Nor does the counter stop at its maximum. -/
def TakesOwn (t : HandleSession) (m : HandleMsg) : Prop :=
  (m.Risky → (t.inWindow m).length < 2 ^ 32 - 1) ∧
    (m.SameClose → m.handle ∈ t.inWindow m ∨ t.inWindow m = [] ∨
      (t.inWindow m).length < (t.counted m).toNat)

/-- The handles with a risky open that is not closed with `CONTENT_SAME`. -/
def openStep (handles : List Nat) (m : HandleMsg) : List Nat :=
  if m.Risky ∧ m.msg.opType = opOpen then m.handle :: handles
  else if m.SameClose then handles.erase m.handle
  else handles

/-- Every close with `CONTENT_SAME` belongs to one earlier risky open. -/
def ClosesOwnOpen (ms : List HandleMsg) : Prop :=
  Runs.AllSteps openStep (fun handles m => m.SameClose → m.handle ∈ handles) [] ms

instance (ms : List HandleMsg) : Decidable (ClosesOwnOpen ms) :=
  inferInstanceAs (Decidable (Runs.AllSteps _ _ _ _))

section
variable {t : HandleSession} {m : HandleMsg}

/-! ## The counter -/

/-- What an operation makes of the modifications. -/
theorem modifiedCount_countOp (s : SessionState) (opType : UInt8) (flags : UInt16) :
    (countOp s opType flags).modifiedCount =
      if (opType = opOpen ∨ opType = opWrite ∨ opType = opTruncate) ∧ hasFlag flags flagRisky = true
        then satInc s.modifiedCount
      else if (opType = opClose ∧ hasFlag flags flagContentSame = true) ∧ 0 < s.modifiedCount
        then s.modifiedCount - 1
      else s.modifiedCount := by
  unfold countOp
  by_cases hwrite : opType = opOpen ∨ opType = opWrite ∨ opType = opTruncate
  · have hclose : ¬ ((opType = opClose ∧ hasFlag flags flagContentSame = true) ∧
        0 < s.modifiedCount) := by
      rintro ⟨⟨rfl, -⟩, -⟩
      revert hwrite
      decide
    rw [if_pos hwrite, if_neg hclose]
    by_cases hflag : hasFlag flags flagRisky = true
    · rw [if_pos (And.intro hwrite hflag), if_pos hflag]
    · rw [if_neg fun h : _ ∧ _ => hflag h.2, if_neg hflag]
  · rw [if_neg hwrite, if_neg fun h : _ ∧ _ => hwrite h.1]
    by_cases hrename : opType = opRename
    · subst hrename
      rw [if_pos rfl, if_neg fun h : _ ∧ _ => absurd h.1.1 (by decide)]
    · rw [if_neg hrename]
      by_cases hdelete : opType = opDelete
      · subst hdelete
        rw [if_pos rfl, if_neg fun h : _ ∧ _ => absurd h.1.1 (by decide)]
      · rw [if_neg hdelete]
        simp only [and_assoc]
        split <;> rfl

/-- The modifications after a message. -/
theorem modifiedCount_handleStep (t : HandleSession) (m : HandleMsg) :
    (handleStep t m).session.modifiedCount =
      if m.Risky then satInc (t.counted m)
      else if m.SameClose ∧ 0 < t.counted m then t.counted m - 1
      else t.counted m := by
  have hcounted : (sessionCheckWindow t.session m.env.now (m.policy.windows m.msg.sourceType).1
      (m.policy.windows m.msg.sourceType).2).modifiedCount = t.counted m :=
    counter_sessionCheckWindow .modified ..
  show (scoreSession m.env m.policy m.msg t.session).counter .modified = _
  rw [(scoreSession_frame ..).1 .modified]
  unfold countSession
  rw [counter_sessionUpdate]
  refine (modifiedCount_countOp ..).trans ?_
  rw [hcounted, hasFlag_analysisFlags (by decide) (by decide),
    hasFlag_nameFlags (by decide) (by decide), hasFlag_analysisFlags (by decide) (by decide),
    hasFlag_nameFlags (by decide) (by decide)]
  rfl

/-! ## One message -/

/-- A new window finds nothing to cover. -/
theorem HandleSession.Covered.inWindow (h : t.Covered) (m : HandleMsg) :
    (t.inWindow m).length ≤ (t.counted m).toNat := by
  unfold HandleSession.inWindow HandleSession.counted
  split
  · exact Nat.zero_le _
  · exact h

theorem not_risky_of_sameClose (h : m.SameClose) : ¬ m.Risky := by
  rintro ⟨hop, -⟩
  rw [h.1] at hop
  revert hop
  decide

theorem toNat_pred {c : UInt32} (h : 0 < c) : (c - 1).toNat = c.toNat - 1 := by
  refine UInt32.toNat_sub_of_le _ _ ?_
  rw [UInt32.le_iff_toNat_le]
  exact UInt32.lt_iff_toNat_lt.1 h

/-- A message that takes back its own open is exactly one after which the counter still covers
the handles. -/
theorem takesOwn_iff (h : t.Covered) : TakesOwn t m ↔ (handleStep t m).Covered := by
  have hwindow := h.inWindow m
  have hcount := modifiedCount_handleStep t m
  unfold HandleSession.Covered TakesOwn
  rw [hcount]
  by_cases hrisky : m.Risky
  · have hclose : ¬ m.SameClose := fun hc => not_risky_of_sameClose hc hrisky
    have hlist : (handleStep t m).risky = m.handle :: t.inWindow m := if_pos hrisky
    have hlt := (t.counted m).toNat_lt
    rw [if_pos hrisky, hlist, List.length_cons, toNat_satInc, forall_prop_of_true hrisky,
      and_iff_left fun hc => absurd hc hclose]
    omega
  · rw [if_neg hrisky, and_iff_right fun hr => absurd hr hrisky]
    by_cases hclose : m.SameClose
    · have hlist : (handleStep t m).risky = (t.inWindow m).filter (· ≠ m.handle) :=
        (if_neg hrisky).trans (if_pos hclose)
      rw [hlist, forall_prop_of_true hclose]
      by_cases hpos : 0 < t.counted m
      · rw [if_pos ⟨hclose, hpos⟩, toNat_pred hpos]
        have hnat : 0 < (t.counted m).toNat := UInt32.lt_iff_toNat_lt.1 hpos
        by_cases hmem : m.handle ∈ t.inWindow m
        · have hlt : ((t.inWindow m).filter (· ≠ m.handle)).length < (t.inWindow m).length :=
            List.length_filter_lt_length_iff_exists.2 ⟨m.handle, hmem, by simp⟩
          exact iff_of_true (.inl hmem) (by omega)
        · have hsame : (t.inWindow m).filter (· ≠ m.handle) = t.inWindow m :=
            List.filter_eq_self.2 fun h hin => decide_eq_true fun heq => hmem (heq ▸ hin)
          rw [hsame, or_iff_right hmem, ← List.length_eq_zero_iff]
          omega
      · have hzero : (t.counted m).toNat = 0 := by
          rw [UInt32.lt_iff_toNat_lt] at hpos
          exact Nat.eq_zero_of_not_pos hpos
        have hnil : t.inWindow m = [] := List.length_eq_zero_iff.1 (by omega)
        rw [if_neg fun hc => hpos hc.2, hnil]
        exact iff_of_true (.inr (.inl rfl)) (Nat.zero_le _)
    · have hlist : (handleStep t m).risky = t.inWindow m :=
        (if_neg hrisky).trans (if_neg hclose)
      rw [hlist, if_neg fun hc => hclose hc.1]
      exact iff_of_true (fun hc => absurd hc hclose) hwindow

/-! ## Runs -/

/-- The session of a key, newly taken, before any message. -/
def HandleSession.start (key : CBuf 128) (now : Int) : HandleSession := ⟨.fresh key now, []⟩

/-- In every run of messages of a session: after each of them `modified_count` is at least the
number of risky messages of the short window whose handle was not closed with `CONTENT_SAME`,
exactly when no message takes back the open of another handle. -/
theorem closes_keep_count_iff (key : CBuf 128) (now : Int) (ms : List HandleMsg) :
    Runs.AllSteps handleStep TakesOwn (.start key now) ms ↔
      ∀ pre, pre <+: ms → (Runs.run handleStep (.start key now) pre).Covered :=
  Runs.allSteps_iff_states (fun _ => True) HandleSession.Covered (fun _ _ _ => trivial)
    (fun _ _ _ hcovered => takesOwn_iff hcovered) trivial (Nat.zero_le _)

/-- A message of the sample session at `t` seconds, about a handle. -/
def sampleHandleMsg (t : Int) (opType : UInt8) (flags : UInt16) (handle : Nat) : HandleMsg where
  env := sampleEnv t
  policy := .default
  msg := { sampleMsg with opType := opType, flags := flags }
  handle := handle

/-- A file opened, another opened twelve seconds later in a new window, then the first closed
unchanged: the second is open and nothing is counted. -/
theorem close_takes_other_open :
    ¬ ∀ (key : CBuf 128) (now : Int) (ms : List HandleMsg),
      (ms.map (·.env.now)).Pairwise (· ≤ ·) → ClosesOwnOpen ms →
      ∀ pre, pre <+: ms → (Runs.run handleStep (.start key now) pre).Covered := by
  intro h
  have hcovered := h (.empty 128) 0
    [sampleHandleMsg 0 opOpen flagRisky 1, sampleHandleMsg 12 opOpen flagRisky 2,
      sampleHandleMsg 13 opClose flagContentSame 1]
    (by decide) (by decide) _ List.prefix_rfl
  unfold HandleSession.Covered at hcovered
  revert hcovered
  decide

end

end GfrGuard
