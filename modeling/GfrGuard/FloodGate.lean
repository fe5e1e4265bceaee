import Mathlib.Data.List.Induction
import GfrGuard.Fangate
import GfrGuard.Lib.Runs

/-!
# The law of the flood gate

What the gate answers over a sequence of calls, for any sessions, files and windows. A slot
that is in use remembers the time of an earlier call of its key that was let through
(`remembered_run`), so a call is refused only within its window after one. While no other key
of the bucket is called, the slot keeps the key and its time does not go back
(`Holds.run`), so a call that comes within its window after one let through is refused
(`flood_gate_law`).
-/

namespace GfrGuard

/-- A call of `fangate_allow`. -/
structure FloodCall where
  sessionKey : CStr
  inode : UInt64
  now : Int
  window : Int

namespace FloodCall

/-- The gate key of the call. -/
def key (c : FloodCall) : UInt64 := fangateKey c.sessionKey c.inode

/-- The bucket of the call. -/
def bucket (c : FloodCall) : Fin fangateBuckets := fangateSlot c.key

/-- The answer of the gate. -/
def allowed (g : Fangate) (c : FloodCall) : Bool :=
  (fangateAllow g c.sessionKey c.inode c.now c.window).1

/-- The gate after the call. -/
def step (g : Fangate) (c : FloodCall) : Fangate :=
  (fangateAllow g c.sessionKey c.inode c.now c.window).2

end FloodCall

/-- The answer to a call after others, from an empty gate. -/
def allowedAfter (before : List FloodCall) (c : FloodCall) : Bool :=
  c.allowed (Runs.run FloodCall.step fangateInit before)

/-- An entry is the record of a call that was let through. -/
def Remembered (before : List FloodCall) (e : GateEntry) : Prop :=
  ∃ first c rest, before = first ++ c :: rest ∧ c.key = e.key ∧ c.now = e.lastSent ∧
    allowedAfter first c = true

/-- The bucket holds a key, sent at a time or later. -/
def Holds (key : UInt64) (since : Int) (g : Fangate) : Prop :=
  (g.slots (fangateSlot key)).key = key ∧ since ≤ (g.slots (fangateSlot key)).lastSent

section
variable {g : Fangate} {c : FloodCall} {key : UInt64} {since : Int} {before : List FloodCall}

theorem Remembered.concat {e : GateEntry} (h : Remembered before e) : Remembered (before ++ [c]) e := by
  obtain ⟨first, d, rest, rfl, hd⟩ := h
  exact ⟨first, d, rest ++ [c], by simp, hd⟩

/-- A call leaves a slot, or is let through and recorded in it. -/
theorem FloodCall.step_slots (g : Fangate) (c : FloodCall) (i : Fin fangateBuckets) :
    (c.step g).slots i = g.slots i ∨ c.allowed g = true ∧ (c.step g).slots i = ⟨c.key, c.now⟩ :=
  fangateAllow_slots i

/-- Every slot in use remembers a call that was let through. -/
theorem remembered_run (before : List FloodCall) (i : Fin fangateBuckets) :
    ((Runs.run FloodCall.step fangateInit before).slots i).key = 0 ∨
      Remembered before ((Runs.run FloodCall.step fangateInit before).slots i) := by
  induction before using List.reverseRecOn with
  | nil => exact .inl rfl
  | append_singleton before c ih =>
    rw [Runs.run_append, Runs.run_cons, Runs.run_nil]
    rcases c.step_slots (Runs.run FloodCall.step fangateInit before) i with hsame | ⟨hallowed, hnew⟩
    · rw [hsame]
      exact ih.imp id Remembered.concat
    · rw [hnew]
      exact .inr ⟨before, c, [], rfl, rfl, rfl, hallowed⟩

/-- A call is refused only after one of its key that was let through within its window. -/
theorem refused_after_allowed (h : allowedAfter before c = false) :
    ∃ first d rest, before = first ++ d :: rest ∧ d.key = c.key ∧ allowedAfter first d = true ∧
      c.now - d.now < c.window := by
  obtain ⟨-, hkey, hnow⟩ := fangateAllow_eq_false_iff.1 h
  rcases remembered_run before c.bucket with hempty | ⟨first, d, rest, hbefore, hdkey, hdnow, hd⟩
  · exact absurd (hkey.symm.trans hempty) (fangateKey_ne_zero _ _)
  · refine ⟨first, d, rest, hbefore, hdkey.trans hkey, hd, ?_⟩
    rw [hdnow]
    exact hnow

/-- A call that is let through in a window of its own is recorded. -/
theorem holds_of_allowed (hwindow : 0 < c.window) (h : c.allowed g = true) :
    Holds c.key c.now (c.step g) := by
  unfold FloodCall.allowed fangateAllow at h
  unfold Holds FloodCall.step FloodCall.key fangateAllow
  rw [if_neg (Int.not_le.2 hwindow)] at h ⊢
  dsimp only at h ⊢
  split at h
  · cases h
  · next hnew =>
    rw [if_neg hnew]
    dsimp only
    rw [Function.update_self]
    exact ⟨rfl, Int.le_refl _⟩

/-- A later call keeps what the bucket holds unless it brings another key there. -/
theorem Holds.step (h : Holds key since g) (hnow : since ≤ c.now)
    (hkey : c.bucket = fangateSlot key → c.key = key) : Holds key since (c.step g) := by
  unfold Holds
  rcases c.step_slots g (fangateSlot key) with hsame | ⟨-, hnew⟩
  · rw [hsame]
    exact h
  · by_cases hbucket : c.bucket = fangateSlot key
    · rw [hnew]
      exact ⟨hkey hbucket, hnow⟩
    · -- the call writes another bucket
      have hother : (c.step g).slots (fangateSlot key) = g.slots (fangateSlot key) := by
        unfold FloodCall.step fangateAllow
        dsimp only
        split_ifs
        · rfl
        · rfl
        · exact Function.update_of_ne (Ne.symm hbucket) ..
      rw [hother]
      exact h

theorem Holds.run (h : Holds key since g) {calls : List FloodCall} (hnow : ∀ c ∈ calls, since ≤ c.now)
    (hkey : ∀ c ∈ calls, c.bucket = fangateSlot key → c.key = key) :
    Holds key since (Runs.run FloodCall.step g calls) := by
  induction calls generalizing g with
  | nil => exact h
  | cons c calls ih =>
    rw [List.forall_mem_cons] at hnow hkey
    exact ih (h.step hnow.1 hkey.1) hnow.2 hkey.2

/-- A call of a key that its bucket holds from less than its window ago is refused. -/
theorem Holds.refused (h : Holds c.key since g) (hwindow : 0 < c.window)
    (hnow : c.now - since < c.window) : c.allowed g = false := by
  obtain ⟨hkey, hsince⟩ := h
  refine fangateAllow_eq_false_iff.2 ⟨hwindow, hkey, ?_⟩
  unfold FloodCall.key at hsince
  omega

/-- In every sequence of calls with windows and times that do not go back: a call is refused
only within its window after one of its key that was let through; and a call within its window
after one that was let through is refused, when none between them brings another key to their
bucket. -/
theorem flood_gate_law {calls : List FloodCall} (hwindow : ∀ c ∈ calls, 0 < c.window)
    (hnow : calls.Pairwise (·.now ≤ ·.now)) :
    (∀ before c after, calls = before ++ c :: after → allowedAfter before c = false →
      ∃ first d rest, before = first ++ d :: rest ∧ d.key = c.key ∧ allowedAfter first d = true ∧
        c.now - d.now < c.window) ∧
    ∀ before c between d after, calls = before ++ c :: between ++ d :: after → d.key = c.key →
      (∀ e ∈ between, e.bucket = c.bucket → e.key = c.key) → d.now - c.now < d.window →
      allowedAfter before c = true → allowedAfter (before ++ c :: between) d = false := by
  refine ⟨fun before c after _ h => refused_after_allowed h, ?_⟩
  rintro before c between d after rfl hkey hbetween hlate hallowed
  have hc : 0 < c.window := hwindow c (by simp)
  have hd : 0 < d.window := hwindow d (by simp)
  have hsince : ∀ e ∈ between, c.now ≤ e.now := by
    intro e he
    obtain ⟨hleft, -, -⟩ := List.pairwise_append.1 hnow
    obtain ⟨-, hright, -⟩ := List.pairwise_append.1 hleft
    exact (List.pairwise_cons.1 hright).1 e he
  have hheld := (holds_of_allowed hc hallowed).run hsince hbetween
  unfold allowedAfter
  rw [Runs.run_append, Runs.run_cons]
  rw [← hkey] at hheld
  exact hheld.refused hd hlate

end

/-- Three calls for one file, the second within its window, the third after it. -/
def floodCalls : List FloodCall :=
  [⟨lit "a", 7, 100, 60⟩, ⟨lit "a", 7, 130, 60⟩, ⟨lit "a", 7, 160, 60⟩]

theorem flood_gate_law_sample : allowedAfter (floodCalls.take 1) ⟨lit "a", 7, 130, 60⟩ = false :=
  have hwindow : ∀ c ∈ floodCalls, 0 < c.window := by decide
  (flood_gate_law hwindow (by decide)).2 [] ⟨lit "a", 7, 100, 60⟩ [] _ [⟨lit "a", 7, 160, 60⟩] rfl rfl
    (by simp) (by decide) (by decide)

end GfrGuard
