import GfrGuard.Notify

/-!
# The flood gate

The fanotify channels report at most one risky event for each session and file in a scoring window.
The gate remembers what it let through in a direct-mapped table: `fangateAllow` refuses an event
exactly when its slot holds its key, sent less than a window ago (`fangateAllow_eq_false_iff`), and
otherwise records it.
-/

namespace GfrGuard

/-- The number of slots, `FANGATE_BUCKETS`. -/
abbrev fangateBuckets : Nat := 1024

/-- `struct fangate_entry`; the key of an empty slot is zero. -/
structure GateEntry where
  key : UInt64
  lastSent : Int
deriving DecidableEq

/-- `struct fangate`. -/
structure Fangate where
  slots : Fin fangateBuckets → GateEntry

/-- `fangate_init` and `fangate_reset`. -/
def fangateInit : Fangate := ⟨fun _ => ⟨0, 0⟩⟩

/-- The key of a session and a file; it is not zero. -/
def fangateKey (sessionKey : CStr) (inode : UInt64) : UInt64 :=
  let key := fnv1a64 sessionKey ^^^ (inode * 0x9E3779B97F4A7C15)
  if key = 0 then 1 else key

/-- The slot of a key. -/
def fangateSlot (key : UInt64) : Fin fangateBuckets :=
  ⟨(key &&& 1023).toNat, by
    rw [UInt64.toNat_and]
    exact Nat.lt_succ_of_le Nat.and_le_right⟩

/-- `fangate_allow`. -/
def fangateAllow (g : Fangate) (sessionKey : CStr) (inode : UInt64) (now window : Int) :
    Bool × Fangate :=
  if window ≤ 0 then (true, g)
  else
    let key := fangateKey sessionKey inode
    let e := g.slots (fangateSlot key)
    if e.key = key ∧ now - e.lastSent < window then (false, g)
    else (true, ⟨Function.update g.slots (fangateSlot key) ⟨key, now⟩⟩)

example : (fangateAllow fangateInit (lit "alice:10.0.0.5") 7 100 60).1 = true := by decide

/-- A call of `fanotify_gate_allow`. -/
structure GateCall where
  skey : CBuf 128
  path : CBuf pathMax
  sourceType : UInt8

/-- The key of the call: the hash of the path stands for the file. -/
def GateCall.key (call : GateCall) : UInt64 := fangateKey call.skey.str (fnv1a64 call.path.str)

/-- The window of the call. -/
def GateCall.window (call : GateCall) (p : Policy) : Int := (p.windows call.sourceType).1

/-- `fanotify_gate_allow`. -/
def fanotifyGateAllow (g : Fangate) (call : GateCall) (p : Policy) (now : Int) : Bool × Fangate :=
  fangateAllow g call.skey.str (fnv1a64 call.path.str) now (call.window p)

section
variable {g : Fangate} {call : GateCall} {p : Policy} {now : Int} {sessionKey : CStr} {inode : UInt64}
  {window : Int}

theorem fangateKey_ne_zero (sessionKey : CStr) (inode : UInt64) : fangateKey sessionKey inode ≠ 0 := by
  unfold fangateKey
  dsimp only
  split
  · decide
  · assumption

/-- When the gate refuses. -/
theorem fangateAllow_eq_false_iff : (fangateAllow g sessionKey inode now window).1 = false ↔
    0 < window ∧ (g.slots (fangateSlot (fangateKey sessionKey inode))).key = fangateKey sessionKey inode ∧
      now - (g.slots (fangateSlot (fangateKey sessionKey inode))).lastSent < window := by
  unfold fangateAllow
  dsimp only
  split_ifs with h1 h2
  · simp [h1]
  · simpa [h2] using h1
  · simp only [false_iff, not_and]
    tauto

/-- What the gate remembers after a call: what it did before, or the call. -/
theorem fangateAllow_slots (i : Fin fangateBuckets) :
    (fangateAllow g sessionKey inode now window).2.slots i = g.slots i ∨
      (fangateAllow g sessionKey inode now window).1 = true ∧
        (fangateAllow g sessionKey inode now window).2.slots i = ⟨fangateKey sessionKey inode, now⟩ := by
  unfold fangateAllow
  dsimp only
  split_ifs with h1 h2
  · exact .inl rfl
  · exact .inl rfl
  · by_cases hi : i = fangateSlot (fangateKey sessionKey inode)
    · subst hi
      exact .inr ⟨rfl, Function.update_self ..⟩
    · exact .inl (Function.update_of_ne hi ..)

end

end GfrGuard
