import GfrGuard.ChannelLookup
import GfrGuard.Lib.Runs

/-!
# Two threads on the channel table

The permission thread looks up the channel of an open while the main thread activates channels that were
pending. An entry is written only while it is pending, and nothing of it changes once it is not, so no
path is compared that is half written; a lookup finds what `find_channel` would in a table between the
one it began with and the one it ends with (`lookup_between`). Before a reload clears the table the main
thread waits for the permission thread to end. That ends only between two buffers, with nothing in hand,
so every open is answered once and in its turn, over any number of reloads (`opens_answered`).
-/

namespace GfrGuard

/-! ## The main thread -/

/-- The runtime state of an entry is written. -/
def ChannelTable.write (t : ChannelTable) (i : Nat) (f : FanChannelRt → FanChannelRt) : ChannelTable :=
  ⟨t.slots.modify i fun slot => { slot with rt := f slot.rt }, (Nat.le_of_eq (List.length_modify ..)).trans t.count_le⟩

/-- The calls of `channel_rt_activate`. -/
inductive ActivatePhase where
  | realpath
  | stat
  | openDir
  | statfs
  | marks
  | publish
deriving DecidableEq

/-- One call of `channel_rt_activate`, and the next one; none after a call that fails. -/
def activateStep (env : ActivateEnv) (slot : ChannelSlot) : ActivatePhase → FanChannelRt × Option ActivatePhase
  | .realpath =>
    match env.realpath slot.channel.markPath with
    | none => ({ slot.rt with pending := true }, none)
    | some realPath => ({ slot.rt with realPath := realPath }, some .stat)
  | .stat =>
    match env.stat slot.rt.realPath with
    | none => ({ slot.rt with pending := true }, none)
    | some isDir => ({ slot.rt with isDir := isDir }, some .openDir)
  | .openDir =>
    let dir := mountDir slot.rt.isDir slot.rt.realPath
    if env.openDir dir then ({ slot.rt with mountFd := some dir }, some .statfs)
    else ({ slot.rt with mountFd := none, pending := true }, none)
  | .statfs =>
    match env.statfs slot.rt.realPath with
    | none => ({ slot.rt with mountFd := none, pending := true }, none)
    | some fsid => ({ slot.rt with fsid := fsid }, some .marks)
  | .marks => (slot.rt, some .publish)
  | .publish => ({ slot.rt with pending := false }, none)

/-- What the main thread goes on with after a channel. -/
inductive MainNext where
  /-- The loop of `fanotify_retry_pending_channels`, at an entry. -/
  | retry (i : Nat)
  /-- The modules, with the channels they have yet to set up. -/
  | setup (todo : List FanotifyChannel)

/-- Where the main thread is. -/
inductive MainPc where
  | loop
  | next (n : MainNext)
  | activate (i : Nat) (phase : ActivatePhase) (n : MainNext)
  /-- `fanotify_stop_perm_thread`, once `g_perm_quit` is set. -/
  | join (todo : List FanotifyChannel)
  | clear (todo : List FanotifyChannel)
  | start

/-- The main thread makes the table anew. -/
def MainPc.rebuilds : MainPc → Bool
  | .next (.setup _) => true
  | .activate _ _ (.setup _) => true
  | .clear _ => true
  | .start => true
  | _ => false

/-! ## The permission thread -/

/-- An event of the permission group. -/
structure PermOpen where
  fd : Int
  /-- What `fanotify_resolve_path` finds. -/
  path : Option CStr
  /-- `FAN_OPEN_PERM` is in its mask. -/
  asks : Bool

/-- A lookup on its way. The table it began with is kept to say what it finds. -/
structure Lookup where
  path : CStr
  began : ChannelTable
  i : Nat
  best : Option Nat
  bestLen : Nat

/-- Where the permission thread is. -/
inductive PermPc where
  | stopped
  | waiting
  | draining
  | scan (l : Lookup)
  /-- The entry was not pending; its path comes next. -/
  | compare (l : Lookup)
  | decided (l : Lookup)

/-- The two threads, and the events that wait in the kernel. -/
structure Threads where
  table : ChannelTable
  /-- `g_perm_quit`. -/
  quit : Bool
  main : MainPc
  perm : PermPc
  kernel : List PermOpen
  /-- What is left of the buffer, the event that is worked on first. -/
  hand : List PermOpen
  finished : List PermOpen
  answers : List (Int × FanAction)

/-- The event that is worked on is answered, if it asks for it. -/
def Threads.answer (s : Threads) (resp : FanAction) : Threads :=
  match s.hand with
  | [] => s
  | o :: hand =>
    { s with
      perm := .draining
      hand := hand
      finished := s.finished ++ [o]
      answers := if o.asks then s.answers ++ [(o.fd, resp)] else s.answers }

/-! ## Steps -/

/-- A step of a thread, or what happens around them. -/
inductive ThreadEvent where
  | opened (o : PermOpen)
  /-- The timer of the main loop. -/
  | timer
  /-- `daemon_reload`, once the policy is loaded. -/
  | reload (st : Settings)
  /-- `realpath` writes to its buffer before it returns. -/
  | scribble (text : CStr)
  /-- The main thread goes on; starting a thread may fail. -/
  | main (env : ActivateEnv) (startOk : Bool)
  /-- The permission thread goes on: a read returns an event and up to so many more, a handler decides so. -/
  | perm (count : Nat) (resp : FanAction)

/-- The main thread takes a step. -/
def mainStep (env : ActivateEnv) (startOk : Bool) (s : Threads) : Threads :=
  match s.main with
  | .loop => s
  | .next (.retry i) =>
    match s.table.slots[i]? with
    | none => { s with main := .loop }
    | some slot =>
      { s with main := if slot.rt.pending then .activate i .realpath (.retry (i + 1)) else .next (.retry (i + 1)) }
  | .next (.setup []) => { s with main := .start }
  | .next (.setup (ch :: todo)) =>
    match fanotifyChannelRegister ch s.table with
    | none => { s with main := .next (.setup todo) }
    | some (i, t) => { s with table := t, main := .activate i .realpath (.setup todo) }
  | .activate i phase n =>
    match s.table.slots[i]? with
    | none => { s with main := .next n }
    | some slot =>
      { s with
        table := s.table.write i fun _ => (activateStep env slot phase).1
        main := match (activateStep env slot phase).2 with
          | some phase => .activate i phase n
          | none => .next n }
  | .join todo =>
    match s.perm with
    | .stopped => { s with main := .clear todo }
    | _ => s
  | .clear todo => { s with table := fanotifyChannelsClear, main := .next (.setup todo) }
  | .start => { s with quit := false, perm := if startOk then .waiting else .stopped, main := .loop }

/-- The permission thread takes a step. -/
def permStep (count : Nat) (resp : FanAction) (s : Threads) : Threads :=
  match s.perm with
  | .stopped => s
  | .waiting => { s with perm := if s.quit then .stopped else .draining }
  | .draining =>
    match s.hand, s.kernel with
    | [], [] => { s with perm := .waiting }
    | [], o :: kernel => { s with hand := o :: kernel.take count, kernel := kernel.drop count }
    | o :: _, _ =>
      match o.path with
      | none => s.answer .allow
      | some path => { s with perm := .scan ⟨path, s.table, 0, none, 0⟩ }
  | .scan l =>
    match s.table.slots[l.i]? with
    | none => { s with perm := .decided l }
    | some slot => { s with perm := if slot.rt.pending then .scan { l with i := l.i + 1 } else .compare l }
  | .compare l =>
    match s.table.slots[l.i]? with
    | none => { s with perm := .decided l }
    | some slot =>
      let m := pathPrefixMatch l.path slot.monitored
      { s with perm := .scan (if l.bestLen < m then { l with i := l.i + 1, best := some l.i, bestLen := m }
          else { l with i := l.i + 1 }) }
  | .decided l =>
    match l.best.bind fun i => s.table.slots[i]? with
    | none => s.answer .allow
    | some _ => s.answer resp

/-- One step; an event whose thread is elsewhere changes nothing. -/
def threadStep (s : Threads) : ThreadEvent → Threads
  | .opened o => { s with kernel := s.kernel ++ [o] }
  | .timer =>
    match s.main with
    | .loop => { s with main := .next (.retry 0) }
    | _ => s
  | .reload st =>
    match s.main with
    | .loop => { s with quit := true, main := .join st.monitored }
    | _ => s
  | .scribble text =>
    match s.main with
    | .activate i .realpath _ => { s with table := s.table.write i fun rt => { rt with realPath := text } }
    | _ => s
  | .main env startOk => mainStep env startOk s
  | .perm count resp => permStep count resp s

/-- The start of the daemon, before the modules register their channels. -/
def Threads.start (st : Settings) : Threads :=
  ⟨fanotifyChannelsClear, false, .next (.setup st.monitored), .stopped, [], [], [], []⟩

/-- The open that an event is. -/
def ThreadEvent.open? : ThreadEvent → Option PermOpen
  | .opened o => some o
  | _ => none

/-! ## What a lookup finds -/

/-- Entries that are active stay as they are. -/
def Grown (t t' : ChannelTable) : Prop :=
  t.slots.length = t'.slots.length ∧
    ∀ (i : Nat) (slot : ChannelSlot), t.slots[i]? = some slot → slot.rt.pending = false → t'.slots[i]? = some slot

/-- An entry of the table at the end that matches no less than any of the table at the beginning, and more
than those before it; none where no entry matched at the beginning. -/
def LookupBetween (began ended : ChannelTable) (path : CStr) : Option Nat → Prop
  | none => ∀ (j : Nat) (other : ChannelSlot), began.slots[j]? = some other → other.matchLength path = 0
  | some i => ∃ slot, ended.slots[i]? = some slot ∧ 0 < slot.matchLength path ∧
    ∀ (j : Nat) (other : ChannelSlot), began.slots[j]? = some other →
      other.matchLength path ≤ slot.matchLength path ∧ (j < i → other.matchLength path < slot.matchLength path)

section
variable {t t' : ChannelTable} {slot other : ChannelSlot} {i j : Nat} {f : FanChannelRt → FanChannelRt} {l : Lookup}
  {path : CStr} {s : Threads} {r : Option Nat} {o : PermOpen}

theorem ChannelTable.write_get (t : ChannelTable) (i : Nat) (f : FanChannelRt → FanChannelRt) (j : Nat) :
    (t.write i f).slots[j]? =
      t.slots[j]?.map fun slot => if i = j then { slot with rt := f slot.rt } else slot := by
  rw [ChannelTable.write, List.getElem?_modify]
  rfl

theorem ChannelTable.write_get_of_ne (t : ChannelTable) (f : FanChannelRt → FanChannelRt) (h : i ≠ j) :
    (t.write i f).slots[j]? = t.slots[j]? := by
  rw [ChannelTable.write_get, Option.map_congr fun _ _ => if_neg h, Option.map_id']

theorem matchLength_of_pending (h : slot.rt.pending = true) (path : CStr) : slot.matchLength path = 0 := by
  rw [ChannelSlot.matchLength, if_pos h]

theorem active_of_matchLength (h : 0 < slot.matchLength path) : slot.rt.pending = false := by
  by_contra hpending
  rw [Bool.not_eq_false] at hpending
  rw [matchLength_of_pending hpending] at h
  exact absurd h (Nat.lt_irrefl 0)

theorem Grown.refl (t : ChannelTable) : Grown t t := ⟨rfl, fun _ _ h _ => h⟩

/-- Only an entry that is pending is written. -/
theorem Grown.write (h : Grown t t') (hi : ∀ slot, t'.slots[i]? = some slot → slot.rt.pending = true)
    (f : FanChannelRt → FanChannelRt) : Grown t (t'.write i f) := by
  refine ⟨by rw [h.1, ChannelTable.write, List.length_modify], fun j slot hslot hactive => ?_⟩
  have hsame := h.2 j slot hslot hactive
  have hne : i ≠ j := by
    rintro rfl
    rw [hi slot hsame] at hactive
    cases hactive
  rw [ChannelTable.write_get_of_ne _ _ hne, hsame]

/-- An entry matches later what it matched before, and may match when it did not. -/
theorem Grown.matchLength_le (h : Grown t t') (ho : t.slots[j]? = some other) (hs : t'.slots[j]? = some slot)
    (path : CStr) : other.matchLength path ≤ slot.matchLength path := by
  cases hpending : other.rt.pending with
  | true =>
    rw [matchLength_of_pending hpending]
    exact Nat.zero_le _
  | false =>
    cases hs.symm.trans (h.2 j other ho hpending)
    exact Nat.le_refl _

/-! ## The invariant of a lookup -/

/-- What a lookup has found so far. -/
structure Lookup.Sound (l : Lookup) (t : ChannelTable) : Prop where
  grown : Grown l.began t
  le : ∀ (j : Nat) (other : ChannelSlot), j < l.i → l.began.slots[j]? = some other → other.matchLength l.path ≤ l.bestLen
  best : l.best = none ∧ l.bestLen = 0 ∨ ∃ k slot, l.best = some k ∧ t.slots[k]? = some slot ∧ 0 < l.bestLen ∧
    slot.matchLength l.path = l.bestLen ∧
      ∀ (j : Nat) (other : ChannelSlot), j < k → l.began.slots[j]? = some other → other.matchLength l.path < l.bestLen

theorem Lookup.Sound.start (path : CStr) (t : ChannelTable) : Lookup.Sound ⟨path, t, 0, none, 0⟩ t where
  grown := .refl t
  le _ _ h := absurd h (Nat.not_lt_zero _)
  best := .inl ⟨rfl, rfl⟩

theorem Lookup.Sound.write (h : l.Sound t) (hi : ∀ slot, t.slots[i]? = some slot → slot.rt.pending = true)
    (f : FanChannelRt → FanChannelRt) : l.Sound (t.write i f) where
  grown := h.grown.write hi f
  le := h.le
  best := by
    rcases h.best with hnone | ⟨k, slot, hbest, hslot, hpos, hlen, hfirst⟩
    · exact .inl hnone
    · have hactive : slot.rt.pending = false := active_of_matchLength (hlen ▸ hpos)
      have hne : i ≠ k := by
        rintro rfl
        rw [hi slot hslot] at hactive
        cases hactive
      exact .inr ⟨k, slot, hbest, by rw [ChannelTable.write_get_of_ne _ _ hne, hslot], hpos, hlen, hfirst⟩

/-- An entry that is pending was pending when the lookup began. -/
theorem Lookup.Sound.skip (h : l.Sound t) (hslot : t.slots[l.i]? = some slot) (hpending : slot.rt.pending = true) :
    Lookup.Sound { l with i := l.i + 1 } t where
  grown := h.grown
  le j other hj hother := by
    rcases Nat.lt_succ_iff_lt_or_eq.1 hj with hlt | rfl
    · exact h.le j other hlt hother
    · have hle := h.grown.matchLength_le hother hslot l.path
      rw [matchLength_of_pending hpending] at hle
      exact hle.trans (Nat.zero_le _)
  best := h.best

/-- An entry that is not pending is as it was when it became active. -/
theorem Lookup.Sound.advance (h : l.Sound t) (hslot : t.slots[l.i]? = some slot) (hactive : slot.rt.pending = false) :
    Lookup.Sound (if l.bestLen < pathPrefixMatch l.path slot.monitored then
      { l with i := l.i + 1, best := some l.i, bestLen := pathPrefixMatch l.path slot.monitored }
      else { l with i := l.i + 1 }) t := by
  have hm : slot.matchLength l.path = pathPrefixMatch l.path slot.monitored := by
    rw [ChannelSlot.matchLength, if_neg (by rw [hactive]; exact Bool.false_ne_true)]
  have hhere : ∀ other, l.began.slots[l.i]? = some other →
      other.matchLength l.path ≤ pathPrefixMatch l.path slot.monitored := fun other hother =>
    hm ▸ h.grown.matchLength_le hother hslot l.path
  split
  · next hlonger =>
    refine ⟨h.grown, fun j other hj hother => ?_, .inr ⟨l.i, slot, rfl, hslot, Nat.zero_lt_of_lt hlonger, hm, fun j other hj hother => ?_⟩⟩
    · rcases Nat.lt_succ_iff_lt_or_eq.1 hj with hlt | rfl
      · exact (h.le j other hlt hother).trans (Nat.le_of_lt hlonger)
      · exact hhere other hother
    · exact Nat.lt_of_le_of_lt (h.le j other hj hother) hlonger
  · next hshort =>
    refine ⟨h.grown, fun j other hj hother => ?_, h.best⟩
    rcases Nat.lt_succ_iff_lt_or_eq.1 hj with hlt | rfl
    · exact h.le j other hlt hother
    · exact (hhere other hother).trans (Nat.not_lt.1 hshort)

theorem Lookup.Sound.between (h : l.Sound t) (hend : t.slots.length ≤ l.i) :
    LookupBetween l.began t l.path l.best := by
  have hle : ∀ (j : Nat) (other : ChannelSlot), l.began.slots[j]? = some other → other.matchLength l.path ≤ l.bestLen := by
    intro j other hother
    have hj := (List.getElem?_eq_some_iff.1 hother).1
    rw [h.grown.1] at hj
    exact h.le j other (hj.trans_le hend) hother
  rcases h.best with ⟨hbest, hlen⟩ | ⟨k, slot, hbest, hslot, hpos, hlen, hfirst⟩
  · rw [hbest]
    exact fun j other hother => Nat.le_zero.1 (hlen ▸ hle j other hother)
  · rw [hbest]
    refine ⟨slot, hslot, by rw [hlen]; exact hpos, fun j other hother => ?_⟩
    rw [hlen]
    exact ⟨hle j other hother, fun hj => hfirst j other hj hother⟩

/-- Where no entry has become active a lookup finds what `find_channel` does. -/
theorem LookupBetween.eq_findChannel (h : LookupBetween t t' path r) (hsame : Grown t' t) : r = findChannel t path := by
  rcases findChannelFrom_spec path t.slots 0 none 0 with ⟨hnone, hle⟩ | ⟨k, slot, hk, hres, hpos, hmax⟩
  · rw [findChannel, hnone]
    cases r with
    | none => rfl
    | some i =>
      obtain ⟨slot, hslot, hpos, -⟩ := h
      have hmem := hsame.2 i slot hslot (active_of_matchLength hpos)
      exact absurd (hle slot (List.mem_of_getElem? hmem)) (Nat.not_le.2 hpos)
  · rw [findChannel, hres, Nat.zero_add]
    cases r with
    | none => exact absurd (h k slot hk) (Nat.ne_of_gt hpos)
    | some i =>
      obtain ⟨found, hfound, hfpos, hfmax⟩ := h
      have hmem := hsame.2 i found hfound (active_of_matchLength hfpos)
      have hone := hfmax k slot hk
      have htwo := hmax i found hmem
      rcases Nat.lt_trichotomy i k with hlt | rfl | hgt
      · exact absurd (htwo.2 hlt) (Nat.not_lt.2 hone.1)
      · rfl
      · exact absurd (hone.2 hgt) (Nat.not_lt.2 htwo.1)

/-! ## The invariant of the threads -/

/-- What holds where the permission thread is. -/
def PermPc.Sound (t : ChannelTable) (hand : List PermOpen) : PermPc → Prop
  | .stopped => hand = []
  | .waiting => hand = []
  | .draining => True
  | .scan l => hand ≠ [] ∧ l.Sound t
  | .compare l => hand ≠ [] ∧ l.Sound t ∧ ∃ slot, t.slots[l.i]? = some slot ∧ slot.rt.pending = false
  | .decided l => hand ≠ [] ∧ l.Sound t ∧ t.slots.length ≤ l.i

/-- What holds where the main thread is: an entry is pending while it is written. -/
def MainPc.Sound (t : ChannelTable) : MainPc → Prop
  | .activate i _ _ => ∃ slot, t.slots[i]? = some slot ∧ slot.rt.pending = true
  | _ => True

/-- The invariant. -/
structure Threads.Sound (s : Threads) : Prop where
  perm : s.perm.Sound s.table s.hand
  main : s.main.Sound s.table
  alone : s.main.rebuilds = true → s.perm = .stopped
  answers : s.answers.map (·.1) = (s.finished.filter (·.asks)).map (·.fd)

theorem PermPc.Sound.write {p : PermPc} {hand : List PermOpen} (h : p.Sound t hand)
    (hi : ∀ slot, t.slots[i]? = some slot → slot.rt.pending = true) (f : FanChannelRt → FanChannelRt) :
    p.Sound (t.write i f) hand := by
  cases p with
  | stopped => exact h
  | waiting => exact h
  | draining => trivial
  | scan l => exact ⟨h.1, h.2.write hi f⟩
  | compare l =>
    obtain ⟨hhand, hl, slot, hslot, hactive⟩ := h
    have hne : i ≠ l.i := by
      rintro rfl
      rw [hi slot hslot] at hactive
      cases hactive
    exact ⟨hhand, hl.write hi f, slot, by rw [ChannelTable.write_get_of_ne _ _ hne, hslot], hactive⟩
  | decided l => exact ⟨h.1, h.2.1.write hi f, by rw [ChannelTable.write, List.length_modify]; exact h.2.2⟩

/-- Every call before the last leaves the entry pending. -/
theorem activateStep_pending (env : ActivateEnv) (h : slot.rt.pending = true) (phase : ActivatePhase) :
    (activateStep env slot phase).1.pending = true ∨ (activateStep env slot phase).2 = none := by
  cases phase with
  | realpath =>
    rw [activateStep]
    split
    · exact .inr rfl
    · exact .inl h
  | stat =>
    rw [activateStep]
    split
    · exact .inr rfl
    · exact .inl h
  | openDir =>
    rw [activateStep]
    dsimp only
    split
    · exact .inl h
    · exact .inr rfl
  | statfs =>
    rw [activateStep]
    split
    · exact .inr rfl
    · exact .inl h
  | marks => exact .inl h
  | publish => exact .inr rfl

theorem Threads.Sound.start (st : Settings) : (Threads.start st).Sound where
  perm := rfl
  main := trivial
  alone _ := rfl
  answers := rfl

/-- What is worked on is answered once. -/
theorem Threads.Sound.answer (h : s.Sound) (hp : s.perm ≠ .stopped) (resp : FanAction) : (s.answer resp).Sound := by
  unfold Threads.answer
  split
  · exact h
  · next o hand hhand =>
    refine ⟨trivial, h.main, fun hr => absurd (h.alone hr) hp, ?_⟩
    have hanswers := h.answers
    dsimp only
    rw [List.filter_append, List.map_append, ← hanswers]
    cases hasks : o.asks with
    | true => simp [hasks]
    | false => simp [hasks]

theorem Threads.Sound.activate {phase : ActivatePhase} {n : MainNext} (h : s.Sound) (hmain : s.main = .activate i phase n)
    (hslot : s.table.slots[i]? = some slot) (env : ActivateEnv) :
    Threads.Sound { s with
      table := s.table.write i fun _ => (activateStep env slot phase).1
      main := match (activateStep env slot phase).2 with
        | some phase => .activate i phase n
        | none => .next n } := by
  have hpending : ∀ slot, s.table.slots[i]? = some slot → slot.rt.pending = true := by
    have hm := h.main
    rw [hmain] at hm
    obtain ⟨slot', hslot', hp⟩ := hm
    intro slot hs
    cases hslot'.symm.trans hs
    exact hp
  refine ⟨h.perm.write hpending fun _ => (activateStep env slot phase).1, ?_, fun hr => h.alone ?_, h.answers⟩
  · dsimp only
    split
    · next next hnext =>
      refine ⟨_, by rw [ChannelTable.write_get, hslot, Option.map_some, if_pos rfl], ?_⟩
      refine (activateStep_pending env (hpending slot hslot) phase).resolve_right ?_
      rw [hnext]
      exact Option.some_ne_none _
    · trivial
  · rw [hmain]
    dsimp only at hr
    cases n with
    | setup todo => rfl
    | retry j => split at hr <;> cases hr

theorem Threads.Sound.mainStep (h : s.Sound) (env : ActivateEnv) (startOk : Bool) : (mainStep env startOk s).Sound := by
  obtain ⟨table, quit, main, perm, kernel, hand, finished, answers⟩ := s
  unfold GfrGuard.mainStep
  cases main with
  | loop => exact h
  | next n =>
    cases n with
    | retry i =>
      dsimp only
      split
      · exact ⟨h.perm, trivial, fun hr => absurd hr Bool.false_ne_true, h.answers⟩
      · next slot hslot =>
        refine ⟨h.perm, ?_, fun hr => ?_, h.answers⟩
        · dsimp only
          split
          · exact ⟨slot, hslot, ‹_›⟩
          · trivial
        · dsimp only at hr
          split at hr <;> cases hr
    | setup todo =>
      have hstopped := h.alone rfl
      have hperm := h.perm
      dsimp only at hstopped hperm
      subst hstopped
      cases todo with
      | nil => exact ⟨hperm, trivial, fun _ => rfl, h.answers⟩
      | cons ch todo =>
        dsimp only
        split
        · exact ⟨hperm, trivial, fun _ => rfl, h.answers⟩
        · next i t hreg =>
          refine ⟨hperm, ?_, fun _ => rfl, h.answers⟩
          unfold fanotifyChannelRegister at hreg
          split at hreg
          · cases hreg
            exact ⟨⟨ch, .registered⟩, List.getElem?_concat_length, rfl⟩
          · cases hreg
  | activate i phase n =>
    dsimp only
    split
    · next hnone =>
      obtain ⟨slot, hslot, -⟩ := h.main
      rw [hnone] at hslot
      cases hslot
    · next slot hslot => exact h.activate rfl hslot env
  | join todo =>
    cases perm with
    | stopped => exact ⟨h.perm, trivial, fun _ => rfl, h.answers⟩
    | _ => exact h
  | clear todo =>
    have hstopped := h.alone rfl
    have hperm := h.perm
    dsimp only at hstopped hperm
    subst hstopped
    exact ⟨hperm, trivial, fun _ => rfl, h.answers⟩
  | start =>
    have hstopped := h.alone rfl
    have hperm := h.perm
    dsimp only at hstopped hperm
    subst hstopped
    refine ⟨?_, trivial, fun hr => absurd hr Bool.false_ne_true, h.answers⟩
    dsimp only
    split <;> exact hperm

theorem Threads.Sound.permStep (h : s.Sound) (count : Nat) (resp : FanAction) : (permStep count resp s).Sound := by
  have hbusy : s.perm ≠ .stopped → s.main.rebuilds = true → False := fun hp hr => hp (h.alone hr)
  obtain ⟨table, quit, main, perm, kernel, hand, finished, answers⟩ := s
  unfold GfrGuard.permStep
  cases perm with
  | stopped => exact h
  | waiting =>
    have hbusy := hbusy (by rintro ⟨⟩)
    refine ⟨?_, h.main, fun hr => (hbusy hr).elim, h.answers⟩
    dsimp only
    split
    · exact h.perm
    · trivial
  | draining =>
    have hne : PermPc.draining ≠ .stopped := by rintro ⟨⟩
    have hbusy := hbusy hne
    dsimp only
    split
    · exact ⟨rfl, h.main, fun hr => (hbusy hr).elim, h.answers⟩
    · exact ⟨trivial, h.main, fun hr => (hbusy hr).elim, h.answers⟩
    · split
      · exact h.answer hne .allow
      · exact ⟨⟨List.cons_ne_nil _ _, .start _ _⟩, h.main, fun hr => (hbusy hr).elim, h.answers⟩
  | scan l =>
    have hbusy := hbusy (by rintro ⟨⟩)
    obtain ⟨hhand, hl⟩ := h.perm
    dsimp only
    split
    · next hnone => exact ⟨⟨hhand, hl, List.getElem?_eq_none_iff.1 hnone⟩, h.main, fun hr => (hbusy hr).elim, h.answers⟩
    · next slot hslot =>
      refine ⟨?_, h.main, fun hr => (hbusy hr).elim, h.answers⟩
      dsimp only
      split
      · exact ⟨hhand, hl.skip hslot ‹_›⟩
      · exact ⟨hhand, hl, slot, hslot, Bool.eq_false_iff.2 ‹_›⟩
  | compare l =>
    have hbusy := hbusy (by rintro ⟨⟩)
    obtain ⟨hhand, hl, slot, hslot, hactive⟩ := h.perm
    dsimp only at hslot ⊢
    rw [hslot]
    exact ⟨⟨hhand, hl.advance hslot hactive⟩, h.main, fun hr => (hbusy hr).elim, h.answers⟩
  | decided l =>
    have hne : PermPc.decided l ≠ .stopped := by rintro ⟨⟩
    dsimp only
    split
    · exact h.answer hne .allow
    · exact h.answer hne resp

theorem Threads.Sound.step (h : s.Sound) (e : ThreadEvent) : (threadStep s e).Sound := by
  cases e with
  | opened o => exact ⟨h.perm, h.main, h.alone, h.answers⟩
  | timer =>
    unfold threadStep
    dsimp only
    split
    · exact ⟨h.perm, trivial, fun hr => absurd hr Bool.false_ne_true, h.answers⟩
    · exact h
  | reload st =>
    unfold threadStep
    dsimp only
    split
    · exact ⟨h.perm, trivial, fun hr => absurd hr Bool.false_ne_true, h.answers⟩
    · exact h
  | scribble text =>
    unfold threadStep
    dsimp only
    split
    · next i n hmain =>
      have hm := h.main
      rw [hmain] at hm
      obtain ⟨slot, hslot, hpending⟩ := hm
      have hall : ∀ slot, s.table.slots[i]? = some slot → slot.rt.pending = true := by
        intro slot' hs
        cases hslot.symm.trans hs
        exact hpending
      refine ⟨h.perm.write hall fun rt => { rt with realPath := text }, ?_, h.alone, h.answers⟩
      dsimp only
      rw [hmain]
      refine ⟨{ slot with rt := { slot.rt with realPath := text } }, ?_, hpending⟩
      rw [ChannelTable.write_get, hslot, Option.map_some, if_pos rfl]
    · exact h
  | main env startOk => exact h.mainStep env startOk
  | perm count resp => exact h.permStep count resp

/-! ## The order of the opens -/

theorem Threads.answer_order (s : Threads) (resp : FanAction) :
    (s.answer resp).finished ++ ((s.answer resp).hand ++ (s.answer resp).kernel) = s.finished ++ (s.hand ++ s.kernel) := by
  unfold Threads.answer
  split
  · rfl
  · next o hand hhand =>
    rw [hhand, List.append_assoc]
    rfl

/-- A step only adds the open it is. -/
theorem threadStep_order (s : Threads) (e : ThreadEvent) :
    (threadStep s e).finished ++ ((threadStep s e).hand ++ (threadStep s e).kernel) =
      s.finished ++ (s.hand ++ s.kernel) ++ e.open?.toList := by
  have hnone : s.finished ++ (s.hand ++ s.kernel) = s.finished ++ (s.hand ++ s.kernel) ++ [] := (List.append_nil _).symm
  cases e with
  | opened o =>
    show s.finished ++ (s.hand ++ (s.kernel ++ [o])) = _
    simp only [List.append_assoc]
    rfl
  | timer =>
    unfold threadStep
    dsimp only
    split <;> exact hnone
  | reload st =>
    unfold threadStep
    dsimp only
    split <;> exact hnone
  | scribble text =>
    unfold threadStep
    dsimp only
    split <;> exact hnone
  | main env startOk =>
    unfold threadStep mainStep
    dsimp only
    split <;> first | exact hnone | (split <;> exact hnone)
  | perm count resp =>
    rw [show ThreadEvent.open? (.perm count resp) = none from rfl, Option.toList_none, List.append_nil]
    unfold threadStep permStep
    dsimp only
    split
    · rfl
    · rfl
    · split
      · rfl
      · next o kernel hhand hkernel =>
        rw [hhand, hkernel, List.nil_append, List.cons_append, List.take_append_drop]
      · split
        · exact s.answer_order .allow
        · rfl
    · split <;> rfl
    · split <;> rfl
    · split
      · exact s.answer_order .allow
      · exact s.answer_order resp

theorem run_order (s : Threads) (es : List ThreadEvent) :
    (Runs.run threadStep s es).finished ++
        ((Runs.run threadStep s es).hand ++ (Runs.run threadStep s es).kernel) =
      s.finished ++ (s.hand ++ s.kernel) ++ es.filterMap ThreadEvent.open? := by
  induction es generalizing s with
  | nil => exact (List.append_nil _).symm
  | cons e es ih =>
    rw [Runs.run_cons, ih, threadStep_order, List.append_assoc]
    congr 1
    cases he : e.open? with
    | none => rw [List.filterMap_cons_none he, Option.toList_none, List.nil_append]
    | some o => rw [List.filterMap_cons_some he, Option.toList_some, List.singleton_append]

/-! ## The permission thread alone -/

/-- How many steps the permission thread has left where it is, at most. -/
def PermPc.left (n : Nat) (hand : List PermOpen) : PermPc → Nat
  | .stopped => 0
  | .waiting => 0
  | .draining => 2 * n + if hand = [] then 5 else 4
  | .scan l => 2 * (n - l.i) + 3
  | .compare l => 2 * (n - l.i) + 2
  | .decided _ => 1

/-- How many steps it has left until nothing waits. -/
def Threads.left (s : Threads) : Nat :=
  (s.hand.length + s.kernel.length) * (2 * s.table.slots.length + 6) + s.perm.left s.table.slots.length s.hand

theorem run_sound (st : Settings) (es : List ThreadEvent) : (Runs.run threadStep (Threads.start st) es).Sound :=
  Runs.run_invariant Threads.Sound (fun _ e h => h.step e) (.start st) es

/-! ## The main thread alone -/

/-- The main thread comes from one state to another by steps of its own. -/
def MainReaches (env : ActivateEnv) (startOk : Bool) (s s' : Threads) : Prop :=
  ∃ k, Runs.run threadStep s (List.replicate k (.main env startOk)) = s'

section
variable {env : ActivateEnv} {startOk : Bool} {s' s'' : Threads} {phase : ActivatePhase} {n : MainNext} {k : Nat}

theorem MainReaches.step (hstep : mainStep env startOk s = s') (h : MainReaches env startOk s' s'') :
    MainReaches env startOk s s'' := by
  obtain ⟨k, hk⟩ := h
  subst hstep
  exact ⟨k + 1, hk⟩

theorem MainReaches.trans (h : MainReaches env startOk s s') (h' : MainReaches env startOk s' s'') :
    MainReaches env startOk s s'' := by
  obtain ⟨k, rfl⟩ := h
  obtain ⟨k', rfl⟩ := h'
  refine ⟨k + k', ?_⟩
  rw [List.replicate_add, Runs.run_append]

theorem ChannelTable.ext_slots (h : t.slots = t'.slots) : t = t' := by
  cases t
  cases t'
  cases h
  rfl

/-- What is written last stays. -/
theorem ChannelTable.write_write (t : ChannelTable) (i : Nat) (rt rt' : FanChannelRt) :
    (t.write i fun _ => rt).write i (fun _ => rt') = t.write i fun _ => rt' := by
  refine ext_slots ?_
  show (t.slots.modify i _).modify i _ = _
  rw [List.modify_modify_eq]
  rfl

/-- The calls from one on, so many at most. -/
def activateFrom (env : ActivateEnv) : Nat → ActivatePhase → ChannelSlot → ChannelSlot
  | 0, _, slot => slot
  | k + 1, phase, slot =>
    match (activateStep env slot phase).2 with
    | none => { slot with rt := (activateStep env slot phase).1 }
    | some next => activateFrom env k next { slot with rt := (activateStep env slot phase).1 }

/-- How many calls are left. -/
def ActivatePhase.left : ActivatePhase → Nat
  | .realpath => 6
  | .stat => 5
  | .openDir => 4
  | .statfs => 3
  | .marks => 2
  | .publish => 1

theorem activateStep_left {next : ActivatePhase} (h : (activateStep env slot phase).2 = some next) :
    next.left < phase.left := by
  unfold activateStep at h
  cases phase <;> dsimp only at h <;> (try split at h) <;> cases h <;> decide

/-- The calls one after another are `channel_rt_activate`. -/
theorem activateFrom_eq (env : ActivateEnv) (slot : ChannelSlot) :
    activateFrom env 6 .realpath slot = (channelRtActivate env slot).2 := by
  unfold channelRtActivate
  cases hreal : env.realpath slot.channel.markPath with
  | none => simp [activateFrom, activateStep, hreal]
  | some realPath =>
    cases hstat : env.stat realPath with
    | none => simp [activateFrom, activateStep, hreal, hstat]
    | some isDir =>
      cases hopen : env.openDir (mountDir isDir realPath) with
      | false => simp [activateFrom, activateStep, hreal, hstat, hopen]
      | true =>
        cases hfs : env.statfs realPath with
        | none => simp [activateFrom, activateStep, hreal, hstat, hopen, hfs]
        | some fsid => simp [activateFrom, activateStep, hreal, hstat, hopen, hfs]

theorem activate_reaches (hleft : phase.left ≤ k) (hmain : s.main = .activate i phase n)
    (hslot : s.table.slots[i]? = some slot) :
    MainReaches env startOk s
      { s with table := s.table.write i fun _ => (activateFrom env k phase slot).rt, main := .next n } := by
  induction k generalizing s phase slot with
  | zero => cases phase <;> cases hleft
  | succ k ih =>
    have hstep : mainStep env startOk s = { s with
        table := s.table.write i fun _ => (activateStep env slot phase).1
        main := match (activateStep env slot phase).2 with
          | some phase => .activate i phase n
          | none => .next n } := by
      unfold mainStep
      rw [hmain]
      dsimp only
      rw [hslot]
    unfold activateFrom
    cases hnext : (activateStep env slot phase).2 with
    | none =>
      rw [hnext] at hstep
      exact ⟨1, hstep⟩
    | some next =>
      rw [hnext] at hstep
      have hwritten : (s.table.write i fun _ => (activateStep env slot phase).1).slots[i]? =
          some { slot with rt := (activateStep env slot phase).1 } := by
        rw [ChannelTable.write_get, hslot, Option.map_some, if_pos rfl]
      have hlt := activateStep_left hnext
      have hrest := ih (s := { s with
          table := s.table.write i fun _ => (activateStep env slot phase).1, main := .activate i next n })
        (by omega) rfl hwritten
      dsimp only at hrest
      rw [ChannelTable.write_write] at hrest
      exact .step hstep hrest

/-- With the other thread out of the way an activation is `channel_rt_activate`. -/
theorem activate_alone (env : ActivateEnv) (startOk : Bool) (hmain : s.main = .activate i .realpath n)
    (hslot : s.table.slots[i]? = some slot) :
    MainReaches env startOk s
      { s with table := s.table.write i fun _ => (channelRtActivate env slot).2.rt, main := .next n } := by
  rw [← activateFrom_eq]
  exact activate_reaches (Nat.le_refl 6) hmain hslot

/-- The entry an activation leaves. -/
theorem write_activate_get (env : ActivateEnv) (hslot : t.slots[i]? = some slot) (j : Nat) :
    (t.write i fun _ => (channelRtActivate env slot).2.rt).slots[j]? =
      t.slots[j]?.map fun slot => if i = j then (channelRtActivate env slot).2 else slot := by
  rw [ChannelTable.write_get]
  by_cases hj : i = j
  · subst hj
    rw [hslot, Option.map_some, Option.map_some, if_pos rfl, if_pos rfl, ← channelRtActivate_channel env slot]
  · simp only [if_neg hj]

/-- The loop of the timer alone is `fanotify_retry_pending_channels`, from an entry on. -/
theorem retry_from (env : ActivateEnv) (startOk : Bool) (hmain : s.main = .next (.retry i)) :
    ∃ t, MainReaches env startOk s { s with table := t, main := .loop } ∧ ∀ j, t.slots[j]? =
      s.table.slots[j]?.map fun slot =>
        if i ≤ j ∧ slot.rt.pending = true then (channelRtActivate env slot).2 else slot := by
  induction hk : s.table.slots.length - i generalizing s i with
  | zero =>
    have hlen : s.table.slots.length ≤ i := by omega
    refine ⟨s.table, ⟨1, ?_⟩, fun j => ?_⟩
    · show mainStep env startOk s = _
      unfold mainStep
      rw [hmain]
      dsimp only
      rw [List.getElem?_eq_none hlen]
    · cases hj : s.table.slots[j]? with
      | none => rfl
      | some slot =>
        have hlt := (List.getElem?_eq_some_iff.1 hj).1
        rw [Option.map_some, if_neg fun h => by omega]
  | succ k ih =>
    have hlt : i < s.table.slots.length := by omega
    have hslot : s.table.slots[i]? = some s.table.slots[i] := List.getElem?_eq_getElem hlt
    generalize s.table.slots[i] = slot at hslot
    cases hpending : slot.rt.pending with
    | false =>
      have hstep : mainStep env startOk s = { s with main := .next (.retry (i + 1)) } := by
        unfold mainStep
        rw [hmain]
        dsimp only
        rw [hslot]
        dsimp only
        rw [hpending]
        rfl
      obtain ⟨t, hreach, ht⟩ := ih (s := { s with main := .next (.retry (i + 1)) }) rfl (by dsimp only; omega)
      refine ⟨t, .step hstep hreach, fun j => (ht j).trans ?_⟩
      refine Option.map_congr fun other hother => ?_
      by_cases hj : i = j
      · subst hj
        cases hslot.symm.trans hother
        rw [if_neg fun h => by omega, if_neg fun h => by rw [hpending] at h; cases h.2]
      · congr 2
        exact propext (by omega)
    | true =>
      have hstep : mainStep env startOk s = { s with main := .activate i .realpath (.retry (i + 1)) } := by
        unfold mainStep
        rw [hmain]
        dsimp only
        rw [hslot]
        dsimp only
        rw [hpending]
        rfl
      have halone := activate_alone (s := { s with main := .activate i .realpath (.retry (i + 1)) }) env startOk rfl hslot
      dsimp only at halone
      obtain ⟨t, hreach, ht⟩ := ih (s := { s with
          table := s.table.write i fun _ => (channelRtActivate env slot).2.rt, main := .next (.retry (i + 1)) }) rfl (by
        dsimp only
        rw [ChannelTable.write, List.length_modify]
        omega)
      refine ⟨t, .step hstep (halone.trans hreach), fun j => ?_⟩
      rw [ht, write_activate_get env hslot, Option.map_map]
      refine Option.map_congr fun other hother => ?_
      dsimp only [Function.comp]
      by_cases hj : i = j
      · subst hj
        cases hslot.symm.trans hother
        rw [if_neg (not_and_of_not_left _ (Nat.not_succ_le_self i)), if_pos rfl, if_pos ⟨Nat.le_refl i, hpending⟩]
      · simp only [if_neg hj]
        congr 2
        exact propext (by omega)

theorem retry_alone (env : ActivateEnv) (startOk : Bool) (hmain : s.main = .next (.retry 0)) :
    MainReaches env startOk s { s with table := (fanotifyRetryPendingChannels env s.table).2, main := .loop } := by
  obtain ⟨t, hreach, ht⟩ := retry_from env startOk hmain
  have htable : t = (fanotifyRetryPendingChannels env s.table).2 := by
    refine ChannelTable.ext_slots (List.ext_getElem? fun j => ?_)
    rw [ht]
    unfold fanotifyRetryPendingChannels
    rw [List.getElem?_map]
    simp only [Nat.zero_le, true_and]
  rw [← htable]
  exact hreach

/-- The channels that are left are set up one after the other. -/
theorem setup_alone (env : ActivateEnv) (startOk : Bool) {todo : List FanotifyChannel}
    (hmain : s.main = .next (.setup todo)) :
    MainReaches env startOk s { s with
      table := todo.foldl (fun t ch => (fanotifyChannelSetup env ch t).2) s.table, main := .start } := by
  induction todo generalizing s with
  | nil =>
    refine ⟨1, ?_⟩
    show mainStep env startOk s = _
    unfold mainStep
    rw [hmain]
    rfl
  | cons ch todo ih =>
    rw [List.foldl_cons]
    unfold fanotifyChannelSetup
    cases hreg : fanotifyChannelRegister ch s.table with
    | none =>
      have hstep : mainStep env startOk s = { s with main := .next (.setup todo) } := by
        unfold mainStep
        rw [hmain]
        dsimp only
        rw [hreg]
      exact .step hstep (ih (s := { s with main := .next (.setup todo) }) rfl)
    | some reg =>
      obtain ⟨i, t⟩ := reg
      have hstep : mainStep env startOk s = { s with table := t, main := .activate i .realpath (.setup todo) } := by
        unfold mainStep
        rw [hmain]
        dsimp only
        rw [hreg]
      have hslot : t.slots[i]? = some ⟨ch, .registered⟩ := by
        unfold fanotifyChannelRegister at hreg
        split at hreg
        · cases hreg
          exact List.getElem?_concat_length
        · cases hreg
      have halone := activate_alone (s := { s with table := t, main := .activate i .realpath (.setup todo) }) env startOk
        rfl hslot
      refine .step hstep (halone.trans ?_)
      have hrest := ih (s := { s with
        table := t.write i fun _ => (channelRtActivate env ⟨ch, .registered⟩).2.rt, main := .next (.setup todo) }) rfl
      dsimp only at hrest ⊢
      have htable : t.write i (fun _ => (channelRtActivate env ⟨ch, .registered⟩).2.rt) =
          ⟨t.slots.modify i fun slot => (channelRtActivate env slot).2, by
            rw [List.length_modify]
            exact t.count_le⟩ := by
        refine ChannelTable.ext_slots (List.ext_getElem? fun j => ?_)
        rw [write_activate_get env hslot, List.getElem?_modify]
        rfl
      rw [htable] at hrest ⊢
      exact hrest

theorem modulesInit_eq_foldl (env : ActivateEnv) (st : Settings) (t : ChannelTable) :
    modulesInit env st t = st.monitored.foldl (fun t ch => (fanotifyChannelSetup env ch t).2) t := by
  have hmodule : ∀ (userData : Channel) (enabled : Bool) (paths : StrList 8 4096) (t : ChannelTable),
      moduleInit env userData enabled paths t =
        (pathsOf userData enabled paths).foldl (fun t ch => (fanotifyChannelSetup env ch t).2) t := by
    intro userData enabled paths t
    unfold moduleInit pathsOf
    split
    · rw [List.foldl_map]
    · rfl
  unfold modulesInit localModuleInit cloudModuleInit ftpModuleInit Settings.monitored
  rw [hmodule, hmodule, hmodule, List.foldl_append, List.foldl_append]

/-- With the permission thread stopped a reload leaves the table the modules set up. -/
theorem reload_alone (env : ActivateEnv) (startOk : Bool) {st : Settings} (hmain : s.main = .clear st.monitored) :
    MainReaches env startOk s
      { s with table := modulesInit env st fanotifyChannelsClear, main := .start } := by
  have hstep : mainStep env startOk s = { s with table := fanotifyChannelsClear, main := .next (.setup st.monitored) } := by
    unfold mainStep
    rw [hmain]
  rw [modulesInit_eq_foldl]
  exact .step hstep
    (setup_alone (s := { s with table := fanotifyChannelsClear, main := .next (.setup st.monitored) }) env startOk rfl)

end

end

/-- Over any number of reloads and retries, each open is in the kernel, in the hand of the permission thread, or
finished, in the order they came; what is finished has been answered once if it asked for it. While the table is made
anew the permission thread has ended, with nothing in hand. -/
theorem opens_answered (st : Settings) (es : List ThreadEvent) :
    let s := Runs.run threadStep (Threads.start st) es
    s.finished ++ (s.hand ++ s.kernel) = es.filterMap ThreadEvent.open? ∧
      s.answers.map (·.1) = (s.finished.filter (·.asks)).map (·.fd) ∧
        (s.main.rebuilds = true → s.perm = .stopped ∧ s.hand = []) := by
  have hsound := run_sound st es
  refine ⟨run_order (Threads.start st) es, hsound.answers, fun hr => ?_⟩
  have hstopped := hsound.alone hr
  have hperm := hsound.perm
  rw [hstopped] at hperm
  exact ⟨hstopped, hperm⟩

/-- Two paths for FTP, the one below the other. -/
def nestedPaths : Settings :=
  { applyDefaults with
    ftpPaths := ⟨[.ofStr 4096 (lit "/srv"), .ofStr 4096 (lit "/srv/a")], Nat.le_of_ble_eq_true rfl⟩ }

/-- A system where `/srv` is not there yet. -/
def laterEnv : ActivateEnv := { directoriesEnv with realpath := fun path => if path = lit "/srv" then none else some path }

/-- `/srv` becomes active while the channel of a file is looked up. -/
def lookupRun : List ThreadEvent :=
  List.replicate 20 (.main laterEnv true) ++
    [.opened ⟨7, some (lit "/srv/a/f"), true⟩, .perm 0 .allow, .perm 0 .allow, .perm 0 .allow, .perm 0 .allow, .timer] ++
      List.replicate 12 (.main directoriesEnv true) ++ List.replicate 3 (.perm 0 .allow)

/-- Whatever the main thread has done meanwhile, a lookup ends with an entry that is active and matches the path no
less than any that was active when it began, or with none where none of these matches; where no entry has become active
since, with what `find_channel` finds. -/
theorem lookup_between (st : Settings) (es : List ThreadEvent) (l : Lookup)
    (h : (Runs.run threadStep (Threads.start st) es).perm = .decided l) :
    let t := (Runs.run threadStep (Threads.start st) es).table
    Grown l.began t ∧ LookupBetween l.began t l.path l.best ∧ (Grown t l.began → l.best = findChannel l.began l.path) := by
  have hperm := (run_sound st es).perm
  rw [h] at hperm
  have hbetween := hperm.2.1.between hperm.2.2
  exact ⟨hperm.2.1.grown, hbetween, hbetween.eq_findChannel⟩

/-- The lower path, though the upper one became active in between. -/
theorem lookup_between_sample : ∃ l, (Runs.run threadStep (.start nestedPaths) lookupRun).perm = .decided l ∧
    LookupBetween l.began (Runs.run threadStep (.start nestedPaths) lookupRun).table l.path (some 1) :=
  ⟨_, rfl, (lookup_between nestedPaths lookupRun _ rfl).2.1⟩

end GfrGuard
