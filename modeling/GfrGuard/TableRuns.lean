import Mathlib.Data.Fintype.Card
import GfrGuard.Lib.Runs
import GfrGuard.Session

/-!
# Runs of the session table

Any sequence of lookups, mixed with blocks set and lifted on sessions of the table, starting
from `session_table_init`. `SessionTable.Consistent` is the invariant: keys are findable, so no
two slots hold one key, and `count` is the number of used slots. What a lookup does in a table
with the invariant is `LookupLaws`; every table of a run has both (`tableRun_laws`).
-/

namespace GfrGuard

/-- What happens to the table. -/
inductive TableEvent where
  /-- `session_find_or_create`, at the clock reading `now`. -/
  | call (key : CBuf 128) (now : Int)
  /-- `is_blocked` of an existing entry is set. -/
  | setBlocked (i : Fin sessionBuckets) (b : Bool)

/-- One event. -/
def tableStep (t : SessionTable) : TableEvent → SessionTable
  | .call key now =>
    match sessionFindOrCreate t key now with
    | none => t
    | some (_, t') => t'
  | .setBlocked i b =>
    if (t.buckets i).inUse then t.set i { t.buckets i with isBlocked := b } else t

/-- The table after a run of events. -/
def tableRun (es : List TableEvent) : SessionTable := Runs.run tableStep sessionTableInit es

/-- The slots in use. -/
def SessionTable.used (t : SessionTable) : Finset (Fin sessionBuckets) :=
  Finset.univ.filter fun i => (t.buckets i).inUse = true

/-- Every session of the table is blocked and no slot is free. -/
def SessionTable.AllBlocked (t : SessionTable) : Prop :=
  ∀ i, (t.buckets i).inUse = true ∧ (t.buckets i).isBlocked = true

/-- No two used slots hold one key, and `count` counts the used slots. -/
structure SessionTable.Consistent (t : SessionTable) : Prop where
  unique : ∀ i j, (t.buckets i).inUse = true → (t.buckets j).inUse = true →
    (t.buckets i).sessionKey = (t.buckets j).sessionKey → i = j
  count : t.count = t.used.card
  count_le : t.count ≤ sessionBuckets

/-- What `session_find_or_create` does for a key. -/
structure LookupLaws (t : SessionTable) (key : CBuf 128) (now : Int) : Prop where
  /-- A key of the table: its own slot, only `last_seen` changed. -/
  existing : ∀ i, t.keyAt i = some key →
    sessionFindOrCreate t key now = some (i, t.set i { t.buckets i with lastSeen := now })
  /-- A blocked session stays, apart from its `last_seen` when it is the one looked up. -/
  keepsBlocked : ∀ i j t', sessionFindOrCreate t key now = some (j, t') →
    (t.buckets i).inUse = true → (t.buckets i).isBlocked = true →
    t'.buckets i = { t.buckets i with lastSeen := (t'.buckets i).lastSeen }
  /-- A new key in a full table: it replaces a session that is not blocked, of minimal
  `last_seen` among those, by a zeroed one. -/
  evicts : ∀ j t', (∀ i, (t.buckets i).inUse = true) → (∀ i, t.keyAt i ≠ some key) →
    sessionFindOrCreate t key now = some (j, t') →
    t' = t.set j (.fresh key now) ∧ (t.buckets j).isBlocked = false ∧
      ∀ i, (t.buckets i).isBlocked = false → (t.buckets j).lastSeen ≤ (t.buckets i).lastSeen
  /-- Nothing is returned exactly when the key is absent and every session is blocked. -/
  dropped : sessionFindOrCreate t key now = none ↔ (∀ i, t.keyAt i ≠ some key) ∧ t.AllBlocked

namespace SessionTable

variable {t t' : SessionTable} {key : CBuf 128} {i j : Fin sessionBuckets} {s : SessionState}
  {now : Int}

/-! ## The slots in use -/

theorem mem_used : i ∈ t.used ↔ (t.buckets i).inUse = true := by simp [used]

theorem used_init : sessionTableInit.used = ∅ := by
  ext i
  simp [mem_used, sessionTableInit, SessionState.zero]

/-- Filling a slot uses it. -/
theorem used_set (hs : s.inUse = true) : (t.set i s).used = insert i t.used := by
  ext j
  rw [Finset.mem_insert, mem_used, mem_used]
  by_cases hj : j = i
  · subst hj
    simp [hs]
  · simp [hj]

/-- A used slot that is filled again stays the only one that changed. -/
theorem used_set_of_inUse (hs : s.inUse = true) (hi : (t.buckets i).inUse = true) :
    (t.set i s).used = t.used := by
  rw [used_set hs, Finset.insert_eq_of_mem (mem_used.2 hi)]

theorem card_used_le : t.used.card ≤ sessionBuckets :=
  (Finset.card_le_univ t.used).trans_eq (Fintype.card_fin _)

/-! ## Searches -/

/-- What a search found, seen in the table. -/
theorem search_spec (t : SessionTable) (key : CBuf 128) :
    OpenAddressing.SearchSpec (probe key) t.keyAt key sessionBuckets (t.search key) :=
  OpenAddressing.searchSpec (probe key) t.keyAt key sessionBuckets

theorem keyAt_of_hit (h : t.search key = .hit i) : t.keyAt i = some key := by
  have hspec := search_spec t key
  rw [h] at hspec
  cases hspec with
  | hit p hp hkey hpass => exact hkey

theorem inUse_of_hole (h : t.search key = .hole i) : (t.buckets i).inUse = false := by
  have hspec := search_spec t key
  rw [h] at hspec
  cases hspec with
  | hole p hp hfree hpass => simpa [keyAt] using hfree

/-- A search that finds no room passed every slot. -/
theorem inUse_of_full (h : t.search key = .full) (i : Fin sessionBuckets) :
    (t.buckets i).inUse = true := by
  have hspec := search_spec t key
  rw [h] at hspec
  cases hspec with
  | full hpass =>
    obtain ⟨p, hp, rfl⟩ := probe_cover key i
    have hused := (hpass p hp).1
    unfold keyAt at hused
    by_contra hfree
    exact hused (if_neg hfree)

/-- A new key in a table without a free slot finds no room. -/
theorem search_eq_full (hfull : ∀ i, (t.buckets i).inUse = true)
    (habsent : ∀ i, t.keyAt i ≠ some key) : t.search key = .full := by
  cases h : t.search key with
  | hit i => exact absurd (keyAt_of_hit h) (habsent i)
  | hole i => exact absurd ((inUse_of_hole h).symm.trans (hfull i)) Bool.false_ne_true
  | full => rfl

end SessionTable

open SessionTable

/-! ## The invariant -/

/-- Every key is findable and `count` counts the used slots. -/
structure SessionTable.Sound (t : SessionTable) : Prop where
  placed : t.WellPlaced
  count : t.count = t.used.card

section
variable {t t' : SessionTable} {key : CBuf 128} {i j : Fin sessionBuckets} {now : Int}

theorem SessionTable.sound_init : sessionTableInit.Sound :=
  ⟨wellPlaced_init, by rw [used_init]; rfl⟩

/-- A lookup keeps `count` the number of used slots. -/
theorem sessionFindOrCreate_count (h : sessionFindOrCreate t key now = some (j, t'))
    (hcount : t.count = t.used.card) : t'.count = t'.used.card := by
  unfold sessionFindOrCreate at h
  cases hs : t.search key with
  | hole i =>
    simp only [hs, Option.some.injEq, Prod.mk.injEq] at h
    obtain ⟨rfl, rfl⟩ := h
    have hfree : i ∉ t.used := fun hmem =>
      Bool.false_ne_true ((inUse_of_hole hs).symm.trans (mem_used.1 hmem))
    show t.count + 1 = (t.set i (.fresh key now)).used.card
    rw [used_set rfl, Finset.card_insert_of_notMem hfree, hcount]
  | hit i =>
    simp only [hs, Option.some.injEq, Prod.mk.injEq] at h
    obtain ⟨rfl, rfl⟩ := h
    have hused := (keyAt_eq_some_iff.1 (keyAt_of_hit hs)).1
    show t.count = (t.set i ((t.buckets i).touch now)).used.card
    rw [used_set_of_inUse (s := (t.buckets i).touch now) hused hused, hcount]
  | full =>
    cases ho : t.oldest with
    | none => simp [hs, ho] at h
    | some i =>
      simp only [hs, ho, Option.some.injEq, Prod.mk.injEq] at h
      obtain ⟨rfl, rfl⟩ := h
      show t.count = (t.set i (.fresh key now)).used.card
      rw [used_set_of_inUse rfl (inUse_of_full hs i), hcount]

/-- Every event keeps the table sound. -/
theorem SessionTable.Sound.step (h : t.Sound) (e : TableEvent) : (tableStep t e).Sound := by
  cases e with
  | call key now =>
    show SessionTable.Sound (match sessionFindOrCreate t key now with
      | none => t
      | some (_, t') => t')
    cases hfind : sessionFindOrCreate t key now with
    | none => exact h
    | some r =>
      exact ⟨(sessionFindOrCreate_spec hfind).wellPlaced h.placed,
        sessionFindOrCreate_count hfind h.count⟩
  | setBlocked i b =>
    show SessionTable.Sound
      (if (t.buckets i).inUse then t.set i { t.buckets i with isBlocked := b } else t)
    by_cases hi : (t.buckets i).inUse = true
    · rw [if_pos hi]
      have hkeys : (t.set i { t.buckets i with isBlocked := b }).keyAt = t.keyAt := by
        rw [keyAt_set]
        exact Function.update_eq_self i t.keyAt
      refine ⟨?_, ?_⟩
      · unfold WellPlaced
        rw [hkeys]
        exact h.placed
      · rw [used_set_of_inUse (s := { t.buckets i with isBlocked := b }) hi hi]
        exact h.count
    · rw [if_neg hi]
      exact h

/-- Every table of a run is sound. -/
theorem sound_tableRun (es : List TableEvent) : (tableRun es).Sound :=
  Runs.run_invariant SessionTable.Sound (fun _ e h => h.step e) sound_init es

theorem SessionTable.Sound.consistent (h : t.Sound) : t.Consistent where
  unique _ _ hi hj hkey :=
    h.placed.unique (keyAt_eq_some_iff.2 ⟨hi, hkey⟩) (keyAt_eq_some_iff.2 ⟨hj, rfl⟩)
  count := h.count
  count_le := h.count.trans_le card_used_le

/-! ## What a lookup does -/

/-- A lookup leaves a blocked session where it is. -/
theorem FindOrCreateSpec.blocked_stays (h : FindOrCreateSpec t key now j t')
    (hused : (t.buckets i).inUse = true) (hblocked : (t.buckets i).isBlocked = true) :
    t'.buckets i = { t.buckets i with lastSeen := (t'.buckets i).lastSeen } := by
  by_cases hij : i = j
  · subst hij
    cases h with
    | found _ _ hset => simp [hset, SessionState.touch]
    | created _ hfree _ => simp [hused, hblocked] at hfree
  · rw [h.frame hij]

/-- In a sound table nothing is returned exactly when every session is blocked and none of
them holds the key. -/
theorem SessionTable.Sound.dropped_iff (h : t.Sound) :
    sessionFindOrCreate t key now = none ↔ (∀ i, t.keyAt i ≠ some key) ∧ t.AllBlocked := by
  unfold sessionFindOrCreate
  constructor
  · intro hnone
    cases hs : t.search key with
    | hole i => simp [hs] at hnone
    | hit i => simp [hs] at hnone
    | full =>
      have habsent : ∀ i, t.keyAt i ≠ some key := fun i hk => by
        have hhit : t.search key = .hit i := OpenAddressing.Placed.search_eq_hit h.placed hk
        rw [hs] at hhit
        cases hhit
      cases ho : t.oldest with
      | some i => simp [hs, ho] at hnone
      | none =>
        refine ⟨habsent, fun i => ?_⟩
        have hused := inUse_of_full hs i
        have hkept := oldest_eq_none.1 ho i
        unfold evictable at hkept
        rw [hused, Bool.true_and, Bool.not_eq_false'] at hkept
        exact ⟨hused, hkept⟩
  · rintro ⟨habsent, hblocked⟩
    have hs := search_eq_full (fun i => (hblocked i).1) habsent
    have ho : t.oldest = none := oldest_eq_none.2 fun i => by
      unfold evictable
      rw [(hblocked i).2, Bool.not_true, Bool.and_false]
    simp only [hs, ho]

theorem SessionTable.Sound.lookupLaws (h : t.Sound) (key : CBuf 128) (now : Int) :
    LookupLaws t key now where
  existing _ hk := h.placed.sessionFindOrCreate hk now
  keepsBlocked _ _ _ hfind := (sessionFindOrCreate_spec hfind).blocked_stays
  evicts j t' hfull habsent hfind := by
    have hs := search_eq_full hfull habsent
    unfold sessionFindOrCreate at hfind
    cases ho : t.oldest with
    | none => simp [hs, ho] at hfind
    | some i =>
      simp only [hs, ho, Option.some.injEq, Prod.mk.injEq] at hfind
      obtain ⟨rfl, rfl⟩ := hfind
      obtain ⟨hevict, hmin⟩ := oldest_spec ho
      refine ⟨rfl, (evictable_iff.1 hevict).2, fun j hj => hmin j ?_⟩
      exact evictable_iff.2 ⟨hfull j, hj⟩
  dropped := h.dropped_iff

/-- In every run of lookups and of blocks set and lifted, from an initialised table: the table
is consistent, and every lookup in it does what it should. -/
theorem tableRun_laws (es : List TableEvent) :
    (tableRun es).Consistent ∧ ∀ key now, LookupLaws (tableRun es) key now :=
  ⟨(sound_tableRun es).consistent, (sound_tableRun es).lookupLaws⟩

end

end GfrGuard
