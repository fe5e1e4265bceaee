import GfrGuard.MonitorTable

/-!
# The channel of a path

`find_channel` goes over the table once and keeps the first channel whose monitored path is a
longer prefix of the path than those before it. That is the channel of the closest monitored
directory (`ClosestChannel`), except that the prefix test asks for a slash after the monitored
path, which a path below `/` does not have there: the channel that monitors `/` takes only `/`
itself (`find_channel_iff`).
-/

namespace GfrGuard

/-- `path_prefix_match`: the length of a prefix that ends at a component, otherwise zero. -/
def pathPrefixMatch (path pre : CStr) : Nat :=
  if path.take pre.length ≠ pre then 0
  else if path[pre.length]? = none ∨ path[pre.length]? = some slash then pre.length
  else 0

/-- The path a channel monitors, canonical once it was active. -/
def ChannelSlot.monitored (slot : ChannelSlot) : CStr :=
  if slot.rt.realPath ≠ [] then slot.rt.realPath else slot.channel.markPath

/-- The loop of `find_channel` over the entries from index `i` on. -/
def findChannelFrom (path : CStr) :
    (slots : List ChannelSlot) → (i : Nat) → (best : Option Nat) → (bestLen : Nat) → Option Nat
  | [], _, best, _ => best
  | slot :: slots, i, best, bestLen =>
    if slot.rt.pending then findChannelFrom path slots (i + 1) best bestLen
    else
      let m := pathPrefixMatch path slot.monitored
      if bestLen < m then findChannelFrom path slots (i + 1) (some i) m
      else findChannelFrom path slots (i + 1) best bestLen

/-- `find_channel`: the index of the channel. -/
def findChannel (t : ChannelTable) (path : CStr) : Option Nat := findChannelFrom path t.slots 0 none 0

/-- A monitored path is the path or a directory above it. -/
def IsAbove (monitored path : CStr) : Prop :=
  monitored ≠ [] ∧ (monitored = path ∨ monitored = [slash] ∨ ∃ rest, path = monitored ++ slash :: rest)

/-- A channel that is active and monitors the path. -/
def ChannelSlot.Covers (slot : ChannelSlot) (path : CStr) : Prop :=
  slot.rt.pending = false ∧ IsAbove slot.monitored path

/-- The entry of a table that monitors the path most closely, the first of such; none where no
entry does. -/
def ClosestChannel (t : ChannelTable) (path : CStr) : Option Nat → Prop
  | none => ∀ slot ∈ t.slots, ¬ slot.Covers path
  | some i => ∃ slot, t.slots[i]? = some slot ∧ slot.Covers path ∧
    ∀ (j : Nat) (other : ChannelSlot), t.slots[j]? = some other → other.Covers path →
      other.monitored.length ≤ slot.monitored.length ∧
        (j < i → other.monitored.length < slot.monitored.length)

section
variable {path m : CStr} {slot : ChannelSlot} {t : ChannelTable}

/-- The test finds a path that is the prefix or goes on after it with a slash. -/
theorem pathPrefixMatch_pos_iff :
    0 < pathPrefixMatch path m ↔ m ≠ [] ∧ (m = path ∨ ∃ rest, path = m ++ slash :: rest) := by
  unfold pathPrefixMatch
  constructor
  · intro h
    split_ifs at h with hpre hend
    · omega
    · have hsplit : path = m ++ path.drop m.length := by
        have htake : path.take m.length = m := Classical.not_not.1 hpre
        calc path = path.take m.length ++ path.drop m.length := (List.take_append_drop _ _).symm
          _ = m ++ path.drop m.length := by rw [htake]
      refine ⟨List.ne_nil_of_length_pos h, hend.imp (fun hnone => ?_) fun hslash => ?_⟩
      · rw [List.drop_eq_nil_of_le (List.getElem?_eq_none_iff.1 hnone), List.append_nil] at hsplit
        exact hsplit.symm
      · obtain ⟨hlt, hget⟩ := List.getElem?_eq_some_iff.1 hslash
        refine ⟨path.drop (m.length + 1), ?_⟩
        rw [← hget, List.getElem_cons_drop]
        exact hsplit
    · omega
  · rintro ⟨hne, rfl | ⟨rest, rfl⟩⟩
    · rw [List.take_length, if_neg (not_not.2 rfl), if_pos (.inl (List.getElem?_eq_none (Nat.le_refl _)))]
      exact List.length_pos_of_ne_nil hne
    · rw [List.take_left, if_neg (not_not.2 rfl), if_pos (.inr (by simp))]
      exact List.length_pos_of_ne_nil hne

theorem pathPrefixMatch_eq (h : 0 < pathPrefixMatch path m) : pathPrefixMatch path m = m.length := by
  unfold pathPrefixMatch at h ⊢
  split_ifs at h ⊢ <;> first | rfl | omega

/-- What the loop compares for an entry. -/
def ChannelSlot.matchLength (slot : ChannelSlot) (path : CStr) : Nat :=
  if slot.rt.pending then 0 else pathPrefixMatch path slot.monitored

/-- The loop keeps what it had, or takes the first of the longest matches that are longer. -/
theorem findChannelFrom_spec (path : CStr) (slots : List ChannelSlot) (i : Nat) (best : Option Nat) (bestLen : Nat) :
    (findChannelFrom path slots i best bestLen = best ∧
        ∀ slot ∈ slots, slot.matchLength path ≤ bestLen) ∨
      ∃ k slot, slots[k]? = some slot ∧ findChannelFrom path slots i best bestLen = some (i + k) ∧
        bestLen < slot.matchLength path ∧
        ∀ (j : Nat) (other : ChannelSlot), slots[j]? = some other →
          other.matchLength path ≤ slot.matchLength path ∧
            (j < k → other.matchLength path < slot.matchLength path) := by
  induction slots generalizing i best bestLen with
  | nil => exact .inl ⟨rfl, fun _ h => absurd h List.not_mem_nil⟩
  | cons first slots ih =>
    have hloop : findChannelFrom path (first :: slots) i best bestLen =
        if bestLen < first.matchLength path then
          findChannelFrom path slots (i + 1) (some i) (first.matchLength path)
        else findChannelFrom path slots (i + 1) best bestLen := by
      unfold ChannelSlot.matchLength
      rw [findChannelFrom]
      cases first.rt.pending <;> simp
    rw [hloop]
    split
    · next hlonger =>
      refine .inr ?_
      rcases ih (i + 1) (some i) (first.matchLength path) with ⟨hsame, hle⟩ | ⟨k, slot, hk, hres, hlt, hmax⟩
      · refine ⟨0, first, rfl, hsame, hlonger, fun j other hj => ?_⟩
        cases j with
        | zero =>
          cases hj
          exact ⟨Nat.le_refl _, fun h => absurd h (Nat.lt_irrefl 0)⟩
        | succ j => exact ⟨hle other (List.mem_of_getElem? hj), fun h => absurd h (Nat.not_lt_zero _)⟩
      · refine ⟨k + 1, slot, hk, by rw [hres]; congr 1; omega, Nat.lt_trans hlonger hlt, fun j other hj => ?_⟩
        cases j with
        | zero =>
          cases hj
          exact ⟨Nat.le_of_lt hlt, fun _ => hlt⟩
        | succ j => exact ⟨(hmax j other hj).1, fun h => (hmax j other hj).2 (Nat.lt_of_succ_lt_succ h)⟩
    · next hshort =>
      rcases ih (i + 1) best bestLen with ⟨hsame, hle⟩ | ⟨k, slot, hk, hres, hlt, hmax⟩
      · exact .inl ⟨hsame, List.forall_mem_cons.2 ⟨Nat.not_lt.1 hshort, hle⟩⟩
      · refine .inr ⟨k + 1, slot, hk, by rw [hres]; congr 1; omega, hlt, fun j other hj => ?_⟩
        cases j with
        | zero =>
          cases hj
          exact ⟨Nat.le_trans (Nat.not_lt.1 hshort) (Nat.le_of_lt hlt),
            fun _ => Nat.lt_of_le_of_lt (Nat.not_lt.1 hshort) hlt⟩
        | succ j => exact ⟨(hmax j other hj).1, fun h => (hmax j other hj).2 (Nat.lt_of_succ_lt_succ h)⟩

/-- An entry matches when it covers the path, but for the channel of `/`, which matches only a
path with a slash there. -/
theorem matchLength_pos_iff {rest : CStr} :
    0 < slot.matchLength (slash :: rest) ↔ slot.Covers (slash :: rest) ∧
      (slot.monitored = [slash] → rest = [] ∨ rest.head? = some slash) := by
  unfold ChannelSlot.matchLength ChannelSlot.Covers IsAbove
  cases slot.rt.pending with
  | true => simp
  | false =>
    rw [if_neg Bool.false_ne_true, pathPrefixMatch_pos_iff, and_iff_right rfl]
    generalize slot.monitored = m
    constructor
    · rintro ⟨hne, heq | ⟨below, hbelow⟩⟩
      · refine ⟨⟨hne, .inl heq⟩, fun hroot => .inl ?_⟩
        rw [hroot] at heq
        exact (List.cons.inj heq).2.symm
      · refine ⟨⟨hne, .inr (.inr ⟨below, hbelow⟩)⟩, fun hroot => .inr ?_⟩
        rw [hroot] at hbelow
        rw [(List.cons.inj hbelow).2]
        rfl
    · rintro ⟨⟨hne, heq | hroot | hbelow⟩, hrest⟩
      · exact ⟨hne, .inl heq⟩
      · refine ⟨hne, (hrest hroot).imp (fun hnil => by rw [hroot, hnil]) fun hhead => ?_⟩
        obtain ⟨below, rfl⟩ := List.head?_eq_some_iff.1 hhead
        exact ⟨below, by rw [hroot]; rfl⟩
      · exact ⟨hne, .inr hbelow⟩

theorem matchLength_eq (h : 0 < slot.matchLength path) : slot.matchLength path = slot.monitored.length := by
  unfold ChannelSlot.matchLength at h ⊢
  cases hpending : slot.rt.pending with
  | true => rw [hpending, if_pos rfl] at h; exact absurd h (Nat.lt_irrefl 0)
  | false =>
    rw [hpending, if_neg Bool.false_ne_true] at h
    rw [if_neg Bool.false_ne_true]
    exact pathPrefixMatch_eq h

/-- A path that the channel of `/` is the closest to, and that it does not take. -/
def MissedByRoot (t : ChannelTable) (rest : CStr) : Prop :=
  (∃ slot ∈ t.slots, slot.rt.pending = false ∧ slot.monitored = [slash]) ∧
    (rest ≠ [] ∧ rest.head? ≠ some slash) ∧
    ∀ slot ∈ t.slots, slot.Covers (slash :: rest) → slot.monitored = [slash]

/-- The search gives the closest channel of an absolute path exactly when the path is not one
that only the channel of `/` is above. -/
theorem find_channel_iff (t : ChannelTable) (rest : CStr) :
    ClosestChannel t (slash :: rest) (findChannel t (slash :: rest)) ↔ ¬ MissedByRoot t rest := by
  rcases findChannelFrom_spec (slash :: rest) t.slots 0 none 0 with
    ⟨hnone, hle⟩ | ⟨k, slot, hk, hres, hpos, hmax⟩
  · -- nothing matches
    unfold findChannel
    rw [hnone]
    have hmissed : ∀ slot ∈ t.slots, slot.Covers (slash :: rest) →
        slot.monitored = [slash] ∧ rest ≠ [] ∧ rest.head? ≠ some slash := by
      intro slot hslot hcovers
      have hnot : ¬ 0 < slot.matchLength (slash :: rest) := Nat.not_lt.2 (hle slot hslot)
      rw [matchLength_pos_iff, not_and, Classical.not_imp, not_or] at hnot
      exact hnot hcovers
    constructor
    · rintro hclosest ⟨⟨slot, hslot, hactive, hroot⟩, -⟩
      exact hclosest slot hslot ⟨hactive, by rw [hroot]; exact List.cons_ne_nil _ _, .inr (.inl hroot)⟩
    · intro hroot slot hslot hcovers
      obtain ⟨hmon, hrest⟩ := hmissed slot hslot hcovers
      exact hroot ⟨⟨slot, hslot, hcovers.1, hmon⟩, hrest, fun s hs h => (hmissed s hs h).1⟩
  · -- a match is longest among those that cover the path, those of `/` included
    rw [findChannel, hres, Nat.zero_add]
    obtain ⟨hcovers, hroot⟩ := matchLength_pos_iff.1 hpos
    have hlen := matchLength_eq hpos
    refine iff_of_true ⟨slot, hk, hcovers, fun j other hj hother => ?_⟩ ?_
    · obtain ⟨hle, hlt⟩ := hmax j other hj
      by_cases hmatch : 0 < other.matchLength (slash :: rest)
      · rw [matchLength_eq hmatch, hlen] at hle hlt
        exact ⟨hle, hlt⟩
      · rw [matchLength_pos_iff, not_and, Classical.not_imp] at hmatch
        obtain ⟨hmon, hrest⟩ := hmatch hother
        have hslot : slot.monitored ≠ [slash] := fun h => hrest (hroot h)
        have hlonger : 1 < slot.monitored.length := by
          obtain ⟨-, hne, heq | hslash | ⟨below, hbelow⟩⟩ := hcovers
          · rw [heq, List.length_cons]
            have : rest ≠ [] := fun h => hrest (.inl h)
            have := List.length_pos_of_ne_nil this
            omega
          · exact absurd hslash hslot
          · cases hm : slot.monitored with
            | nil => exact absurd hm hne
            | cons b m =>
              rw [hm] at hbelow hslot
              obtain ⟨rfl, -⟩ := List.cons.inj hbelow
              cases m with
              | nil => exact absurd rfl hslot
              | cons _ _ => simp
        rw [hmon]
        exact ⟨Nat.le_of_lt hlonger, fun _ => hlonger⟩
    · rintro ⟨-, hrest, honly⟩
      have hmon := honly slot (List.mem_of_getElem? hk) hcovers
      rcases hroot hmon with h | h
      · exact hrest.1 h
      · exact hrest.2 h

end

/-- The host channel of `/`, as `fanotify_channel_setup` leaves it. -/
def rootTable : ChannelTable :=
  (fanotifyChannelSetup ⟨some, fun _ => some true, fun _ => true, fun _ => some 1⟩ ⟨lit "/", .host⟩
    fanotifyChannelsClear).2

/-- No channel is found for a file below `/`. -/
theorem find_channel_misses : ¬ ∀ (t : ChannelTable) (rest : CStr),
    ClosestChannel t (slash :: rest) (findChannel t (slash :: rest)) := by
  intro h
  have hnone : findChannel rootTable (slash :: lit "srv/a") = none := by decide
  have hclosest := h rootTable (lit "srv/a")
  rw [hnone] at hclosest
  refine hclosest ⟨⟨lit "/", .host⟩, ⟨lit "/", some (lit "/"), 1, false, true⟩⟩ List.mem_cons_self
    ⟨rfl, ?_⟩
  exact ⟨by decide, .inr (.inl rfl)⟩

end GfrGuard
