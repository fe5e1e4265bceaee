import GfrGuard.Scorer

/-!
# What an address entry matches

An entry of an address list is an address, a network `a.b.c.d/p` or a range `lo-hi`. With the
dotted-quad parser in place of `inet_aton`, a well-formed network matches the addresses that
share its first `p` bits, a well-formed range those between its bounds. What is behind the
slash is read with `atoi`, which takes no digits for 0 and stops at the first byte that is
none, so a network with a malformed prefix may match too, up to every address
(`address_entries_iff`).
-/

namespace GfrGuard

/-- The dotted-quad parser: four decimal parts, the address in host order. -/
def dottedQuad (s : CStr) : Option UInt32 :=
  if inetPton4 s then some ((s.splitOn dot).foldl (fun v part => v * 256 + digitsValue part) 0).toUInt32
  else none

/-- A list entry matches an address: it is the same text, or covers it. -/
def entryMatches (ip entry : CStr) : Bool := ip = entry || entryCoversBy dottedQuad ip entry

/-- A decimal number. -/
def IsDecimal (s : CStr) : Prop := s ≠ [] ∧ ∀ b ∈ s, isDigit b = true

/-- The entry is the network of an address with a prefix length. -/
def IsNetwork (entry : CStr) (net : UInt32) (bits : Nat) : Prop :=
  ∃ base text, entry = base ++ slash :: text ∧ dottedQuad base = some net ∧ IsDecimal text ∧
    digitsValue text = bits ∧ bits ≤ 32

/-- The entry is the range of two addresses. -/
def IsRange (entry : CStr) (lo hi : UInt32) : Prop :=
  ∃ first last, entry = first ++ dash :: last ∧ dottedQuad first = some lo ∧ dottedQuad last = some hi

/-- The addresses share their leading bits. -/
def SharePrefix (bits : Nat) (a b : UInt32) : Prop :=
  ∀ i < bits, a.toBitVec.getMsbD i = b.toBitVec.getMsbD i

/-- The address lies between the bounds, in either order. -/
def Between (lo hi addr : UInt32) : Prop := (lo ≤ addr ∧ addr ≤ hi) ∨ (hi ≤ addr ∧ addr ≤ lo)

/-- An entry matches an address as its form says. -/
structure MatchesAsWritten (ip entry : CStr) (addr : UInt32) : Prop where
  network : ∀ net bits, IsNetwork entry net bits →
    (entryMatches ip entry = true ↔ SharePrefix bits addr net)
  range : ∀ lo hi, IsRange entry lo hi →
    (entryMatches ip entry = true ↔ Between lo hi addr)
  malformed : validClientIp entry = false → (∀ net bits, ¬ IsNetwork entry net bits) →
    (∀ lo hi, ¬ IsRange entry lo hi) → entryMatches ip entry = false

/-- An entry with a slash after an address, where what follows is no number up to 32 but gives
one in `atoi`. -/
def MalformedPrefix (entry : CStr) : Prop :=
  ∃ base text net, entry = base ++ slash :: text ∧ dottedQuad base = some net ∧
    ¬ (IsDecimal text ∧ digitsValue text ≤ 32) ∧ 0 ≤ atoiInt text ∧ atoiInt text ≤ 32

section
variable {ip entry base text s : CStr} {addr net : UInt32} {bits : Nat} {c : UInt8}

/-! ## The mask -/

theorem getMsbD_cidrMask : ∀ bits ≤ 32, ∀ i < 32,
    (cidrMask bits).toBitVec.getMsbD i = decide (i < bits) := by decide

/-- Under the mask of a network addresses agree when they share its leading bits. -/
theorem and_cidrMask_iff (hbits : bits ≤ 32) :
    addr &&& cidrMask bits = net &&& cidrMask bits ↔ SharePrefix bits addr net := by
  rw [← UInt32.toBitVec_inj, UInt32.toBitVec_and, UInt32.toBitVec_and]
  constructor
  · intro h i hi
    have hbit := congrArg (BitVec.getMsbD · i) h
    simpa [getMsbD_cidrMask bits hbits i (by omega), hi] using hbit
  · intro h
    refine BitVec.eq_of_getMsbD_eq fun i hi => ?_
    rw [BitVec.getMsbD_and, BitVec.getMsbD_and, getMsbD_cidrMask bits hbits i hi]
    by_cases hlt : i < bits
    · rw [h i hlt]
    · rw [decide_eq_false hlt, Bool.and_false, Bool.and_false]

/-! ## Texts -/

theorem splitFirst_append (h : c ∉ base) : splitFirst c (base ++ c :: text) = (base, text) := by
  have hall : ∀ b ∈ base, (b ≠ c) := fun b hb heq => h (heq ▸ hb)
  unfold splitFirst
  rw [List.takeWhile_append_of_pos (by simpa using hall), List.dropWhile_append_of_pos (by simpa using hall)]
  simp

/-- A text splits at the first of a byte it contains. -/
theorem exists_split (h : c ∈ s) : ∃ base text, s = base ++ c :: text ∧ c ∉ base ∧
    splitFirst c s = (base, text) := by
  obtain ⟨base, text, rfl, hbase⟩ := List.eq_append_cons_of_mem h
  exact ⟨base, text, rfl, hbase, splitFirst_append hbase⟩

/-- The parts of an address have no slash and no dash. -/
theorem not_mem_of_dottedQuad (h : dottedQuad s = some addr) (hc : addrByte c = false) : c ∉ s := by
  intro hmem
  unfold dottedQuad at h
  split at h
  · next hquad => rw [addrByte_of_inetPton4 hquad hmem] at hc; cases hc
  · cases h

theorem atoiInt_decimal (h : IsDecimal text) (hle : digitsValue text ≤ 32) :
    atoiInt text = digitsValue text := by
  unfold atoiInt
  rw [atoi_digits h.2]
  have hval : max (-2 ^ 63) (min (2 ^ 63 - 1) (digitsValue text : Int)) = digitsValue text := by omega
  rw [hval, Int.bmod_eq_of_le (by omega) (by omega)]

/-! ## Entries -/

/-- A network entry covers what agrees with its address under the mask. -/
theorem entryCoversBy_slash (hlen : (base ++ slash :: text).length < 64)
    (hbase : dottedQuad base = some net) (hip : dottedQuad ip = some addr) :
    entryCoversBy dottedQuad ip (base ++ slash :: text) = true ↔
      (0 ≤ atoiInt text ∧ atoiInt text ≤ 32) ∧ SharePrefix (atoiInt text).toNat addr net := by
  have hcidr : isCidr (base ++ slash :: text) = true := by simp [isCidr]
  have hslash : slash ∉ base := not_mem_of_dottedQuad hbase (by decide)
  unfold entryCoversBy ipInCidrBy ipInCidrOn
  rw [if_pos hcidr, snprintf_of_lt hlen]
  dsimp only
  rw [hcidr, splitFirst_append hslash, Bool.true_and]
  dsimp only
  split
  · next hout => exact iff_of_false Bool.false_ne_true fun h => by omega
  · next hin =>
    rw [hbase, hip]
    dsimp only
    rw [decide_eq_true_iff, and_cidrMask_iff (by omega), and_iff_right (by omega)]

/-- A network entry whose address does not parse covers nothing. -/
theorem entryCoversBy_slash_none (hlen : (base ++ slash :: text).length < 64) (hslash : slash ∉ base)
    (hbase : dottedQuad base = none) : entryCoversBy dottedQuad ip (base ++ slash :: text) = false := by
  have hcidr : isCidr (base ++ slash :: text) = true := by simp [isCidr]
  unfold entryCoversBy ipInCidrBy ipInCidrOn
  rw [if_pos hcidr, snprintf_of_lt hlen]
  dsimp only
  rw [hcidr, splitFirst_append hslash, Bool.true_and]
  dsimp only
  rw [hbase]
  split <;> rfl

/-- A range entry covers what lies between its bounds. -/
theorem entryCoversBy_dash {first last : CStr} (hlen : (first ++ dash :: last).length < 64)
    (hslash : slash ∉ first ++ dash :: last) (hdash : dash ∉ first) (hip : dottedQuad ip = some addr) :
    entryCoversBy dottedQuad ip (first ++ dash :: last) = true ↔
      ∃ lo hi, dottedQuad first = some lo ∧ dottedQuad last = some hi ∧ Between lo hi addr := by
  have hrange : isIpRange (first ++ dash :: last) = true := by simp [isIpRange]
  unfold entryCoversBy ipInRangeBy ipInRangeOn
  rw [if_neg (by simpa [isCidr] using hslash), if_pos hrange, snprintf_of_lt hlen]
  dsimp only
  rw [hrange, splitFirst_append hdash, Bool.true_and, hip]
  dsimp only
  cases hfirst : dottedQuad first with
  | none => simp
  | some lo =>
    cases hlast : dottedQuad last with
    | none => simp
    | some hi =>
      have hbounds : (∃ a b, some lo = some a ∧ some hi = some b ∧ Between a b addr) ↔
          Between lo hi addr := by simp
      rw [hbounds]
      unfold Between
      dsimp only
      split <;>
        · simp only [Bool.and_eq_true, decide_eq_true_eq, UInt32.le_iff_toNat_le, UInt32.lt_iff_toNat_lt] at *
          omega

/-- An address and an entry with a slash or a dash are different texts. -/
theorem ne_of_mem (hip : dottedQuad ip = some addr) (hc : addrByte c = false) (h : c ∈ entry) : ip ≠ entry := by
  rintro rfl
  exact not_mem_of_dottedQuad hip hc h

/-- With a slash or a dash in it an entry matches what it covers. -/
theorem entryMatches_of_ne (h : ip ≠ entry) : entryMatches ip entry = entryCoversBy dottedQuad ip entry := by
  unfold entryMatches
  rw [decide_eq_false h, Bool.false_or]

/-- The split at the first of a byte is determined by the text. -/
theorem append_cons_inj {base' text' : CStr} (h : base ++ c :: text = base' ++ c :: text') (hb : c ∉ base)
    (hb' : c ∉ base') : base = base' ∧ text = text' := by
  have hsplit := congrArg (splitFirst c) h
  rw [splitFirst_append hb, splitFirst_append hb'] at hsplit
  exact Prod.mk.inj hsplit

theorem matches_network (hlen : entry.length < 64) (hip : dottedQuad ip = some addr)
    (h : IsNetwork entry net bits) : entryMatches ip entry = true ↔ SharePrefix bits addr net := by
  obtain ⟨base, text, rfl, hbase, hdecimal, rfl, hle⟩ := h
  have hval := atoiInt_decimal hdecimal hle
  rw [entryMatches_of_ne (ne_of_mem hip (by decide) (List.mem_append_right _ List.mem_cons_self)),
    entryCoversBy_slash hlen hbase hip, hval, Int.toNat_natCast, and_iff_right (by omega)]

theorem matches_range {lo hi : UInt32} (hlen : entry.length < 64) (hip : dottedQuad ip = some addr)
    (h : IsRange entry lo hi) : entryMatches ip entry = true ↔ Between lo hi addr := by
  obtain ⟨first, last, rfl, hfirst, hlast⟩ := h
  have hslash : slash ∉ first ++ dash :: last := by
    rw [List.mem_append, List.mem_cons]
    rintro (hmem | hmem | hmem)
    · exact not_mem_of_dottedQuad hfirst (by decide) hmem
    · exact absurd hmem (by decide)
    · exact not_mem_of_dottedQuad hlast (by decide) hmem
  rw [entryMatches_of_ne (ne_of_mem hip (by decide) (List.mem_append_right _ List.mem_cons_self)),
    entryCoversBy_dash hlen hslash (not_mem_of_dottedQuad hfirst (by decide)) hip, hfirst, hlast]
  simp

/-- An entry of no form matches an address exactly when it has a malformed prefix, and shares
the bits that `atoi` makes of it. -/
theorem matches_malformed_iff (hlen : entry.length < 64) (hip : dottedQuad ip = some addr)
    (haddress : validClientIp entry = false) (hnetwork : ∀ net bits, ¬ IsNetwork entry net bits)
    (hrange : ∀ lo hi, ¬ IsRange entry lo hi) :
    entryMatches ip entry = true ↔ ∃ base text net, entry = base ++ slash :: text ∧
      dottedQuad base = some net ∧ (0 ≤ atoiInt text ∧ atoiInt text ≤ 32) ∧
      SharePrefix (atoiInt text).toNat addr net := by
  have hne : ip ≠ entry := by
    rintro rfl
    have hquad : inetPton4 ip = true := by
      unfold dottedQuad at hip
      split at hip
      · assumption
      · cases hip
    rw [validClientIp, hquad, Bool.true_or, Bool.and_true, decide_eq_false_iff_not, not_not] at haddress
    subst haddress
    exact absurd hquad (by decide)
  rw [entryMatches_of_ne hne]
  by_cases hslash : slash ∈ entry
  · obtain ⟨base, text, rfl, hnot, -⟩ := exists_split hslash
    cases hbase : dottedQuad base with
    | none =>
      rw [entryCoversBy_slash_none hlen hnot hbase]
      refine iff_of_false Bool.false_ne_true ?_
      rintro ⟨base', text', net, heq, hbase', -⟩
      obtain ⟨rfl, -⟩ := append_cons_inj heq hnot (not_mem_of_dottedQuad hbase' (by decide))
      rw [hbase] at hbase'
      cases hbase'
    | some net =>
      rw [entryCoversBy_slash hlen hbase hip]
      constructor
      · rintro ⟨hint, hshare⟩
        exact ⟨base, text, net, rfl, hbase, hint, hshare⟩
      · rintro ⟨base', text', net', heq, hbase', h⟩
        obtain ⟨rfl, rfl⟩ := append_cons_inj heq hnot (not_mem_of_dottedQuad hbase' (by decide))
        rw [hbase] at hbase'
        cases hbase'
        exact h
  · refine iff_of_false (fun h => ?_) fun h => ?_
    · by_cases hdash : dash ∈ entry
      · obtain ⟨first, last, rfl, hnot, -⟩ := exists_split hdash
        obtain ⟨lo, hi, hfirst, hlast, -⟩ := (entryCoversBy_dash hlen hslash hnot hip).1 h
        exact hrange lo hi ⟨first, last, rfl, hfirst, hlast⟩
      · unfold entryCoversBy isCidr isIpRange at h
        rw [if_neg (by simpa using hslash), if_neg (by simpa using hdash)] at h
        cases h
    · obtain ⟨base, text, _, heq, -⟩ := h
      exact hslash (by rw [heq]; simp)

end

/-- An entry of a list matches every address as its form says exactly when it has no malformed
prefix. -/
theorem address_entries_iff (entry : CBuf 48) :
    (∀ ip addr, dottedQuad ip = some addr → MatchesAsWritten ip entry.str addr) ↔
      ¬ MalformedPrefix entry.str := by
  have hlen : entry.str.length < 64 := Nat.lt_trans entry.fits (by decide)
  constructor
  · rintro h ⟨base, text, net, heq, hbase, hbad, hint⟩
    have hslash : slash ∉ base := not_mem_of_dottedQuad hbase (by decide)
    have hmem : slash ∈ entry.str := by
      rw [heq]
      exact List.mem_append_right _ List.mem_cons_self
    -- the address of the network itself matches
    have hfalse := (h base net hbase).malformed ?_ ?_ ?_
    · rw [heq, entryMatches_of_ne (ne_of_mem hbase (by decide) (heq ▸ hmem)), ← Bool.not_eq_true,
        entryCoversBy_slash (heq ▸ hlen) hbase hbase] at hfalse
      exact hfalse ⟨hint, fun _ _ => rfl⟩
    · exact Bool.eq_false_iff.2 fun hvalid => not_mem_of_validClientIp hvalid (by decide) hmem
    · rintro net' bits ⟨base', text', heq', hbase', hdecimal, hbits, hle⟩
      obtain ⟨rfl, rfl⟩ := append_cons_inj (heq.symm.trans heq') hslash
        (not_mem_of_dottedQuad hbase' (by decide))
      exact hbad ⟨hdecimal, hbits ▸ hle⟩
    · rintro lo hi ⟨first, last, heq', hfirst, hlast⟩
      rw [heq', List.mem_append, List.mem_cons] at hmem
      rcases hmem with hmem | hmem | hmem
      · exact not_mem_of_dottedQuad hfirst (by decide) hmem
      · exact absurd hmem (by decide)
      · exact not_mem_of_dottedQuad hlast (by decide) hmem
  · intro hgood ip addr hip
    refine ⟨fun net bits => matches_network hlen hip, fun lo hi => matches_range hlen hip,
      fun haddress hnetwork hrange => Bool.eq_false_iff.2 fun hmatch => ?_⟩
    obtain ⟨base, text, net, heq, hbase, hint, -⟩ :=
      (matches_malformed_iff hlen hip haddress hnetwork hrange).1 hmatch
    exact hgood ⟨base, text, net, heq, hbase,
      fun hdecimal => hnetwork net _ ⟨base, text, heq, hbase, hdecimal.1, rfl, hdecimal.2⟩, hint⟩

/-- A network without a prefix matches every address. -/
theorem address_entries_match_all : ¬ ∀ (entry : CBuf 48) (ip : CStr) (addr : UInt32),
    dottedQuad ip = some addr → MatchesAsWritten ip entry.str addr := by
  intro h
  have hquad : dottedQuad (lit "192.168.7.9") = some 3232237321 := by decide
  have hmalformed := (h (.ofStr 48 (lit "10.0.0.0/")) _ _ hquad).malformed (by decide) ?_ ?_
  · revert hmalformed
    decide
  · rintro net bits ⟨base, text, heq, hbase, hdecimal, -⟩
    obtain ⟨-, rfl⟩ := append_cons_inj (show lit "10.0.0.0" ++ slash :: [] = _ from heq) (by decide)
      (not_mem_of_dottedQuad hbase (by decide))
    exact hdecimal.1 rfl
  · rintro lo hi ⟨first, last, heq, -⟩
    have hdash : dash ∈ lit "10.0.0.0/" := by
      rw [show lit "10.0.0.0/" = first ++ dash :: last from heq]
      simp
    revert hdash
    decide

end GfrGuard
