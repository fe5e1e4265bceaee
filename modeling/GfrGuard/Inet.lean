import Mathlib.Data.List.Induction
import GfrGuard.CString

/-!
# Internet addresses

`inet_pton` and `inet_aton` of the C library, as far as the daemon uses them: whether a text
is an IPv4 or IPv6 address (`validClientIp`) and the number an IPv4 text stands for
(`inetAton`). An accepted address is made of hexadecimal digits, dots and colons
(`addrByte_of_validClientIp`), so it is one non-empty line and is neither a CIDR nor a range
entry of a list, and it fits the buffer of an address (`length_lt_of_validClientIp`).
-/

namespace GfrGuard

/-! ## `inet_pton` -/

/-- `isxdigit` of one byte. -/
def isXDigit (b : UInt8) : Bool := isDigit b || (65 ≤ b && b ≤ 70) || (97 ≤ b && b ≤ 102)

/-- A byte that an address can contain. -/
def addrByte (b : UInt8) : Bool := isXDigit b || b = dot || b = colon

/-- One decimal part of a dotted quad: no leading zero, at most 255. -/
def isOctet (s : CStr) : Bool :=
  s ≠ [] && s.all isDigit && (s.length = 1 || s.head? ≠ some 48) && s.length ≤ 3 &&
    digitsValue s ≤ 255

/-- `inet_pton(AF_INET, s, _) == 1`. -/
def inetPton4 (s : CStr) : Bool :=
  (s.splitOn dot).length = 4 && (s.splitOn dot).all isOctet

/-- The scan of `inet_pton(AF_INET6)`: `groups` is the number of 16-bit groups written,
`gap` whether `::` was seen, `digits` the number of digits of the current group and `tok`
the text from the current group on. -/
def inetPton6Scan (groups : Nat) (gap : Bool) (digits : Nat) (tok : CStr) : CStr → Bool
  | [] =>
    let groups := if digits = 0 then groups else groups + 1
    if gap then groups < 8 else groups = 8
  | c :: rest =>
    if isXDigit c then
      digits < 4 && inetPton6Scan groups gap (digits + 1) tok rest
    else if c = colon then
      if digits = 0 then !gap && inetPton6Scan groups true 0 rest rest
      else rest ≠ [] && groups < 8 && inetPton6Scan (groups + 1) gap 0 rest rest
    else
      -- an embedded dotted quad ends the address
      c = dot && groups + 2 ≤ 8 && inetPton4 tok &&
        (if gap then groups + 2 < 8 else groups + 2 = 8)

/-- `inet_pton(AF_INET6, s, _) == 1`. -/
def inetPton6 : CStr → Bool
  | [] => false
  | c :: rest =>
    if c = colon then rest.head? = some colon && inetPton6Scan 0 false 0 rest rest
    else inetPton6Scan 0 false 0 (c :: rest) (c :: rest)

/-- `valid_client_ip` of the blocker, and the test of `scorer_blacklist_auto_add` and
`config_persist_blacklist_ip`: a real IPv4 or IPv6 address. -/
def validClientIp (ip : CStr) : Bool := ip ≠ [] && (inetPton4 ip || inetPton6 ip)

/-! ## `inet_aton` -/

/-- The digit a byte stands for in a base up to sixteen. -/
def digitOf (base : Nat) (b : UInt8) : Option Nat :=
  let v := if isDigit b then (b - 48).toNat
    else if isXDigit b then (toLower b - 87).toNat else 16
  if v < base then some v else none

/-- `strtoul` in a given base on a text that starts with a digit: the value and the rest. -/
def strtoulBase (base : Nat) : Nat → CStr → Nat × CStr
  | v, [] => (v, [])
  | v, b :: rest =>
    match digitOf base b with
    | some d => strtoulBase base (v * base + d) rest
    | none => (v, b :: rest)

/-- `strtoul(s, &end, 0)` on a text that starts with a digit. -/
def strtoul0 (s : CStr) : Nat × CStr :=
  match s with
  | 48 :: x :: d :: rest =>
    if toLower x = 120 && isXDigit d then strtoulBase 16 0 (d :: rest)
    else strtoulBase 8 0 s
  | 48 :: _ => strtoulBase 8 0 s
  | _ => strtoulBase 10 0 s

/-- The parts of `inet_aton`: up to three leading bytes, then the number that fills the
rest of the address. -/
def inetAtonParts : Nat → Nat → CStr → Option Nat
  | 0, _, _ => none
  | fuel + 1, high, s =>
    if s.head?.all (!isDigit ·) then none
    else
      match strtoul0 s with
      | (v, 46 :: rest) =>
        if fuel = 0 || 255 < v then none else inetAtonParts fuel (high * 256 + v) rest
      | (v, rest) =>
        if rest.head?.all isSpace && v < 256 ^ (fuel + 1) then some (high * 256 ^ (fuel + 1) + v)
        else none

/-- `inet_aton`, as the number in host order. -/
def inetAton (s : CStr) : Option Nat := inetAtonParts 4 0 s

/-! ## Bytes of an address -/

theorem addrByte_of_isXDigit {b : UInt8} (h : isXDigit b) : addrByte b := by
  simp [addrByte, h]

theorem addrByte_of_isDigit {b : UInt8} (h : isDigit b) : addrByte b :=
  addrByte_of_isXDigit (by simp [isXDigit, h])

/-- A dotted quad consists of digits and dots. -/
theorem addrByte_of_inetPton4 {s : CStr} (h : inetPton4 s) {b : UInt8} (hb : b ∈ s) :
    addrByte b := by
  simp only [inetPton4, Bool.and_eq_true, List.all_eq_true] at h
  by_cases hdot : b = dot
  · simp [addrByte, hdot]
  · obtain ⟨part, hpart, hbp⟩ := SepText.exists_mem_splitOn hb hdot
    have := h.2 part hpart
    simp only [isOctet, Bool.and_eq_true, List.all_eq_true] at this
    exact addrByte_of_isDigit (this.1.1.1.2 b hbp)

/-- What the IPv6 scan accepts consists of address bytes, once the bytes of the current token
before the scan position do. -/
theorem addrByte_of_inetPton6Scan {groups : Nat} {gap : Bool} {digits : Nat} {tok s : CStr}
    (hs : s <:+ tok) (h : inetPton6Scan groups gap digits tok s) {b : UInt8} (hb : b ∈ s) :
    addrByte b := by
  induction s generalizing groups gap digits tok with
  | nil => cases hb
  | cons c rest ih =>
    have hrest : rest <:+ tok := (List.suffix_cons c rest).trans hs
    rw [inetPton6Scan] at h
    split at h
    · next hx =>
      rcases List.mem_cons.1 hb with rfl | hb
      · exact addrByte_of_isXDigit hx
      · exact ih hrest (Bool.and_eq_true_iff.1 h).2 hb
    · split at h
      · next hc =>
        rcases List.mem_cons.1 hb with rfl | hb
        · simp [addrByte, hc]
        · split at h
          · exact ih (List.suffix_refl _) (Bool.and_eq_true_iff.1 h).2 hb
          · exact ih (List.suffix_refl _) (Bool.and_eq_true_iff.1 h).2 hb
      · simp only [Bool.and_eq_true] at h
        exact addrByte_of_inetPton4 h.1.2 (hs.subset hb)

/-- A valid client address consists of hexadecimal digits, dots and colons. -/
theorem addrByte_of_validClientIp {ip : CStr} (h : validClientIp ip) {b : UInt8}
    (hb : b ∈ ip) : addrByte b := by
  simp only [validClientIp, Bool.and_eq_true, Bool.or_eq_true] at h
  rcases h.2 with h | h
  · exact addrByte_of_inetPton4 h hb
  · cases ip with
    | nil => cases hb
    | cons c rest =>
      rw [inetPton6] at h
      split at h
      · next hc =>
        rcases List.mem_cons.1 hb with rfl | hb
        · simp [addrByte, hc]
        · exact addrByte_of_inetPton6Scan (List.suffix_refl _) (Bool.and_eq_true_iff.1 h).2 hb
      · exact addrByte_of_inetPton6Scan (List.suffix_refl _) h hb

/-- A valid client address contains no byte that is not an address byte. -/
theorem not_mem_of_validClientIp {ip : CStr} (h : validClientIp ip) {b : UInt8}
    (hb : addrByte b = false) : b ∉ ip := fun hmem => by
  rw [addrByte_of_validClientIp h hmem] at hb
  cases hb

theorem ne_nil_of_validClientIp {ip : CStr} (h : validClientIp ip) : ip ≠ [] := by
  rintro rfl
  simp [validClientIp] at h

/-! ## Length of an address -/

theorem length_le_of_inetPton4 {s : CStr} (h : inetPton4 s) : s.length ≤ 15 := by
  simp only [inetPton4, Bool.and_eq_true, decide_eq_true_eq, List.all_eq_true] at h
  obtain ⟨hlen, hall⟩ := h
  have hjoin : [dot].intercalate (s.splitOn dot) = s := List.intercalate_splitOn dot
  match hparts : s.splitOn dot, hlen with
  | [a, b, c, d], _ =>
    have hpart : ∀ part ∈ [a, b, c, d], part.length ≤ 3 := fun part hmem => by
      have := hall part (hparts ▸ hmem)
      simp only [isOctet, Bool.and_eq_true, decide_eq_true_eq] at this
      exact this.1.2
    have ha := hpart a (by simp)
    have hb := hpart b (by simp)
    have hc := hpart c (by simp)
    have hd := hpart d (by simp)
    rw [hparts] at hjoin
    have hlen : s.length = a.length + 1 + b.length + 1 + c.length + 1 + d.length := by
      rw [← hjoin]
      simp [List.intercalate, List.intersperse]
      omega
    omega

/-- The IPv6 scan leaves at most eight groups, a gap and a dotted quad in place of a group. -/
theorem length_le_of_inetPton6Scan {groups : Nat} {gap : Bool} {digits : Nat} {tok s : CStr}
    (htok : tok.length = digits + s.length) (hdigits : digits ≤ 4) (hgroups : groups ≤ 8)
    (h : inetPton6Scan groups gap digits tok s) :
    digits + s.length ≤ 5 * (8 - groups) + 5 + (if gap then 0 else 1) := by
  induction s generalizing groups gap digits tok with
  | nil => rw [List.length_nil]; omega
  | cons c rest ih =>
    rw [List.length_cons] at htok ⊢
    rw [inetPton6Scan] at h
    split at h
    · simp only [Bool.and_eq_true, decide_eq_true_eq] at h
      have := ih (by omega) (by omega) hgroups h.2
      omega
    · split at h
      · split at h
        · simp only [Bool.and_eq_true, Bool.not_eq_true'] at h
          have := ih (by omega) (by omega) hgroups h.2
          rw [if_pos rfl] at this
          rw [h.1, if_neg Bool.false_ne_true]
          omega
        · simp only [Bool.and_eq_true, decide_eq_true_eq] at h
          have := ih (by omega) (by omega) (by omega) h.2
          omega
      · simp only [Bool.and_eq_true, decide_eq_true_eq] at h
        have := length_le_of_inetPton4 h.1.2
        omega

/-- A valid client address fits the buffer of an address. -/
theorem length_lt_of_validClientIp {ip : CStr} (h : validClientIp ip) : ip.length < 48 := by
  simp only [validClientIp, Bool.and_eq_true, Bool.or_eq_true] at h
  rcases h.2 with h | h
  · exact Nat.lt_of_le_of_lt (length_le_of_inetPton4 h) (by decide)
  · cases ip with
    | nil => decide
    | cons c rest =>
      rw [inetPton6] at h
      split at h
      · have := length_le_of_inetPton6Scan (by simp) (by omega) (by omega) (Bool.and_eq_true_iff.1 h).2
        rw [List.length_cons]
        simp only [Bool.false_eq_true, if_false] at this
        omega
      · have := length_le_of_inetPton6Scan (by simp) (by omega) (by omega) h
        simp only [Bool.false_eq_true, if_false] at this
        omega

example : validClientIp (lit "192.168.1.100") = true := by decide
example : validClientIp (lit "fe80::1:2.3.4.5") = true := by decide
example : validClientIp (lit "local:42:7") = false := by decide

/-! ## Numbers as addresses -/

section
variable {b c : UInt8} {s rest : CStr} {n : Nat}

theorem digitOf_of_isDigit (h : isDigit b = true) : digitOf 10 b = some (b - 48).toNat := by
  have hlt : (b - 48).toNat < 10 := by
    simp only [isDigit, Bool.and_eq_true, decide_eq_true_eq, UInt8.le_iff_toNat_le] at h
    rw [UInt8.toNat_sub_of_le _ _ (UInt8.le_iff_toNat_le.2 h.1)]
    have h57 : UInt8.toNat 57 = 57 := rfl
    have h48 : UInt8.toNat 48 = 48 := rfl
    omega
  unfold digitOf
  rw [if_pos h, if_pos hlt]

theorem strtoulBase_digits (hs : ∀ b ∈ s, isDigit b = true) (hc : digitOf 10 c = none) (v : Nat) :
    strtoulBase 10 v (s ++ c :: rest) =
      (s.foldl (fun v b => v * 10 + (b - 48).toNat) v, c :: rest) := by
  induction s generalizing v with
  | nil => rw [List.nil_append, strtoulBase, hc]; rfl
  | cons b s ih =>
    rw [List.forall_mem_cons] at hs
    rw [List.cons_append, strtoulBase, digitOf_of_isDigit hs.1]
    exact ih hs.2 _

theorem digitsValue_lt (hs : ∀ b ∈ s, isDigit b = true) : digitsValue s < 10 ^ s.length := by
  induction s using List.reverseRecOn with
  | nil => decide
  | append_singleton s b ih =>
    rw [List.forall_mem_append] at hs
    have hb : (b - 48).toNat < 10 := by
      have hdigit := digitOf_of_isDigit (hs.2 b List.mem_cons_self)
      unfold digitOf at hdigit
      rw [if_pos (hs.2 b List.mem_cons_self)] at hdigit
      by_contra hge
      rw [if_neg hge] at hdigit
      cases hdigit
    have hstep : digitsValue (s ++ [b]) = digitsValue s * 10 + (b - 48).toNat := by
      unfold digitsValue
      rw [List.foldl_concat]
    have hlt := ih hs.1
    rw [hstep, List.length_append, List.length_singleton, Nat.pow_succ]
    omega

/-- A number has no leading zero. -/
theorem dec_cons (hn : 0 < n) : ∃ d s, dec n = d :: s ∧ d ≠ 48 := by
  obtain ⟨d, s, hs⟩ := List.exists_cons_of_ne_nil (dec_ne_nil n)
  refine ⟨d, s, hs, ?_⟩
  rintro rfl
  have hdigits : ∀ b ∈ s, isDigit b = true := fun b hb =>
    isDigit_of_mem_dec (n := n) (by rw [hs]; exact List.mem_cons_of_mem _ hb)
  have hvalue : digitsValue s = n := by
    rw [← digitsValue_dec n, hs]
    rfl
  rcases Nat.eq_zero_or_pos s.length with hzero | hpos
  · rw [List.length_eq_zero_iff.1 hzero] at hvalue
    exact absurd hvalue (Nat.ne_of_lt hn)
  · have hlt := digitsValue_lt hdigits
    rw [hvalue] at hlt
    have hlen := (length_dec_le hpos).2 hlt
    rw [hs, List.length_cons] at hlen
    omega

theorem strtoul0_dec (hc : digitOf 10 c = none) (hx : toLower c ≠ 120) :
    strtoul0 (dec n ++ c :: rest) = (n, c :: rest) := by
  rcases Nat.eq_zero_or_pos n with rfl | hn
  · have h8 : digitOf 8 c = none := by
      unfold digitOf at hc ⊢
      dsimp only at hc ⊢
      split_ifs at hc ⊢ <;> first | rfl | omega
    have hzero : strtoulBase 8 0 (48 :: c :: rest) = (0, c :: rest) := by
      rw [strtoulBase]
      show strtoulBase 8 0 (c :: rest) = _
      rw [strtoulBase, h8]
    show strtoul0 (48 :: c :: rest) = _
    cases rest with
    | nil => exact hzero
    | cons d rest =>
      have htest : (decide (toLower c = 120) && isXDigit d) = false := by
        rw [decide_eq_false hx, Bool.false_and]
      show (if (decide (toLower c = 120) && isXDigit d) = true then strtoulBase 16 0 (d :: rest)
        else strtoulBase 8 0 (48 :: c :: d :: rest)) = _
      rw [htest, if_neg Bool.false_ne_true]
      exact hzero
  · have hdigits : ∀ b ∈ dec n, isDigit b = true := fun b => isDigit_of_mem_dec
    have hbase : strtoulBase 10 0 (dec n ++ c :: rest) = (digitsValue (dec n), c :: rest) :=
      strtoulBase_digits hdigits hc 0
    rw [digitsValue_dec] at hbase
    rw [← hbase]
    obtain ⟨d, s, hs, hd⟩ := dec_cons hn
    rw [hs, List.cons_append]
    unfold strtoul0
    split
    · next heq => exact absurd (List.cons.inj heq).1 hd
    · next heq => exact absurd (List.cons.inj heq).1 hd
    · rfl

/-- A number of 32 bits is an address by itself, also with a blank and more text after it. -/
theorem inetAton_dec (hn : n < 2 ^ 32) : inetAton (dec n ++ 32 :: rest) = some n := by
  have hhead : (dec n ++ 32 :: rest).head?.all (!isDigit ·) = false := by
    obtain ⟨d, s, hs⟩ := List.exists_cons_of_ne_nil (dec_ne_nil n)
    have hd : isDigit d = true := isDigit_of_mem_dec (n := n) (by rw [hs]; exact List.mem_cons_self)
    rw [hs]
    simp [hd]
  have hval : strtoul0 (dec n ++ 32 :: rest) = (n, 32 :: rest) := strtoul0_dec (by decide) (by decide)
  unfold inetAton
  rw [inetAtonParts, hhead, if_neg Bool.false_ne_true, hval]
  have hspace : isSpace 32 = true := by decide
  simp [hspace]
  omega

end

end GfrGuard
