import GfrGuard.Inet
import GfrGuard.ProcStat

/-!
# The title of an FTP worker

vsftpd writes the address and the user of a session into the title of its worker, which may be cut
anywhere and is padded with zeros. `ftp_parse_cmdline` makes blanks of the zeros, all but the last,
and takes what is between the slash and the next `": "`, or the end, for the user. What it makes of
every cut and every padding is said exactly (`title_inverted_iff`): the padding of a title that
was cut inside the user goes into the name.
-/

namespace GfrGuard

/-! ## The parser -/

/-- A zero made a blank. -/
def blankZero (b : UInt8) : UInt8 := if b = 0 then blank else b

/-- The buffer with its zeros made blanks, all but a last one. -/
def collapse (bytes : List UInt8) : CStr := bytes.dropLast.map blankZero ++ bytes.getLast?.toList

/-- The user: up to the next `": "`, or to the end. -/
def titleUser (start : CStr) : CStr :=
  match strstr start (lit ": ") with
  | some e => start.take (start.length - e.length)
  | none => start

/-- `ftp_parse_cmdline`: the user and the address, of what `/proc` shows of the title. -/
def ftpParseCmdline (cmdline : Option (List UInt8)) : Option (CBuf 64 × CBuf 48) :=
  match cmdline with
  | none => none
  | some bytes =>
    let bytes := bytes.take 511
    if bytes = [] then none
    else
      let buf := (collapse bytes).takeWhile (· ≠ 0)
      if ¬ lit "vsftpd: " <+: buf then none
      else
        let p := buf.drop (lit "vsftpd: ").length
        match strchr p slash with
        | none => none
        | some s =>
          let ip := p.take (p.length - s.length)
          let user := titleUser s.tail
          if ip = [] then none
          else if hip : ip.length < 48 then
            if user = [] then none
            else if huser : user.length < 64 then some (⟨user, huser⟩, ⟨ip, hip⟩)
            else none
          else none

/-- What is read of a title. -/
def titleRead (bytes : List UInt8) : Option (CStr × CStr) :=
  (ftpParseCmdline (some bytes)).map fun r => (r.1.str, r.2.str)

/-! ## The title -/

/-- What vsftpd writes. -/
def ftpTitle (ip user action : CStr) : CStr :=
  lit "vsftpd: " ++ (ip ++ slash :: (user ++ (lit ": " ++ action)))

/-- How much of a title comes before the user. -/
def userStart (ip : CStr) : Nat := (lit "vsftpd: ").length + ip.length + 1

/-- The title, cut and padded. -/
def cutTitle (ip user action : CStr) (cut pad : Nat) : List UInt8 :=
  (ftpTitle ip user action).take cut ++ List.replicate pad 0

/-- The separator after the user is there. -/
def SepKept (ip user : CStr) (cut : Nat) : Prop := userStart ip + user.length + 2 ≤ cut

instance (ip user : CStr) (cut : Nat) : Decidable (SepKept ip user cut) :=
  inferInstanceAs (Decidable (_ ≤ _))

/-- The parser inverts the title: the address is exact, and the user is a prefix of the true one, all
of it when the separator is there, in which case it succeeds. -/
def TitleInverted (ip user : CStr) (cut : Nat) (read : Option (CStr × CStr)) : Prop :=
  (∀ user' ip', read = some (user', ip') → ip' = ip ∧ user' <+: user ∧ (SepKept ip user cut → user' = user)) ∧
    (SepKept ip user cut → read.isSome)

/-- The blanks that the padding becomes. -/
def padBlanks (pad : Nat) : CStr := List.replicate (pad - 1) blank

/-- Where a cut and a padding do no harm: before the user; inside it, when the padding is one
zero at most, when the colon that is last makes a separator with it, when the name gets too long
with it, or when the name goes on with as many blanks; after the colon of the separator, when the padding
completes it or the name is as long as it can be; and after the separator, when there is a name. -/
def TitleReadable (ip user : CStr) (cut pad : Nat) : Prop :=
  let kept := cut - userStart ip
  cut < userStart ip ∨
    if kept ≤ user.length then
      pad ≤ 1 ∨ (user.take kept).getLast? = some colon ∨ 64 ≤ kept + (pad - 1) ∨
        user.take kept ++ padBlanks pad <+: user
    else if kept = user.length + 1 then 2 ≤ pad ∨ user.length = 63
    else user ≠ []

instance (ip user : CStr) (cut pad : Nat) : Decidable (TitleReadable ip user cut pad) := by
  unfold TitleReadable
  infer_instance

/-- No separator in a text. -/
def NoSep (s : CStr) : Prop := ¬ lit ": " <:+: s

section
variable {s t r user ip action : CStr} {b : UInt8} {cut pad n : Nat}

/-! ## Separators -/

theorem lit_sep : lit ": " = [colon] ++ [blank] := by decide

theorem infix_sep_concat : lit ": " <:+: s ++ [b] ↔ lit ": " <:+: s ∨ b = blank ∧ s.getLast? = some colon := by
  rw [List.infix_concat_iff, List.suffix_concat_iff, or_comm]
  refine or_congr_right ?_
  constructor
  · rintro (h | ⟨t, ht, hsuffix⟩)
    · cases h
    · rw [lit_sep] at ht
      obtain ⟨rfl, hb⟩ := List.append_inj' ht rfl
      obtain ⟨before, rfl⟩ := hsuffix
      exact ⟨(List.cons.inj hb).1.symm, by simp⟩
  · rintro ⟨rfl, hlast⟩
    obtain ⟨before, rfl⟩ := List.getLast?_eq_some_iff.1 hlast
    exact .inr ⟨[colon], lit_sep, List.suffix_append before [colon]⟩

theorem NoSep.concat_colon (h : NoSep s) : NoSep (s ++ [colon]) := fun hwithin => by
  rcases infix_sep_concat.1 hwithin with hin | ⟨hb, -⟩
  · exact h hin
  · cases hb

theorem NoSep.append_blanks (h : NoSep s) (hlast : s.getLast? ≠ some colon) (n : Nat) :
    NoSep (s ++ List.replicate n blank) := by
  induction n with
  | zero => rwa [List.replicate_zero, List.append_nil]
  | succ n ih =>
    intro hwithin
    rw [List.replicate_succ', ← List.append_assoc] at hwithin
    rcases infix_sep_concat.1 hwithin with hin | ⟨-, hcolon⟩
    · exact ih hin
    · cases n with
      | zero =>
        rw [List.replicate_zero, List.append_nil] at hcolon
        exact hlast hcolon
      | succ n =>
        rw [List.replicate_succ', ← List.append_assoc, List.getLast?_concat] at hcolon
        cases hcolon

theorem NoSep.of_prefix (h : NoSep s) (ht : t <+: s) : NoSep t := fun hwithin =>
  h (hwithin.trans ht.isInfix)

/-! ## The user -/

theorem titleUser_of_noSep (h : NoSep s) : titleUser s = s := by
  unfold titleUser strstr
  rw [ListSearch.firstAt_eq_none_iff.2 h]

theorem titleUser_sep (h : NoSep s) (r : CStr) : titleUser (s ++ (lit ": " ++ r)) = s := by
  have hfirst : strstr (s ++ (lit ": " ++ r)) (lit ": ") = some (lit ": " ++ r) := by
    have hno := h.concat_colon
    rw [lit_sep, strstr, ListSearch.firstAt_append_iff]
    rwa [NoSep, lit_sep] at hno
  unfold titleUser
  rw [hfirst]
  dsimp only
  rw [List.length_append, Nat.add_sub_cancel, List.take_left' rfl]

/-! ## The buffer -/

theorem map_blankZero (h : (0 : UInt8) ∉ s) : s.map blankZero = s := by
  refine (List.map_congr_left fun c hc => ?_).trans (List.map_id s)
  exact if_neg fun h0 : c = 0 => h (h0 ▸ hc)

theorem takeWhile_ne_zero (h : (0 : UInt8) ∉ s) (t : CStr) : (s ++ t).takeWhile (· ≠ 0) = s ++ t.takeWhile (· ≠ 0) :=
  List.takeWhile_append_of_pos fun c hc => decide_eq_true fun h0 : c = 0 => h (h0 ▸ hc)

theorem collapse_of_not_mem (h : (0 : UInt8) ∉ s) : collapse s = s := by
  unfold collapse
  rcases List.eq_nil_or_concat' s with rfl | ⟨before, b, rfl⟩
  · rfl
  · rw [List.dropLast_concat, List.getLast?_concat, map_blankZero fun h0 => h (List.mem_append_left _ h0)]
    rfl

/-- Of the zeros after a text the last ends the string, and the others are blanks. -/
theorem collapse_padded (h : (0 : UInt8) ∉ s) (pad : Nat) :
    (collapse (s ++ List.replicate pad 0)).takeWhile (· ≠ 0) = s ++ padBlanks pad := by
  cases pad with
  | zero =>
    have hall := takeWhile_ne_zero h []
    rw [List.append_nil] at hall
    rw [List.replicate_zero, List.append_nil, collapse_of_not_mem h, hall]
    rfl
  | succ pad =>
    have hblanks : (0 : UInt8) ∉ s ++ List.replicate pad blank := by
      rw [List.mem_append, not_or]
      exact ⟨h, fun h0 => by cases List.eq_of_mem_replicate h0⟩
    unfold collapse
    rw [List.replicate_succ', ← List.append_assoc, List.dropLast_concat, List.getLast?_concat, List.map_append,
      map_blankZero h, List.map_replicate, show blankZero 0 = blank from rfl, takeWhile_ne_zero hblanks]
    exact List.append_nil _

/-- Without a slash there is no user. -/
theorem titleRead_of_noSlash (h0 : (0 : UInt8) ∉ s) (hslash : slash ∉ s) (pad : Nat)
    (hlen : (s ++ List.replicate pad 0).length ≤ 511) : titleRead (s ++ List.replicate pad 0) = none := by
  have hnone : ∀ n, strchr ((s ++ padBlanks pad).drop n) slash = none := by
    intro n
    refine ListSearch.firstAt_eq_none_iff.2 fun hwithin => ?_
    have hmem := List.mem_of_mem_drop ((List.singleton_infix_iff slash _).1 hwithin)
    rcases List.mem_append.1 hmem with hmem | hmem
    · exact hslash hmem
    · cases List.eq_of_mem_replicate hmem
  unfold titleRead ftpParseCmdline
  dsimp only
  rw [List.take_of_length_le hlen, collapse_padded h0, hnone]
  split
  · rfl
  · split
    · rfl
    · rfl

/-- With the slash there, the address is what is before it. -/
theorem titleRead_of_slash (hip : validClientIp ip = true) (h0 : (0 : UInt8) ∉ r) (pad : Nat)
    (hlen : (lit "vsftpd: " ++ (ip ++ slash :: r) ++ List.replicate pad 0).length ≤ 511) :
    titleRead (lit "vsftpd: " ++ (ip ++ slash :: r) ++ List.replicate pad 0) =
      if titleUser (r ++ padBlanks pad) ≠ [] ∧ (titleUser (r ++ padBlanks pad)).length < 64 then
        some (titleUser (r ++ padBlanks pad), ip)
      else none := by
  have hipZero : (0 : UInt8) ∉ ip := not_mem_of_validClientIp hip (by decide)
  have hipSlash : slash ∉ ip := not_mem_of_validClientIp hip (by decide)
  have hzero : (0 : UInt8) ∉ lit "vsftpd: " ++ (ip ++ slash :: r) := by
    simp only [List.mem_append, List.mem_cons, not_or]
    exact ⟨by decide, hipZero, by decide, h0⟩
  have hprefix : lit "vsftpd: " <+: lit "vsftpd: " ++ (ip ++ slash :: r) ++ padBlanks pad := by
    rw [List.append_assoc]
    exact List.prefix_append _ _
  have hdrop : (lit "vsftpd: " ++ (ip ++ slash :: r) ++ padBlanks pad).drop (lit "vsftpd: ").length =
      ip ++ slash :: (r ++ padBlanks pad) := by
    rw [List.append_assoc, List.drop_left', List.append_assoc, List.cons_append]
    rfl
  have htake : (ip ++ slash :: (r ++ padBlanks pad)).take
      ((ip ++ slash :: (r ++ padBlanks pad)).length - (slash :: (r ++ padBlanks pad)).length) = ip := by
    rw [List.length_append, Nat.add_sub_cancel, List.take_left' rfl]
  unfold titleRead ftpParseCmdline
  dsimp only
  rw [List.take_of_length_le hlen, collapse_padded hzero, if_neg (by simp [lit]), if_neg (not_not.2 hprefix), hdrop,
    strchr_append hipSlash]
  dsimp only
  rw [htake, if_neg (ne_nil_of_validClientIp hip), dif_pos (length_lt_of_validClientIp hip), List.tail_cons]
  by_cases hnil : titleUser (r ++ padBlanks pad) = []
  · rw [if_pos hnil, if_neg fun h => h.1 hnil]
    rfl
  · rw [if_neg hnil]
    by_cases hshort : (titleUser (r ++ padBlanks pad)).length < 64
    · rw [dif_pos hshort, if_pos ⟨hnil, hshort⟩]
      rfl
    · rw [dif_neg hshort, if_neg fun h => hshort h.2]
      rfl

/-! ## Cuts -/

theorem cutTitle_before (h : cut < userStart ip) (user action : CStr) (pad : Nat) :
    cutTitle ip user action cut pad = (lit "vsftpd: " ++ ip).take cut ++ List.replicate pad 0 := by
  unfold cutTitle ftpTitle
  rw [← List.append_assoc, List.take_append_of_le_length (by
    rw [List.length_append]
    exact Nat.le_of_lt_succ h)]

theorem cutTitle_after (h : userStart ip ≤ cut) (user action : CStr) (pad : Nat) :
    cutTitle ip user action cut pad =
      lit "vsftpd: " ++ (ip ++ slash :: (user ++ (lit ": " ++ action)).take (cut - userStart ip)) ++
        List.replicate pad 0 := by
  have hlen : (lit "vsftpd: " ++ (ip ++ [slash])).length = userStart ip := by
    rw [List.length_append, List.length_append, userStart, Nat.add_assoc]
    rfl
  have hsplit : ftpTitle ip user action = (lit "vsftpd: " ++ (ip ++ [slash])) ++ (user ++ (lit ": " ++ action)) := by
    unfold ftpTitle
    simp
  unfold cutTitle
  rw [hsplit, List.take_append, hlen, List.take_of_length_le (by rw [hlen]; exact h)]
  simp

theorem titleInverted_read {u : CStr} :
    TitleInverted ip user cut (if u ≠ [] ∧ u.length < 64 then some (u, ip) else none) ↔
      (u ≠ [] → u.length < 64 → u <+: user ∧ (SepKept ip user cut → u = user)) ∧
        (SepKept ip user cut → u ≠ [] ∧ u.length < 64) := by
  unfold TitleInverted
  by_cases hread : u ≠ [] ∧ u.length < 64
  · rw [if_pos hread]
    constructor
    · rintro ⟨hall, -⟩
      exact ⟨fun _ _ => (hall u ip rfl).2, fun _ => hread⟩
    · rintro ⟨hall, -⟩
      refine ⟨fun user' ip' h => ?_, fun _ => rfl⟩
      cases h
      exact ⟨rfl, hall hread.1 hread.2⟩
  · rw [if_neg hread]
    constructor
    · rintro ⟨-, hsome⟩
      exact ⟨fun hne hlt => absurd ⟨hne, hlt⟩ hread, fun hsep => by cases hsome hsep⟩
    · rintro ⟨-, hsep⟩
      exact ⟨fun user' ip' h => absurd h (by simp), fun hkept => absurd (hsep hkept) hread⟩

/-- At least two zeros are a blank and what follows it. -/
theorem padBlanks_of_two_le (h : 2 ≤ pad) : padBlanks pad = blank :: List.replicate (pad - 2) blank := by
  unfold padBlanks
  rw [show pad - 1 = (pad - 2) + 1 by omega, List.replicate_succ]

theorem padBlanks_of_lt_two (h : pad < 2) : padBlanks pad = [] := by
  unfold padBlanks
  rw [show pad - 1 = 0 by omega, List.replicate_zero]

/-- The title is cut inside the user. -/
theorem titleInverted_inside (hsep : NoSep user) (hcut : ¬ SepKept ip user cut) {kept : Nat}
    (hkept : kept ≤ user.length) (pad : Nat) :
    TitleInverted ip user cut
        (if titleUser (user.take kept ++ padBlanks pad) ≠ [] ∧
            (titleUser (user.take kept ++ padBlanks pad)).length < 64 then
          some (titleUser (user.take kept ++ padBlanks pad), ip)
        else none) ↔
      pad ≤ 1 ∨ (user.take kept).getLast? = some colon ∨ 64 ≤ kept + (pad - 1) ∨
        user.take kept ++ padBlanks pad <+: user := by
  have hno : NoSep (user.take kept) := hsep.of_prefix (List.take_prefix kept user)
  rw [titleInverted_read]
  simp only [hcut, false_imp_iff, and_true]
  rcases Nat.lt_or_ge pad 2 with hpad | hpad
  · rw [padBlanks_of_lt_two hpad, List.append_nil, titleUser_of_noSep hno]
    exact iff_of_true (fun _ _ => List.take_prefix kept user) (.inl (Nat.le_of_lt_succ hpad))
  · by_cases hlast : (user.take kept).getLast? = some colon
    · obtain ⟨before, hbefore⟩ := List.getLast?_eq_some_iff.1 hlast
      have hjoin : user.take kept ++ padBlanks pad = before ++ (lit ": " ++ List.replicate (pad - 2) blank) := by
        rw [hbefore, padBlanks_of_two_le hpad, lit_sep]
        simp
      have hprefix : before <+: user.take kept := by
        rw [hbefore]
        exact List.prefix_append before [colon]
      rw [hjoin, titleUser_sep (hno.of_prefix hprefix)]
      exact iff_of_true (fun _ _ => hprefix.trans (List.take_prefix kept user)) (.inr (.inl hlast))
    · have hne : user.take kept ++ padBlanks pad ≠ [] := by
        rw [padBlanks_of_two_le hpad]
        simp
      have hlen : (user.take kept ++ padBlanks pad).length = kept + (pad - 1) := by
        rw [List.length_append, padBlanks, List.length_replicate, List.length_take, Nat.min_eq_left hkept]
      have hall : NoSep (user.take kept ++ padBlanks pad) := hno.append_blanks hlast (pad - 1)
      rw [titleUser_of_noSep hall, hlen]
      constructor
      · intro h
        rcases Nat.lt_or_ge (kept + (pad - 1)) 64 with hlt | hge
        · exact .inr (.inr (.inr (h hne hlt)))
        · exact .inr (.inr (.inl hge))
      · rintro (h | h | h | h)
        · omega
        · exact absurd h hlast
        · exact fun _ hlt => absurd hlt (by omega)
        · exact fun _ _ => h

/-- The title is cut between the colon and the blank. -/
theorem titleInverted_colon (hsep : NoSep user) (hcut : ¬ SepKept ip user cut) (hlen : user.length ≤ 63)
    (pad : Nat) :
    TitleInverted ip user cut
        (if titleUser (user ++ [colon] ++ padBlanks pad) ≠ [] ∧
            (titleUser (user ++ [colon] ++ padBlanks pad)).length < 64 then
          some (titleUser (user ++ [colon] ++ padBlanks pad), ip)
        else none) ↔ 2 ≤ pad ∨ user.length = 63 := by
  rw [titleInverted_read]
  simp only [hcut, false_imp_iff, and_true]
  rcases Nat.lt_or_ge pad 2 with hpad | hpad
  · have hlonger : ¬ user ++ [colon] <+: user := by
      intro h
      have hle := h.length_le
      rw [List.length_append, List.length_singleton] at hle
      omega
    rw [padBlanks_of_lt_two hpad, List.append_nil, titleUser_of_noSep hsep.concat_colon, List.length_append,
      List.length_singleton]
    constructor
    · intro h
      by_contra hnot
      exact hlonger (h (by simp) (by omega))
    · rintro (h | h)
      · omega
      · exact fun _ hlt => absurd hlt (by omega)
  · have hjoin : user ++ [colon] ++ padBlanks pad = user ++ (lit ": " ++ List.replicate (pad - 2) blank) := by
      rw [padBlanks_of_two_le hpad, lit_sep]
      simp
    rw [hjoin, titleUser_sep hsep]
    exact iff_of_true (fun _ _ => List.prefix_rfl) (.inl hpad)

end

/-- For every address, user and action, every cut of the title and every padding, the parser
inverts the title exactly where the cut and the padding do no harm. -/
theorem title_inverted_iff (ip user action : CStr) (cut pad : Nat) (hip : validClientIp ip = true)
    (huser : (0 : UInt8) ∉ user) (hsep : NoSep user) (hlen : user.length ≤ 63) (haction : (0 : UInt8) ∉ action)
    (hfits : (cutTitle ip user action cut pad).length ≤ 511) :
    TitleInverted ip user cut (titleRead (cutTitle ip user action cut pad)) ↔ TitleReadable ip user cut pad := by
  rcases Nat.lt_or_ge cut (userStart ip) with hbefore | hafter
  · have hcut : ¬ SepKept ip user cut := by
      unfold SepKept
      omega
    have hzero : (0 : UInt8) ∉ (lit "vsftpd: " ++ ip).take cut := fun h => by
      rcases List.mem_append.1 (List.mem_of_mem_take h) with h | h
      · revert h
        decide
      · exact not_mem_of_validClientIp hip (by decide) h
    have hslash : slash ∉ (lit "vsftpd: " ++ ip).take cut := fun h => by
      rcases List.mem_append.1 (List.mem_of_mem_take h) with h | h
      · revert h
        decide
      · exact not_mem_of_validClientIp hip (by decide) h
    rw [cutTitle_before hbefore] at hfits ⊢
    rw [titleRead_of_noSlash hzero hslash pad hfits]
    exact iff_of_true ⟨fun _ _ h => absurd h (by simp), fun h => absurd h hcut⟩ (.inl hbefore)
  · have hzero : (0 : UInt8) ∉ (user ++ (lit ": " ++ action)).take (cut - userStart ip) := fun h => by
      rcases List.mem_append.1 (List.mem_of_mem_take h) with h | h
      · exact huser h
      · rcases List.mem_append.1 h with h | h
        · revert h
          decide
        · exact haction h
    have hkept : cut - userStart ip < user.length + 2 ↔ ¬ SepKept ip user cut := by
      unfold SepKept
      omega
    rw [cutTitle_after hafter] at hfits ⊢
    rw [titleRead_of_slash hip hzero pad hfits]
    unfold TitleReadable
    dsimp only
    rw [or_iff_right (by omega)]
    generalize cut - userStart ip = kept at hkept
    rcases Nat.lt_trichotomy kept (user.length + 1) with hlt | heq | hgt
    · rw [if_pos (Nat.le_of_lt_succ hlt), List.take_append_of_le_length (Nat.le_of_lt_succ hlt)]
      exact titleInverted_inside hsep (hkept.1 (by omega)) (Nat.le_of_lt_succ hlt) pad
    · have hcolon : (user ++ (lit ": " ++ action)).take kept = user ++ [colon] := by
        rw [heq, List.take_length_add_append, lit_sep]
        rfl
      rw [if_neg (show ¬ kept ≤ user.length by omega), if_pos heq, hcolon]
      exact titleInverted_colon hsep (hkept.1 (by omega)) hlen pad
    · obtain ⟨more, rfl⟩ := Nat.exists_eq_add_of_le (show user.length + 2 ≤ kept from hgt)
      have hjoin : (user ++ (lit ": " ++ action)).take (user.length + 2 + more) ++ padBlanks pad =
          user ++ (lit ": " ++ (action.take more ++ padBlanks pad)) := by
        rw [Nat.add_assoc, List.take_length_add_append, show 2 = (lit ": ").length from rfl,
          List.take_length_add_append, List.append_assoc, List.append_assoc]
      have hcut : SepKept ip user cut := not_not.1 fun h => absurd (hkept.2 h) (by omega)
      rw [if_neg (show ¬ user.length + 2 + more ≤ user.length by omega),
        if_neg (show ¬ user.length + 2 + more = user.length + 1 by omega), hjoin, titleUser_sep hsep,
        titleInverted_read]
      constructor
      · rintro ⟨-, h⟩
        exact (h hcut).1
      · exact fun h => ⟨fun _ _ => ⟨List.prefix_rfl, fun _ => rfl⟩, fun _ => ⟨h, by omega⟩⟩

/-- A title that was cut inside the user, with two zeros after it: a blank goes into the name. -/
theorem title_not_inverted :
    titleRead (cutTitle (lit "1.2.3.4") (lit "alice") (lit "STOR a") 18 2) = some (lit "al ", lit "1.2.3.4") ∧
      ¬ TitleInverted (lit "1.2.3.4") (lit "alice") 18
        (titleRead (cutTitle (lit "1.2.3.4") (lit "alice") (lit "STOR a") 18 2)) := by
  have hread : titleRead (cutTitle (lit "1.2.3.4") (lit "alice") (lit "STOR a") 18 2) =
      some (lit "al ", lit "1.2.3.4") := by decide
  refine ⟨hread, fun h => ?_⟩
  rw [hread] at h
  have hprefix := (h.1 _ _ rfl).2.1
  revert hprefix
  decide

/-- The same title whole. -/
theorem title_inverted_sample :
    TitleInverted (lit "1.2.3.4") (lit "alice") 64
      (titleRead (cutTitle (lit "1.2.3.4") (lit "alice") (lit "STOR a") 64 2)) :=
  (title_inverted_iff (lit "1.2.3.4") (lit "alice") (lit "STOR a") 64 2 (by decide) (by decide)
    (by unfold NoSep; decide) (by decide) (by decide) (by decide)).2 (by decide)

end GfrGuard
