import Mathlib.Algebra.Order.BigOperators.Group.List
import Mathlib.Algebra.Order.Group.Nat
import GfrGuard.Fanotify

/-!
# `/proc/<pid>/stat`

The channels learn the name of a process and its start time from one line of text, in which the
kernel writes the name as the process chose it. `fanProcStat` is the parser; `statText` is what the
kernel writes. A name without a newline is read back with the start time. Of a name with one only
the part before it is read, and the start time from there (`fanProcStat_statText`).
-/

namespace GfrGuard

/-! ## The C library -/

/-- A blank. -/
abbrev blank : UInt8 := 32
/-- The byte `(`. -/
abbrev lparen : UInt8 := 40
/-- The byte `)`. -/
abbrev rparen : UInt8 := 41

/-- `strchr(s, c)`: the suffix of `s` at the first occurrence. -/
def strchr (s : CStr) (c : UInt8) : Option CStr := ListSearch.firstAt [c] s

/-- `strtoull` of digits after the sign: a value of more than 64 bits stops at the largest. -/
def clampU64 (s : CStr) : Nat := min (digitsValue (s.takeWhile isDigit)) (2 ^ 64 - 1)

/-- `strtoull(s, NULL, 10)`; a negative value wraps. -/
def strtoull (s : CStr) : Nat :=
  match s.dropWhile isSpace with
  | 45 :: t =>
    if digitsValue (t.takeWhile isDigit) < 2 ^ 64 then (2 ^ 64 - clampU64 t) % 2 ^ 64
    else clampU64 t
  | 43 :: t => clampU64 t
  | t => clampU64 t

/-- The text up to its first newline, which is kept. -/
def throughNewline (text : CStr) : CStr :=
  text.takeWhile (· ≠ newline) ++ (text.dropWhile (· ≠ newline)).take 1

/-- `fgets(buf, n, f)` at the start of a file. -/
def fgets (n : Nat) (text : CStr) : Option CStr :=
  if text = [] then none else some (throughNewline (text.take (n - 1)))

/-! ## The parser -/

/-- The text after the next blank, or the text itself when there is none. -/
def skipField (s : CStr) : CStr :=
  match strchr s blank with
  | none => s
  | some t => t.drop 1

/-- The number in the twentieth field after `") "`. -/
def startField (rp : CStr) : Nat := strtoull (skipField^[19] (rp.drop 2))

/-- The name between the first `(` of a line and its last `)`, and the start time after it. -/
def parseStatLine (line : CStr) : Option (CBuf 64 × Nat) :=
  match strrchr line rparen, strchr line lparen with
  | some rp, some lp =>
    if lp.length < rp.length ∨ startField rp = 0 then none
    else some (.ofStr 64 ((lp.drop 1).take (lp.length - 1 - rp.length)), startField rp)
  | _, _ => none

/-- The same before the name is copied. -/
def parseSpan (line : CStr) : Option (CStr × Nat) :=
  match strrchr line rparen, strchr line lparen with
  | some rp, some lp =>
    if lp.length < rp.length ∨ startField rp = 0 then none
    else some ((lp.drop 1).take (lp.length - 1 - rp.length), startField rp)
  | _, _ => none

/-- `fan_proc_stat`, of the content of the file. -/
def fanProcStat (file : Option CStr) : Option (CBuf 64 × Nat) :=
  (file.bind (fgets 1024)).bind parseStatLine

/-- `fan_proc_stat` with a buffer of `clen` bytes for the name. -/
def fanProcStatTo (clen : Nat) (file : Option CStr) : Option (CStr × Nat) :=
  ((file.bind (fgets 1024)).bind parseSpan).map fun r => (snprintf clen r.1, r.2)

/-- The start time alone; no `(` is looked for. -/
def parseStatStart (line : CStr) : Option Nat :=
  match strrchr line rparen with
  | none => none
  | some rp => if startField rp = 0 then none else some (startField rp)

/-- `fan_proc_stat` that is not asked for the name. -/
def fanProcStart (file : Option CStr) : Option Nat :=
  (file.bind (fgets 1024)).bind parseStatStart

/-! ## What the kernel writes -/

/-- An instance of a process. -/
structure ProcInstance where
  pid : Nat
  pid_pos : 0 < pid
  pid_lt : pid < 2 ^ 31
  start : Nat
  start_lt : start < 2 ^ 64
deriving DecidableEq

/-- A name a process can have. -/
structure Comm where
  str : CStr
  length_le : str.length ≤ 15
  noNul : (0 : UInt8) ∉ str
deriving DecidableEq

/-- The text of a field: neither blank nor newline nor parenthesis, and at most a number of 64
bits. -/
def IsField (f : CStr) : Prop :=
  f.length ≤ 20 ∧ blank ∉ f ∧ newline ∉ f ∧ rparen ∉ f

instance (f : CStr) : Decidable (IsField f) := inferInstanceAs (Decidable (_ ∧ _))

/-- What stands around the start time: the nineteen fields before it, and the rest of the line. -/
structure StatFields where
  before : List CStr
  count : before.length = 19
  fields : ∀ f ∈ before, IsField f
  after : CStr
  after_fields : rparen ∉ after

/-- The text of `/proc/<pid>/stat`. -/
def statText (p : ProcInstance) (comm : Comm) (fs : StatFields) : CStr :=
  dec p.pid ++ lit " (" ++ comm.str ++ lit ") " ++ fs.before.flatMap (· ++ [blank]) ++
    dec p.start ++ blank :: fs.after

/-- What stands for the name and the start time in a line that ends inside the name, after `shown`. -/
def cutSpan (shown : CStr) : Option (CStr × Nat) :=
  match strrchr shown rparen with
  | none => none
  | some rp =>
    if startField (rp ++ [newline]) = 0 then none
    else some (shown.take (shown.length - rp.length), startField (rp ++ [newline]))

/-- What the parser makes of a line that ends inside the name, after `shown`. -/
def cutRead (shown : CStr) : Option (CBuf 64 × Nat) :=
  match strrchr shown rparen with
  | none => none
  | some rp =>
    if startField (rp ++ [newline]) = 0 then none
    else some (.ofStr 64 (shown.take (shown.length - rp.length)), startField (rp ++ [newline]))

/-- What a process of a given start time is read as under a name. -/
def readAs (start : Nat) (comm : CStr) : Option (CBuf 64 × Nat) :=
  if newline ∈ comm then cutRead (comm.takeWhile (· ≠ newline))
  else if start = 0 then none
  else some (.ofStr 64 comm, start)

/-! ## Numbers -/

section
variable {n k : Nat} {b : UInt8} {f r s p : CStr} {c : UInt8}

/-- A number is read back up to the next byte that is no digit. -/
theorem strtoull_dec (hn : n < 2 ^ 64) (hr : ∀ b ∈ r.head?, isDigit b = false) :
    strtoull (dec n ++ r) = n := by
  have hclamp : clampU64 (dec n ++ r) = n := by
    have hrun : (dec n ++ r).takeWhile isDigit = dec n := by
      rw [List.takeWhile_append_of_pos fun b hb => isDigit_of_mem_dec hb]
      cases r with
      | nil => simp
      | cons b r => simp [hr b rfl]
    rw [clampU64, hrun, digitsValue_dec]
    omega
  obtain ⟨d, ds, hd⟩ := List.exists_cons_of_ne_nil (dec_ne_nil n)
  have hdigit : isDigit d = true := isDigit_of_mem_dec (n := n) (by simp [hd])
  have hdrop : (dec n ++ r).dropWhile isSpace = dec n ++ r := by
    rw [hd, List.cons_append, List.dropWhile_cons, if_neg (by simp [isSpace_of_isDigit hdigit])]
  rw [strtoull, hdrop]
  rw [hd, List.cons_append] at hclamp ⊢
  split
  · next h => cases h; cases hdigit
  · next h => cases h; cases hdigit
  · exact hclamp

/-- A start time that is read is a number of 64 bits. -/
theorem strtoull_lt (s : CStr) : strtoull s < 2 ^ 64 := by
  have hclamp : ∀ t, clampU64 t < 2 ^ 64 := fun t => by unfold clampU64; omega
  unfold strtoull
  split
  · split
    · exact Nat.mod_lt _ (by decide)
    · exact hclamp _
  · exact hclamp _
  · exact hclamp _

theorem readAs_start_lt {comm : CStr} {name : CBuf 64} {m : Nat} (hn : n < 2 ^ 64)
    (h : readAs n comm = some (name, m)) : m < 2 ^ 64 := by
  unfold readAs cutRead at h
  split_ifs at h with hnl hzero
  · split at h
    · cases h
    · split_ifs at h
      cases h
      exact strtoull_lt _
  · cases h
    exact hn

/-! ## Searches -/

theorem strchr_append (hp : c ∉ p) (r : CStr) : strchr (p ++ c :: r) c = some (c :: r) := by
  induction p with
  | nil => simp [strchr, ListSearch.firstAt]
  | cons d p ih =>
    have hd : c ≠ d := fun h => hp (h ▸ List.mem_cons_self)
    have hword : ¬ [c] <+: d :: (p ++ c :: r) := by simp [hd]
    rw [List.cons_append, strchr, ListSearch.firstAt, if_neg hword]
    exact ih fun h => hp (List.mem_cons_of_mem d h)

theorem strrchr_append (p : CStr) (hr : c ∉ r) : strrchr (p ++ c :: r) c = some (c :: r) :=
  ListSearch.lastAt_append p hr

theorem skipField_append (hf : blank ∉ f) (r : CStr) : skipField (f ++ blank :: r) = r := by
  rw [skipField, strchr_append hf]
  rfl

/-- Fields without blanks are skipped one by one. -/
theorem skipField_fields {fs : List CStr} (hfs : ∀ f ∈ fs, blank ∉ f) (r : CStr) :
    skipField^[fs.length] (fs.flatMap (· ++ [blank]) ++ r) = r := by
  induction fs with
  | nil => rfl
  | cons f fs ih =>
    have hskip : skipField ((f :: fs).flatMap (· ++ [blank]) ++ r) =
        fs.flatMap (· ++ [blank]) ++ r := by
      rw [List.flatMap_cons, List.append_assoc, List.append_assoc, List.singleton_append]
      exact skipField_append (hfs f (by simp)) _
    rw [List.length_cons, Function.iterate_succ_apply, hskip]
    exact ih fun g hg => hfs g (by simp [hg])

/-! ## The line that is read -/

theorem throughNewline_append (hp : newline ∉ p) (s : CStr) :
    throughNewline (p ++ s) = p ++ throughNewline s := by
  have hpass : ∀ b ∈ p, (decide (b ≠ newline)) = true := fun b hb =>
    decide_eq_true fun h => hp (h ▸ hb)
  rw [throughNewline, List.takeWhile_append_of_pos hpass, List.dropWhile_append_of_pos hpass,
    List.append_assoc]
  rfl

theorem throughNewline_isPrefix (s : CStr) : throughNewline s <+: s := by
  conv_rhs => rw [← List.takeWhile_append_dropWhile (p := (· ≠ newline)) (l := s)]
  exact List.prefix_append_right_inj _ |>.2 (List.take_prefix 1 _)

theorem parseStatLine_eq (line : CStr) :
    parseStatLine line = (parseSpan line).map fun r => (.ofStr 64 r.1, r.2) := by
  unfold parseStatLine parseSpan
  split
  · split_ifs
    · rw [Option.map_none]
    · rw [Option.map_some]
  · rw [Option.map_none]

theorem fanProcStat_eq (file : Option CStr) :
    fanProcStat file = ((file.bind (fgets 1024)).bind parseSpan).map fun r => (.ofStr 64 r.1, r.2) := by
  unfold fanProcStat
  cases file.bind (fgets 1024) with
  | none => rfl
  | some line => exact parseStatLine_eq line

theorem cutRead_eq (shown : CStr) : cutRead shown = (cutSpan shown).map fun r => (.ofStr 64 r.1, r.2) := by
  unfold cutRead cutSpan
  cases strrchr shown rparen with
  | none => rfl
  | some rp =>
    dsimp only
    split_ifs
    · rw [Option.map_none]
    · rw [Option.map_some]

/-- The name and the start time are read from the last `)` on. -/
theorem parseSpan_append {name tail : CStr} (n : Nat) (htail : rparen ∉ tail) :
    parseSpan (dec n ++ lit " (" ++ name ++ rparen :: tail) =
      if startField (rparen :: tail) = 0 then none else some (name, startField (rparen :: tail)) := by
  have hopen : dec n ++ lit " (" ++ name ++ rparen :: tail =
      (dec n ++ [blank]) ++ lparen :: (name ++ rparen :: tail) := by
    simp [show lit " (" = [blank, lparen] by decide]
  have hlp : strchr (dec n ++ lit " (" ++ name ++ rparen :: tail) lparen =
      some (lparen :: (name ++ rparen :: tail)) := by
    rw [hopen]
    refine strchr_append (fun h => ?_) _
    rcases List.mem_append.1 h with h | h
    · exact not_mem_dec (by decide) h
    · cases List.mem_singleton.1 h
  have hname : ((lparen :: (name ++ rparen :: tail)).drop 1).take
      ((lparen :: (name ++ rparen :: tail)).length - 1 - (rparen :: tail).length) = name := by
    simp
  rw [parseSpan, strrchr_append _ htail, hlp]
  dsimp only
  rw [hname]
  have hle : ¬ (lparen :: (name ++ rparen :: tail)).length < (rparen :: tail).length := by
    simp only [List.length_cons, List.length_append]
    omega
  simp only [hle, false_or]

/-- A line without `)` is not read. -/
theorem parseSpan_eq_none {line : CStr} (h : rparen ∉ line) : parseSpan line = none := by
  rw [parseSpan, strrchr, ListSearch.lastAt_eq_none_iff.2 h]

/-- The start time behind nineteen fields. -/
theorem startField_append {fs : List CStr} (hcount : fs.length = 19) (hfs : ∀ f ∈ fs, blank ∉ f)
    (hn : n < 2 ^ 64) (hr : ∀ b ∈ r.head?, isDigit b = false) :
    startField (rparen :: blank :: (fs.flatMap (· ++ [blank]) ++ (dec n ++ r))) = n := by
  rw [startField, ← hcount]
  exact (congrArg strtoull (skipField_fields hfs _)).trans (strtoull_dec hn hr)

theorem fgets_append (hne : p ≠ []) (hp : newline ∉ p) (hlen : p.length ≤ n - 1) (s : CStr) :
    fgets n (p ++ s) = some (p ++ throughNewline (s.take (n - 1 - p.length))) := by
  rw [fgets, if_neg (by simp [hne]), List.take_append, List.take_of_length_le hlen,
    throughNewline_append hp]

/-- What stands before the name. -/
theorem not_mem_statHead (p : ProcInstance) {b : UInt8} (hb : isDigit b = false ∧ b ≠ blank ∧ b ≠ lparen) :
    b ∉ dec p.pid ++ lit " (" := by
  intro h
  rcases List.mem_append.1 h with h | h
  · exact not_mem_dec hb.1 h
  · rw [show lit " (" = [blank, lparen] by decide] at h
    simp [hb.2.1, hb.2.2] at h

theorem length_statHead_le (p : ProcInstance) : (dec p.pid ++ lit " (").length ≤ 12 := by
  have hpid : (dec p.pid).length ≤ 10 :=
    (length_dec_le (by decide)).2 (p.pid_lt.trans (by decide))
  rw [List.length_append, show (lit " (").length = 2 by decide]
  omega

theorem StatFields.length_le (fs : StatFields) :
    (fs.before.flatMap (· ++ [blank])).length ≤ 399 := by
  have hfield : ∀ n ∈ fs.before.map fun f => (f ++ [blank]).length, n ≤ 21 := by
    intro n hn
    obtain ⟨f, hf, rfl⟩ := List.mem_map.1 hn
    rw [List.length_append, List.length_singleton]
    exact Nat.succ_le_succ (fs.fields f hf).1
  rw [List.length_flatMap]
  refine (List.sum_le_card_nsmul _ 21 hfield).trans ?_
  rw [List.length_map, fs.count]
  decide

theorem StatFields.not_mem {b : UInt8} (fs : StatFields) (hb : b ≠ blank)
    (hfields : ∀ f ∈ fs.before, b ∉ f) : b ∉ fs.before.flatMap (· ++ [blank]) := by
  intro h
  obtain ⟨f, hf, hbf⟩ := List.mem_flatMap.1 h
  rcases List.mem_append.1 hbf with h | h
  · exact hfields f hf h
  · exact hb (List.mem_singleton.1 h)

/-- Of a name without a newline the line is read at least to the end of the start time. -/
theorem fgets_plain (p : ProcInstance) (comm : Comm) (fs : StatFields) (hnl : newline ∉ comm.str) :
    ∃ r, r <+: blank :: fs.after ∧ fgets 1024 (statText p comm fs) =
      some (dec p.pid ++ lit " (" ++ comm.str ++
        rparen :: blank :: (fs.before.flatMap (· ++ [blank]) ++ (dec p.start ++ r))) := by
  let fields := fs.before.flatMap (· ++ [blank])
  let shown := dec p.pid ++ lit " (" ++ comm.str ++ rparen :: blank :: fields ++ dec p.start
  have htext : statText p comm fs = shown ++ blank :: fs.after := by
    simp [statText, shown, fields, show lit ") " = [rparen, blank] by decide]
  have hshown : newline ∉ shown := by
    have hhead := not_mem_statHead p (b := newline) (by decide)
    have hfields := fs.not_mem (b := newline) (by decide) fun f hf => (fs.fields f hf).2.2.1
    have hstart : newline ∉ dec p.start := not_mem_dec (by decide)
    simp only [shown, fields, List.mem_append, List.mem_cons, not_or] at hhead ⊢
    exact ⟨⟨⟨hhead, hnl⟩, by decide, by decide, hfields⟩, hstart⟩
  have hlen : shown.length ≤ 1024 - 1 := by
    have hhead := length_statHead_le p
    have hfields := fs.length_le
    have hstart : (dec p.start).length ≤ 20 :=
      (length_dec_le (by decide)).2 (p.start_lt.trans (by decide))
    have hcomm := comm.length_le
    simp only [shown, fields, List.length_append, List.length_cons] at hhead ⊢
    omega
  refine ⟨throughNewline ((blank :: fs.after).take (1024 - 1 - shown.length)),
    (throughNewline_isPrefix _).trans (List.take_prefix _ _), ?_⟩
  rw [htext, fgets_append (by simp [shown]) hshown hlen]
  simp [shown, fields]

/-- A name without a newline is read with the start time. -/
theorem span_plain (p : ProcInstance) (comm : Comm) (fs : StatFields) (hnl : newline ∉ comm.str) :
    (fgets 1024 (statText p comm fs)).bind parseSpan =
      if p.start = 0 then none else some (comm.str, p.start) := by
  obtain ⟨r, hr, hline⟩ := fgets_plain p comm fs hnl
  -- whatever the buffer holds of the rest starts with a blank
  have hrblank : ∀ b ∈ r.head?, isDigit b = false := by
    intro b hb
    cases r with
    | nil => cases hb
    | cons c r =>
      cases hb
      rw [(List.cons_prefix_cons.1 hr).1]
      decide
  have htail : rparen ∉ blank :: (fs.before.flatMap (· ++ [blank]) ++ (dec p.start ++ r)) := by
    have hfields := fs.not_mem (b := rparen) (by decide) fun f hf => (fs.fields f hf).2.2.2
    have hstart : rparen ∉ dec p.start := not_mem_dec (by decide)
    have hrest : rparen ∉ r := fun h => by
      rcases List.mem_cons.1 (hr.subset h) with h | h
      · cases h
      · exact fs.after_fields h
    simp only [List.mem_cons, List.mem_append, not_or] at hfields ⊢
    exact ⟨by decide, hfields, hstart, hrest⟩
  rw [hline, Option.bind_some, parseSpan_append _ htail, startField_append fs.count (fun f hf => (fs.fields f hf).2.1) p.start_lt hrblank]

/-- A text with a newline is the part before it, the newline and a rest. -/
theorem exists_rest_of_newline {s : CStr} (h : newline ∈ s) :
    ∃ rest, s = s.takeWhile (· ≠ newline) ++ newline :: rest := by
  cases hdrop : s.dropWhile (· ≠ newline) with
  | nil => exact absurd h fun h => by simpa using List.dropWhile_eq_nil_iff.1 hdrop _ h
  | cons b rest =>
    have hb : b = newline := by
      have := List.head?_dropWhile_not (· ≠ newline) s
      rw [hdrop] at this
      simpa using this
    subst hb
    refine ⟨rest, ?_⟩
    rw [← hdrop]
    exact List.takeWhile_append_dropWhile.symm

/-- The line that is read ends at the newline of the name. -/
theorem fgets_cut (p : ProcInstance) (comm : Comm) (fs : StatFields) (hnl : newline ∈ comm.str) :
    fgets 1024 (statText p comm fs) =
      some (dec p.pid ++ lit " (" ++ comm.str.takeWhile (· ≠ newline) ++ [newline]) := by
  obtain ⟨rest, hrest⟩ := exists_rest_of_newline hnl
  have hshown : newline ∉ comm.str.takeWhile (· ≠ newline) := fun h => by
    simpa using List.mem_takeWhile_imp h
  generalize comm.str.takeWhile (· ≠ newline) = shown at hrest hshown ⊢
  have hhead : newline ∉ dec p.pid ++ lit " (" ++ shown := by
    have := not_mem_statHead p (b := newline) (by decide)
    simp only [List.mem_append] at this ⊢
    tauto
  have hlen : (dec p.pid ++ lit " (" ++ shown).length < 1024 - 1 := by
    have hle := length_statHead_le p
    have hcomm := comm.length_le
    rw [hrest] at hcomm
    simp only [List.length_append, List.length_cons] at hle hcomm ⊢
    omega
  have htext : statText p comm fs = (dec p.pid ++ lit " (" ++ shown) ++ newline ::
      (rest ++ lit ") " ++ fs.before.flatMap (· ++ [blank]) ++ dec p.start ++ blank :: fs.after) := by
    rw [statText, hrest]
    simp only [List.append_assoc, List.cons_append]
  obtain ⟨k, hk⟩ := Nat.exists_eq_add_of_lt hlen
  rw [htext, fgets_append (by simp [dec_ne_nil]) hhead hlen.le,
    show 1024 - 1 - (dec p.pid ++ lit " (" ++ shown).length = k + 1 by omega, List.take_succ_cons]
  simp [throughNewline]

/-- Of a name with a newline the part before it is read. -/
theorem span_cut (p : ProcInstance) (comm : Comm) (fs : StatFields) (hnl : newline ∈ comm.str) :
    (fgets 1024 (statText p comm fs)).bind parseSpan = cutSpan (comm.str.takeWhile (· ≠ newline)) := by
  rw [fgets_cut p comm fs hnl, Option.bind_some, cutSpan]
  generalize comm.str.takeWhile (· ≠ newline) = shown
  cases hrp : strrchr shown rparen with
  | none =>
    refine parseSpan_eq_none ?_
    have hpid := not_mem_statHead p (b := rparen) (by decide)
    have hname := ListSearch.lastAt_eq_none_iff.1 hrp
    simp only [List.mem_append, List.mem_singleton, not_or] at hpid ⊢
    exact ⟨⟨hpid, hname⟩, by decide⟩
  | some rp =>
    obtain ⟨name, tail, hname, rfl, htail⟩ := ListSearch.lastAt_eq_some hrp
    have htail' : rparen ∉ tail ++ [newline] := by
      simp only [List.mem_append, List.mem_singleton, not_or]
      exact ⟨htail, by decide⟩
    have hsplit : dec p.pid ++ lit " (" ++ shown ++ [newline] =
        dec p.pid ++ lit " (" ++ name ++ rparen :: (tail ++ [newline]) := by simp [hname]
    have htake : shown.take (shown.length - (rparen :: tail).length) = name := by simp [hname]
    rw [hsplit, parseSpan_append _ htail']
    dsimp only
    rw [htake]
    rfl

/-- What the channels read under a name. -/
theorem fanProcStat_statText (p : ProcInstance) (comm : Comm) (fs : StatFields) :
    fanProcStat (some (statText p comm fs)) = readAs p.start comm.str := by
  rw [fanProcStat_eq, Option.bind_some]
  unfold readAs
  split
  · next h => rw [span_cut p comm fs h, cutRead_eq]
  · next h =>
    rw [span_plain p comm fs h]
    split <;> rfl

/-- The line that is read starts as the kernel writes it. -/
theorem fgets_statText (p : ProcInstance) (comm : Comm) (fs : StatFields) :
    ∃ rest, fgets 1024 (statText p comm fs) = some (dec p.pid ++ lit " (" ++ rest) := by
  have htext : statText p comm fs = (dec p.pid ++ lit " (") ++ (comm.str ++ lit ") " ++
      fs.before.flatMap (· ++ [blank]) ++ dec p.start ++ blank :: fs.after) := by
    simp [statText]
  rw [htext]
  exact ⟨_, fgets_append (by simp [dec_ne_nil]) (not_mem_statHead p (by decide))
    ((length_statHead_le p).trans (by decide)) _⟩

/-- The start time is the same whether or not the name is asked for. -/
theorem fanProcStart_statText (p : ProcInstance) (comm : Comm) (fs : StatFields) :
    fanProcStart (some (statText p comm fs)) = (readAs p.start comm.str).map Prod.snd := by
  rw [← fanProcStat_statText p comm fs]
  obtain ⟨rest, hline⟩ := fgets_statText p comm fs
  rw [fanProcStart, fanProcStat_eq, Option.bind_some, hline, Option.bind_some, Option.bind_some]
  cases hrp : strrchr (dec p.pid ++ lit " (" ++ rest) rparen with
  | none =>
    rw [parseSpan_eq_none (ListSearch.lastAt_eq_none_iff.1 hrp), parseStatStart, hrp]
    rfl
  | some rp =>
    -- the last `)` is behind the `(`
    obtain ⟨before, tail, hsplit, rfl, htail⟩ := ListSearch.lastAt_eq_some hrp
    obtain ⟨name, rfl⟩ : ∃ name, before = dec p.pid ++ lit " (" ++ name := by
      rcases List.append_eq_append_iff.1 hsplit with ⟨name, hname, -⟩ | ⟨cut, hcut, hrest⟩
      · exact ⟨name, hname⟩
      · cases cut with
        | nil => exact ⟨[], by simpa using hcut.symm⟩
        | cons b cut =>
          have hb : rparen = b := (List.cons.inj hrest).1
          exact absurd (show rparen ∈ dec p.pid ++ lit " (" by rw [hcut, ← hb]; simp)
            (not_mem_statHead p (by decide))
    rw [hsplit, parseSpan_append _ htail, parseStatStart, strrchr_append _ htail]
    dsimp only
    by_cases hstart : startField (rparen :: tail) = 0
    · simp only [if_pos hstart, Option.map_none]
    · simp only [if_neg hstart, Option.map_some]

end

end GfrGuard
