import GfrGuard.Lib.Forest
import GfrGuard.ProcStat
import GfrGuard.Scorer

/-!
# The processes below one

`collect_children` stores the children of a process as `/proc` lists them, and after each child what
is below it. There is no set of those already seen: what ends the walk is the count of stored
entries, which grows before every call (`collectTokens_ends`). What a file shows is asked of the
file system anew at every read, and may be anything. If nothing is cut off, the stored entries of a
tree that stays as it is are its depth-first listing (`collectChildren_listed`).
-/

namespace GfrGuard

/-! ## The walk -/

/-- What `/proc/<pid>/task/<pid>/children` shows at each read; nothing when it cannot be opened. -/
abbrev ChildReads := Nat → Int → Option CStr

/-- `strtok_r(line, " \t\n", ...)`. -/
def tokens (line : CStr) : List CStr :=
  (line.splitOnP fun c => c = blank || c = 9 || c = newline).filter (· ≠ [])

/-- The entries stored, and the number of reads. -/
structure PidWalk where
  pids : List Int
  reads : Nat
deriving DecidableEq

/-- The walk with nothing stored. -/
def PidWalk.start : PidWalk := ⟨[], 0⟩

/-- The loop of `collect_children`, over the call for a child. -/
def collectTokens (collect : Int → PidWalk → Option (Bool × PidWalk)) (maxPids : Nat) :
    List CStr → Bool → PidWalk → Option (Bool × PidWalk)
  | [], overflow, w => some (overflow, w)
  | token :: rest, overflow, w =>
    if maxPids ≤ w.pids.length then some (true, w)
    else
      let child := atoiInt token
      if 1 < child then
        (collect child { w with pids := w.pids ++ [child] }).bind fun r =>
          collectTokens collect maxPids rest (overflow || r.1) r.2
      else collectTokens collect maxPids rest overflow w

/-- `collect_children`, whether it overflowed and what it stored; nothing when the calls are nested
more deeply than `depth`. -/
def collectChildren (reads : ChildReads) (maxPids : Nat) : (depth : Nat) → (root : Int) → PidWalk →
    Option (Bool × PidWalk)
  | 0, _, _ => none
  | depth + 1, root, w =>
    if maxPids ≤ w.pids.length then some (true, w)
    else
      match (reads w.reads root).bind (fgets 4096) with
      | none => some (false, { w with reads := w.reads + 1 })
      | some line =>
        collectTokens (collectChildren reads maxPids depth) maxPids (tokens line) false
          { w with reads := w.reads + 1 }

/-! ## The walk ends -/

section
variable {collect collect' : Int → PidWalk → Option (Bool × PidWalk)} {reads : ChildReads}
  {maxPids depth k : Nat} {toks : List CStr} {overflow : Bool} {w w' : PidWalk} {root : Int}
  {r : Bool × PidWalk}

/-- The loop ends where every call it makes, with one entry more, does. -/
theorem collectTokens_ends (hcollect : ∀ child w, k < w.pids.length → w.pids.length ≤ maxPids →
      ∃ r, collect child w = some r ∧ w.pids.length ≤ r.2.pids.length ∧ r.2.pids.length ≤ maxPids)
    (hk : k ≤ w.pids.length) (hmax : w.pids.length ≤ maxPids) :
    ∃ r, collectTokens collect maxPids toks overflow w = some r ∧
      w.pids.length ≤ r.2.pids.length ∧ r.2.pids.length ≤ maxPids := by
  induction toks generalizing overflow w with
  | nil => exact ⟨(overflow, w), rfl, le_rfl, hmax⟩
  | cons token rest ih =>
    unfold collectTokens
    dsimp only
    split_ifs with hfull hchild
    · exact ⟨(true, w), rfl, le_rfl, hmax⟩
    · have hlen : (w.pids ++ [atoiInt token]).length = w.pids.length + 1 := by simp
      obtain ⟨r, hr, hle, hrmax⟩ := hcollect (atoiInt token) { w with pids := w.pids ++ [atoiInt token] }
        (by dsimp only; omega) (by dsimp only; omega)
      dsimp only at hle
      obtain ⟨r', hr', hle', hrmax'⟩ := @ih (overflow || r.1) r.2 (by omega) hrmax
      refine ⟨r', ?_, by omega, hrmax'⟩
      rw [hr, Option.bind_some, hr']
    · exact ih hk hmax

/-- The calls are nested no more deeply than there is room for entries. -/
theorem collectChildren_ends (hmax : w.pids.length ≤ maxPids) (hdepth : maxPids < w.pids.length + depth) :
    ∃ r, collectChildren reads maxPids depth root w = some r ∧
      w.pids.length ≤ r.2.pids.length ∧ r.2.pids.length ≤ maxPids := by
  induction depth generalizing root w with
  | zero => omega
  | succ depth ih =>
    unfold collectChildren
    split
    · exact ⟨(true, w), rfl, le_rfl, hmax⟩
    · split
      · exact ⟨(false, { w with reads := w.reads + 1 }), rfl, le_rfl, hmax⟩
      · next line _ =>
        exact collectTokens_ends (w := { w with reads := w.reads + 1 }) (k := w.pids.length)
          (fun child w' hk hw' => ih hw' (by omega)) le_rfl hmax

/-- The walk that starts with nothing stored. -/
theorem collectChildren_start (reads : ChildReads) (root : Int) :
    ∃ r, collectChildren reads 256 257 root .start = some r ∧ r.2.pids.length ≤ 256 := by
  have hends : ∃ r, collectChildren reads 256 257 root .start = some r ∧
      PidWalk.start.pids.length ≤ r.2.pids.length ∧ r.2.pids.length ≤ 256 :=
    collectChildren_ends (Nat.zero_le _) (Nat.lt_succ_self _)
  obtain ⟨r, hr, -, hmax⟩ := hends
  exact ⟨r, hr, hmax⟩

/-- What the calls return does not change where they may nest more deeply. -/
theorem collectTokens_mono (hcollect : ∀ child w r, collect child w = some r → collect' child w = some r)
    (h : collectTokens collect maxPids toks overflow w = some r) :
    collectTokens collect' maxPids toks overflow w = some r := by
  induction toks generalizing overflow w with
  | nil => exact h
  | cons token rest ih =>
    unfold collectTokens at h ⊢
    dsimp only at h ⊢
    split_ifs at h ⊢
    · exact h
    · obtain ⟨r', hr', hrest⟩ := Option.bind_eq_some_iff.1 h
      rw [hcollect _ _ _ hr', Option.bind_some]
      exact ih hrest
    · exact ih h

theorem collectChildren_succ (h : collectChildren reads maxPids depth root w = some r) :
    collectChildren reads maxPids (depth + 1) root w = some r := by
  induction depth generalizing root w r with
  | zero => cases h
  | succ depth ih =>
    unfold collectChildren at h ⊢
    split_ifs at h ⊢
    · exact h
    · split at h
      · exact h
      · exact collectTokens_mono (fun child w r hr => ih hr) h

theorem collectChildren_mono {depth' : Nat} (hle : depth ≤ depth')
    (h : collectChildren reads maxPids depth root w = some r) :
    collectChildren reads maxPids depth' root w = some r := by
  induction hle with
  | refl => exact h
  | step _ ih => exact collectChildren_succ ih

/-! ## A tree that stays as it is -/

/-- What the kernel writes of the children of a process. -/
def childrenLine (children : List Int) : CStr := children.flatMap fun c => dec c.toNat ++ [blank]

/-- A tree of single-threaded processes; one that is not in it has no children here. -/
structure ProcTree where
  root : Int
  children : Int → List Int
  forest : Forest.IsForest children
  pid_gt : ∀ p, ∀ c ∈ children p, 1 < c
  pid_lt : ∀ p, ∀ c ∈ children p, c < 2 ^ 31
  line_lt : ∀ p, (childrenLine (children p)).length < 4096

/-- Every read of a process of the tree shows its children. -/
def ProcTree.Shown (t : ProcTree) (reads : ChildReads) : Prop :=
  ∀ time p, Forest.Under t.children t.root p → reads time p = some (childrenLine (t.children p))

theorem tokens_childrenLine (children : List Int) :
    tokens (childrenLine children) = children.map fun c => dec c.toNat := by
  unfold tokens childrenLine
  induction children with
  | nil => simp
  | cons c children ih =>
    have hdigits : ∀ b ∈ dec c.toNat, (decide (b = blank) || decide (b = 9) || decide (b = newline)) = false := by
      intro b hb
      have hdigit := isDigit_of_mem_dec hb
      simp only [Bool.or_eq_false_iff, decide_eq_false_iff_not]
      refine ⟨⟨?_, ?_⟩, ?_⟩ <;> rintro rfl <;> cases hdigit
    rw [List.flatMap_cons, List.append_assoc, List.singleton_append,
      List.splitOnP_append_cons_of_forall_mem hdigits _ (by decide), List.filter_cons_of_pos (by simp [dec_ne_nil]), ih,
      List.map_cons]

theorem newline_not_mem_childrenLine (children : List Int) : newline ∉ childrenLine children := fun h => by
  obtain ⟨c, -, hc⟩ := List.mem_flatMap.1 h
  rcases List.mem_append.1 hc with hdigit | hblank
  · exact not_mem_dec (by decide) hdigit
  · cases List.mem_singleton.1 hblank

theorem atoiInt_dec {c : Int} (hpos : 1 < c) (hlt : c < 2 ^ 31) : atoiInt (dec c.toNat) = c := by
  have hatoi : atoi (dec c.toNat) = c := by
    rw [atoi_digits fun b hb => isDigit_of_mem_dec hb, digitsValue_dec]
    omega
  unfold atoiInt
  rw [hatoi, min_eq_right (by omega), max_eq_right (by omega)]
  exact Int.bmod_eq_of_le (by omega) (by omega)

/-- The line is read whole; of a process without children there is none. -/
theorem fgets_childrenLine {children : List Int} (h : (childrenLine children).length < 4096) :
    fgets 4096 (childrenLine children) = if children = [] then none else some (childrenLine children) := by
  have hthrough := throughNewline_append (newline_not_mem_childrenLine children) []
  rw [List.append_nil, show throughNewline [] = [] from rfl, List.append_nil] at hthrough
  have hnil : childrenLine children = [] ↔ children = [] := by
    cases children <;> simp [childrenLine]
  unfold fgets
  simp only [hnil]
  rw [List.take_of_length_le (by omega), hthrough]

/-- The loop over the children of a process that was not cut off has stored their listing. -/
theorem collectTokens_listed {children : Int → List Int} {nodes : List Int}
    (hnodes : ∀ c ∈ nodes, 1 < c ∧ c < 2 ^ 31)
    (hcollect : ∀ c ∈ nodes, ∀ w w', collect c w = some (false, w') →
      ∃ order, Forest.Listed children (children c) order ∧ w'.pids = w.pids ++ order)
    (h : collectTokens collect maxPids (nodes.map fun c => dec c.toNat) overflow w = some (false, w')) :
    overflow = false ∧ ∃ order, Forest.Listed children nodes order ∧ w'.pids = w.pids ++ order := by
  induction nodes generalizing overflow w with
  | nil =>
    cases h
    exact ⟨rfl, [], .nil, (List.append_nil _).symm⟩
  | cons c nodes ih =>
    obtain ⟨hgt, hlt⟩ := hnodes c List.mem_cons_self
    rw [List.map_cons, collectTokens, atoiInt_dec hgt hlt] at h
    dsimp only at h
    split_ifs at h
    · cases h
    · obtain ⟨⟨o, mid⟩, hchild, hrest⟩ := Option.bind_eq_some_iff.1 h
      obtain ⟨hover, rest, hrlist, hrpids⟩ := ih (fun d hd => hnodes d (List.mem_cons_of_mem c hd))
        (fun d hd => hcollect d (List.mem_cons_of_mem c hd)) hrest
      rw [Bool.or_eq_false_iff] at hover
      obtain ⟨rfl, rfl⟩ := hover
      obtain ⟨below, hblist, hbpids⟩ := hcollect c List.mem_cons_self _ _ hchild
      refine ⟨rfl, c :: (below ++ rest), .cons hblist hrlist, ?_⟩
      rw [hrpids, hbpids]
      simp

/-- A walk that was not cut off has stored the listing of the children of its root. -/
theorem collectChildren_listed (t : ProcTree) (hshown : t.Shown reads) (hroot : Forest.Under t.children t.root root)
    (h : collectChildren reads maxPids depth root w = some (false, w')) :
    ∃ order, Forest.Listed t.children (t.children root) order ∧ w'.pids = w.pids ++ order := by
  induction depth generalizing root w w' with
  | zero => cases h
  | succ depth ih =>
    unfold collectChildren at h
    rw [hshown _ _ hroot, Option.bind_some, fgets_childrenLine (t.line_lt root)] at h
    split_ifs at h with hfull hnone
    · cases h
    · cases h
      rw [hnone]
      exact ⟨[], .nil, (List.append_nil _).symm⟩
    · dsimp only at h
      rw [tokens_childrenLine] at h
      exact (collectTokens_listed (fun c hc => ⟨t.pid_gt root c hc, t.pid_lt root c hc⟩)
        (fun c hc w w' hw => ih (hroot.tail hc) hw) h).2

end

/-- Whatever is read, the walk of `cloud_kill_process_tree` ends, with at most 256 entries stored. If
it returns 0 on a tree that stays as it is, they are the proper descendants of the root, each once,
and none stands after a descendant of its own. -/
theorem collect_children_spec :
    (∀ reads root, ∃ r, (∀ depth, 257 ≤ depth → collectChildren reads 256 depth root .start = some r) ∧
      r.2.pids.length ≤ 256) ∧
    ∀ (t : ProcTree) reads depth w, t.Shown reads →
      collectChildren reads 256 depth t.root .start = some (false, w) →
        w.pids.Nodup ∧ (∀ p, p ∈ w.pids ↔ Forest.Below t.children t.root p) ∧
          w.pids.Pairwise fun p q => ¬ Forest.Below t.children q p := by
  refine ⟨fun reads root => ?_, fun t reads depth w hshown h => ?_⟩
  · obtain ⟨r, hr, hmax⟩ := collectChildren_start reads root
    exact ⟨r, fun depth hdepth => collectChildren_mono hdepth hr, hmax⟩
  · obtain ⟨order, hlist, hpids⟩ := collectChildren_listed t hshown .refl h
    rw [show PidWalk.start.pids = [] from rfl, List.nil_append] at hpids
    subst hpids
    exact ⟨hlist.nodup t.forest, fun p => hlist.mem_iff.trans Forest.below_iff.symm,
      hlist.ancestors_first t.forest⟩

/-! ## Four processes -/

/-- A process with two children, the first of which has one. -/
def sampleChildren (p : Int) : List Int := if p = 100 then [101, 103] else if p = 101 then [102] else []

theorem mem_sampleChildren {p c : Int} (h : c ∈ sampleChildren p) :
    p = 100 ∧ c = 101 ∨ p = 100 ∧ c = 103 ∨ p = 101 ∧ c = 102 := by
  unfold sampleChildren at h
  split_ifs at h with h100 h101
  · rcases List.mem_cons.1 h with hc | hc
    · exact .inl ⟨h100, hc⟩
    · exact .inr (.inl ⟨h100, List.mem_singleton.1 hc⟩)
  · exact .inr (.inr ⟨h101, List.mem_singleton.1 h⟩)
  · cases h

theorem isForest_sampleChildren : Forest.IsForest sampleChildren where
  nodup p := by
    unfold sampleChildren
    split_ifs <;> decide
  parent a b c ha hb := by
    have ha := mem_sampleChildren ha
    have hb := mem_sampleChildren hb
    omega
  acyclic a h := by
    have hlt : ∀ {p q}, Forest.Below sampleChildren p q → p < q := by
      intro p q hpq
      induction hpq with
      | single hc =>
        have hc := mem_sampleChildren hc
        omega
      | tail _ hc ih =>
        have hc := mem_sampleChildren hc
        omega
    exact lt_irrefl a (hlt h)

theorem length_sampleLine (p : Int) : (childrenLine (sampleChildren p)).length < 4096 := by
  unfold sampleChildren
  split_ifs <;> decide

/-- The four processes. -/
def sampleProcTree : ProcTree where
  root := 100
  children := sampleChildren
  forest := isForest_sampleChildren
  pid_gt p c h := by
    have := mem_sampleChildren h
    omega
  pid_lt p c h := by
    have := mem_sampleChildren h
    omega
  line_lt := length_sampleLine

/-- What `/proc` shows of them. -/
def sampleReads : ChildReads := fun _ p => some (childrenLine (sampleChildren p))

theorem collect_children_sample : ([101, 102, 103] : List Int).Nodup ∧
    (∀ p, p ∈ [101, 102, 103] ↔ Forest.Below sampleChildren 100 p) ∧
      [101, 102, 103].Pairwise fun p q => ¬ Forest.Below sampleChildren q p :=
  collect_children_spec.2 sampleProcTree sampleReads 257 ⟨[101, 102, 103], 4⟩ (fun _ _ _ => rfl) (by decide)

end GfrGuard
