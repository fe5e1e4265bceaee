import GfrGuard.Scorer

/-!
# The blocked file

One bare address per line; the VFS module refuses sessions from them. `blocker_execute`
appends an address, `blocker_sync_blacklist` rebuilds the file from the exact entries of the
two blacklists. Appending keeps every line (`mem_blockedLines_append`), a rebuild keeps
exactly the listed ones, and drops the networks and ranges.
-/

namespace GfrGuard

/-- The lines of the blocked file. A missing file has none. -/
def blockedLines (content : Option CStr) : List CStr :=
  SepText.pieces newline (content.getD [])

/-- `line_exists`. -/
def lineExists (content : Option CStr) (key : CStr) : Bool := key ∈ blockedLines content

/-- The content with its last line ended. -/
def endLastLine (content : CStr) : CStr :=
  if content ≠ [] ∧ content.getLast? ≠ some newline then content ++ [newline] else content

/-- The file with one more line, on a line of its own. -/
def appendLine (content ip : CStr) : CStr := endLastLine content ++ ip ++ [newline]

/-- The file part of `blocker_execute`: nothing on a failure, else the new content. `readOk`
is whether the file was locked and read, `writeOk` whether it was replaced. -/
def blockerAppend (content : Option CStr) (ip : CStr) (readOk writeOk : Bool) :
    Option (Option CStr) :=
  if validClientIp ip then
    if !readOk then none
    else if lineExists content ip then some content
    else if writeOk then some (some (appendLine (content.getD []) ip))
    else none
  else some content

/-- The entries a rebuild writes: neither empty, nor a network, nor a range. -/
def exactEntries (bl : Blacklist) : List CStr :=
  (bl.ips.strs ++ bl.autoIps.strs).filter fun s => s ≠ [] && !isCidr s && !isIpRange s

/-- The content `blocker_sync_blacklist` writes. -/
def syncContent (bl : Blacklist) : CStr := (exactEntries bl).flatMap (· ++ [newline])

/-- `blocker_sync_blacklist`: a file that cannot be locked or replaced stays as it is. -/
def blockerSyncBlacklist (content : Option CStr) (bl : Blacklist) (writeOk : Bool) :
    Option CStr :=
  if writeOk then some (syncContent bl) else content

/-- `blocker_unblock`: what it returns, and the content after it. Every line that is the address
is dropped, and each of the others is ended. -/
def blockerUnblock (content : Option CStr) (ip : CStr) (readOk writeOk : Bool) :
    Int × Option CStr :=
  if !readOk then (-1, content)
  else if ip ∉ blockedLines content then (1, content)
  else if writeOk then
    (0, some (((blockedLines content).filter (· ≠ ip)).flatMap (· ++ [newline])))
  else (-1, content)

/-! ## Lines -/

/-- A whole line between terminated text and the rest is a line of the file. -/
theorem mem_blockedLines_of_line {a b ip : CStr} (ha : a = [] ∨ ∃ a', a = a' ++ [newline])
    (hip : newline ∉ ip) (hne : ip ≠ []) :
    ip ∈ blockedLines (some (a ++ ip ++ newline :: b)) := by
  rw [blockedLines, Option.getD_some, SepText.mem_pieces_iff hne]
  rcases ha with rfl | ⟨a', rfl⟩
  · rw [List.nil_append, List.splitOn_append_cons_self, List.splitOn_eq_singleton hip]
    simp
  · rw [List.append_assoc, List.append_assoc, List.singleton_append,
      List.splitOn_append_cons_self, List.splitOn_append_cons_self,
      List.splitOn_eq_singleton hip]
    simp

/-- Text after a terminated text adds lines and loses none. -/
theorem mem_blockedLines_append {a b line : CStr} (h : line ∈ blockedLines (some a))
    (ha : a = [] ∨ ∃ a', a = a' ++ [newline]) (hne : line ≠ []) :
    line ∈ blockedLines (some (a ++ b)) := by
  simp only [blockedLines, Option.getD_some, SepText.mem_pieces_iff hne] at h ⊢
  rcases ha with rfl | ⟨a', rfl⟩
  · simp only [List.splitOn_nil, List.mem_singleton] at h
    exact absurd h hne
  · rw [List.splitOn_append_cons_self, List.splitOn_nil, List.mem_append,
      List.mem_singleton, or_iff_left hne] at h
    rw [List.append_assoc, List.singleton_append, List.splitOn_append_cons_self]
    exact List.mem_append_left _ h

/-- The text an address is appended to is terminated. -/
theorem endLastLine_terminated (content : CStr) :
    endLastLine content = [] ∨ ∃ a', endLastLine content = a' ++ [newline] := by
  unfold endLastLine
  split
  · exact .inr ⟨content, rfl⟩
  · next h =>
    by_cases hc : content = []
    · exact .inl hc
    · exact .inr (List.getLast?_eq_some_iff.1 (by simpa [hc] using h))

/-- A line more is another text. -/
theorem length_lt_appendLine (content ip : CStr) : content.length < (appendLine content ip).length := by
  have hend : content.length ≤ (endLastLine content).length := by
    unfold endLastLine
    split <;> simp
  simp only [appendLine, List.length_append, List.length_singleton]
  omega

/-- Ending the last line keeps the lines. -/
theorem mem_blockedLines_endLastLine {content : Option CStr} {line : CStr}
    (h : line ∈ blockedLines content) (hne : line ≠ []) :
    line ∈ blockedLines (some (endLastLine (content.getD []))) := by
  unfold endLastLine
  split
  · rw [blockedLines, Option.getD_some, SepText.mem_pieces_iff hne,
      List.splitOn_append_cons_self]
    exact List.mem_append_left _ ((SepText.mem_pieces_iff hne).1 h)
  · exact h

/-- A call of `blocker_execute` that succeeds keeps the content, or appends the address. -/
theorem blockerAppend_eq_some_iff {content content' : Option CStr} {ip : CStr}
    {readOk writeOk : Bool} : blockerAppend content ip readOk writeOk = some content' ↔
      content' = content ∧
          (validClientIp ip = true → readOk = true ∧ lineExists content ip = true) ∨
        content' = some (appendLine (content.getD []) ip) ∧ validClientIp ip = true ∧
          readOk = true ∧ lineExists content ip = false ∧ writeOk = true := by
  unfold blockerAppend
  cases validClientIp ip <;> cases readOk <;> cases lineExists content ip <;> cases writeOk <;>
    simp [eq_comm]

/-- `blocker_execute` leaves a valid address on a line of the file. -/
theorem mem_blockedLines_blockerAppend {content content' : Option CStr} {ip : CStr}
    {readOk writeOk : Bool} (h : blockerAppend content ip readOk writeOk = some content')
    (hip : validClientIp ip) : ip ∈ blockedLines content' := by
  obtain ⟨rfl, hkept⟩ | ⟨rfl, -⟩ := blockerAppend_eq_some_iff.1 h
  · simpa [lineExists] using (hkept hip).2
  · exact mem_blockedLines_of_line (endLastLine_terminated _)
      (not_mem_of_validClientIp hip (by decide)) (ne_nil_of_validClientIp hip)

/-- `blocker_execute` drops no line. -/
theorem blockerAppend_keeps {content content' : Option CStr} {ip line : CStr}
    {readOk writeOk : Bool} (h : blockerAppend content ip readOk writeOk = some content')
    (hline : line ∈ blockedLines content) (hne : line ≠ []) : line ∈ blockedLines content' := by
  obtain ⟨rfl, -⟩ | ⟨rfl, -⟩ := blockerAppend_eq_some_iff.1 h
  · exact hline
  · have hkept := mem_blockedLines_append (b := ip ++ [newline])
      (mem_blockedLines_endLastLine hline hne) (endLastLine_terminated _) hne
    rwa [← List.append_assoc] at hkept

/-- A rebuild writes a line for each exact entry. -/
theorem mem_blockedLines_syncContent {bl : Blacklist} {ip : CStr} (h : ip ∈ exactEntries bl)
    (hip : newline ∉ ip) : ip ∈ blockedLines (some (syncContent bl)) := by
  have hne : ip ≠ [] := by
    simp only [exactEntries, List.mem_filter, Bool.and_eq_true, decide_eq_true_eq] at h
    exact h.2.1.1
  obtain ⟨before, after, hsplit⟩ := List.append_of_mem h
  have hcontent : syncContent bl = before.flatMap (· ++ [newline]) ++ ip ++
      newline :: after.flatMap (· ++ [newline]) := by
    simp [syncContent, hsplit]
  rw [hcontent]
  refine mem_blockedLines_of_line ?_ hip hne
  rcases List.eq_nil_or_concat before with rfl | ⟨bs, b, rfl⟩
  · exact .inl rfl
  · exact .inr ⟨bs.flatMap (· ++ [newline]) ++ b, by simp⟩

/-- An unblock that returns 0 leaves the lines but the address. -/
theorem blockedLines_blockerUnblock {content content' : Option CStr} {ip : CStr}
    {readOk writeOk : Bool} (h : blockerUnblock content ip readOk writeOk = (0, content')) :
    ip ∈ blockedLines content ∧ blockedLines content' = (blockedLines content).filter (· ≠ ip) := by
  unfold blockerUnblock at h
  split at h
  · cases h
  · split at h
    · cases h
    · next hline =>
      split at h
      · cases h
        refine ⟨not_not.1 hline, SepText.pieces_flatMap fun line hmem => ?_⟩
        exact SepText.not_mem_of_mem_pieces (List.mem_filter.1 hmem).1
      · cases h

/-- One that does not leaves the file. -/
theorem blockerUnblock_of_ne {content : Option CStr} {ip : CStr} {readOk writeOk : Bool}
    (h : (blockerUnblock content ip readOk writeOk).1 ≠ 0) :
    (blockerUnblock content ip readOk writeOk).2 = content := by
  unfold blockerUnblock at h ⊢
  split
  · rfl
  · split
    · rfl
    · next hread hline =>
      rw [if_neg hread, if_neg hline] at h
      split
      · next hwrite =>
        rw [if_pos hwrite] at h
        exact absurd rfl h
      · rfl

/-- It returns 1 where the address is no line, and -1 on a failure. -/
theorem blockerUnblock_rc_of_ne {content : Option CStr} {ip : CStr} {readOk writeOk : Bool}
    (h : (blockerUnblock content ip readOk writeOk).1 ≠ 0) :
    (blockerUnblock content ip readOk writeOk).1 = 1 ∧ ip ∉ blockedLines content ∨
      (blockerUnblock content ip readOk writeOk).1 = -1 := by
  unfold blockerUnblock at h ⊢
  split
  · exact .inr rfl
  · split
    · next hline => exact .inl ⟨rfl, hline⟩
    · next hread hline =>
      rw [if_neg hread, if_neg hline] at h
      split
      · next hwrite =>
        rw [if_pos hwrite] at h
        exact absurd rfl h
      · exact .inr rfl

/-- A valid address that is a list entry is an exact entry. -/
theorem mem_exactEntries {bl : Blacklist} {ip : CStr} (hip : validClientIp ip)
    (h : ip ∈ bl.ips.strs ∨ ip ∈ bl.autoIps.strs) : ip ∈ exactEntries bl := by
  simp only [exactEntries, List.mem_filter, List.mem_append, Bool.and_eq_true,
    decide_eq_true_eq, Bool.not_eq_true']
  refine ⟨h, ⟨ne_nil_of_validClientIp hip, ?_⟩, ?_⟩
  · simpa [isCidr] using not_mem_of_validClientIp (b := slash) hip (by decide)
  · simpa [isIpRange] using not_mem_of_validClientIp (b := dash) hip (by decide)

end GfrGuard
