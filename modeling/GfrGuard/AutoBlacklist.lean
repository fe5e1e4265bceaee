import GfrGuard.Lib.Fifo
import GfrGuard.Lib.Runs
import GfrGuard.ConfigLoad
import GfrGuard.Persist

/-!
# The runtime blacklist over a run

`scorer_blacklist_auto_add` is called once for every session that is blocked. Over any
sequence of calls the runtime list is a bounded queue of the addresses it is offered: it
takes what is an address and not on the manual list (`strs_run`). So it never holds more than
64 entries, two equal ones, or one of the manual list, and an address is on the blacklist
right after it was offered (`auto_blacklist_fifo`).
-/

namespace GfrGuard

/-- What the runtime list takes: the addresses that are not on the manual list. -/
def takesAuto (manual : StrList 64 48) (ip : CStr) : Bool := validClientIp ip && ip ∉ manual.strs

/-- The blacklist when a policy is loaded with a manual list. -/
def loadedBlacklist (users : StrList 64 64) (manual : StrList 64 48) : Blacklist :=
  ⟨users, manual.sorted, .nil 64 48⟩

section
variable {bl : Blacklist} {ip : CBuf 48}

theorem strs_pushAuto (l : StrList 64 48) : (pushAuto l ip).strs = Fifo.push 64 l.strs ip.str := by
  unfold pushAuto Fifo.push StrList.strs
  rw [List.length_map]
  split <;> simp

/-- A call offers the address to the queue. -/
theorem strs_blacklistAutoAdd :
    (blacklistAutoAdd bl ip).autoIps.strs =
      Fifo.offer 64 (takesAuto bl.ips) bl.autoIps.strs ip.str := by
  unfold blacklistAutoAdd Fifo.offer takesAuto
  split
  · next h =>
    rw [if_neg fun htakes => ?_]
    simp only [Bool.and_eq_true, decide_eq_true_eq] at htakes
    simp [htakes.1.1, htakes.1.2, htakes.2] at h
  · next h =>
    simp only [Bool.or_eq_true, Bool.not_eq_true', decide_eq_true_eq, not_or, Bool.not_eq_false] at h
    rw [if_pos ⟨by simp [h.1.1, h.1.2], h.2⟩]
    exact strs_pushAuto _

theorem ips_blacklistAutoAdd : (blacklistAutoAdd bl ip).ips = bl.ips := by
  unfold blacklistAutoAdd
  split <;> rfl

end

section
variable {users : StrList 64 64} {manual : StrList 64 48}

theorem takesAuto_sorted : takesAuto manual.sorted = takesAuto manual := by
  funext ip
  unfold takesAuto
  simp only [manual.mem_sorted]

/-- The calls leave the manual list. -/
theorem ips_run (calls : List (CBuf 48)) :
    (Runs.run blacklistAutoAdd (loadedBlacklist users manual) calls).ips = manual.sorted :=
  Runs.run_invariant (fun bl : Blacklist => bl.ips = manual.sorted)
    (fun _ _ h => ips_blacklistAutoAdd.trans h) rfl calls

/-- Over a run the runtime list is the queue of the addresses offered. -/
theorem strs_run (calls : List (CBuf 48)) :
    (Runs.run blacklistAutoAdd (loadedBlacklist users manual) calls).autoIps.strs =
      Runs.run (Fifo.offer 64 (takesAuto manual)) [] (calls.map CBuf.str) := by
  induction calls using List.reverseRecOn with
  | nil => rfl
  | append_singleton calls ip ih =>
    rw [Runs.run_append, Runs.run_cons, Runs.run_nil, strs_blacklistAutoAdd, ips_run, ih,
      takesAuto_sorted, List.map_append, Runs.run_append]
    rfl

/-- The queue keeps its bound, and holds no address twice and none of the manual list. -/
theorem wf_run (calls : List (CBuf 48)) :
    Fifo.Wf 64 (takesAuto manual)
      (Runs.run blacklistAutoAdd (loadedBlacklist users manual) calls).autoIps.strs := by
  rw [strs_run]
  exact Runs.run_invariant _ (fun _ _ h => h.offer (by decide)) Fifo.wf_nil _

/-- An address is on the blacklist right after it was offered. -/
theorem scorerIsBlacklisted_blacklistAutoAdd {p : Policy} {ip : CBuf 48} (hip : validClientIp ip.str = true)
    (hmanual : p.blacklist.ips = (blacklistAutoAdd p.blacklist ip).ips)
    (hsorted : HashSorted p.blacklist.ips.strs) :
    scorerIsBlacklisted { p with blacklist := blacklistAutoAdd p.blacklist ip } none ip.str = true := by
  have hne : ip.str ≠ [] := ne_nil_of_validClientIp hip
  unfold scorerIsBlacklisted
  rcases mem_blacklistAutoAdd p.blacklist ip hip with hmem | hmem
  · have hlookup : hashLookup ip.str (blacklistAutoAdd p.blacklist ip).ips.strs = true := by
      rw [hashLookup_iff (by rwa [← hmanual])]
      exact ⟨hne, hmem⟩
    simp [hlookup]
  · have hmatch : (blacklistAutoAdd p.blacklist ip).autoIps.strs.any (autoEntryMatches ip.str) = true :=
      List.any_eq_true.2 ⟨ip.str, hmem, by simp [autoEntryMatches, hne]⟩
    simp [hmatch]

/-- Over every sequence of calls the runtime list holds at most 64 addresses, no two equal and
none of the manual list; it is the bounded queue of the addresses offered; an address leaves
it only as the oldest of 64; and an address just offered is on the blacklist. -/
theorem auto_blacklist_fifo (p : Policy) (users : StrList 64 64) (manual : StrList 64 48)
    (calls : List (CBuf 48)) :
    let bl := Runs.run blacklistAutoAdd (loadedBlacklist users manual) calls
    bl.autoIps.strs.length ≤ 64 ∧ (∀ ip ∈ bl.autoIps.strs, validClientIp ip = true) ∧
      bl.autoIps.strs.Nodup ∧ (∀ ip ∈ bl.autoIps.strs, ip ∉ manual.strs) ∧
      bl.autoIps.strs = Runs.run (Fifo.offer 64 (takesAuto manual)) [] (calls.map CBuf.str) ∧
      (∀ ip old, old ∈ bl.autoIps.strs → old ∉ (blacklistAutoAdd bl ip).autoIps.strs →
        bl.autoIps.strs.length = 64 ∧ bl.autoIps.strs.head? = some old) ∧
      ∀ ip, validClientIp ip.str = true →
        scorerIsBlacklisted { p with blacklist := blacklistAutoAdd bl ip } none ip.str = true := by
  intro bl
  have hwf : Fifo.Wf 64 (takesAuto manual) bl.autoIps.strs := wf_run calls
  have htakes : ∀ ip ∈ bl.autoIps.strs, validClientIp ip = true ∧ ip ∉ manual.strs := by
    intro ip hip
    simpa [takesAuto] using hwf.accepted ip hip
  refine ⟨hwf.length_le, fun ip hip => (htakes ip hip).1, hwf.nodup, fun ip hip => (htakes ip hip).2,
    strs_run calls, fun ip old hold hleft => ?_, fun ip hip => ?_⟩
  · rw [strs_blacklistAutoAdd] at hleft
    obtain ⟨hfull, hhead⟩ := Fifo.left_of_offer hold hleft
    exact ⟨Nat.le_antisymm hwf.length_le hfull, hhead⟩
  · refine scorerIsBlacklisted_blacklistAutoAdd (p := { p with blacklist := bl }) hip
      ips_blacklistAutoAdd.symm ?_
    show HashSorted bl.ips.strs
    rw [ips_run]
    exact manual.hashSorted_sorted

end

/-- An address that is offered twice is on the blacklist. -/
theorem auto_blacklist_fifo_sample :
    scorerIsBlacklisted { Policy.default with
      blacklist := blacklistAutoAdd (Runs.run blacklistAutoAdd
        (loadedBlacklist (.nil 64 64) (.nil 64 48)) [.ofStr 48 (lit "10.0.0.5")])
        (.ofStr 48 (lit "10.0.0.5")) } none (CBuf.ofStr 48 (lit "10.0.0.5")).str = true :=
  (auto_blacklist_fifo Policy.default (.nil 64 64) (.nil 64 48) [.ofStr 48 (lit "10.0.0.5")]).2.2.2.2.2.2
    (.ofStr 48 (lit "10.0.0.5")) (by decide)

end GfrGuard
