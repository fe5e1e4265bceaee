import GfrGuard.Inet
import GfrGuard.ProcStat

/-!
# The peer in `/proc/net/tcp`

`ftp_tcp_find_remote` goes over the lines of the kernel's table of connections, takes the remote
address and the socket inode of each with `sscanf`, and prints the address of the first line
whose inode is one of its own (`findRemote_table`). The text of an address is what `inet_ntop` makes
of it, so a peer in the table of IPv4 is a dotted quad, and the same peer in the table of IPv6,
where its address is mapped, has `::ffff:` before it (`inetNtop6_mapped`). A peer is known by one
name exactly where the line is not of a mapped address (`find_remote_iff`).
-/

namespace GfrGuard

/-! ## Addresses -/

/-- Four bytes as they are on the wire. -/
structure Quad where
  a : UInt8
  b : UInt8
  c : UInt8
  d : UInt8
deriving DecidableEq

/-- The bytes of a word from the low one up. -/
def Quad.ofWord (n : Nat) : Quad :=
  ⟨(n &&& 255).toUInt8, ((n >>> 8) &&& 255).toUInt8, ((n >>> 16) &&& 255).toUInt8,
    ((n >>> 24) &&& 255).toUInt8⟩

/-- The bytes as a little-endian host reads them. -/
def Quad.word (q : Quad) : Nat :=
  q.a.toNat + 256 * (q.b.toNat + 256 * (q.c.toNat + 256 * q.d.toNat))

/-- `%u.%u.%u.%u`. -/
def Quad.dotted (q : Quad) : CStr :=
  dec q.a.toNat ++ dot :: (dec q.b.toNat ++ dot :: (dec q.c.toNat ++ dot :: dec q.d.toNat))

/-- The two numbers of 16 bits in four bytes. -/
def Quad.halves (q : Quad) : List Nat := [q.a.toNat * 256 + q.b.toNat, q.c.toNat * 256 + q.d.toNat]

/-- A run of zeros, by its start and length, takes the place of a shorter one. -/
def longerRun (best cur : Nat × Nat) : Nat × Nat := if best.2 < cur.2 then cur else best

/-- The first of the longest runs of zeros, as `inet_ntop` looks for it. -/
def ntopRuns : List Nat → (i : Nat) → (cur best : Nat × Nat) → Nat × Nat
  | [], _, cur, best => longerRun best cur
  | w :: ws, i, cur, best =>
    if w = 0 then ntopRuns ws (i + 1) (if cur.2 = 0 then (i, 1) else (cur.1, cur.2 + 1)) best
    else ntopRuns ws (i + 1) (0, 0) (longerRun best cur)

/-- `%x`. -/
def hexLower (n : Nat) : CStr := (Nat.toDigits 16 n).map fun c => c.toNat.toUInt8

/-- What `inet_ntop` prints from the number at `i` on, around a run of zeros; `tail` is the dotted
quad of the last two when the address ends in one. -/
def ntopFrom (base len : Nat) (tail : Option CStr) : (i : Nat) → List Nat → CStr
  | _, [] => if len ≠ 0 ∧ base + len = 8 then [colon] else []
  | i, w :: ws =>
    if len ≠ 0 ∧ base ≤ i ∧ i < base + len then
      (if i = base then [colon] else []) ++ ntopFrom base len tail (i + 1) ws
    else
      (if i = 0 then [] else [colon]) ++
        match (if i = 6 then tail else none) with
        | some quad => quad
        | none => hexLower w ++ ntopFrom base len tail (i + 1) ws

/-- `inet_ntop(AF_INET6)`: the longest run of at least two zeros is left out, and an address that
is compatible with IPv4 or mapped from it ends in a dotted quad. -/
def inetNtop6 (q₀ q₁ q₂ q₃ : Quad) : CStr :=
  let ws := q₀.halves ++ q₁.halves ++ q₂.halves ++ q₃.halves
  let run := ntopRuns ws 0 (0, 0) (0, 0)
  let len := if run.2 < 2 then 0 else run.2
  let tail :=
    if run.1 = 0 ∧ (len = 6 ∨ len = 5 ∧ q₂.halves.getLast? = some 65535) then some q₃.dotted else none
  ntopFrom run.1 len tail 0 ws

example : inetNtop6 ⟨254, 128, 0, 0⟩ ⟨0, 0, 0, 0⟩ ⟨0, 0, 0, 0⟩ ⟨0, 0, 0, 1⟩ = lit "fe80::1" := by decide

/-! ## `sscanf` -/

/-- `%*d`: what comes after the number. -/
def scanInt (s : CStr) : Option CStr :=
  let t := s.dropWhile isSpace
  let t := if t.head? = some 45 ∨ t.head? = some 43 then t.tail else t
  if t.head?.any isDigit then some (t.dropWhile isDigit) else none

/-- A byte of the format that is no blank. -/
def scanByte (c : UInt8) (s : CStr) : Option CStr := if s.head? = some c then some s.tail else none

/-- `%79s` and the like: the word, of a width at most, and what comes after it. -/
def scanWord (width : Nat) (s : CStr) : Option (CStr × CStr) :=
  let t := s.dropWhile isSpace
  let word := (t.take width).takeWhile (!isSpace ·)
  if word = [] then none else some (word, t.drop word.length)

/-- `%*s`, a number of times. -/
def skipWords : Nat → CStr → Option CStr
  | 0, s => some s
  | n + 1, s => (scanWord s.length s).bind fun w => skipWords n w.2

/-- `%lu`. -/
def scanUlong (s : CStr) : Option Nat :=
  let t := s.dropWhile isSpace
  let t := if t.head? = some 45 ∨ t.head? = some 43 then t.tail else t
  if t.head?.any isDigit then some (strtoull s) else none

/-- The digits of `%x`, which may have `0x` before them. -/
def scanHexDigits (t : CStr) : Option Nat :=
  let t :=
    if t.head? = some 48 && t.tail.head?.any (fun x => toLower x = 120) && t.tail.tail.head?.any isXDigit then
      t.tail.tail
    else t
  if t.head?.any isXDigit then some ((strtoulBase 16 0 t).1 % 2 ^ 32) else none

/-- `%x` of a width at most. -/
def scanHex (width : Nat) (s : CStr) : Option Nat :=
  let t := (s.dropWhile isSpace).take width
  if t.head? = some 45 then (scanHexDigits t.tail).map fun n => (2 ^ 32 - n) % 2 ^ 32
  else if t.head? = some 43 then scanHexDigits t.tail
  else scanHexDigits t

/-! ## The parser -/

/-- `%*d: %*s %79s %*s %*s %*s %*s %*s %*s %lu`: the remote address and the inode of a line. -/
def scanTcpLine (line : CStr) : Option (CStr × Nat) :=
  (scanInt line).bind fun s =>
    (scanByte colon s).bind fun s =>
      (skipWords 1 s).bind fun s =>
        (scanWord 79 s).bind fun (rem, s) =>
          (skipWords 6 s).bind fun s => (scanUlong s).map fun ino => (rem, ino)

/-- The size of the buffer for an address. -/
def ipLen : Nat := 48

/-- The text of a remote address in a line; nothing where the function returns -1. -/
def formatRemote (rem : CStr) : Option CStr :=
  match strchr rem colon with
  | none => none
  | some c =>
    let hlen := rem.length - c.length
    if hlen = 8 then
      (scanHex rem.length rem).map fun a => snprintf ipLen (Quad.ofWord a).dotted
    else if hlen = 32 then
      (scanHex 8 rem).bind fun w₀ =>
        (scanHex 8 (rem.drop 8)).bind fun w₁ =>
          (scanHex 8 (rem.drop 16)).bind fun w₂ =>
            (scanHex 8 (rem.drop 24)).bind fun w₃ =>
              let text := inetNtop6 (.ofWord w₀) (.ofWord w₁) (.ofWord w₂) (.ofWord w₃)
              if text.length < ipLen then some text else none
    else none

/-- What the function returns for a line, when it returns there. -/
def matchTcpLine (inodes : List Nat) (line : CStr) : Option (Option CStr) :=
  match scanTcpLine line with
  | none => none
  | some (rem, ino) => if 0 < ino ∧ ino ∈ inodes then some (formatRemote rem) else none

theorem length_tail_strchr {p e : CStr} {c : UInt8} (h : strchr p c = some e) : e.tail.length < p.length := by
  obtain ⟨before, rfl, ⟨after, rfl⟩, -⟩ := ListSearch.firstAt_eq_some_iff.1 h
  simp only [List.singleton_append, List.tail_cons, List.length_append, List.length_cons]
  omega

/-- The loop over the lines, from `lp` on; of a line 383 bytes are looked at. -/
def findRemoteFrom (inodes : List Nat) (lp : CStr) : Option CStr :=
  if lp = [] then none
  else
    let llen := match strchr lp newline with
      | some eol => lp.length - eol.length
      | none => lp.length
    match matchTcpLine inodes (snprintf 384 (lp.take llen)) with
    | some result => result
    | none =>
      match _ : strchr lp newline with
      | none => none
      | some eol => findRemoteFrom inodes eol.tail
termination_by lp.length
decreasing_by exact length_tail_strchr (by assumption)

/-- `ftp_tcp_find_remote`: the address, or nothing where it returns -1. -/
def ftpTcpFindRemote (text : CStr) (inodes : List Nat) : Option CStr :=
  match strchr text newline with
  | none => none
  | some lp => findRemoteFrom inodes lp.tail

/-! ## The kernel's table -/

/-- A digit of `%X`. -/
def hexDigit (n : Nat) : UInt8 := (if n < 10 then 48 + n else 55 + n).toUInt8

/-- `%0wX` of a number that has no more digits. -/
def hexPad (w n : Nat) : CStr := ((List.range w).reverse.map fun i => n / 16 ^ i % 16).map hexDigit

/-- The peer of a connection. -/
inductive PeerAddr where
  | v4 (q : Quad)
  | v6 (q₀ q₁ q₂ q₃ : Quad)
deriving DecidableEq

namespace PeerAddr

/-- The address as the kernel prints it. -/
def hex : PeerAddr → CStr
  | v4 q => hexPad 8 q.word
  | v6 q₀ q₁ q₂ q₃ => hexPad 8 q₀.word ++ hexPad 8 q₁.word ++ hexPad 8 q₂.word ++ hexPad 8 q₃.word

/-- The address as `inet_ntop` prints it. -/
def ntop : PeerAddr → CStr
  | v4 q => q.dotted
  | v6 q₀ q₁ q₂ q₃ => inetNtop6 q₀ q₁ q₂ q₃

/-- The IPv4 address a peer has, in the one table or the other. -/
def quad? : PeerAddr → Option Quad
  | v4 q => some q
  | v6 q₀ q₁ q₂ q₃ => if q₀ = ⟨0, 0, 0, 0⟩ ∧ q₁ = ⟨0, 0, 0, 0⟩ ∧ q₂ = ⟨0, 0, 255, 255⟩ then some q₃ else none

/-- An IPv4 address in the table of IPv6. -/
def mapped (p : PeerAddr) : Prop := (∃ q₀ q₁ q₂ q₃, p = v6 q₀ q₁ q₂ q₃) ∧ p.quad?.isSome

/-- The one name of a peer: its dotted quad wherever it is an IPv4 one. -/
def identity (p : PeerAddr) : CStr :=
  match p.quad? with
  | some q => q.dotted
  | none => p.ntop

end PeerAddr

/-- A word of a line. -/
def IsWord (s : CStr) : Prop := s ≠ [] ∧ ∀ b ∈ s, isSpace b = false

instance (s : CStr) : Decidable (IsWord s) := inferInstanceAs (Decidable (_ ∧ _))

/-- A word, after a blank and some more. -/
def padded (f : Nat × CStr) : CStr := List.replicate (f.1 + 1) blank ++ f.2

/-- The text of a line of the table. -/
def tcpLineText (indent sl : Nat) (localAddr : Nat × CStr) (pad : Nat) (remote : PeerAddr) (port : UInt16)
    (fields : List (Nat × CStr)) (inode : Nat × Nat) (rest : CStr) : CStr :=
  List.replicate indent blank ++ dec sl ++ colon :: (padded localAddr ++
    (padded (pad, remote.hex ++ colon :: hexPad 4 port.toNat) ++
      (fields.flatMap padded ++ (padded (inode.1, dec inode.2) ++ rest))))

/-- A line of the table: between the remote address and the inode are the state, the queues, the
timer, the retransmissions, the owner and the timeout. -/
structure TcpLine where
  indent : Nat
  sl : Nat
  localAddr : Nat × CStr
  local_word : IsWord localAddr.2
  pad : Nat
  remote : PeerAddr
  port : UInt16
  fields : List (Nat × CStr)
  fields_length : fields.length = 6
  fields_word : ∀ f ∈ fields, IsWord f.2
  inode : Nat × Nat
  inode_lt : inode.2 < 2 ^ 64
  rest : CStr
  rest_end : ∀ b ∈ rest.head?, isDigit b = false
  rest_line : newline ∉ rest
  fits : (tcpLineText indent sl localAddr pad remote port fields inode rest).length < 384

/-- The text of the line. -/
def TcpLine.text (l : TcpLine) : CStr :=
  tcpLineText l.indent l.sl l.localAddr l.pad l.remote l.port l.fields l.inode l.rest

/-- The text of the table: the header, then the lines. -/
def tableText (header : CStr) (lines : List TcpLine) : CStr :=
  header ++ newline :: (lines.flatMap fun l => l.text ++ [newline])

/-- The first line of one of the sockets. -/
def firstOf (lines : List TcpLine) (inodes : List Nat) : Option TcpLine :=
  lines.find? fun l => decide (l.inode.2 ∈ inodes)

/-- What is found is the peer of the first line, under its one name. -/
def FindsPeer (found : Option CStr) (lines : List TcpLine) (inodes : List Nat) : Prop :=
  found = (firstOf lines inodes).map (·.remote.identity)

section
variable {n w k : Nat} {s r : CStr} {b c : UInt8}

/-! ## Numbers -/

theorem isXDigit_hexDigit (h : n < 16) : isXDigit (hexDigit n) = true ∧ digitOf 16 (hexDigit n) = some n ∧
    toLower (hexDigit n) ≠ 120 ∧ isSpace (hexDigit n) = false ∧ hexDigit n ≠ colon ∧ hexDigit n ≠ 45 ∧
      hexDigit n ≠ 43 := by
  revert h
  revert n
  decide

theorem hexPad_eight (n : Nat) : hexPad 8 n =
    [n / 16 ^ 7 % 16, n / 16 ^ 6 % 16, n / 16 ^ 5 % 16, n / 16 ^ 4 % 16, n / 16 ^ 3 % 16, n / 16 ^ 2 % 16,
      n / 16 ^ 1 % 16, n / 16 ^ 0 % 16].map hexDigit := rfl

theorem length_hexPad (w n : Nat) : (hexPad w n).length = w := by
  rw [hexPad, List.length_map, List.length_map, List.length_reverse, List.length_range]

theorem exists_of_mem_hexPad (h : b ∈ hexPad w n) : ∃ d < 16, b = hexDigit d := by
  obtain ⟨d, hd, rfl⟩ := List.mem_map.1 h
  obtain ⟨i, -, rfl⟩ := List.mem_map.1 hd
  exact ⟨_, Nat.mod_lt _ (by decide), rfl⟩

theorem isSpace_of_mem_hexPad (h : b ∈ hexPad w n) : isSpace b = false := by
  obtain ⟨d, hd, rfl⟩ := exists_of_mem_hexPad h
  exact (isXDigit_hexDigit hd).2.2.2.1

theorem colon_not_mem_hexPad : colon ∉ hexPad w n := by
  intro h
  obtain ⟨d, hd, heq⟩ := exists_of_mem_hexPad h
  exact (isXDigit_hexDigit hd).2.2.2.2.1 heq.symm

/-- Digits are read up to what is none. -/
theorem strtoulBase_hexDigits (ds : List Nat) (hds : ∀ d ∈ ds, d < 16) (hr : ∀ c ∈ r.head?, digitOf 16 c = none)
    (v : Nat) : strtoulBase 16 v (ds.map hexDigit ++ r) = (ds.foldl (fun v d => v * 16 + d) v, r) := by
  induction ds generalizing v with
  | nil =>
    cases r with
    | nil => rfl
    | cons c r =>
      rw [List.map_nil, List.nil_append, strtoulBase, hr c rfl]
      rfl
  | cons d ds ih =>
    rw [List.forall_mem_cons] at hds
    rw [List.map_cons, List.cons_append, strtoulBase, (isXDigit_hexDigit hds.1).2.1]
    exact ih hds.2 _

/-- The digits of a number make up its last places. -/
theorem foldl_hexPad (w n v : Nat) :
    ((List.range w).reverse.map fun i => n / 16 ^ i % 16).foldl (fun v d => v * 16 + d) v =
      v * 16 ^ w + n % 16 ^ w := by
  induction w generalizing v with
  | zero => simp [Nat.mod_one]
  | succ w ih =>
    rw [List.range_succ, List.reverse_append, List.reverse_singleton, List.singleton_append, List.map_cons,
      List.foldl_cons, ih, Nat.mod_pow_succ, pow_succ]
    rw [Nat.add_mul, Nat.mul_assoc, Nat.mul_comm 16, Nat.mul_comm (_ % 16), Nat.add_assoc,
      Nat.add_comm (n % _)]

/-- Eight digits are the number. -/
theorem scanHexDigits_hexPad (hn : n < 2 ^ 32) (hr : ∀ c ∈ r.head?, digitOf 16 c = none) :
    scanHexDigits (hexPad 8 n ++ r) = some n := by
  have hdigit : ∀ k, n / 16 ^ k % 16 < 16 := fun k => Nat.mod_lt _ (by decide)
  have hx : toLower (hexDigit (n / 16 ^ 6 % 16)) ≠ 120 := (isXDigit_hexDigit (hdigit 6)).2.2.1
  have hvalue : (strtoulBase 16 0 (hexPad 8 n ++ r)).1 = n := by
    have hdigits : ∀ d ∈ (List.range 8).reverse.map fun i => n / 16 ^ i % 16, d < 16 := by
      intro d hd
      obtain ⟨i, -, rfl⟩ := List.mem_map.1 hd
      exact hdigit i
    rw [hexPad, strtoulBase_hexDigits _ hdigits hr, foldl_hexPad, Nat.zero_mul, Nat.zero_add,
      Nat.mod_eq_of_lt]
    exact hn
  have hplain : ((hexPad 8 n ++ r).head? = some 48 &&
      (hexPad 8 n ++ r).tail.head?.any (fun x => toLower x = 120) &&
      (hexPad 8 n ++ r).tail.tail.head?.any isXDigit) = false := by
    have hsecond : (hexPad 8 n ++ r).tail.head?.any (fun x => toLower x = 120) = false := decide_eq_false hx
    rw [hsecond, Bool.and_false, Bool.false_and]
  have hfirst : (hexPad 8 n ++ r).head?.any isXDigit = true := (isXDigit_hexDigit (hdigit 7)).1
  unfold scanHexDigits
  rw [hplain]
  dsimp only
  rw [if_neg Bool.false_ne_true, if_pos hfirst, hvalue, Nat.mod_eq_of_lt hn]

theorem scanHex_hexPad {width : Nat} (hn : n < 2 ^ 32) {t : CStr} (ht : (hexPad 8 n ++ r).take width = hexPad 8 n ++ t)
    (hr : ∀ c ∈ t.head?, digitOf 16 c = none) : scanHex width (hexPad 8 n ++ r) = some n := by
  have hdigit := isXDigit_hexDigit (n := n / 16 ^ 7 % 16) (Nat.mod_lt _ (by decide))
  have hdrop : (hexPad 8 n ++ r).dropWhile isSpace = hexPad 8 n ++ r := by
    rw [hexPad_eight, List.map_cons, List.cons_append, List.dropWhile_cons, hdigit.2.2.2.1]
    rfl
  have hhead : (hexPad 8 n ++ t).head? = some (hexDigit (n / 16 ^ 7 % 16)) := rfl
  unfold scanHex
  rw [hdrop, ht]
  dsimp only
  rw [hhead, if_neg fun h => hdigit.2.2.2.2.2.1 (Option.some.inj h),
    if_neg fun h => hdigit.2.2.2.2.2.2 (Option.some.inj h), scanHexDigits_hexPad hn hr]

theorem Quad.word_lt (q : Quad) : q.word < 2 ^ 32 := by
  have ha := q.a.toNat_lt
  have hb := q.b.toNat_lt
  have hc := q.c.toNat_lt
  have hd := q.d.toNat_lt
  unfold Quad.word
  omega

theorem Quad.ofWord_word (q : Quad) : Quad.ofWord q.word = q := by
  have hbyte : ∀ (n k : Nat) (b : UInt8), n / 2 ^ k % 2 ^ 8 = b.toNat → ((n >>> k) &&& 255).toUInt8 = b := by
    intro n k b h
    rw [← UInt8.toNat_inj, Nat.toUInt8_eq, UInt8.toNat_ofNat', show 255 = 2 ^ 8 - 1 from rfl,
      Nat.and_two_pow_sub_one_eq_mod, Nat.shiftRight_eq_div_pow, Nat.mod_mod, h]
  have ha := q.a.toNat_lt
  have hb := q.b.toNat_lt
  have hc := q.c.toNat_lt
  have hd := q.d.toNat_lt
  have hword : q.word = q.a.toNat + 256 * (q.b.toNat + 256 * (q.c.toNat + 256 * q.d.toNat)) := rfl
  have h₀ := hbyte q.word 0 q.a (by omega)
  have h₁ := hbyte q.word 8 q.b (by omega)
  have h₂ := hbyte q.word 16 q.c (by omega)
  have h₃ := hbyte q.word 24 q.d (by omega)
  rw [Nat.shiftRight_zero] at h₀
  unfold Quad.ofWord
  rw [h₀, h₁, h₂, h₃]

/-! ## Scanning -/

theorem dropWhile_padded {f : Nat × CStr} (hword : IsWord f.2) (r : CStr) :
    (padded f ++ r).dropWhile isSpace = f.2 ++ r := by
  obtain ⟨b, word, hcons⟩ := List.exists_cons_of_ne_nil hword.1
  have hb : isSpace b = false := hword.2 b (by rw [hcons]; exact List.mem_cons_self)
  unfold padded
  rw [List.append_assoc, List.dropWhile_append_of_pos (by
    intro c hc
    rw [List.eq_of_mem_replicate hc]
    rfl), hcons, List.cons_append, List.dropWhile_cons, hb]
  rfl

/-- A word that fits the width is read whole. -/
theorem scanWord_padded {width : Nat} {f : Nat × CStr} (hword : IsWord f.2) (hfits : f.2.length < width)
    (hr : ∀ c ∈ r.head?, isSpace c = true) : scanWord width (padded f ++ r) = some (f.2, r) := by
  have htake : ((f.2 ++ r).take width).takeWhile (!isSpace ·) = f.2 := by
    rw [List.take_append, List.take_of_length_le hfits.le, List.takeWhile_append_of_pos (by
      intro c hc
      rw [hword.2 c hc]
      rfl)]
    obtain ⟨room, hroom⟩ : ∃ room, width - f.2.length = room + 1 := ⟨width - f.2.length - 1, by omega⟩
    rw [hroom]
    cases r with
    | nil => simp
    | cons c r => simp [hr c rfl]
  unfold scanWord
  rw [dropWhile_padded hword]
  dsimp only
  rw [htake, if_neg hword.1, List.drop_left]

theorem head?_padded (f : Nat × CStr) (r : CStr) : ∀ c ∈ (padded f ++ r).head?, isSpace c = true := by
  rintro c ⟨⟩
  rfl

theorem skipWords_padded (fs : List (Nat × CStr)) (hword : ∀ f ∈ fs, IsWord f.2)
    (hr : ∀ c ∈ r.head?, isSpace c = true) : skipWords fs.length (fs.flatMap padded ++ r) = some r := by
  induction fs with
  | nil => rfl
  | cons f fs ih =>
    rw [List.forall_mem_cons] at hword
    have hnext : ∀ c ∈ (fs.flatMap padded ++ r).head?, isSpace c = true := by
      cases fs with
      | nil => exact hr
      | cons g fs =>
        rw [List.flatMap_cons, List.append_assoc]
        exact head?_padded g _
    have hlen : f.2.length < (padded f ++ (fs.flatMap padded ++ r)).length := by
      unfold padded
      simp only [List.length_append, List.length_replicate]
      omega
    rw [List.length_cons, skipWords, List.flatMap_cons, List.append_assoc, scanWord_padded hword.1 hlen hnext,
      Option.bind_some, ih hword.2]

theorem head?_dec (n : Nat) (r : CStr) : (dec n ++ r).head?.any isDigit = true := by
  obtain ⟨d, ds, hd⟩ := List.exists_cons_of_ne_nil (dec_ne_nil n)
  rw [hd, List.cons_append, List.head?_cons, Option.any_some]
  exact isDigit_of_mem_dec (n := n) (by rw [hd]; exact List.mem_cons_self)

theorem not_signed_dec (n : Nat) (r : CStr) :
    ¬ ((dec n ++ r).head? = some 45 ∨ (dec n ++ r).head? = some 43) := by
  have hdigit := head?_dec n r
  rintro (h | h)
  · rw [h] at hdigit
    cases hdigit
  · rw [h] at hdigit
    cases hdigit

theorem dropWhile_dec (n : Nat) (r : CStr) : (dec n ++ r).dropWhile isSpace = dec n ++ r := by
  obtain ⟨d, ds, hd⟩ := List.exists_cons_of_ne_nil (dec_ne_nil n)
  have hdigit : isDigit d = true := isDigit_of_mem_dec (n := n) (by rw [hd]; exact List.mem_cons_self)
  rw [hd, List.cons_append, List.dropWhile_cons, isSpace_of_isDigit hdigit]
  rfl

theorem scanUlong_padded (hn : n < 2 ^ 64) (hr : ∀ b ∈ r.head?, isDigit b = false) (k : Nat) :
    scanUlong (padded (k, dec n) ++ r) = some n := by
  have hword : IsWord (dec n) :=
    ⟨dec_ne_nil n, fun b hb => isSpace_of_isDigit (isDigit_of_mem_dec hb)⟩
  have hvalue : strtoull (padded (k, dec n) ++ r) = n := by
    have hskip := strtoull_dec hn hr
    unfold strtoull at hskip ⊢
    rw [dropWhile_padded (f := (k, dec n)) hword]
    rwa [dropWhile_dec] at hskip
  unfold scanUlong
  rw [dropWhile_padded (f := (k, dec n)) hword]
  dsimp only
  rw [if_neg (not_signed_dec n r), if_pos (head?_dec n r), hvalue]

theorem scanInt_dec (indent sl : Nat) (r : CStr) :
    scanInt (List.replicate indent blank ++ dec sl ++ colon :: r) = some (colon :: r) := by
  have hdrop : (List.replicate indent blank ++ dec sl ++ colon :: r).dropWhile isSpace = dec sl ++ colon :: r := by
    rw [List.append_assoc, List.dropWhile_append_of_pos (by
      intro c hc
      rw [List.eq_of_mem_replicate hc]
      rfl), dropWhile_dec]
  unfold scanInt
  rw [hdrop]
  dsimp only
  rw [if_neg (not_signed_dec sl _), if_pos (head?_dec sl _),
    List.dropWhile_append_of_pos fun b hb => isDigit_of_mem_dec hb]
  rfl

/-! ## Lines -/

theorem PeerAddr.mem_hex {p : PeerAddr} (h : b ∈ p.hex) : isSpace b = false ∧ b ≠ colon := by
  have hpad : ∀ {n : Nat}, b ∈ hexPad 8 n → isSpace b = false ∧ b ≠ colon := fun hb =>
    ⟨isSpace_of_mem_hexPad hb, fun heq => colon_not_mem_hexPad (heq ▸ hb)⟩
  cases p with
  | v4 q => exact hpad h
  | v6 q₀ q₁ q₂ q₃ =>
    simp only [PeerAddr.hex, List.mem_append] at h
    rcases h with ((h | h) | h) | h
    all_goals exact hpad h

theorem PeerAddr.length_hex (p : PeerAddr) : p.hex.length = 8 ∨ p.hex.length = 32 := by
  cases p with
  | v4 q => exact .inl (length_hexPad 8 q.word)
  | v6 q₀ q₁ q₂ q₃ =>
    right
    simp only [PeerAddr.hex, List.length_append, length_hexPad]

/-- The remote address and the inode are read from a line. -/
theorem scanTcpLine_text (l : TcpLine) :
    scanTcpLine l.text = some (l.remote.hex ++ colon :: hexPad 4 l.port.toNat, l.inode.2) := by
  have hremote : IsWord (l.remote.hex ++ colon :: hexPad 4 l.port.toNat) := by
    refine ⟨by simp, fun b hb => ?_⟩
    rcases List.mem_append.1 hb with hb | hb
    · exact (PeerAddr.mem_hex hb).1
    · rcases List.mem_cons.1 hb with rfl | hb
      · rfl
      · exact isSpace_of_mem_hexPad hb
  have hshort : (l.remote.hex ++ colon :: hexPad 4 l.port.toNat).length < 79 := by
    rw [List.length_append, List.length_cons, length_hexPad]
    rcases l.remote.length_hex with h | h
    all_goals omega
  have hskip := skipWords_padded [l.localAddr] (by simpa using l.local_word)
    (head?_padded (l.pad, l.remote.hex ++ colon :: hexPad 4 l.port.toNat)
      (l.fields.flatMap padded ++ (padded (l.inode.1, dec l.inode.2) ++ l.rest)))
  rw [List.flatMap_singleton] at hskip
  have hnext : ∀ c ∈ (l.fields.flatMap padded ++ (padded (l.inode.1, dec l.inode.2) ++ l.rest)).head?,
      isSpace c = true := by
    cases l.fields with
    | nil => exact head?_padded _ _
    | cons f fs =>
      rw [List.flatMap_cons, List.append_assoc]
      exact head?_padded f _
  have hfields := skipWords_padded l.fields l.fields_word (head?_padded (l.inode.1, dec l.inode.2) l.rest)
  rw [l.fields_length] at hfields
  unfold scanTcpLine TcpLine.text tcpLineText
  rw [scanInt_dec, Option.bind_some, scanByte, List.head?_cons, if_pos rfl, List.tail_cons, Option.bind_some,
    show (1 : Nat) = [l.localAddr].length from rfl, hskip, Option.bind_some,
    scanWord_padded (f := (l.pad, _)) hremote hshort hnext, Option.bind_some]
  dsimp only
  rw [hfields, Option.bind_some, scanUlong_padded l.inode_lt l.rest_end, Option.map_some]

/-- A line is one line. -/
theorem TcpLine.newline_not_mem (l : TcpLine) : newline ∉ l.text := by
  have hblanks : ∀ k, newline ∉ List.replicate k blank := fun k h => by
    cases List.eq_of_mem_replicate h
  have hpadded : ∀ {f : Nat × CStr}, IsWord f.2 → newline ∉ padded f := by
    intro f hf h
    rcases List.mem_append.1 h with h | h
    · exact hblanks _ h
    · cases hf.2 _ h
  have hdec : ∀ n, newline ∉ dec n := fun n => not_mem_dec rfl
  have hport : newline ∉ hexPad 4 l.port.toNat := fun h => by cases isSpace_of_mem_hexPad h
  have hhex : newline ∉ l.remote.hex := fun h => by cases (PeerAddr.mem_hex h).1
  have hfields : newline ∉ l.fields.flatMap padded := by
    intro h
    obtain ⟨f, hf, hmem⟩ := List.mem_flatMap.1 h
    exact hpadded (l.fields_word f hf) hmem
  unfold TcpLine.text tcpLineText
  simp only [List.mem_append, List.mem_cons, not_or]
  refine ⟨⟨hblanks _, hdec _⟩, by decide, hpadded l.local_word, ⟨?_, hfields, ⟨?_, l.rest_line⟩⟩⟩
  · unfold padded
    simp only [List.mem_append, List.mem_cons, not_or]
    exact ⟨hblanks _, hhex, by decide, hport⟩
  · unfold padded
    rw [List.mem_append, not_or]
    exact ⟨hblanks _, hdec _⟩

/-! ## The text of an address -/

theorem Quad.length_dotted_le (q : Quad) : q.dotted.length ≤ 15 := by
  have hbyte : ∀ b : UInt8, (dec b.toNat).length ≤ 3 := fun b =>
    (length_dec_le (by decide)).2 (b.toNat_lt.trans (by decide))
  have ha := hbyte q.a
  have hb := hbyte q.b
  have hc := hbyte q.c
  have hd := hbyte q.d
  simp only [Quad.dotted, List.length_append, List.length_cons]
  omega

theorem length_hexLower_le (h : n < 65536) : (hexLower n).length ≤ 4 := by
  rw [hexLower, List.length_map]
  exact (Nat.length_toDigits_le_iff (by decide) (by decide)).2 h

theorem length_ntopFrom (base len : Nat) {tail : Option CStr} (htail : ∀ t ∈ tail, t.length ≤ 15)
    (ws : List Nat) (i : Nat) (hi : i + ws.length = 8) (hws : ∀ w ∈ ws, w < 65536) :
    (ntopFrom base len tail i ws).length + 5 * i ≤ 46 := by
  induction ws generalizing i with
  | nil =>
    rw [List.length_nil] at hi
    unfold ntopFrom
    split
    · rw [List.length_singleton]
      omega
    · rw [List.length_nil]
      omega
  | cons w ws ih =>
    rw [List.forall_mem_cons] at hws
    rw [List.length_cons] at hi
    have hnext := ih (i + 1) (by omega) hws.2
    have hword := length_hexLower_le hws.1
    have hcolon : (if i = 0 then [] else [colon]).length ≤ 1 := by
      split
      · exact Nat.zero_le 1
      · exact Nat.le_refl 1
    have hstart : (if i = base then [colon] else []).length ≤ 1 := by
      split
      · exact Nat.le_refl 1
      · exact Nat.zero_le 1
    unfold ntopFrom
    split
    · rw [List.length_append]
      omega
    · rw [List.length_append]
      by_cases hsix : i = 6
      · rw [if_pos hsix]
        cases tail with
        | none =>
          dsimp only
          rw [List.length_append]
          omega
        | some quad =>
          have hshort := htail quad rfl
          dsimp only
          omega
      · rw [if_neg hsix]
        dsimp only
        rw [List.length_append]
        omega

theorem length_inetNtop6 (q₀ q₁ q₂ q₃ : Quad) : (inetNtop6 q₀ q₁ q₂ q₃).length < ipLen := by
  have hhalves : ∀ q : Quad, ∀ w ∈ q.halves, w < 65536 := by
    intro q w hw
    have ha := q.a.toNat_lt
    have hb := q.b.toNat_lt
    have hc := q.c.toNat_lt
    have hd := q.d.toNat_lt
    simp only [Quad.halves, List.mem_cons, List.not_mem_nil, or_false] at hw
    rcases hw with rfl | rfl
    · omega
    · omega
  have hwords : ∀ w ∈ q₀.halves ++ q₁.halves ++ q₂.halves ++ q₃.halves, w < 65536 := by
    intro w hw
    simp only [List.mem_append] at hw
    rcases hw with ((hw | hw) | hw) | hw
    all_goals exact hhalves _ w hw
  have hall : ∀ base len (tail : Option CStr), (∀ t ∈ tail, t.length ≤ 15) →
      (ntopFrom base len tail 0 (q₀.halves ++ q₁.halves ++ q₂.halves ++ q₃.halves)).length < ipLen := by
    intro base len tail htail
    have hlen := length_ntopFrom base len htail _ 0 rfl hwords
    rw [ipLen]
    omega
  unfold inetNtop6
  refine hall _ _ _ fun t ht => ?_
  obtain ⟨-, hquad⟩ := Option.mem_ite_none_right.1 ht
  cases hquad
  exact q₃.length_dotted_le

theorem formatRemote_hex (p : PeerAddr) (port : CStr) : formatRemote (p.hex ++ colon :: port) = some p.ntop := by
  have hcolon : ∀ c ∈ (colon :: port).head?, digitOf 16 c = none := by
    rintro c ⟨⟩
    rfl
  have hsplit : strchr (p.hex ++ colon :: port) colon = some (colon :: port) :=
    strchr_append (fun h => (PeerAddr.mem_hex h).2 rfl) port
  have hlen : (p.hex ++ colon :: port).length - (colon :: port).length = p.hex.length := by
    rw [List.length_append, Nat.add_sub_cancel]
  unfold formatRemote
  rw [hsplit]
  dsimp only
  rw [hlen]
  cases p with
  | v4 q =>
    have hshort : q.dotted.length < ipLen := Nat.lt_of_le_of_lt q.length_dotted_le (by decide)
    rw [PeerAddr.hex, length_hexPad, if_pos rfl, scanHex_hexPad q.word_lt List.take_length hcolon,
      Option.map_some, Quad.ofWord_word, snprintf_of_lt hshort, PeerAddr.ntop]
  | v6 q₀ q₁ q₂ q₃ =>
    have hwindow : ∀ (q : Quad) (r : CStr), scanHex 8 (hexPad 8 q.word ++ r) = some q.word := fun q r =>
      scanHex_hexPad (t := []) q.word_lt (by rw [List.take_left' (length_hexPad 8 _), List.append_nil])
        fun c hc => by cases hc
    have hdrop : ∀ (q : Quad) (r : CStr), (hexPad 8 q.word ++ r).drop 8 = r := fun q r =>
      List.drop_left' (length_hexPad 8 _)
    have hthirtytwo : (PeerAddr.hex (.v6 q₀ q₁ q₂ q₃)).length = 32 := by
      simp only [PeerAddr.hex, List.length_append, length_hexPad]
    rw [hthirtytwo, if_neg (by decide), if_pos rfl]
    simp only [PeerAddr.hex, List.append_assoc]
    rw [show 24 = 8 + 16 from rfl, ← List.drop_drop, show 16 = 8 + 8 from rfl, ← List.drop_drop, ← List.drop_drop]
    simp only [hdrop, hwindow, Option.bind_some, Quad.ofWord_word, PeerAddr.ntop]
    exact if_pos (length_inetNtop6 q₀ q₁ q₂ q₃)

/-- An address mapped from IPv4 is printed with its prefix. -/
theorem inetNtop6_mapped (q : Quad) :
    inetNtop6 ⟨0, 0, 0, 0⟩ ⟨0, 0, 0, 0⟩ ⟨0, 0, 255, 255⟩ q = lit "::ffff:" ++ q.dotted := by
  obtain ⟨hi, lo, hhalves⟩ : ∃ hi lo, q.halves = [hi, lo] := ⟨_, _, rfl⟩
  have hruns : ntopRuns ([0, 0, 0, 0, 0, 65535] ++ [hi, lo]) 0 (0, 0) (0, 0) = (0, 5) := by
    by_cases hhi : hi = 0
    · by_cases hlo : lo = 0
      · simp [ntopRuns, longerRun, hhi, hlo]
      · simp [ntopRuns, longerRun, hhi, hlo]
    · by_cases hlo : lo = 0
      · simp [ntopRuns, longerRun, hhi, hlo]
      · simp [ntopRuns, longerRun, hhi, hlo]
  have hws : Quad.halves ⟨0, 0, 0, 0⟩ ++ Quad.halves ⟨0, 0, 0, 0⟩ ++ Quad.halves ⟨0, 0, 255, 255⟩ ++ q.halves =
      [0, 0, 0, 0, 0, 65535] ++ [hi, lo] := by
    rw [hhalves]
    rfl
  have hffff : hexLower 65535 = lit "ffff" := by decide
  have hlast : (Quad.halves ⟨0, 0, 255, 255⟩).getLast? = some 65535 := rfl
  have hprefix : lit "::ffff:" = [colon] ++ ([colon] ++ (lit "ffff" ++ [colon])) := by decide
  unfold inetNtop6
  rw [hws, hlast, hprefix]
  dsimp only
  rw [hruns]
  simp [ntopFrom, hffff]

namespace PeerAddr

variable {p : PeerAddr}

/-- `inet_ntop` names a peer as it should unless the address is mapped. -/
theorem ntop_eq_identity_iff : p.ntop = p.identity ↔ ¬ p.mapped := by
  cases p with
  | v4 q => exact iff_of_true rfl fun ⟨⟨_, _, _, _, h⟩, _⟩ => by cases h
  | v6 q₀ q₁ q₂ q₃ =>
    by_cases hquad : q₀ = ⟨0, 0, 0, 0⟩ ∧ q₁ = ⟨0, 0, 0, 0⟩ ∧ q₂ = ⟨0, 0, 255, 255⟩
    · have hsome : quad? (v6 q₀ q₁ q₂ q₃) = some q₃ := if_pos hquad
      refine iff_of_false (fun h => ?_) fun h => h ⟨⟨q₀, q₁, q₂, q₃, rfl⟩, by rw [hsome]; rfl⟩
      obtain ⟨rfl, rfl, rfl⟩ := hquad
      unfold identity at h
      rw [hsome, ntop, inetNtop6_mapped] at h
      dsimp only at h
      have hlen := congrArg List.length h
      rw [List.length_append, show (lit "::ffff:").length = 7 from rfl] at hlen
      omega
    · have hnone : quad? (v6 q₀ q₁ q₂ q₃) = none := if_neg hquad
      refine iff_of_true ?_ fun h => ?_
      · unfold identity
        rw [hnone]
      · rw [mapped, hnone] at h
        cases h.2

end PeerAddr

end

section
variable {header : CStr} {lines : List TcpLine} {inodes : List Nat}

/-! ## The table -/

theorem matchTcpLine_text (h0 : 0 ∉ inodes) (l : TcpLine) :
    matchTcpLine inodes l.text = if l.inode.2 ∈ inodes then some (some l.remote.ntop) else none := by
  unfold matchTcpLine
  rw [scanTcpLine_text]
  dsimp only
  rw [formatRemote_hex]
  by_cases hmem : l.inode.2 ∈ inodes
  · have hpos : 0 < l.inode.2 := Nat.pos_of_ne_zero fun h => h0 (h ▸ hmem)
    rw [if_pos ⟨hpos, hmem⟩, if_pos hmem]
  · rw [if_neg fun h => hmem h.2, if_neg hmem]

/-- The loop goes on after a line of another socket. -/
theorem findRemoteFrom_cons (h0 : 0 ∉ inodes) (l : TcpLine) (rest : CStr) :
    findRemoteFrom inodes (l.text ++ newline :: rest) =
      if l.inode.2 ∈ inodes then some l.remote.ntop else findRemoteFrom inodes rest := by
  have heol : strchr (l.text ++ newline :: rest) newline = some (newline :: rest) :=
    strchr_append l.newline_not_mem rest
  have hllen : (match strchr (l.text ++ newline :: rest) newline with
      | some eol => (l.text ++ newline :: rest).length - eol.length
      | none => (l.text ++ newline :: rest).length) = l.text.length := by
    rw [heol]
    dsimp only
    rw [List.length_append, Nat.add_sub_cancel]
  have hline : snprintf 384 ((l.text ++ newline :: rest).take l.text.length) = l.text := by
    rw [List.take_left' rfl]
    exact snprintf_of_lt l.fits
  rw [findRemoteFrom, if_neg (by simp)]
  dsimp only
  rw [hllen, hline, matchTcpLine_text h0]
  by_cases hmem : l.inode.2 ∈ inodes
  · rw [if_pos hmem, if_pos hmem]
  · rw [if_neg hmem, if_neg hmem]
    dsimp only
    split
    · next hnone => rw [heol] at hnone; cases hnone
    · next eol hsome =>
      rw [heol] at hsome
      cases hsome
      rfl

/-- What is found is the address of the first line of one of the sockets, as `inet_ntop` prints
it. -/
theorem findRemote_table (hheader : newline ∉ header) (h0 : 0 ∉ inodes) (lines : List TcpLine) :
    ftpTcpFindRemote (tableText header lines) inodes = (firstOf lines inodes).map (·.remote.ntop) := by
  have hloop : findRemoteFrom inodes (lines.flatMap fun l => l.text ++ [newline]) =
      (firstOf lines inodes).map (·.remote.ntop) := by
    induction lines with
    | nil => rw [List.flatMap_nil, findRemoteFrom, if_pos rfl]; rfl
    | cons l lines ih =>
      rw [List.flatMap_cons, List.append_assoc, List.singleton_append, findRemoteFrom_cons h0, ih]
      unfold firstOf
      rw [List.find?_cons]
      by_cases hmem : l.inode.2 ∈ inodes
      · rw [if_pos hmem, decide_eq_true hmem]
        rfl
      · rw [if_neg hmem, decide_eq_false hmem]
  unfold ftpTcpFindRemote tableText
  rw [strchr_append hheader]
  exact hloop

/-- In any table the peer of the first line of one of the sockets is found, or -1 is returned where
there is none, and the peer is known by its one name, exactly where that line is not of an address
mapped from IPv4. -/
theorem find_remote_iff (header : CStr) (lines : List TcpLine) (inodes : List Nat)
    (hheader : newline ∉ header) (h0 : 0 ∉ inodes) :
    FindsPeer (ftpTcpFindRemote (tableText header lines) inodes) lines inodes ↔
      ∀ l, firstOf lines inodes = some l → ¬ l.remote.mapped := by
  unfold FindsPeer
  rw [findRemote_table hheader h0]
  cases hfirst : firstOf lines inodes with
  | none => exact iff_of_true rfl fun l h => by cases h
  | some l =>
    rw [Option.map_some, Option.map_some, Option.some.injEq, PeerAddr.ntop_eq_identity_iff]
    exact ⟨fun h l' heq => by cases heq; exact h, fun h => h l rfl⟩

end

/-! ## One peer in two tables -/

/-- The line of a socket whose peer is 192.168.3.2. -/
def sampleTcpLine (remote : PeerAddr)
    (fits : (tcpLineText 3 1 (0, lit "000011AC:0015") 0 remote 36726 [(0, lit "01"), (0, lit "00000000:00000000"),
      (0, lit "00:00000000"), (0, lit "00000000"), (1, lit "1000"), (7, lit "0")] (0, 999)
      (lit " 1 0000000000000000 100 0 0 10 0")).length < 384) : TcpLine where
  indent := 3
  sl := 1
  localAddr := (0, lit "000011AC:0015")
  local_word := by decide +kernel
  pad := 0
  remote := remote
  port := 36726
  fields := [(0, lit "01"), (0, lit "00000000:00000000"), (0, lit "00:00000000"), (0, lit "00000000"),
    (1, lit "1000"), (7, lit "0")]
  fields_length := rfl
  fields_word := by decide +kernel
  inode := (0, 999)
  inode_lt := by decide
  rest := lit " 1 0000000000000000 100 0 0 10 0"
  rest_end := fun _ h => by cases h; decide
  rest_line := by decide
  fits := fits

/-- The peer in the table of IPv4. -/
def sampleV4Line : TcpLine := sampleTcpLine (.v4 ⟨192, 168, 3, 2⟩) (by decide +kernel)

/-- The peer in the table of IPv6. -/
def sampleMappedLine : TcpLine :=
  sampleTcpLine (.v6 ⟨0, 0, 0, 0⟩ ⟨0, 0, 0, 0⟩ ⟨0, 0, 255, 255⟩ ⟨192, 168, 3, 2⟩) (by decide +kernel)

/-- The first line of a table. -/
def sampleTcpHeader : CStr :=
  lit "  sl  local_address rem_address   st tx_queue rx_queue tr tm->when retrnsmt   uid  timeout inode"

/-- One peer, in the one table and in the other, is given two names. -/
theorem mapped_peer_two_names :
    ftpTcpFindRemote (tableText sampleTcpHeader [sampleV4Line]) [999] = some (lit "192.168.3.2") ∧
      ftpTcpFindRemote (tableText sampleTcpHeader [sampleMappedLine]) [999] = some (lit "::ffff:192.168.3.2") ∧
      ¬ FindsPeer (ftpTcpFindRemote (tableText sampleTcpHeader [sampleMappedLine]) [999]) [sampleMappedLine] [999] := by
  have hheader : newline ∉ sampleTcpHeader := by decide
  have h0 : 0 ∉ [999] := by decide
  have hv4 : firstOf [sampleV4Line] [999] = some sampleV4Line := rfl
  have hmapped : firstOf [sampleMappedLine] [999] = some sampleMappedLine := rfl
  unfold FindsPeer
  rw [findRemote_table hheader h0, findRemote_table hheader h0, hv4, hmapped, Option.map_some, Option.map_some,
    Option.map_some]
  decide

/-- A peer that is in the table of IPv4. -/
theorem find_remote_sample :
    FindsPeer (ftpTcpFindRemote (tableText sampleTcpHeader [sampleV4Line]) [999]) [sampleV4Line] [999] := by
  refine (find_remote_iff sampleTcpHeader [sampleV4Line] [999] (by decide) (by decide)).2 ?_
  rintro l hl ⟨⟨q₀, q₁, q₂, q₃, hv6⟩, -⟩
  have hv4 : firstOf [sampleV4Line] [999] = some sampleV4Line := rfl
  rw [hv4] at hl
  cases hl
  cases hv6

end GfrGuard
