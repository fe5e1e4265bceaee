import GfrGuard.CString

/-!
# FNV-1a and the hash-sorted lists

`fnv1a64` is the project's one hash. Exact-match lists of the policy are sorted by it when
the policy is loaded, with a parallel array of the hashes; `hashLookup` is the binary search
over that pair, which compares strings on a hash hit and walks the neighbours with the same
hash on a collision. The hash array is not stored here: it is the map of `fnv1a64` over the
strings, which is what the load leaves.
-/

namespace GfrGuard

/-- `rguard_fnv1a64`. -/
def fnv1a64 (buf : CStr) : UInt64 :=
  buf.foldl (fun h b => (h ^^^ b.toUInt64) * 1099511628211) 14695981039346656037

/-- The search loop over the `n` entries from `lo` on. The middle entry of `lo..hi` is
`lo + (hi - lo) / 2`, with `hi = lo + n - 1`. -/
def hashLookupFrom (key : CStr) (strings : List CStr) : (fuel lo n : Nat) → Bool
  | 0, _, _ => false
  | fuel + 1, lo, n =>
    if n = 0 then false
    else
      let mid := lo + (n - 1) / 2
      match strings[mid]? with
      | none => false
      | some s =>
        if fnv1a64 s < fnv1a64 key then hashLookupFrom key strings fuel (mid + 1) (lo + n - (mid + 1))
        else if fnv1a64 key < fnv1a64 s then hashLookupFrom key strings fuel lo (mid - lo)
        else
          key = s ||
          -- a collision: the neighbours with the same hash, to the left and to the right
          ((strings.take mid).reverse.takeWhile (fnv1a64 · = fnv1a64 key)).any (key = ·) ||
          ((strings.drop (mid + 1)).takeWhile (fnv1a64 · = fnv1a64 key)).any (key = ·)

/-- `rguard_hash_lookup` over a list sorted by hash. -/
def hashLookup (key : CStr) (strings : List CStr) : Bool :=
  key ≠ [] && hashLookupFrom key strings strings.length 0 strings.length

/-- `rguard_hash_lookup_len`: the same search for the first `keylen` bytes of the key. -/
def hashLookupLen (key : CStr) (keylen : Nat) (strings : List CStr) : Bool :=
  hashLookup (key.take keylen) strings

end GfrGuard
