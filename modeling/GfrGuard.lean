import GfrGuard.Coverage
import GfrGuard.Enforcement
import GfrGuard.HandleSafety
import GfrGuard.PathAgreement
import GfrGuard.ChannelAgreement
import GfrGuard.Concurrent
import GfrGuard.Restore
import GfrGuard.Isolation
import GfrGuard.DenySignal
import GfrGuard.Persist
import GfrGuard.BackupRuns
import GfrGuard.Pending
import GfrGuard.TableRuns
import GfrGuard.ScoreLaws
import GfrGuard.SameClose
import GfrGuard.ListEffects
import GfrGuard.Reloads
import GfrGuard.Lockstep
import GfrGuard.Unblock
import GfrGuard.SharedBlocked
import GfrGuard.SharedPolicy
import GfrGuard.Confined
import GfrGuard.BlockedSession
import GfrGuard.Notify
import GfrGuard.Principals
import GfrGuard.BlockedCache
import GfrGuard.GateRuns
import GfrGuard.KillRuns
import GfrGuard.EventTable
import GfrGuard.EventFresh
import GfrGuard.SenderFlags
import GfrGuard.CloudVerdicts
import GfrGuard.BackupPaths
import GfrGuard.BulkRewrite
import GfrGuard.MonitorTable
import GfrGuard.CloudTasks
import GfrGuard.Extensions
import GfrGuard.OpEvents
import GfrGuard.CopyFd
import GfrGuard.CloseCompare
import GfrGuard.Retry
import GfrGuard.QuarantineKept
import GfrGuard.LastCopy
import GfrGuard.CanonicalPaths
import GfrGuard.RestoreJob
import GfrGuard.QuarantineBack
import GfrGuard.ExceptionWalk
import GfrGuard.AutoBlacklist
import GfrGuard.FloodGate
import GfrGuard.ChannelLookup
import GfrGuard.AddressEntries
import GfrGuard.Truncation
import GfrGuard.PersistEffects
import GfrGuard.BlockedBytes
import GfrGuard.TcpTable
import GfrGuard.FtpTitle
import GfrGuard.PermDrain
import GfrGuard.HelperWait
import GfrGuard.YaraEngine
import GfrGuard.YaraLoad
import GfrGuard.Cleanup
import GfrGuard.ProtectedRows
import GfrGuard.WebUnblock
import GfrGuard.DirCount
import GfrGuard.FilesAffected
import GfrGuard.ScoreArith
import GfrGuard.LogDetails
import GfrGuard.SlotConfined
import GfrGuard.StatInverse
import GfrGuard.MarkCoverage
import GfrGuard.PolicyText
import GfrGuard.LogFile
import GfrGuard.CjsonNumbers
import GfrGuard.ChannelThreads
import GfrGuard.CjsonGrammar
import GfrGuard.WebDelete
