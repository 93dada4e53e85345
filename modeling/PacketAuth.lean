import PacketAuth.Text.Hex
import PacketAuth.Text.Record
import PacketAuth.Text.Quoted
import PacketAuth.Hash.Hmac
import PacketAuth.SplitMix
import PacketAuth.CancelReason
import PacketAuth.Config.Error
import PacketAuth.Failure
import PacketAuth.Id
import PacketAuth.Key
import PacketAuth.Layout
import PacketAuth.Status
import PacketAuth.Config
import PacketAuth.Config.Document
import PacketAuth.Accounting
import PacketAuth.Completion
import PacketAuth.Engine
import PacketAuth.Engine.Scripted
import PacketAuth.Engine.Software
import PacketAuth.Interrupt
import PacketAuth.Stats
import PacketAuth.Call
import PacketAuth.Host
import PacketAuth.Host.Passage
import PacketAuth.Host.Request
import PacketAuth.Bench
import PacketAuth.Bench.Operation
import PacketAuth.Bench.Scripted
import PacketAuth.Bench.Software
import PacketAuth.Proofs.World
import PacketAuth.Proofs.Effect
import PacketAuth.Proofs.Operation
import PacketAuth.Proofs.Software
import PacketAuth.Proofs.Custody
import PacketAuth.Proofs.Rearming
import PacketAuth.Proofs.Balance
import PacketAuth.Proofs.Persistence
import PacketAuth.Proofs.MaskedPayload
import PacketAuth.Proofs.LengthOverflow
import PacketAuth.Proofs.Keying
import PacketAuth.Proofs.Undisturbed
import PacketAuth.Proofs.Entry
import PacketAuth.Proofs.TagEquation
import PacketAuth.Proofs.Record
import PacketAuth.Proofs.Verdict
import PacketAuth.Proofs.CallJobs
import PacketAuth.Proofs.Retries
import PacketAuth.Proofs.Resubmissions
import PacketAuth.Proofs.Recording
import PacketAuth.Proofs.Register
import PacketAuth.Proofs.Sessions
import PacketAuth.Proofs.RoundTrip
import PacketAuth.Proofs.Serving
import PacketAuth.Proofs.Schedule
import PacketAuth.Proofs.Waking
import PacketAuth.Proofs.Interruption
import PacketAuth.Proofs.Intact
import PacketAuth.Proofs.Delivery
import PacketAuth.Proofs.Shutdown
import PacketAuth.Proofs.Draining
import PacketAuth.Proofs.Attempts
import PacketAuth.Proofs.Tolerance
import PacketAuth.Proofs.Handover
import PacketAuth.Proofs.Rejection
import PacketAuth.Proofs.Settings
import PacketAuth.Proofs.Blame
import PacketAuth.Proofs.Script
import PacketAuth.Proofs.TagCache
import PacketAuth.Proofs.Charges
import PacketAuth.Proofs.Billing
import PacketAuth.Proofs.Blindness
import PacketAuth.Proofs.Secrecy
import PacketAuth.Proofs.Wakeup
import PacketAuth.Proofs.Traffic
import PacketAuth.Proofs.Lending
import PacketAuth.Proofs.PoolCounting
import PacketAuth.Proofs.Naming
import PacketAuth.Proofs.Masking
import PacketAuth.Proofs.Processing
import PacketAuth.Proofs.Deferral
import PacketAuth.Proofs.Numeral
import PacketAuth.Proofs.Lines
import PacketAuth.Proofs.DocumentTables
import PacketAuth.Proofs.Loading
import PacketAuth.Proofs.Loadable
import PacketAuth.Proofs.Untriggered
import PacketAuth.Proofs.Reporting
import PacketAuth.Proofs.Surface
import PacketAuth.Proofs.Filling
import PacketAuth.Proofs.Period
import PacketAuth.Proofs.Peak
import PacketAuth.Proofs.Severity
import PacketAuth.Proofs.Comparison
import PacketAuth.Proofs.Timeout
import PacketAuth.Proofs.View
import PacketAuth.Proofs.ServiceEvents
import PacketAuth.Proofs.EventCounts
