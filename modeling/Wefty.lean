import Wefty.Authority
import Wefty.LeaseTimeline
import Wefty.Redaction
import Wefty.SpoolRuns
import Wefty.EvidenceOutbox
import Wefty.CompletionGate
import Wefty.LogStreams
import Wefty.LinkIdentity
import Wefty.ExpiryScan
import Wefty.ServiceSlots
import Wefty.CompletionOnce
import Wefty.OneshotRuns
import Wefty.DispatchKeys
import Wefty.StorageRuns
import Wefty.RemovalLabels
import Wefty.RestrictedSchema
import Wefty.CustodyForks
import Wefty.ResidentAuthority
import Wefty.CredentialLife
import Wefty.DispatchHold
import Wefty.StepBrackets
import Wefty.HostRevocations
import Wefty.OwedRevocations
import Wefty.StoreHistory
import Wefty.RunHistory
