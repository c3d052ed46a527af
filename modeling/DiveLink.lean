import DiveLink.Serial.Session
import DiveLink.Session
import DiveLink.Proofs.Acts
import DiveLink.Proofs.Following
import DiveLink.Proofs.Fragmentation
import DiveLink.Proofs.Answers
import DiveLink.Proofs.Completeness
import DiveLink.Checked
import DiveLink.Proofs.Agreement
import DiveLink.Proofs.BulkReceipt
import DiveLink.Proofs.CheckedSessions
import DiveLink.Proofs.Resumption
import DiveLink.Proofs.PacketCodec
import DiveLink.Proofs.PacketReceipt
import DiveLink.Proofs.Discipline
import DiveLink.Proofs.DownloadProgress
import DiveLink.Proofs.LineErrors
import DiveLink.Proofs.Stopping
import DiveLink.Proofs.Truncation
import DiveLink.Proofs.AlteredLength
import DiveLink.Proofs.Records
import DiveLink.Proofs.StoredFingerprint
import DiveLink.Proofs.FailFast
import DiveLink.Proofs.Refusals
import DiveLink.Proofs.Belonging
import DiveLink.Proofs.Listeners
import DiveLink.Proofs.Identification
import DiveLink.Proofs.Transparency
import DiveLink.Proofs.ExactTransfers
import DiveLink.Proofs.Rounding
