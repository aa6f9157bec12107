import MartyCore.Flow.Run
import MartyCore.TrustSync.Store
import MartyCore.Chain.Revocation
import MartyCore.ChipIo.KeyPaths
import MartyCore.Decision.Reduce
import MartyCore.Governance.Resume
import MartyCore.Evidence.Heads
import MartyCore.Evidence.Approval
import MartyCore.Status.Encoding
import MartyCore.ChipIo.Apdu
import MartyCore.Device.Message
import MartyCore.Policy.Disclosure
import MartyCore.Integrity.Mandatory
import MartyCore.Dtc.Temporal
import MartyCore.Emrtd.Passive
import MartyCore.Dtc.Signing
import MartyCore.VdsNc.Barcode
import MartyCore.Iso18013.Transcript
import MartyCore.Iso18013.SessionChannel
import MartyCore.Storage.Records
import MartyCore.Storage.Queue
import MartyCore.Oid4vci.ConcurrentBatch
import MartyCore.Mdoc.Validity
import MartyCore.Policy.Age
import MartyCore.Policy.Presented
import MartyCore.Crypto.Iso9796
import MartyCore.Crypto.Thumbprint
import MartyCore.Oid4vci.PresentationRequest
