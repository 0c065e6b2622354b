import Orrery.Merkle
import Orrery.Merkle.Soundness
import Orrery.Merkle.Consistency
import Orrery.Merkle.Membership
import Orrery.Merkle.Positions
import Orrery.Merkle.Publication
import Orrery.Dat.Audit
import Orrery.Dat.Windows
import Orrery.Consent.Ledger
import Orrery.Consent.Gate
import Orrery.Consent.ClaimLog
import Orrery.Consent.ClaimThreads
import Orrery.Consent.Autonomy
import Orrery.Consent.Executor
import Orrery.Consent.Turn
import Orrery.Consent.Totality
import Orrery.Consent.Denylist
import Orrery.Consent.RecentDenials
import Orrery.Consent.UserApprovals
import Orrery.Consent.Panic
import Orrery.Consent.ChainCheck
import Orrery.Consent.LedgerLife
import Orrery.Consent.Tampering
import Orrery.Arp.AgencyLog
import Orrery.Arp.Sends
import Orrery.Arp.Cosign
import Orrery.Arp.ReceiptChain
import Orrery.Arp.IssuerLog
import Orrery.Foundation.Pursuit
import Orrery.Foundation.Base64
import Orrery.Foundation.PaddedTree
import Orrery.Chapter.PgStore
import Orrery.Chapter.AuditLog
import Orrery.Chapter.Identity
import Orrery.Chapter.MemberRotation
import Orrery.Chapter.RotationWalk
import Orrery.Chapter.Registration
import Orrery.Chapter.Sealing
import Orrery.Chapter.SigningKey
import Orrery.Chapter.AuthKeys
import Orrery.Chapter.MemberKeys
import Orrery.Chapter.KeyContinuity
import Orrery.Federation.Signing
import Orrery.Federation.Discovery
import Orrery.Federation.Attestation
import Orrery.Federation.Hostile
import Orrery.Foundation.JsonAlike
import Orrery.Foundation.Sweeps
import Orrery.Vrp.Components
import Orrery.Vrp.Tarjan
import Orrery.Vrp.Scoring
import Orrery.Vrp.Documents
import Orrery.Vrp.Ledger
import Orrery.Vrp.Commitment
import Orrery.Vrp.CanonicalRoot
import Orrery.Foundation.JsonLines
import Orrery.Channel.InboundAudit
import Orrery.Foundation.ChangeFeed
import Orrery.Federation.DeltaFeed
import Orrery.Federation.Broadcast
import Orrery.Federation.FirstDelivery
import Orrery.Index.AttestationGate
import Orrery.Index.Registry
import Orrery.Index.Pinning
import Orrery.Dat.Constraints
import Orrery.Foundation.Tables
import Orrery.Foundation.Procs
import Orrery.Intents.Privacy
import Orrery.Intents.Finality
import Orrery.Foundation.OrderedDicts
import Orrery.Chapter.RateQuota
import Orrery.Chapter.SignedString
import Orrery.Foundation.Guarded
import Orrery.Foundation.Exclusive
import Orrery.Governance.SingleUse
import Orrery.Governance.Nominations
import Orrery.Foundation.Transactions
import Orrery.Grants.Revocation
import Orrery.Grants.Retries
import Orrery.Member.OwnSettings
import Orrery.Keystore.Rotation
import Orrery.Keystore.Resplit
import Orrery.Foundation.Windows
import Orrery.Foundation.UnderWay
import Orrery.Foundation.Surrogates
import Orrery.Foundation.Rely
import Orrery.Trust.Caps
import Orrery.Trust.Interleaved
import Orrery.Trust.PairBound
import Orrery.Authority.Counting
import Orrery.Skills.Billing
import Orrery.Skills.Attestations
import Orrery.Federation.FeedPages
import Orrery.Federation.PeerPins
import Orrery.Federation.PeerBlocks
import Orrery.Federation.RotationChains
import Orrery.Skills.Freshness
import Orrery.Skills.InstalledCapabilities
import Orrery.Skills.Traces
import Orrery.Skills.ToolNames
import Orrery.Tasks.Canceling
import Orrery.Tasks.Responses
import Orrery.Keystore.Portable
import Orrery.Tasks.Log
import Orrery.Member.Convergence
import Orrery.Member.SanitizedTexts
import Orrery.Policy.Pins
import Orrery.Policy.Steps
import Orrery.Sandbox.OriginBounds
import Orrery.Policy.PeerBounds
import Orrery.Chapter.RefusedKeys
import Orrery.Chapter.BucketSnapshots
import Orrery.Chapter.SanitizedText
import Orrery.Chapter.SqlRequests
import Orrery.Chapter.ColumnText
import Orrery.Chapter.Outbox
import Orrery.Governance.Queueing
import Orrery.Grants.Scopes
import Orrery.Authority.Gate
import Orrery.Trust.Replay
import Orrery.Foundation.Substitution
import Orrery.Index.Parity
import Orrery.Chapter.Redaction
