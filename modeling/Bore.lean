import Bore.RegistryTickets
import Bore.RegistryAborts
import Bore.RegistryRanges
import Bore.RegistryStrangers
import Bore.RegistrySplices
import Bore.OfferAccounting
import Bore.FastDelivery
import Bore.SlotHandoff
import Bore.TransferCompleted
import Bore.WireNetworks
import Bore.VpnOverlay
import Bore.RelayNonces
import Bore.VpnPairing
import Bore.VpnHub
import Bore.ControlReports
import Bore.ControlResync
import Bore.RoomLeases
import Bore.SessionConverge
import Bore.AttemptIsolation
import Bore.DirectOwners
import Bore.CheckSafety
import Bore.RequestReplay
import Bore.RegistryEarned
import Bore.ManifestRoundTrip
import Bore.CarrierTokens
import Bore.AccessLog
import Bore.CompletionRetry
import Bore.HttpsRedirect
import Bore.BulkOccupancy
import Bore.ConsumerUpgrade
import Bore.BodyGrammar
import Bore.FlowPinning
import Bore.HubResidue
import Bore.PortMapping
import Bore.ControlSession
import Bore.DownloadFallback
import Bore.DownloadOutcome
import Bore.FastRedirect
import Bore.LexicalPath
import Bore.DiagnosticPairing
import Bore.WireBytes
import Bore.FrameCodec
import Bore.RelayPair
import Bore.ResumePlan
import Bore.PmtuMonitor
import Bore.UdpTuning
import Bore.HumanSizes
import Bore.ChunkSink
