import Nose.Library.CMemory
import Nose.Library.DottedQuad
import Nose.Library.DedupQueue
import Nose.Library.LoggedRun
import Nose.Library.BoundedAccess
import Nose.Library.ThreadLock
import Nose.Library.TypeLengthValue
import Nose.Library.Overwrite
import Nose.Library.RoundRobin
import Nose.Source.Bucket
import Nose.Proof.BucketEntries
import Nose.Proof.BucketRefinement
import Nose.Source.Pmp
import Nose.Source.PmpAccess
import Nose.Source.MasterPeer
import Nose.Source.Pcp
import Nose.Source.Crypt
import Nose.Source.Peer
import Nose.Source.PeerLoop
import Nose.Source.Network
import Nose.Source.ConfReader
import Nose.Source.NatTest
import Nose.Source.NatTestAccess
import Nose.Source.Auth
import Nose.Source.Dfa
import Nose.Source.BucketLock
import Nose.Source.Udp
import Nose.Source.MasterTimers
import Nose.Source.BucketAccess
import Nose.Source.Device
import Nose.Proof.PeerTransitions
import Nose.Proof.Tunnel
import Nose.Proof.PayloadBounds
import Nose.Proof.PeerTimers
import Nose.Proof.Heartbeats
import Nose.Proof.OpenDevices
import Nose.Proof.SingleReader
import Nose.Proof.Handshake
import Nose.Proof.PmpCodec
import Nose.Proof.MasterRun
import Nose.Proof.Registration
import Nose.Proof.RegisteredPeer
import Nose.Proof.LatestRegistration
import Nose.Proof.PeerOptions
import Nose.Proof.UniqueIds
import Nose.Proof.TableTransfer
import Nose.Proof.DiscoveryCodec
import Nose.Proof.MasterRequests
import Nose.Proof.DecoderAccess
import Nose.Proof.ConfigFiles
import Nose.Proof.ConfigRoundTrip
import Nose.Proof.NatClassification
import Nose.Proof.Authentication
import Nose.Proof.DfaTransitions
import Nose.Proof.LockDiscipline
import Nose.Proof.PeersCodec
import Nose.Proof.StunWalk
import Nose.Proof.StunAcceptance
import Nose.Proof.TunBytes
import Nose.Proof.PacketDeterminism
import Nose.Proof.SocketCount
import Nose.Proof.PingIdentity
import Nose.Proof.ClientAnswers
import Nose.Proof.CipherPadding
import Nose.Proof.TopItems
import Nose.Proof.BucketSafety
import Nose.Proof.PingFairness
import Nose.Proof.TunAllocation
import Nose.Library.ArrayLists
import Nose.Library.PaddedRecords
import Nose.Library.ShadowTable
import Nose.Proof.BuiltMessages
import Nose.Proof.PollEvents
import Nose.Proof.RateLimits
import Nose.Proof.StunAttributes
import Nose.Proof.StunExchange
import Nose.Proof.StunPolicy
