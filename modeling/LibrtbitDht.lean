import LibrtbitDht.AlignedBlock
import LibrtbitDht.TransitionRuns
import LibrtbitDht.PartyNetwork
import LibrtbitDht.CommitPoints
import LibrtbitDht.AssocMap
import LibrtbitDht.UpperPart
import LibrtbitDht.FirstMatch
import LibrtbitDht.SortedBlocks
import LibrtbitDht.LeastElements
import LibrtbitDht.JsonValue
import LibrtbitDht.BufferedWriter
import LibrtbitDht.ByteStrings
import LibrtbitDht.Bencode
import LibrtbitDht.BencodeText
import LibrtbitDht.Id20
import LibrtbitDht.SocketAddr
import LibrtbitDht.RoutingTableNode
import LibrtbitDht.BucketTree
import LibrtbitDht.BucketTreeShape
import LibrtbitDht.BucketTreeLookup
import LibrtbitDht.BucketTreeUpdate
import LibrtbitDht.BucketTreeInsert
import LibrtbitDht.BucketTreeMarks
import LibrtbitDht.RoutingTable
import LibrtbitDht.NodeHistory
import LibrtbitDht.TreeRepresentation
import LibrtbitDht.ArenaBound
import LibrtbitDht.TableSize
import LibrtbitDht.KBuckets
import LibrtbitDht.InsertionSplits
import LibrtbitDht.Liveness
import LibrtbitDht.LivenessAttribution
import LibrtbitDht.PeerStore
import LibrtbitDht.PeerStoreInvariant
import LibrtbitDht.AnnounceAuthorisation
import LibrtbitDht.PeerStoreRetention
import LibrtbitDht.PeerStoreCollection
import LibrtbitDht.MutableItemStore
import LibrtbitDht.MutableItemHistory
import LibrtbitDht.StoreLinearizability
import LibrtbitDht.Bep44Crypto
import LibrtbitDht.RequestTracking
import LibrtbitDht.RequestCorrelation
import LibrtbitDht.RequestCancellation
import LibrtbitDht.SavedState
import LibrtbitDht.SavedStateRoundTrip
import LibrtbitDht.Persistence
import LibrtbitDht.Restart
import LibrtbitDht.SavedStateRecovery
import LibrtbitDht.ListenAddress
import LibrtbitDht.InsertionEffect
import LibrtbitDht.LookupScan
import LibrtbitDht.BucketRefresh
import LibrtbitDht.DumpFile
import LibrtbitDht.Message
import LibrtbitDht.MessageRoundTrip
import LibrtbitDht.MessageClassification
import LibrtbitDht.QueryAcceptance
import LibrtbitDht.RecursiveRequest
import LibrtbitDht.UsefulNodes
import LibrtbitDht.FindNodeLookup
import LibrtbitDht.FindNodeRuns
import LibrtbitDht.RequestOne
import LibrtbitDht.QueryHandling
import LibrtbitDht.QueryRuns
import LibrtbitDht.ReplySize
import LibrtbitDht.AnnounceAgreement
import LibrtbitDht.ClosestNodes
import LibrtbitDht.PeersLookup
import LibrtbitDht.PeersLookupRuns
import LibrtbitDht.MessageNormalForm
import LibrtbitDht.Dht
import LibrtbitDht.DhtSteps
import LibrtbitDht.DhtTraffic
import LibrtbitDht.DhtCalls
import LibrtbitDht.DhtRuns
import LibrtbitDht.DhtRefinement
import LibrtbitDht.DhtContacts
import LibrtbitDht.Network
import LibrtbitDht.NetworkMessages
import LibrtbitDht.NetworkLookups
import LibrtbitDht.NetworkContacts
