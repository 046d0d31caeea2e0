import PyWhats.AddressParse
import PyWhats.AddressWire
import PyWhats.AppStateBinding
import PyWhats.Arrival
import PyWhats.AtomicSave
import PyWhats.Audience
import PyWhats.DecoderBounds
import PyWhats.ExtendedCoordinates
import PyWhats.FailedPatches
import PyWhats.FailedSends
import PyWhats.FetchRuns
import PyWhats.GroupChain
import PyWhats.Healing
import PyWhats.KeyReuse
import PyWhats.Keepalive
import PyWhats.Lanes
import PyWhats.LidHistory
import PyWhats.Lifecycle
import PyWhats.MediaTransfer
import PyWhats.MessageIds
import PyWhats.PeerIdentity
import PyWhats.PendingFutures
import PyWhats.PreKeyPool
import PyWhats.QrRotation
import PyWhats.RatchetAsserts
import PyWhats.RatchetDelivery
import PyWhats.ReceiveLoop
import PyWhats.Replay
import PyWhats.Replies
import PyWhats.SendTalks
import PyWhats.SenderKeyDelivery
import PyWhats.SessionReplay
import PyWhats.SqliteDecrypt
import PyWhats.StoreFormat
import PyWhats.SyncCrash
import PyWhats.Undecrypted
import PyWhats.XEdDSACompleteness
