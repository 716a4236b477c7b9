import Homa.FuelLoop
import Homa.IntervalList
import Homa.MachineArith
import Homa.SortedList
import Homa.MessageIn
import Homa.MessageInReassembly
import Homa.MessageOutFill
import Homa.MessageOutPacket
import Homa.MessageOutTiling
import Homa.ResendData
import Homa.Socket
import Homa.SocketSystem
import Homa.SocketReady
import Homa.SocketDeadRpc
import Homa.SocketRefs
import Homa.Pool
import Homa.PoolSystem
import Homa.Grant
import Homa.UnschedPriority
import Homa.MessageInInit
import Homa.Receiver
import Homa.PoolBuffer
import Homa.DeliverSkbs
import Homa.QdiscHoma
import Homa.QdiscTcp
import Homa.QdiscEnqueue
import Homa.GrantOffsets
import Homa.GrantIncoming
import Homa.GrantOrder
import Homa.GrantFixOrder
import Homa.UpdateSum
import Homa.Reap
import Homa.PeerAcks
import Homa.LinkHeap
import Homa.Softirq
import Homa.CreditShare
import Homa.QdiscPacer
import Homa.SockTab
import Homa.BestK
import Homa.PeerVictims
import Homa.ScatterGather
import Homa.SkbCopy
import Homa.Pacer
import Homa.TxSystem
import Homa.TxInvariants
import Homa.TxMessages
import Homa.TxPacing
import Homa.Timer
import Homa.TimerSystem
import Homa.Transition
import Homa.Protocol
import Homa.ProtocolAcks
import Homa.ProtocolOnce
