import Capybara.AcknowledgedData
import Capybara.Admission
import Capybara.AppStates
import Capybara.ArpNetwork
import Capybara.ArpQueries
import Capybara.AtomicCalls
import Capybara.Backlog
import Capybara.CloseStates
import Capybara.Completeness
import Capybara.CubicRecovery
import Capybara.Defragmenter
import Capybara.FragmentCounter
import Capybara.Handover
import Capybara.Ipv4Datagrams
import Capybara.Lib.PairingForest
import Capybara.MigrationDiverges
import Capybara.MigrationReplies
import Capybara.PairingHeap
import Capybara.PairingHeapLinks
import Capybara.PairingHeapRefines
import Capybara.PairingHeapRuns
import Capybara.PeerFin
import Capybara.PortRuns
import Capybara.ProactiveMigration
import Capybara.ReceivedChecksums
import Capybara.RepeatedFragments
import Capybara.RetransmitTimer
import Capybara.RingBufferRuns
import Capybara.SchedulerReclaim
import Capybara.SegmentLimits
import Capybara.SendAccounting
import Capybara.SendStream
import Capybara.SessionRuns
import Capybara.SharedQueue
import Capybara.SingleOwner
import Capybara.SocketTables
import Capybara.SoftwareSwitch
import Capybara.StateRoundTrip
import Capybara.StatsPoll
import Capybara.StatsUpdates
import Capybara.StoreRun
import Capybara.StreamDelivery
import Capybara.SwitchDirectory
import Capybara.TcpHeaderRoundTrip
import Capybara.TcpMigCodec
import Capybara.TcpMigDatagrams
import Capybara.TimerHeap
import Capybara.TimerRuns
import Capybara.TtlCache
import Capybara.UdpTables
import Capybara.WaitAny
import Capybara.Wakers
import Capybara.WatchedNodes
import Capybara.WatchedValue
import Capybara.WindowRun
import Capybara.WindowUpdates
