import Tickr.Acknowledgements
import Tickr.AssocMap
import Tickr.Attempts
import Tickr.Backoff
import Tickr.CockroachLocks
import Tickr.DeadLetters
import Tickr.DrainCommand
import Tickr.EngineDispatch
import Tickr.ErrorTexts
import Tickr.ExtendLoops
import Tickr.FleetDrain
import Tickr.FleetQueue
import Tickr.FleetSuccess
import Tickr.FleetTyped
import Tickr.HeaderCodec
import Tickr.HistoryOrder
import Tickr.InflightGauge
import Tickr.JsonText
import Tickr.LeaderDeadlock
import Tickr.LeaderLocks
import Tickr.LeaderProgress
import Tickr.MysqlDispatch
import Tickr.MysqlFencing
import Tickr.MysqlHistory
import Tickr.MysqlMigrations
import Tickr.MysqlZones
import Tickr.Outbox
import Tickr.OutcomeReports
import Tickr.Overlap
import Tickr.PartitionCatchUp
import Tickr.PartitionReadback
import Tickr.PostgresClaimFaults
import Tickr.PostgresClaimOrder
import Tickr.PostgresDelays
import Tickr.PostgresEnqueueFaults
import Tickr.PostgresExtension
import Tickr.PostgresLeases
import Tickr.PostgresMigrations
import Tickr.PostgresOverlap
import Tickr.PostgresPartitionKeys
import Tickr.PurgeLoop
import Tickr.QueueContract
import Tickr.QueueDepth
import Tickr.QueueWork
import Tickr.SessionLocks
import Tickr.ShutdownRelease
import Tickr.TraceContext
import Tickr.TransportHeaders
import Tickr.TypedHandlers
import Tickr.WakeUps
import Tickr.WorkerStop
