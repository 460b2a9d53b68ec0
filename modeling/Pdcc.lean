import Pdcc.Snapshot.CommitStability
import Pdcc.Snapshot.OccSerial
import Pdcc.Scheduler.WriaDeterminism
import Pdcc.Scheduler.SimulateFinish
import Pdcc.Scheduler.ChargeGasProposer
import Pdcc.Scheduler.ChargeGasExecution
import Pdcc.Scheduler.GasAccounting
import Pdcc.AccessControl.MultiSign
import Pdcc.Core.TurboRoundTrip
import Pdcc.Scheduler.QuickNonces
import Pdcc.TxFilter.DuplicateCheck
import Pdcc.AccessControl.LegacyPrincipal
import Pdcc.AccessControl.CacheTransparency
import Pdcc.Scheduler.WriaProgress
import Pdcc.Scheduler.AriaCommit
import Pdcc.Scheduler.SenderGrouping
import Pdcc.Scheduler.Dispatch
import Pdcc.Snapshot.BatchRead
import Pdcc.Scheduler.ConflictWindow
import Pdcc.Scheduler.FollowerSimulation
import Pdcc.Scheduler.GasSums
import Pdcc.Core.TxVerification
import Pdcc.Core.CommitReport
import Pdcc.Core.RefetchedTxs
import Pdcc.Core.ProposalRounds
import Pdcc.Core.ProposerHandshake
import Pdcc.Rpc.SubscribeResult
import Pdcc.Rpc.Subscription
import Pdcc.Sync.MinLag
import Pdcc.Sync.Window
import Pdcc.Sync.Responses
import Pdcc.Sync.QueueBound
import Pdcc.AccessControl.FrozenList
import Pdcc.AccessControl.KeyDeletion
import Pdcc.AccessControl.CrossCall
import Pdcc.Ledger.DirectExecution
import Pdcc.Scheduler.Serial
