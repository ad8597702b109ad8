import Vitess.Go
import Vitess.Sqlparser
import Vitess.Abstract.QueryProjection
import Vitess.Abstract.SelectList
import Vitess.Abstract.Ordering
import Vitess.Abstract.Acceptance
import Vitess.Discovery.Queue
import Vitess.Logic.Engine
import Vitess.Logic.RecoveryGuard
import Vitess.Logic.Workers
import Vitess.Logic.LeaderGate
import Vitess.Logic.Election
import Vitess.Cache
import Vitess.Runs
import Vitess.Logic.DiscoverInstance
import Vitess.Logic.KvStores
import Vitess.Logic.SnapshotDrain
import Vitess.Logic.Starts
import Vitess.Logic.Shutdown
