import Memlink.Balloon.Completion
import Memlink.Balloon.Usage
import Memlink.Config.OtherKeys
import Memlink.Config.Scanners
import Memlink.Config.SetGet
import Memlink.Daemon.Bounds
import Memlink.Daemon.CommandOrder
import Memlink.Daemon.Connection
import Memlink.Daemon.Events
import Memlink.Daemon.Freshness
import Memlink.Daemon.Instances
import Memlink.Daemon.Reclaim
import Memlink.Daemon.Handover
import Memlink.Daemon.ReadySem
import Memlink.Daemon.Recovery
import Memlink.Daemon.StatsPeriod
import Memlink.Util.Readers
import Memlink.Util.Timing
import Memlink.Util.Tokens
import Memlink.Util.WriteFile
import Memlink.Vm.HugePages
import Memlink.Vm.References
