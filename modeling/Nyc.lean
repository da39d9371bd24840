import Nyc.Tables
import Nyc.Python.Sha256
import Nyc.Python.IpText
import Nyc.Python.Text
import Nyc.Config
import Nyc.Client.Steps
import Nyc.Client.Ports
import Nyc.Cluster
import Nyc.Properties.Addresses
import Nyc.Properties.BootNetwork
import Nyc.Properties.Convergence
import Nyc.Properties.DataVolumes
import Nyc.Properties.Decommission
import Nyc.Properties.DefaultVpc
import Nyc.Properties.Dependents
import Nyc.Properties.Executor
import Nyc.Properties.FloodDomains
import Nyc.Properties.FloodList
import Nyc.Properties.HostScan
import Nyc.Properties.Injection
import Nyc.Properties.Inventory
import Nyc.Properties.Isolation
import Nyc.Properties.Connectivity
import Nyc.Properties.Listing
import Nyc.Properties.NatRules
import Nyc.Properties.Placement
import Nyc.Properties.PoolSafety
import Nyc.Properties.Processes
import Nyc.Properties.ProxyReload
import Nyc.Properties.PublicPool
import Nyc.Properties.PublicAddresses
import Nyc.Properties.References
import Nyc.Properties.Refusals
import Nyc.Properties.Resize
import Nyc.Properties.Routes
import Nyc.Properties.RootDisks
import Nyc.Properties.Shutdown
import Nyc.Properties.Sizes
import Nyc.Properties.Spawn
import Nyc.Properties.Substrate
import Nyc.Properties.TakeDown
import Nyc.Properties.TaskQueue
import Nyc.Scripts.Provision
import Nyc.Scripts.Teardown
