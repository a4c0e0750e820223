import TsnReconfig.Lib.System
import TsnReconfig.Lib.Lists
import TsnReconfig.Lib.ServiceLoop
import TsnReconfig.OpenFlow.FlowTable
import TsnReconfig.Switch.RelayUnit
import TsnReconfig.Controller.ConfigurationEngine
import TsnReconfig.Controller.Installations
import TsnReconfig.Controller.SwitchTables
import TsnReconfig.Controller.VersionBookkeeping
import TsnReconfig.Controller.UnexpectedAcks
import TsnReconfig.Controller.AssignmentRecords
import TsnReconfig.Network.Deployment
import TsnReconfig.OpenFlow.HeldRules
import TsnReconfig.OpenFlow.RoundTrip
import TsnReconfig.Network.Activation
import TsnReconfig.Network.AssignedPath
import TsnReconfig.Network.ListenerReady
import TsnReconfig.Network.RuleVersions
import TsnReconfig.Lib.Linear
import TsnReconfig.Lib.Numbering
import TsnReconfig.Opt.Terms
import TsnReconfig.Opt.GD
import TsnReconfig.Opt.Variables
import TsnReconfig.Opt.SimplePaths
import TsnReconfig.Opt.Plans
import TsnReconfig.Opt.LatencyRows
import TsnReconfig.Opt.Objective
import TsnReconfig.Opt.Layout
import TsnReconfig.Opt.Latency
import TsnReconfig.Opt.Linearization
import TsnReconfig.Opt.Decoding
import TsnReconfig.Opt.OPCE2
import TsnReconfig.Opt.Requests
import TsnReconfig.Switch.SwitchAgent
import TsnReconfig.Switch.Buffer
import TsnReconfig.NetConf.TimeSynchronous
import TsnReconfig.NetConf.LockIsolation
import TsnReconfig.NetConf.CommitAtomicity
import TsnReconfig.NetConf.FlowTableChanges
import TsnReconfig.NetConf.SrpConfigurations
import TsnReconfig.NetConf.CommitTimestamps
import TsnReconfig.NetConf.OneReply
import TsnReconfig.NetConf.LocksReturned
import TsnReconfig.NetConf.RepliesHandled
import TsnReconfig.Opt.Admission
import TsnReconfig.Opt.Readvertised
import TsnReconfig.Network.TrafficSource
import TsnReconfig.Network.Streaming
import TsnReconfig.Network.ServiceTimes
import TsnReconfig.Gates.ExactTimers
import TsnReconfig.Avb.StateRoundTrip
import TsnReconfig.Gates.Instants
import TsnReconfig.Shaper.Selection
import TsnReconfig.Shaper.QueueAccounting
import TsnReconfig.Network.PacketIns
import TsnReconfig.Network.SecurityRules
import TsnReconfig.Avb.SRPTable
import TsnReconfig.Avb.Ageing
import TsnReconfig.Avb.SRProtocol
import TsnReconfig.Avb.SRPNode
import TsnReconfig.Avb.NodeReservations
import TsnReconfig.Avb.NodeTalkers
import TsnReconfig.Avb.NodeAdmission
import TsnReconfig.Avb.SRPNetwork
import TsnReconfig.Avb.StreamSetup
import TsnReconfig.Avb.ReservedPath
import TsnReconfig.Avb.Reservations
import TsnReconfig.Avb.RoundTrip
import TsnReconfig.OpenFlow.FirstEntry
import TsnReconfig.OpenFlow.MatchFields
import TsnReconfig.OpenFlow.AddedEntries
import TsnReconfig.OpenFlow.FlowAgeing
import TsnReconfig.OpenFlow.MatchBuilder
import TsnReconfig.Avb.SRPTableManagement
import TsnReconfig.Avb.AVBLearningControllerApp
import TsnReconfig.Avb.AVBSecurityControllerApp
import TsnReconfig.Avb.Multicast
import TsnReconfig.NetConf.ConfigurationTimes
import TsnReconfig.NetConf.DetermineTimestamp
import TsnReconfig.Filtering.CreditBasedMeter
import TsnReconfig.HyperFlow.Replication
import TsnReconfig.LLDP.MibGraph
import TsnReconfig.LLDP.Discovery
import TsnReconfig.LLDP.ComputePath
import TsnReconfig.LLDP.BalancedSearch
import TsnReconfig.Flooding.SpanningTree
import TsnReconfig.PCAPNG.Survival
import TsnReconfig.AS6802.VirtualLinks
import TsnReconfig.AS6802.SendWindows
import TsnReconfig.Learning.Circulation
import TsnReconfig.LLDP.CabledRoutes
import TsnReconfig.HyperFlow.ArpTables
