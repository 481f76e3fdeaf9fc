import Mathlib.Algebra.Order.Field.Basic
import Mathlib.Tactic.IntervalCases
import Nlink.BridgeVlanReplies
import Nlink.BridgeVlanTunnel
import Nlink.ConnectionPool
import Nlink.DevlinkAgreement
import Nlink.Diagnostics
import Nlink.Ematches
import Nlink.EthtoolBitsetWritten
import Nlink.Fdb
import Nlink.FibLookup
import Nlink.GenericCalls
import Nlink.GenericStream
import Nlink.GenlRoundTrip
import Nlink.LinkMirror
import Nlink.MacsecCommands
import Nlink.MonitorEvents
import Nlink.MplsAgreement
import Nlink.Mptcp
import Nlink.NetlinkBatch
import Nlink.NetlinkDumpEnd
import Nlink.NetworkTopoSort
import Nlink.NexthopGroups
import Nlink.NftablesCanonical
import Nlink.NftablesDecodeSafety
import Nlink.NftablesDrift
import Nlink.NftablesOwnership
import Nlink.NftablesRuleOrder
import Nlink.NftablesSetElements
import Nlink.ParseValues
import Nlink.Psched
import Nlink.RateLimiterCoverage
import Nlink.RateLimiterIsolation
import Nlink.RatelimitQueue
import Nlink.RouteMultipath
import Nlink.RuleCodec
import Nlink.SharedAction
import Nlink.SharedSocket
import Nlink.SockdiagQuery
import Nlink.SockdiagRate
import Nlink.Srv6Agreement
import Nlink.TcNetem
import Nlink.TunnelAgreement
import Nlink.WireguardAddconf
import Nlink.WireguardAgreement
import Nlink.WireguardKeys
import Nlink.WireguardWatch
import Nlink.XfrmCodec
