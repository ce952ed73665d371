import Felix.Collections.IterSet
import Felix.Collections.SetMap
import Felix.Replication.Buffer
import Felix.Replication.Phase
import Felix.Replication.Report
import Felix.Calc.EventSequencer
import Felix.Calc.Dataplane
import Felix.Calc.SequencerView
import Felix.Calc.SequencerFlush
import Felix.Calc.SequencerSim
import Felix.Calc.SequencerSafety
import Felix.LabelIndex.InheritIndex
import Felix.LabelIndex.InheritParents
import Felix.LabelIndex.InheritMatch
import Felix.LabelIndex.InheritInvariant
import Felix.LabelIndex.InheritData
import Felix.LabelIndex.InheritListed
import Felix.LabelIndex.NamedPortIndex
import Felix.LabelIndex.NamedPortSpec
import Felix.Calc.MemberPath
import Felix.Iptables.Rules
import Felix.Rules.Policy
import Felix.Rules.PolicySpec
import Felix.Rules.Endpoints
import Felix.Rules.EndpointsSpec
import Felix.Calc.RuleScanner
import Felix.Calc.RuleScannerInvariant
import Felix.Bpf.Asm
import Felix.Bpf.IPSets
import Felix.Dataplane.XdpState
import Felix.Calc.L3RouteResolver
import Felix.Ipsets.Defs
import Felix.Ipsets.IPSets
import Felix.Ipsets.IPSetSpec
import Felix.Ipsets.Reachable
import Felix.Ipsets.Requested
import Felix.Ipsets.Resync
import Felix.Ipsets.Panics
import Felix.Ipsets.Restore
import Felix.Ipsets.Session
import Felix.Collections.Bytes
import Felix.Bpf.Conntrack.Map
import Felix.Bpf.Conntrack.Cleanup
import Felix.Collections.Lpm
import Felix.Bpf.Nat.Maps
import Felix.Collections.OnesComplement
import Felix.Bpf.Tc.NatRewrite
import Felix.Bpf.Conntrack.Create
import Felix.Calc.PolicySorter
import Felix.Calc.PolicyResolver
import Felix.Calc.PolicyResolverInvariant
import Felix.Dataplane.XdpTiers
import Felix.Calc.ActiveRules
import Felix.Calc.ActiveRulesInvariant
import Felix.Calc.ActiveRulesSpec
import Felix.Bpf.CachingMap
import Felix.Bpf.CachingMapSpec
import Felix.Idalloc.IDAllocator
import Felix.Bpf.IPSetsManager
import Felix.Bpf.IPSetsManagerInvariant
import Felix.Bpf.IPSetsManagerSpec
import Felix.Bpf.AsmRun
import Felix.Bpf.AsmSpec
import Felix.Ip.V4CIDR
import Felix.Ip.Trie
import Felix.Ip.TrieInvariant
import Felix.Ip.TrieWalk
import Felix.Ip.TrieSpec
import Felix.Collections.BitDeposit
import Felix.Markbits.MarkBits
import Felix.Markbits.MarkBitsSpec
import Felix.Bpf.Proxy.ServicePort
import Felix.Rules.Dispatch
import Felix.Rules.DispatchSpec
import Felix.Calc.VXLANResolver
import Felix.Calc.VXLANResolverSpec
import Felix.Serviceindex.ServiceIndex
import Felix.Serviceindex.ServiceIndexSpec
import Felix.Dataplane.XdpMembers
import Felix.Dataplane.XdpMembersSpec
import Felix.Config.ConfigParams
import Felix.Config.ResolveSpec
import Felix.Policysync.Split
import Felix.Policysync.SplitSpec
import Felix.Collections.Base64
import Felix.Rules.ChainNames
import Felix.Iptree.IPTree
import Felix.Iptree.IPTreeSpec
import Felix.Iptables.InsertAppend
import Felix.Iptables.InsertAppendSpec
import Felix.Collections.ListEdit
import Felix.Collections.AListFold
import Felix.Iptables.Table
import Felix.Iptables.Restore
import Felix.Iptables.TableApply
import Felix.Collections.RefCounter
import Felix.Iptables.TableRefs
