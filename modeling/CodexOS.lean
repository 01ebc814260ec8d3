import CodexOS.Release.Rejected
import CodexOS.Network.Receive
import CodexOS.Block.Completion
import CodexOS.Filesystem.Refinement
import CodexOS.Vm.Adoption
import CodexOS.Vm.UserAccounting
import CodexOS.Release.Alternation
import CodexOS.Heap.DoubleFree
import CodexOS.Heap.Alignment
import CodexOS.Vm.Ledger
import CodexOS.Vm.StagedPlan
import CodexOS.Filesystem.Retry
import CodexOS.Vm.UserImage
import CodexOS.Vm.LiveStack
import CodexOS.Filesystem.Probe
import CodexOS.Input.Ps2Mouse
import CodexOS.Hardware.Pci
import CodexOS.Network.Dhcp
import CodexOS.Network.Parsers
import CodexOS.Network.Connections
import CodexOS.Scheduler.Timer
import CodexOS.Scheduler.Entry
