import GoodixSpi.Proof.Codec
import GoodixSpi.Lib.Prog
import GoodixSpi.Lib.Buffer
import GoodixSpi.Kernel.Text
import GoodixSpi.Kernel.Driver
import GoodixSpi.Kernel.Debugfs
import GoodixSpi.Tools.Dialects
import GoodixSpi.Proof.Send
import GoodixSpi.Proof.IndexSafety
import GoodixSpi.Proof.Rejected
import GoodixSpi.Proof.RawRead
import GoodixSpi.Proof.Coherence
import GoodixSpi.Tools.Host
import GoodixSpi.Tools.Refseq
import GoodixSpi.Lib.Stream
import GoodixSpi.Proof.Sync
import GoodixSpi.Proof.Attribution
import GoodixSpi.Lib.Interleave
import GoodixSpi.Proof.Exchange
import GoodixSpi.Proof.Footprint
import GoodixSpi.Proof.Board
import GoodixSpi.Proof.Interrupts
import GoodixSpi.Proof.ResetLine
import GoodixSpi.Proof.Corruption
import GoodixSpi.Proof.CmdText
import GoodixSpi.Proof.Stale
import GoodixSpi.Proof.SizeGuard
import GoodixSpi.Lib.Overlay
import GoodixSpi.Proof.RawPhases
import GoodixSpi.Proof.RawWriters
import GoodixSpi.Proof.RawRoundtrip
import GoodixSpi.Proof.Receivers
import GoodixSpi.Proof.Wakeup
import GoodixSpi.Lib.Loop
import GoodixSpi.Proof.Firmware
import GoodixSpi.Lib.Blocks
import GoodixSpi.Tools.Pexref
import GoodixSpi.Proof.Mapping
import GoodixSpi.Proof.LeaScan
import GoodixSpi.Lib.Bisect
import GoodixSpi.Proof.Lookup
import GoodixSpi.Tools.ThumbCalls
import GoodixSpi.Proof.ThumbCalls
import GoodixSpi.Kernel.Spisnoop
import GoodixSpi.Proof.Verdict
import GoodixSpi.Lib.Fairness
import GoodixSpi.Proof.Progress
import GoodixSpi.Proof.Registers
import GoodixSpi.Bench.Rig
import GoodixSpi.Bench.Sweeps
import GoodixSpi.Proof.Session
import GoodixSpi.Bench.LowSweeps
import GoodixSpi.Bench.Bringup
import GoodixSpi.Bench.Lowstate
import GoodixSpi.Proof.Lowstate
import GoodixSpi.Proof.Confined
import GoodixSpi.Proof.Polarity
import GoodixSpi.Proof.Release
import GoodixSpi.Lib.Serial
import GoodixSpi.Proof.Linear
import GoodixSpi.Proof.Framing
import GoodixSpi.Lib.Hex
import GoodixSpi.Tools.Hexdump
import GoodixSpi.Proof.Hexdump
import GoodixSpi.Bench.Repro
import GoodixSpi.Proof.Repro
import GoodixSpi.Kernel.Probe
import GoodixSpi.Proof.Lifecycle
import GoodixSpi.Lib.Words
import GoodixSpi.Tools.Pads
import GoodixSpi.Proof.Pads
