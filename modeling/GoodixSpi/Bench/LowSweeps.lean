import GoodixSpi.Bench.Sweeps

/-!
# The tests with line 264 held low

`tools/sweep_low.py`, `tools/cs_timing_low.py` and `tools/reset_low.py`, written once line 264 was understood to be a reset: they drive it high for a while, then low, and talk to the sensor only then. Each ends with a control that drives it high and low again.

The scripts poll against the clock, and how often is not theirs to decide: a poll asks the clock every time, and `polls` bounds how many times that can be.
-/

namespace GoodixSpi.Bench

open Wire Interaction Tools

def pulseFrom (irq : GpioLine) (ms t : Nat) : Nat → BenchM Bool
  | 0 => pure false
  | polls + 1 => do
      let now ← ask .monotonic
      if now - t < 1000 * ms then do
        let v ← irq.get
        if v then pure true
        else do
          sleep 200
          pulseFrom irq ms t polls
      else pure false

/-- `pulse`, the same in `sweep_low.py` and `cs_timing_low.py`. -/
def pulse (irq : GpioLine) (ms polls : Nat) : BenchM Bool := do
  let t ← ask .monotonic
  pulseFrom irq ms t polls

def holdLow (settleUs : Nat) : BenchM GpioLine := do
  let en ← GpioLine.request LINE_EN true 1
  sleep 300000
  en.set 0
  sleep settleUs
  pure en

/-- The control at the end of a test: drive the line high, look for the interrupt, and drive it low again. -/
def control (en irq : GpioLine) (fmt : String) (polls : Nat) : BenchM Unit := do
  en.set 1
  let hi ← pulse irq 50 polls
  en.set 0
  sleep 300000
  let v ← irq.get
  print fmt [.flag hi, .flag v]
  en.close
  irq.close

/-! ### `tools/sweep_low.py` -/

namespace SweepLow

/-- What the sweep has collected: the hits, the bytes seen and the number of commands sent. -/
structure Tally where
  hits : List Label
  seen : Bytes
  sent : Nat

def command (spi : Spi) (irq : GpioLine) (polls mode cmd0 : Nat) (acc : Tally) (cmd1 : Nat) : BenchM Tally := do
  let frame ← orValueError (Tools.SweepLow.milan cmd0 cmd1)
  let _ ← spi.duplex frame
  let p ← pulse irq 30 polls
  let rx ← spi.duplex (ones 4)
  let hit : List Label :=
    if p ∨ distinct rx.1 ≠ [0xFF] then
      [[.str "mode %d cmd %x-%d irq=%d rx=%s", .num (some mode), .num (some cmd0), .num (some cmd1), .flag p, .bytes rx.1]]
    else []
  pure { hits := acc.hits ++ hit, seen := acc.seen ++ rx.1, sent := acc.sent + 1 }

def family (spi : Spi) (irq : GpioLine) (polls mode : Nat) (acc : Tally) (cmd0 : Nat) : BenchM Tally := do
  let acc ← Raise.each (command spi irq polls mode cmd0) acc (List.range 8)
  let v ← irq.get
  if v then do
    print "   note: interrupt high after cmd0 %x in mode %d" [.num (some cmd0), .num (some mode)]
    pure acc
  else pure acc

def clockMode (irq : GpioLine) (polls : Nat) (acc : Tally) (mode : Nat) : BenchM Tally := do
  let spi ← Spi.open mode 1000000
  let acc ← Raise.each (family spi irq polls mode) acc (List.range 16)
  spi.close
  let v ← irq.get
  print "mode %d done, interrupt = %d" [.num (some mode), .flag v]
  pure acc

def main (polls : Nat) : BenchM Unit := do
  requireRoot
  let now ← ask .strftime
  print "### sweep with pin 189 LOW  %s" [.str now]
  let irq ← GpioLine.request LINE_IRQ
  let en ← holdLow 600000
  let v ← irq.get
  print "189 LOW, settled interrupt = %d (expect 0)" [.flag v]
  let acc ← Raise.each (clockMode irq polls) ⟨[], [], 0⟩ [0, 1, 2, 3]
  control en irq "control: 189 HIGH -> interrupt high: %s; back LOW -> %d" polls
  print ("\n" ++ bar 70)
  print "commands sent %d; distinct bytes seen: %s" [.num (some acc.sent), .bytes (distinct acc.seen)]
  print "ACTIVITY: %d" [.num (some acc.hits.length)]
  Raise.each (fun _ h => print "  " h) () (acc.hits.take 40)
  print (bar 70)

end SweepLow

/-! ### `tools/cs_timing_low.py` -/

namespace CsTimingLow

def BODIES : List Bytes :=
  [NOP, INSTALL, NOP, [0xA8, 0x03, 0x00, 0x70, 0xDC, 0xB3], CHIPID]

/-- `header`, whose third byte is not masked. -/
def header (n : Nat) : Option Bytes :=
  (pyBytes [0xA0, n &&& 0xFF, n >>> 8]).map fun h => h ++ [UInt8.ofNat (total h &&& 0xFF)]

/-- The set-up delay is that of an empty segment in front, the hold delay that of the data. -/
def send (spi : Spi) (data : Bytes) (setup hold : Nat) : BenchM Bytes := do
  let front : List Segment := if setup ≠ 0 then [{ tx := [], rxlen := 0, delay := setup }] else []
  let rx ← spi.xfer (front ++ [{ tx := data, rxlen := data.length, delay := hold }])
  pure (rx.1.getLastD [])

def timing (spi : Spi) (label : String) (setup hold : Nat) : BenchM Unit := do
  let t ← ask .monotonic
  Raise.each (fun _ _ => do
    let _ ← send spi (ones 4) setup hold
    pure ()) () (List.range 50)
  let t' ← ask .monotonic
  print "control %-28s %.2f ms per transfer" [.str label, .num (some ((t' - t) / 50))]

structure Case where
  speed : Nat
  setup : Nat
  hold : Nat
  inactive : Nat
  framing : String

/-- A command, the wait for the interrupt, and a read: the bytes seen and the pulses counted. -/
def exchange (spi : Spi) (irq : GpioLine) (polls : Nat) (c : Case) (acc : Bytes × Nat) (body : Bytes) :
    BenchM (Bytes × Nat) := do
  let hdr ← orValueError (header body.length)
  let frames := if c.framing = "two" then [hdr, body] else [hdr ++ body]
  Raise.each (fun _ f => do
    let _ ← send spi f c.setup c.hold
    sleep (if c.inactive ≠ 0 then c.inactive else 2000)) () frames
  let p ← pulse irq 30 polls
  let rx ← send spi (ones 4) c.setup c.hold
  pure (acc.1 ++ rx, acc.2 + if p then 1 else 0)

def Case.label (c : Case) : Label :=
  [.str "%5d kHz setup %4d hold %4d inactive %4d %s-transfer", .num (some (c.speed / 1000)), .num (some c.setup),
    .num (some c.hold), .num (some c.inactive), .str c.framing]

def runCase (irq : GpioLine) (polls : Nat) (hits : List Label) (c : Case) : BenchM (List Label) := do
  let spi ← Spi.open 0 c.speed
  let acc ← Raise.each (exchange spi irq polls c) ([], 0) BODIES
  spi.close
  let active := acc.2 ≠ 0 ∨ distinct acc.1 ≠ [0xFF]
  print "  %s  bytes %s  irq pulses %d%s"
    (c.label ++ [.bytes (distinct acc.1), .num (some acc.2), .str (if active then "   <<< ACTIVITY" else "")])
  pure (if active then hits ++ [c.label] else hits)

def cases : List Case :=
  [1000000, 10000000].flatMap fun speed =>
    [(0, 0, 0), (10, 10, 10), (50, 50, 50), (200, 200, 200), (1000, 1000, 1000), (0, 0, 500)].flatMap fun d =>
      ["two", "one"].map fun framing => ⟨speed, d.1, d.2.1, d.2.2, framing⟩

def main (polls : Nat) : BenchM Unit := do
  requireRoot
  let now ← ask .strftime
  print "### CS timing with pin 189 LOW  %s" [.str now]
  let irq ← GpioLine.request LINE_IRQ
  let en ← holdLow 600000
  let v ← irq.get
  print "189 LOW, interrupt = %d (expect 0)" [.flag v]
  let spi ← Spi.open 0 1000000
  timing spi "no delay" 0 0
  timing spi "setup 1000 + hold 1000 us" 1000 1000
  spi.close
  let hits ← Raise.each (runCase irq polls) [] cases
  control en irq "control: 189 HIGH -> interrupt high: %s; back LOW -> %d" polls
  print "ACTIVITY: %s" (if hits ≠ [] then hits.flatten else [.str "none"])

end CsTimingLow

/-! ### `tools/reset_low.py` -/

namespace ResetLow

/-- The loop of `wait_level`, begun at `t`: the latency in microseconds. -/
def waitLevelFrom (irq : GpioLine) (level : Bool) (ms t : Nat) : Nat → BenchM (Option Nat)
  | 0 => pure none
  | polls + 1 => do
      let now ← ask .monotonic
      if now - t < 1000 * ms then do
        let v ← irq.get
        if v = level then do
          let now ← ask .monotonic
          pure (some (now - t))
        else do
          sleep 200
          waitLevelFrom irq level ms t polls
      else pure none

def waitLevel (irq : GpioLine) (level : Bool) (ms polls : Nat) : BenchM (Option Nat) := do
  let t ← ask .monotonic
  waitLevelFrom irq level ms t polls

/-- The body, for a header that announces one. -/
def readBody (spi : Spi) (hdr : Bytes) : BenchM (List Shown) := do
  let n := Sigfrodr.bodyLength hdr
  if n > 0 then do
    sleep 200
    let body ← spi.duplex (ones n)
    pure [.str "\n      body %s  %r", .bytes body.1, .bytes body.1]
  else pure []

def readReply (spi : Spi) (irq : GpioLine) (polls : Nat) (tag : String) : BenchM Bool := do
  let lat ← waitLevel irq true 300 polls
  let hdr ← spi.duplex (ones 4)
  let hit := distinct hdr.1 ≠ [0xFF]
  let body ← readBody spi hdr.1
  print "   %-18s irq-high after %-16s hdr %s"
    ([.str tag, .num lat, .bytes hdr.1] ++ body ++ [.str (if hit then "   <<< NON-IDLE" else "")])
  pure (hit ∨ lat.isSome)

def readReplies (spi : Spi) (irq : GpioLine) (polls : Nat) : BenchM Bool := do
  let a ← readReply spi irq polls "ack"
  sleep 5000
  let b ← readReply spi irq polls "reply"
  pure (a || b)

def exchangeOneTransfer (polls : Nat) (spi : Spi) (irq : GpioLine) : BenchM Bool := do
  let _ ← spi.duplex Sigfrodr.PREAMBLE_00
  sleep 8000
  let _ ← spi.duplex Sigfrodr.FW_VERSION
  readReplies spi irq polls

def exchangeTwoTransfer (polls : Nat) (spi : Spi) (irq : GpioLine) : BenchM Bool := do
  Raise.each (fun _ (frame : Bytes) => do
    let _ ← spi.duplex (frame.take 4)
    sleep 2000
    let _ ← spi.duplex (frame.drop 4)
    sleep 8000) () [Sigfrodr.PREAMBLE_00, Sigfrodr.FW_VERSION]
  readReplies spi irq polls

def trial (irq : GpioLine) (speed : Nat) (name : String) (fn : Spi → GpioLine → BenchM Bool) (hits : List Label) :
    BenchM (List Label) := do
  let v ← irq.get
  print "== %s @ %d kHz   irq before = %d" [.str name, .num (some (speed / 1000)), .flag v]
  let spi ← Spi.open 0 speed
  let hit ← Raise.ensure (fn spi irq) spi.close
  sleep 200000
  pure (if hit then hits ++ [[.str "%s @ %d kHz", .str name, .num (some (speed / 1000))]] else hits)

def timed (en irq : GpioLine) (v : Nat) (ms : Nat) (fmt : String) (polls : Nat) : BenchM Unit := do
  en.set v
  let lat ← waitLevel irq (v ≠ 0) ms polls
  print fmt [.num lat]

def main (polls : Nat) : BenchM Unit := do
  requireRoot
  requireNode
  let now ← ask .strftime
  print "### pin 189 LOW test  %s" [.str now]
  let irq ← GpioLine.request LINE_IRQ
  let v ← irq.get
  print "as found: interrupt = %d" [.flag v]
  let en ← GpioLine.request LINE_EN true 1
  sleep 300000
  let v ← irq.get
  print "189 HIGH 300 ms: interrupt = %d" [.flag v]
  timed en irq 0 2000 "189 -> LOW: interrupt went LOW after %s" polls
  sleep 500000
  let v ← irq.get
  print "settled: interrupt = %d\n" [.flag v]
  let hits ← Raise.each (fun hits speed => do
    let hits ← trial irq speed "one-transfer (Sigfrodr)" (exchangeOneTransfer polls) hits
    trial irq speed "two-transfer (Windows)" (exchangeTwoTransfer polls) hits) [] [1000000, 10000000]
  print "\n### control"
  timed en irq 1 500 "189 -> HIGH: interrupt went HIGH after %s" polls
  sleep 200000
  timed en irq 0 2000 "189 -> LOW:  interrupt went LOW after %s" polls
  sleep 300000
  let v ← irq.get
  print "left with 189 LOW, interrupt = %d" [.flag v]
  en.close
  irq.close
  print ("\n" ++ bar 70)
  print "ACTIVITY (non-ff byte or interrupt pulse): %s" (if hits ≠ [] then hits.flatten else [.str "none"])
  print (bar 70)

end ResetLow

end GoodixSpi.Bench
