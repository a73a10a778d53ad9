import GoodixSpi.Bench.Rig
import GoodixSpi.Tools.Dialects

/-!
# The sweeps that power the sensor with line 264 high

`tools/bruteforce.py`, `tools/wider.py`, `tools/dialects.py` and `tools/sigfrodr_exact.py`. Each sends known commands under every combination of some parameters and looks for a byte the idle bus does not show. All take line 264 for an enable: they pulse it low, drive it high and hold it until they end.
-/

namespace GoodixSpi.Bench

open Wire Interaction Tools

def LINE_RST : Nat := 264
def LINE_EN : Nat := 264
def LINE_IRQ : Nat := 48

def NOP : Bytes := [0x00, 0x05, 0x00, 0x00, 0x00, 0x00, 0x00, 0x88]
def EVK : Bytes := [0xA8, 0x03, 0x00, 0x00, 0x00, 0xFF]
def CHIPID : Bytes := [0x82, 0x06, 0x00, 0x00, 0x00, 0x00, 0x04, 0x00, 0x1E]
def INSTALL : Bytes := [0x96, 0x03, 0x00, 0x01, 0x00, 0x10]

/-- `header(body_len, ptype=0xA0)`, which `bruteforce.py`, `wider.py` and `framing.py` share. -/
def header (bodyLen : Nat) : Bytes := Tools.Dialects.hdr bodyLen

def requireRoot : BenchM Unit := do
  let uid ← ask .geteuid
  if uid ≠ 0 then sysExit "run as root" else pure ()

def requireNode (missing : String := "/dev/spidev1.0 missing") : BenchM Unit := do
  let found ← ask (.pathExists "/dev/spidev1.0")
  if found = false then sysExit missing else pure ()

def printHits (width : Nat) (head fmt nothing : String) (hits : List Hit) : BenchM Unit := do
  print ("\n" ++ bar width)
  if hits ≠ [] then do
    print head
    Raise.each (fun _ hit => print fmt (hit.1 ++ [.bytes hit.2])) () hits
  else print nothing
  print (bar width)

/-! ### `tools/bruteforce.py` -/

namespace Bruteforce

def SPI_CS_HIGH : Nat := 0x04
def SPI_LSB_FIRST : Nat := 0x08

/-- Set the mode and read it back: whether the controller took it. -/
def modeTaken (modeBits : Nat) (label : Label) : BenchM Bool :=
  Raise.tryExcept Exn.isOsError (ask (.wrMode modeBits))
    (fun _ => do
      print "  %-52s mode rejected by driver" label
      pure false)
    fun _ => do
      let m ← ask .rdMode
      if m ≠ modeBits then do
        print "  %-52s mode not honoured (0x%02x)" (label ++ [.num (some m)])
        pure false
      else pure true

/-- The three frames, and a long read. -/
def conversation (s : Spi) : BenchM Bytes := do
  Raise.each (fun _ body => do
    let _ ← s.duplex (header body.length)
    sleep 2000
    let _ ← s.duplex body
    sleep 20000) () [NOP, EVK, CHIPID]
  let rx ← s.duplex (zeroBytes 256)
  pure rx.1

def verdict (label : Label) (rx : Bytes) (results : List Hit) : BenchM (List Hit) := do
  let shown := (distinct rx).take 6
  if odd rx ≠ [] then do
    print "  %-52s distinct=%s   <<<<<<<<<<<<<< NON-IDLE BYTES: %s" (label ++ [.bytes shown, .bytes ((odd rx).take 12)])
    pure (results ++ [(label, (odd rx).take 12)])
  else do
    print "  %-52s distinct=%s" (label ++ [.bytes shown])
    pure results

def attemptOn (modeBits speed : Nat) (label : Label) (results : List Hit) : BenchM (List Hit) := do
  let s ← Spi.open modeBits speed
  Raise.tryExcept Exn.isOsError (conversation s)
    (fun e => do
      print "  %-52s transfer failed: %r" (label ++ [e.shown])
      s.close
      pure results)
    fun rx => do
      s.close
      verdict label rx results

def attempt (modeBits speed : Nat) (label : Label) (results : List Hit) : BenchM (List Hit) :=
  Raise.tryExcept Exn.isOsError (ask .devOpen)
    (fun e => do
      print "  !! open: %r" [e.shown]
      pure results)
    fun _ => do
      let taken ← Raise.ensure (modeTaken modeBits label) (ask .devClose)
      if taken = false then pure results else attemptOn modeBits speed label results

def label (mode lsb cshigh speed : Nat) : Label :=
  [.str "mode%d %s %s @%7d Hz", .num (some mode), .str (if lsb ≠ 0 then "LSB" else "MSB"),
    .str (if cshigh ≠ 0 then "CS-high" else "CS-low "), .num (some speed)]

/-- The four nested loops of `main`. -/
def sweep : BenchM (List Hit) :=
  Raise.each (fun results mode =>
    Raise.each (fun results lsb =>
      Raise.each (fun results cshigh =>
        Raise.each (fun results speed => attempt (mode ||| lsb ||| cshigh) speed (label mode lsb cshigh speed) results)
          results [10000000, 1000000, 400000, 100000, 50000])
        results [0, SPI_CS_HIGH])
      results [0, SPI_LSB_FIRST])
    [] [0, 1, 2, 3]

def main : BenchM Unit := do
  requireRoot
  requireNode "/dev/spidev1.0 missing -- is the sensor enabled in the BIOS and bound to spidev?"
  let now ← ask .strftime
  print "### brute-force bus sweep  %s" [.str now]
  print "### looking for ANY byte that is not 0x00 or 0xff\n"
  let rst ← GpioLine.request LINE_RST true 1
  rst.set 0
  sleep 10000
  rst.set 1
  sleep 150000
  let results ← sweep
  rst.close
  printHits 78 "*** THE LINE PRODUCED SOMETHING under:" "      %s   bytes %s"
    "nothing but 0x00/0xff under every combination tested" results

end Bruteforce

/-! ### `tools/wider.py` -/

namespace Wider

def reset (settleUs : Nat) : BenchM GpioLine := do
  let g ← GpioLine.request LINE_RST true 1
  g.set 0
  sleep 10000
  g.set 1
  sleep settleUs
  pure g

def probe (spi : Spi) (gapUs readLen : Nat) (wordDelay : Nat := 0) : BenchM Bytes := do
  Raise.each (fun _ body => do
    let _ ← spi.duplex (header body.length) wordDelay
    sleep gapUs
    let _ ← spi.duplex body wordDelay
    sleep 20000) () [NOP, INSTALL, EVK]
  let rx ← spi.duplex (zeroBytes readLen) wordDelay
  pure rx.1

def report (label : Label) (rx : Bytes) (hits : List Hit) : BenchM (List Hit) := do
  if odd rx ≠ [] then do
    print "  %-46s  *** NON-IDLE: %s ***" (label ++ [.bytes ((odd rx).take 12)])
    pure (hits ++ [(label, (odd rx).take 12)])
  else do
    print "  %-46s  %s only" (label ++ [.bytes (distinct rx)])
    pure hits

def trial (settleUs gapUs readLen : Nat) (label : Label) (hits : List Hit) : BenchM (List Hit) := do
  let g ← reset settleUs
  let s ← Spi.open 0 1000000
  let rx ← probe s gapUs readLen
  let hits ← report label rx hits
  s.close
  g.close
  pure hits

/-- A trial of which a failing transfer is reported. -/
def guardedTrial (bits wordDelay : Nat) (label : Label) (failed : String) (hits : List Hit) : BenchM (List Hit) := do
  let g ← reset 200000
  let s ← Spi.open 0 1000000 bits
  let hits ← Raise.tryExcept Exn.isOsError (do
      let rx ← probe s 2000 512 wordDelay
      report label rx hits)
    (fun e => do
      print failed (label.tail ++ [e.shown])
      pure hits)
    pure
  s.close
  g.close
  pure hits

def settleAxis (hits : List Hit) : BenchM (List Hit) := do
  print "--- 1. SETTLE TIME after reset (never varied; always 150 ms)"
  Raise.each (fun hits settle => trial settle 2000 512 [.str "settle %.2f s", .num (some settle)] hits) hits
    [150000, 500000, 1000000, 3000000, 5000000]

def wordDelayAxis (hits : List Hit) : BenchM (List Hit) := do
  print "\n--- 2. WORD DELAY between bytes (never varied; always 0)"
  Raise.each (fun hits wd => guardedTrial 8 wd [.str "word delay %3d us", .num (some wd)] "  word delay %3d us -> rejected (%s)" hits) hits
    [0, 5, 20, 100]

def bitsTrial (hits : List Hit) (bpw : Nat) : BenchM (List Hit) := do
  ask .devOpen
  let ok ← Raise.tryExcept Exn.isOsError (ask (.wrBits bpw)) (fun _ => pure false) fun _ => pure true
  ask .devClose
  if ok = false then do
    print "  bits/word %2d -> rejected by driver" [.num (some bpw)]
    pure hits
  else guardedTrial bpw 0 [.str "bits/word %2d", .num (some bpw)] "  bits/word %2d -> transfer failed (%s)" hits

def bitsAxis (hits : List Hit) : BenchM (List Hit) := do
  print "\n--- 3. BITS PER WORD (never varied; always 8)"
  let hits ← Raise.each bitsTrial hits [8, 16, 32]
  ask .devOpen
  Raise.tryExcept Exn.isOsError (ask (.wrBits 8)) (fun _ => pure ()) pure
  ask .devClose
  pure hits

def gapAxis (hits : List Hit) : BenchM (List Hit) := do
  print "\n--- 4. HEADER->BODY GAP (always 2 ms until now)"
  Raise.each (fun hits gap => trial 200000 gap 512 [.str "gap %5.0f ms", .num (some gap)] hits) hits
    [0, 2000, 20000, 100000]

def windowAxis (hits : List Hit) : BenchM (List Hit) := do
  print "\n--- 5. HUGE READ WINDOW (8 KiB, in case a reply is very late)"
  trial 200000 2000 8192 [.str "8 KiB read"] hits

def hammerAxis (hits : List Hit) : BenchM (List Hit) := do
  print "\n--- 6. HAMMERING: 200 repeats then a long read"
  let g ← reset 200000
  let s ← Spi.open 0 1000000
  Raise.each (fun _ _ => do
    let _ ← s.duplex (header EVK.length)
    let _ ← s.duplex EVK
    pure ()) () (List.range 200)
  let rx ← s.duplex (zeroBytes 4096)
  let hits ← report [.str "after 200 repeats"] rx.1 hits
  s.close
  g.close
  pure hits

def main : BenchM Unit := do
  requireRoot
  requireNode
  let now ← ask .strftime
  print "### wider sweep  %s" [.str now]
  print "### detector: any byte that is not 0x00 or 0xff\n"
  let hits ← settleAxis []
  let hits ← wordDelayAxis hits
  let hits ← bitsAxis hits
  let hits ← gapAxis hits
  let hits ← windowAxis hits
  let hits ← hammerAxis hits
  printHits 70 "*** SOMETHING APPEARED:" "      %-40s bytes %s" "nothing but 0x00/0xff on every axis tested" hits

end Wider

/-! ### `tools/dialects.py` -/

namespace Dialects

def reset : BenchM GpioLine := do
  let g ← GpioLine.request LINE_RST true 1
  g.set 0
  sleep 10000
  g.set 1
  sleep 200000
  pure g

/-- Look for an answer and note what is seen; the global list of hits is passed along. -/
def check (s : Spi) (label : Label) (hits : List Hit) : BenchM (Bool × List Hit) := do
  let rx ← s.duplex (zeroBytes 64)
  if odd rx.1 ≠ [] then do
    print "   %-40s *** NON-IDLE %s ***" (label ++ [.bytes ((odd rx.1).take 12)])
    pure (true, hits ++ [(label, (odd rx.1).take 12)])
  else pure (false, hits)

def poke (s : Spi) (tx : Bytes) (us : Nat) (label : Label) (hits : List Hit) : BenchM (List Hit) := do
  let _ ← s.duplex tx
  sleep us
  let seen ← check s label hits
  pure seen.2

def milanStep (s : Spi) (c0 : Nat) (acc : Nat × List Hit) (c1 : Nat) : BenchM (Nat × List Hit) := do
  let b := Tools.Dialects.milan c0 c1
  let _ ← s.duplex (Tools.Dialects.hdr b.length)
  sleep 1000
  let _ ← s.duplex b
  sleep 10000
  let seen ← check s
    [.str "cmd0=0x%X cmd1=%d (0x%02x)", .num (some c0), .num (some c1), .num (some (((c0 <<< 4) ||| (c1 <<< 1)) &&& 0xFF))]
    acc.2
  pure (if seen.1 then acc.1 + 1 else acc.1, seen.2)

def milanSpace (s : Spi) : BenchM (List Hit) := do
  print "--- 1. the ENTIRE Milan command space (cmd0 0-F x cmd1 0-7 = 128)"
  let acc ← Raise.each (fun acc c0 => Raise.each (milanStep s c0) acc (List.range 8)) (0, []) (List.range 16)
  print "   128 commands sent, %d produced anything" [.num (some acc.1)]
  pure acc.2

def rawPatterns (s : Spi) (hits : List Hit) : BenchM (List Hit) := do
  print "\n--- 2. OpenGoodixSPI raw patterns (no transport header)"
  Raise.each (fun hits (x : String × UInt8) => do
    let hits ← poke s (List.replicate 4 x.2) 20000 [.str "raw %s x4", .str x.1] hits
    poke s (List.replicate 8 x.2) 20000 [.str "raw %s x8", .str x.1] hits)
    hits [("WAKE 0xB0", 0xB0), ("CHIPID 0xF0", 0xF0), ("RESET 0x0C", 0x0C)]

def dfuFrame (cmd : UInt8) : Bytes :=
  let f := [0x44, 0x47, cmd, 0x00, 0x00, 0x00]
  f ++ [UInt8.ofNat (total f &&& 0xFF), UInt8.ofNat ((total f >>> 8) &&& 0xFF)]

def byCommand (s : Spi) (fmt : String) (frame : UInt8 → Bytes) (cmds : List UInt8) (hits : List Hit) : BenchM (List Hit) :=
  Raise.each (fun hits cmd => poke s (frame cmd) 30000 [.str fmt, .bytes [cmd]] hits) hits cmds

def dfu (s : Spi) (hits : List Hit) : BenchM (List Hit) := do
  print "\n--- 3. GR5515 DFU framing, magic 'GD' (0x4744)"
  byCommand s "GR5515 DFU cmd 0x%02x" dfuFrame [0x01, 0x02, 0x05, 0x10] hits

def iha (s : Spi) (hits : List Hit) : BenchM (List Hit) := do
  print "\n--- 4. IHA framing, magic 0x00010000 big-endian"
  byCommand s "IHA cmd 0x%02x" (fun cmd => [0x00, 0x01, 0x00, 0x00, cmd, 0x00, 0x00, 0x00]) [0x19, 0x07, 0x09] hits

def ccf2 (s : Spi) (hits : List Hit) : BenchM (List Hit) := do
  print "\n--- 5. 0xccf2 community magic"
  byCommand s "ccf2 cmd 0x%02x" (fun cmd => [0xCC, 0xF2, cmd, 0x00, 0x00, 0x00, 0x00, 0x00]) [0xA0, 0xAE, 0x00] hits

def barePatterns (s : Spi) (hits : List Hit) : BenchM (List Hit) := do
  print "\n--- 6. bare patterns"
  Raise.each (fun hits (x : String × Bytes) => poke s x.2 30000 [.str x.1] hits) hits
    [("all 0x00", zeroBytes 32), ("all 0xff", ones 32), ("all 0xaa", List.replicate 32 0xAA),
      ("all 0x55", List.replicate 32 0x55), ("0..0x7f ramp", (List.range 128).map UInt8.ofNat)]

def main : BenchM Unit := do
  requireRoot
  requireNode
  let now ← ask .strftime
  print "### dialect sweep  %s\n" [.str now]
  let g ← reset
  let s ← Spi.open 0 1000000
  let hits ← milanSpace s
  let hits ← rawPatterns s hits
  let hits ← dfu s hits
  let hits ← iha s hits
  let hits ← ccf2 s hits
  let hits ← barePatterns s hits
  s.close
  g.close
  printHits 68 "*** THE SENSOR SAID SOMETHING:" "     %-42s %s"
    "every dialect, every command, every pattern: ff and nothing else" hits

end Dialects

/-! ### `tools/sigfrodr_exact.py` -/

namespace Sigfrodr

def PREAMBLE_00 : Bytes := [0xA0, 0x08, 0x00, 0xA8, 0x00, 0x05, 0x00, 0x00, 0x00, 0x00, 0x00, 0x88]
def PREAMBLE_01 : Bytes := [0xA0, 0x08, 0x00, 0xA8, 0x01, 0x05, 0x00, 0x00, 0x00, 0x00, 0x00, 0x88]
def FW_VERSION : Bytes := [0xA0, 0x06, 0x00, 0xA6, 0xA8, 0x03, 0x00, 0x70, 0xDC, 0xB3]

/-- A frame's header has the right sum and announces the rest of the frame. -/
def Framed (f : Bytes) : Bool :=
  f[3]? = some (UInt8.ofNat (total (f.take 3) &&& 0xFF)) &&
    ((f.getD 1 0).toNat ||| ((f.getD 2 0).toNat <<< 8)) = f.length - 4

def checkConstants : BenchM Unit :=
  if Framed PREAMBLE_00 && Framed FW_VERSION &&
      (FW_VERSION.drop 4).getLast? = some (low8 (0xAA - total (FW_VERSION.drop 4).dropLast)) then pure ()
  else Raise.raise .assertionError

/-- The length a reply's header announces if the header is right and the length is one that is read, else zero. -/
def bodyLength (hdr : Bytes) : Nat :=
  let n := (hdr.getD 1 0).toNat ||| ((hdr.getD 2 0).toNat <<< 8)
  let ok := hdr.getD 3 0 = UInt8.ofNat (total (hdr.take 3) &&& 0xFF) ∧
    ((hdr.getD 0 0).toNat >>> 4 = 0xA ∨ (hdr.getD 0 0).toNat >>> 4 = 0xB)
  if ok ∧ 0 < n ∧ n ≤ 2048 then n else 0

/-- The end of `exchange`: the body, if the header announces one, and whether anything answered. -/
def reply (spi : Spi) (ack hdr : Bytes) (out : List Label) : BenchM (List Label × Bool) :=
  if bodyLength hdr > 0 then do
    sleep 200
    let body ← spi.duplex (ones (bodyLength hdr))
    pure (out ++ [[.str "body %s  %r", .bytes body.1, .bytes (body.1.drop 3)]], true)
  else pure (out, distinct (ack ++ hdr) ≠ [0xFF])

/-- A read of four bytes, and the interrupt after it. -/
def readFour (spi : Spi) (irq : GpioLine) : BenchM (Bytes × Bool) := do
  let rx ← spi.duplex (ones 4)
  let v ← irq.get
  pure (rx.1, v)

/-- The log lines and whether anything answered; `scale` stretches the delays, in percent. -/
def exchange (spi : Spi) (irq : GpioLine) (scale : Nat) (preamble : Bytes) : BenchM (List Label × Bool) := do
  let _ ← spi.duplex preamble
  sleep (8 * scale * 10)
  let _ ← spi.duplex FW_VERSION
  sleep (10 * scale * 10)
  let ack ← readFour spi irq
  sleep (5 * scale * 10)
  let hdr ← readFour spi irq
  reply spi ack.1 hdr.1
    [[.str "ack  %s  irq=%d", .bytes ack.1, .flag ack.2], [.str "hdr  %s  irq=%d", .bytes hdr.1, .flag hdr.2]]

structure Row where
  label : Label
  hit : Bool
  control : Bool

def verdict (control hit : Bool) : String :=
  if control = false then "INVALID (control: irq=0, rail not up)"
  else if hit then "*** RESPONDED ***" else "silent (control OK)"

def runRow (label : Label) (en irq : GpioLine) (speed scale : Nat) (preamble : Bytes) (prep : GpioLine → BenchM Unit) :
    BenchM Row := do
  prep en
  let control ← irq.get
  let spi ← Spi.open 0 speed
  let out ← Raise.ensure (exchange spi irq scale preamble) spi.close
  print "== %-52s %s" (label ++ [.str (verdict control out.2)])
  Raise.each (fun _ l => print "     " l) () out.1
  pure ⟨label, out.2, control⟩

def noReset (e : GpioLine) : BenchM Unit := do
  e.set 1
  sleep 1000000

def trueCycle (e : GpioLine) : BenchM Unit := do
  e.set 0
  sleep 500000
  e.set 1
  sleep 600000

def longSettle (e : GpioLine) : BenchM Unit := do
  e.set 0
  sleep 500000
  e.set 1
  sleep 3000000

def table (en irq : GpioLine) : BenchM (List Row) :=
  Raise.each (fun rows (prep : String × (GpioLine → BenchM Unit)) =>
    Raise.each (fun rows speed =>
      Raise.each (fun rows scale =>
        Raise.each (fun rows (pre : String × Bytes) => do
          let row ← runRow
            [.str "%s | %d kHz | delay x%.1f | %s", .str prep.1, .num (some (speed / 1000)), .num (some scale), .str pre.1]
            en irq speed scale pre.2 prep.2
          pure (rows ++ [row]))
          rows [("pre 00", PREAMBLE_00), ("pre 01", PREAMBLE_01)])
        rows [100, 150, 300])
      rows [10000000, 1000000])
    [] [("no reset", noReset), ("true power cycle, 600 ms", trueCycle), ("true power cycle, 3 s", longSettle)]

/-- The control of the control: the interrupt pad must follow the line. -/
def controlCheck (en irq : GpioLine) : BenchM Unit := do
  en.set 0
  sleep 500000
  let off ← irq.get
  en.set 1
  sleep 300000
  let on ← irq.get
  print "\n### control check: rail off -> irq=%d (expect 0), rail on -> irq=%d (expect 1)" [.flag off, .flag on]

def main : BenchM Unit := do
  requireRoot
  requireNode
  checkConstants
  let now ← ask .strftime
  print "### Sigfrodr exact first-contact  %s" [.str now]
  let irq ← GpioLine.request LINE_IRQ
  let v ← irq.get
  print "### as found: irq pad = %d (1 means the rail is already up)" [.flag v]
  irq.close
  let irq ← GpioLine.request LINE_IRQ
  let found ← irq.get
  let en ← GpioLine.request LINE_EN true (if found then 1 else 0)
  let rows ← table en irq
  controlCheck en irq
  en.close
  irq.close
  print ("\n" ++ bar 74)
  print "rows %d, valid (rail proven up) %d, responded %d"
    [.num (some rows.length), .num (some (rows.filter (·.control)).length), .num (some (rows.filter (·.hit)).length)]
  Raise.each (fun _ row => print "  RESPONDED: " row.label) () (rows.filter (·.hit))
  print (bar 74)

end Sigfrodr

end GoodixSpi.Bench
