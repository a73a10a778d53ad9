import GoodixSpi.Bench.Sweeps
import GoodixSpi.Tools.Framing
import GoodixSpi.Tools.Refseq

/-!
# The bring-up scripts

The parts of `tools/framing.py` and `tools/refseq.py` that open the devices, and `tools/recover_probe.py`. They try one way of resetting the sensor or of framing a command after the other, and go on to the next when one raises.
-/

namespace GoodixSpi.Bench

open Wire Interaction Tools

def uptime : BenchM Unit := do
  let text ← ask (.readFile "/proc/uptime")
  print "### uptime %ss" [.str ((text.splitOn ".").headD "")]

/-! ### `tools/framing.py` -/

namespace Framing

structure Link where
  spi : Spi
  irq : GpioLine
  one : Bool
  pre : Bool
  gap : Nat := 8000

def Link.frame (l : Link) (body : Bytes) : BenchM Unit := do
  let h := header body.length
  if l.one then do
    let _ ← l.spi.duplex (h ++ body)
    pure ()
  else do
    let _ ← l.spi.duplex h
    sleep 2000
    let _ ← l.spi.duplex body
    pure ()

def Link.command (l : Link) (body : Bytes) : BenchM Unit := do
  if l.pre then do
    l.frame NOP
    sleep l.gap
    l.frame body
  else l.frame body

def Link.read (l : Link) (tag : String) : BenchM (Option Bytes) := onDevices l.spi l.irq (Tools.Framing.Link.read tag)

/-- `None` stands for `refseq.mcu_state_packet()`. -/
def CMDS : List (String × Option Bytes × Bool) :=
  [ ("driverInstall", some INSTALL, true), ("getEvkVersion", some EVK, true), ("chipRegRead", some CHIPID, true),
    ("readOtp", some [0xA6, 0x03, 0x00, 0x00, 0x00, 0x01], true), ("getMcuState", none, true) ]

def bodyOf : Option Bytes → BenchM Bytes
  | some body => pure body
  | none => do
      let ms ← ask .clockMs
      pure (Refseq.mcuStatePacket ms)

def step (l : Link) (hit : Bool) (c : String × Option Bytes × Bool) : BenchM Bool := do
  let b ← bodyOf c.2.1
  l.command b
  sleep 50000
  if c.2.2 then do
    let reply ← l.read c.1
    pure (hit || reply.isSome)
  else pure hit

def run (oneTransfer preamble : Bool) (speed : Nat) : BenchM Bool := do
  let spi ← Spi.open 0 speed
  let irq ← GpioLine.request LINE_IRQ
  Raise.ensure (Raise.each (step { spi := spi, irq := irq, one := oneTransfer, pre := preamble }) false CMDS) do
    irq.close
    spi.close

def label (one pre : Bool) (speed : Nat) : Label :=
  [.str "%s CS, %s preamble @ %d kHz", .str (if one then "ONE" else "two"), .str (if pre then "WITH" else "no"),
    .num (some (speed / 1000))]

def trial (one pre : Bool) (wins : List Label) (speed : Nat) : BenchM (List Label) := do
  print (bar 74)
  print "== %s" (label one pre speed)
  print (bar 74)
  let wins ← Raise.tryExcept Exn.isException (run one pre speed)
    (fun e => do
      print "   !! %r" [e.shown]
      pure wins)
    fun hit => pure (if hit then wins ++ [label one pre speed] else wins)
  print ""
  sleep 200000
  pure wins

def main : BenchM Unit := do
  requireRoot
  requireNode
  let now ← ask .strftime
  print "### framing sweep  %s" [.str now]
  print "### NOP preamble = %s" [.bytes NOP]
  print ""
  let rst ← GpioLine.request LINE_RST true 1
  rst.set 0
  sleep 10000
  rst.set 1
  sleep 150000
  let wins ← Raise.each (fun wins one => Raise.each (fun wins pre => Raise.each (trial one pre) wins [10000000, 1000000])
    wins [true, false]) [] [true, false]
  rst.close
  print (bar 74)
  if wins ≠ [] then print "RESPONDED: %s" wins.flatten else print "no valid header under any framing combination"
  print (bar 74)

end Framing

/-! ### `tools/refseq.py` -/

namespace Refseq

def PINS : String := "/sys/kernel/debug/pinctrl/INT34BB:00/pins"

def WATCH : List Nat := [41, 189]

def watched (text : String) : List String :=
  (text.splitOn "\n").flatMap fun ln =>
    (WATCH.filter fun p => ln.startsWith ("pin " ++ toString p ++ " ")).map fun _ => ln.trimAsciiEnd.copy

def pads (tag : String) : BenchM Unit := do
  let out ← Raise.tryExcept Exn.isOsError (ask (.readFile PINS))
    (fun e => pure [[.str "  (pinctrl debugfs unreadable: %s)", e.shown]])
    fun text => pure ((watched text).map fun ln => [.str ln])
  print "  -- pads %-28s" [.str tag]
  Raise.each (fun _ ln => print "       " ln) () out

def resetReference : BenchM (Option GpioLine) := do
  let g ← GpioLine.request LINE_RST true 1
  pads "after acquire(value=1)"
  sleep 10000
  g.set 0
  pads "after drive LOW"
  sleep 10000
  g.close
  pads "after RELEASE"
  sleep 150000
  pads "after 150ms settle"
  pure none

def resetHoldLow : BenchM (Option GpioLine) := do
  let g ← GpioLine.request LINE_RST true 1
  sleep 10000
  g.set 0
  sleep 150000
  pads "held LOW"
  pure (some g)

def resetReleaseOnly : BenchM (Option GpioLine) := do
  let g ← GpioLine.request LINE_RST true 1
  g.close
  pads "after acquire+release"
  sleep 150000
  pure none

def resetLegacy : BenchM (Option GpioLine) := do
  let g ← GpioLine.request LINE_RST true 1
  g.set 0
  sleep 10000
  g.set 1
  sleep 150000
  pads "held HIGH (legacy)"
  pure (some g)

def neverTouch : BenchM (Option GpioLine) := do
  pads "untouched"
  pure none

def VARIANTS : List (String × BenchM (Option GpioLine)) :=
  [ ("reference  (high->low->RELEASE)", resetReference), ("hold-low   (high->low->hold)", resetHoldLow),
    ("release-only (no pulse)", resetReleaseOnly), ("legacy     (low->high->hold)", resetLegacy),
    ("baseline   (no GPIO at all)", neverTouch) ]

def probe (polls speed : Nat) : BenchM Bool := do
  let spi ← Spi.open 0 speed
  let irq ← GpioLine.request LINE_IRQ
  Raise.ensure (onDevices spi irq (Tools.Refseq.probe polls)) do
    irq.close
    spi.close

/-- The `finally` clause: close the line if a variant left it held. -/
def release : Option GpioLine → BenchM Unit
  | none => pure ()
  | some g => Raise.tryExcept Exn.isException g.close (fun _ => pure ()) pure

/-- The `try` of the loop of `main`: a variant and what follows it, and in the end the line it left held is closed. -/
def guarded {α : Type} (name : String) (fn : BenchM (Option GpioLine)) (body : BenchM α) (failed : α) : BenchM α :=
  let report (e : Exn) : BenchM α := do
    print "  !! %s: %r" [.str name, e.shown]
    pure failed
  Raise.tryExcept Exn.isException fn report fun held =>
    Raise.ensure (Raise.tryExcept Exn.isException body report pure) (release held)

def banner (fmt name : String) (speed : Nat) : BenchM Unit := do
  print (bar 78)
  print fmt [.str name, .num (some (speed / 1000))]
  print (bar 78)

def respond (polls speed : Nat) (name : String) (wins : List Label) : BenchM (List Label) := do
  let hit ← probe polls speed
  pure (if hit then wins ++ [[.str "%s @ %dkHz", .str name, .num (some (speed / 1000))]] else wins)

def trial (polls speed : Nat) (wins : List Label) (v : String × BenchM (Option GpioLine)) : BenchM (List Label) := do
  banner "== %-42s  @ %d kHz" v.1 speed
  let wins ← guarded v.1 v.2 (respond polls speed v.1 wins) wins
  pads "end of variant"
  print ""
  sleep 200000
  pure wins

def main (polls : Nat) : BenchM Unit := do
  requireRoot
  requireNode "/dev/spidev1.0 missing -- bind spidev first"
  let now ← ask .strftime
  print "### refseq  %s" [.str now]
  uptime
  print ""
  let wins ← Raise.each (fun wins speed => Raise.each (trial polls speed) wins VARIANTS) [] [10000000, 1000000]
  print (bar 78)
  if wins ≠ [] then print "SENSOR RESPONDED under: %s" wins.flatten else print "no valid header under any variant"
  print (bar 78)

end Refseq

/-! ### `tools/recover_probe.py` -/

namespace RecoverProbe

def DEV_NAME : String := "spi-GXFP51A0:00"
def SYS_DEV : String := "/sys/bus/spi/devices/" ++ DEV_NAME
def DRV : String := "/sys/bus/spi/drivers/spidev"

def w (path val : String) : BenchM Bool :=
  Raise.tryExcept Exn.isOsError (ask (.writeFile path val))
    (fun e => do
      print "     (write %s <- %s failed: %s)" [.str path, .str val, e.shown]
      pure false)
    fun _ => pure true

def unbind : BenchM Unit := do
  let ok ← w (DRV ++ "/unbind") DEV_NAME
  sleep 200000
  let found ← ask (.pathExists "/dev/spidev1.0")
  print "  spidev unbind: %s   /dev/spidev1.0 exists=%s" [.str (if ok then "ok" else "FAILED"), .flag found]

/-- The part of `bind` for a device without a driver. -/
def rebind : BenchM Unit := do
  let _ ← w (SYS_DEV ++ "/driver_override") "spidev"
  let _ ← w (DRV ++ "/bind") DEV_NAME
  pure ()

def bind : BenchM Unit := do
  let bound ← ask (.pathExists (SYS_DEV ++ "/driver"))
  if bound = false then rebind else pure ()
  sleep 300000
  let found ← ask (.pathExists "/dev/spidev1.0")
  print "  spidev bind:   /dev/spidev1.0 exists=%s" [.flag found]

def holdReset (lowMs : Nat) (thenHigh : Bool := true) (settleMs : Nat := 150) : BenchM GpioLine := do
  let g ← GpioLine.request LINE_RST true 1
  g.set 0
  sleep (1000 * lowMs)
  if thenHigh then do
    g.set 1
    sleep (1000 * settleMs)
    pure g
  else pure g

def variantLongResetWithRebind : BenchM (Option GpioLine) := do
  unbind
  let g ← holdReset 1000
  bind
  sleep 200000
  pure (some g)

def variantRebindOnly : BenchM (Option GpioLine) := do
  unbind
  bind
  sleep 200000
  pure none

def variantLongResetOnly : BenchM (Option GpioLine) := do
  let g ← holdReset 1000
  pure (some g)

def variantResetWhileUnbound : BenchM (Option GpioLine) := do
  unbind
  let g ← GpioLine.request LINE_RST true 1
  g.set 0
  sleep 500000
  bind
  g.set 1
  sleep 150000
  pure (some g)

def VARIANTS : List (String × BenchM (Option GpioLine)) :=
  [ ("full recipe: long reset + rebind", variantLongResetWithRebind), ("rebind only", variantRebindOnly),
    ("long reset only (1 s low)", variantLongResetOnly), ("reset held across the rebind", variantResetWhileUnbound) ]

/-- What is tried once a variant has run, and whether it is the `continue` of a missing node. -/
def afterRecovery (polls speed : Nat) (name : String) (wins : List Label) : BenchM (List Label × Bool) := do
  Refseq.pads "after recovery"
  let found ← ask (.pathExists "/dev/spidev1.0")
  if found = false then do
    print "  !! no spidev node -- skipping probe"
    pure (wins, true)
  else do
    let wins ← Refseq.respond polls speed name wins
    pure (wins, false)

def trial (polls : Nat) (v : String × BenchM (Option GpioLine)) (wins : List Label) (speed : Nat) :
    BenchM (List Label) := do
  Refseq.banner "== %-40s @ %d kHz" v.1 speed
  let out ← Refseq.guarded v.1 v.2 (afterRecovery polls speed v.1 wins) (wins, false)
  if out.2 then pure out.1
  else do
    print ""
    sleep 300000
    pure out.1

def main (polls : Nat) : BenchM Unit := do
  requireRoot
  let now ← ask .strftime
  print "### recover_probe  %s" [.str now]
  uptime
  print ""
  let wins ← Raise.each (fun wins v => Raise.each (trial polls v) wins [10000000, 1000000]) [] VARIANTS
  print (bar 78)
  if wins ≠ [] then print "SENSOR RESPONDED under: %s" wins.flatten
  else print "no valid header under any recovery variant"
  print (bar 78)

end RecoverProbe

end GoodixSpi.Bench
