import GoodixSpi.Bench.Sweeps

/-!
# `tools/lowstate.py`

The wrapper runs an unchanged script with `gpio_raw.GpioLine` replaced by a subclass that inverts line 264, so that a reset pulse the script means to end high ends low. Replacing the class replaces the requests a script makes.
-/

namespace GoodixSpi.Bench

open Interaction Tools

def invertedLine : Nat := 264

def inv (v : Nat) : Nat := if v ≠ 0 then 0 else 1

/-- `InvertedEnable`: the methods of a line, inverted for line 264 only. -/
def invertEnable : (r : BenchReq) → BenchM (BenchOut r)
  | .gpioOpen offset output value =>
      ask (.gpioOpen offset output (if offset = invertedLine ∧ output then inv value else value))
  | .gpioSet offset v => ask (.gpioSet offset (if offset = invertedLine then inv v else v))
  | .gpioGet offset => do
      let v ← ask (.gpioGet offset)
      pure (if offset = invertedLine then !v else v)
  | r => ask r

def lowstate {α : Type} (script : BenchM α) : BenchM α := Raise.translate invertEnable script

/-- The end of the wrapper, with the class as it was. -/
def lowstateReport : BenchM Unit := do
  let irq ← GpioLine.request LINE_IRQ
  let v ← irq.get
  print "### lowstate wrapper: finished, interrupt = %d (0 expected in the Windows state)" [.flag v]
  irq.close

def lowstateBanner (name : String) : BenchM Unit :=
  print "### lowstate wrapper: %s with pin 189 INVERTED (reset pulses end LOW)" [.str name]

/-- The whole of `lowstate.py`, for a script that is known by its name. -/
def lowstateMain (name : String) (script : BenchM Unit) : BenchM Unit := do
  lowstateBanner name
  lowstate script
  lowstateReport

end GoodixSpi.Bench
