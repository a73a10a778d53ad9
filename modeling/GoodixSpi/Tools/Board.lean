import GoodixSpi.Tools.Host

/-!
# `tools/board.py`: which GPIO lines are the sensor's

`resolve` takes what was given on the command line or in the environment and discovers the rest from the pads `read_pads` found. What it reads from sysfs and from the environment is a `Sysfs`. It raises where the Python does: on an override that is not an integer, and where `%08x` meets a pad without a configuration word.
-/

namespace GoodixSpi.Tools.Board

structure Pad where
  pin : Nat
  name : String
  line : Option Int
  chip : Option String
  cfg0 : Option Nat
  acpi : Bool
  gpioMode : Bool
  deriving DecidableEq, Repr

inductive PyError where
  | typeError
  | valueError
  deriving DecidableEq, Repr

/-- `GPIOTXDIS` is clear. -/
def isOutput : Option Nat → Bool
  | none => false
  | some cfg0 => cfg0 &&& 0x100 = 0

/-- `GPIORXDIS` is clear. -/
def isInput : Option Nat → Bool
  | none => false
  | some cfg0 => cfg0 &&& 0x200 = 0

def routedToIoxapic : Option Nat → Bool
  | none => false
  | some cfg0 => cfg0 &&& 0x00100000 ≠ 0

/-- The pads `classify` looks at: not ACPI's, with a line and a configuration word, and in GPIO mode. -/
def considered (p : Pad) : Bool := !(p.acpi || p.line.isNone || p.cfg0.isNone || !p.gpioMode)

def classify (pads : List Pad) : List Pad × List Pad :=
  (pads.filter fun p => considered p && (isOutput p.cfg0 && !isInput p.cfg0),
    pads.filter fun p => considered p && (isInput p.cfg0 && routedToIoxapic p.cfg0))

structure Sysfs where
  environ : String → Option String
  findSpidev : Option String
  readPads : List Pad
  gpiochipPath : String → String

/-- `by_line.get(line)`; of two pads with one line the later is in the dictionary. -/
def byLine (pads : List Pad) (line : Int) : Option Pad := pads.reverse.find? fun p => p.line = some line

/-- The digits of `int`, with single underscores between them. -/
def digits : List Char → Option Nat → Option Nat
  | [], value => value
  | '_' :: c :: cs, some value => if c.isDigit then digits cs (some (10 * value + (c.toNat - 48))) else none
  | c :: cs, value => if c.isDigit then digits cs (some (10 * value.getD 0 + (c.toNat - 48))) else none

/-- What `int` passes over around a string in ASCII: the white space of C, unlike `str.strip` not `\x1c` to `\x1f`. -/
def isIntSpace (c : Char) : Bool := (9 ≤ c.toNat && c.toNat ≤ 13) || c.toNat = 32

/-- `int(s)` of a string in ASCII, of no more digits than Python takes. -/
def int (s : String) : Option Int :=
  match ((s.toList.dropWhile isIntSpace).reverse.dropWhile isIntSpace).reverse with
  | '-' :: cs => (digits cs none).map fun n => -(n : Int)
  | '+' :: cs => (digits cs none).map Int.ofNat
  | cs => (digits cs none).map Int.ofNat

/-- An argument, or else an environment variable that is set and not empty. -/
def override (arg : Option Int) (env : Option String) : Except PyError (Option Int) :=
  match arg with
  | some n => .ok (some n)
  | none =>
      match env with
      | none => .ok none
      | some s =>
          if s = "" then .ok none
          else
            match int s with
            | some n => .ok (some n)
            | none => .error .valueError

/-- The line both known boards use, unless it is ACPI's, or the first candidate. -/
def defaultReset (pads candRst : List Pad) : Option Int :=
  match byLine pads 264 with
  | some p => if p.acpi then candRst.head?.bind (·.line) else some 264
  | none => candRst.head?.bind (·.line)

/-- Line 48 if it is a candidate, or the first candidate. -/
def defaultIrq (pads candIrq : List Pad) : Option Int :=
  match byLine pads 48 with
  | some p => if p ∈ candIrq then some 48 else candIrq.head?.bind (·.line)
  | none => candIrq.head?.bind (·.line)

abbrev Said := List (String × List Shown)

def candidates (cs : List Pad) : String :=
  ", ".intercalate (cs.map fun c => toString (c.line.getD 0) ++ "(pin " ++ toString c.pin ++ " " ++ c.name ++ ")")

/-- The lines about a GPIO line that is in pinctrl; the format string raises without a configuration word. -/
def describe (fmt : String) (line : Int) (p : Pad) (remark : String) : Except PyError Said :=
  match p.cfg0 with
  | none => .error .typeError
  | some cfg0 => .ok [(fmt, [.str (toString line), .num (some p.pin), .str p.name, .num (some cfg0), .str remark])]

def sayReset (pads candRst : List Pad) (reset : Option Int) : Except PyError Said :=
  match reset, reset.bind (byLine pads) with
  | some line, some p => do
      let ok := isOutput p.cfg0 && !p.acpi
      let said ← describe "reset line  %d  (pin %d %s, PADCFG0 0x%08x)%s" line p
        (if ok then "" else "   <-- NOT a host-owned output!")
      pure (said ++ if ok then [] else [("            candidates: %s", [.str (candidates candRst)])])
  | line, _ => .ok [("reset line  %s  (not found in pinctrl -- pass --reset)", [.str (line.elim "None" toString)])]

def sayIrq (pads candIrq : List Pad) (irq : Option Int) : Except PyError Said :=
  match irq, irq.bind (byLine pads) with
  | some line, some p => do
      let ok : Bool := p ∈ candIrq
      let said ← describe "irq line    %d  (pin %d %s, PADCFG0 0x%08x)%s" line p
        (if ok then "" else "   <-- not an IOxAPIC input!")
      pure (said ++ if ok && candIrq.length ≤ 1 then []
        else [("            candidates: %s", [.str (if candIrq = [] then "none" else candidates candIrq)])])
  | line, _ => .ok [("irq line    %s  (not found -- pass --irq)", [.str (line.elim "None" toString)])]

def saySpidev : Option String → Said
  | none =>
      [("!! no spidev node found for the sensor. Bind it first:", []),
        ("   echo spidev | sudo tee /sys/bus/spi/devices/spi-GXFP51A0:00/driver_override", []),
        ("   echo spi-GXFP51A0:00 | sudo tee /sys/bus/spi/drivers/spidev/bind", [])]
  | some path => [("spidev      %s", [.str path])]

/-- `x or y` on strings that may be missing. -/
def orElse (x y : Option String) : Option String := if x = none ∨ x = some "" then y else x

def chipPath (S : Sysfs) : String :=
  match S.readPads.head?.bind (·.chip) with
  | none => "/dev/gpiochip0"
  | some label => if label = "" then "/dev/gpiochip0" else S.gpiochipPath label

structure Resolved where
  spidev : Option String
  chip : String
  reset : Option Int
  irq : Option Int
  said : Said
  deriving DecidableEq, Repr

def resolve (S : Sysfs) (spidev : Option String) (reset irq : Option Int) (quiet : Bool) :
    Except PyError Resolved := do
  let spidev := orElse (orElse spidev (S.environ "GXFP_SPIDEV")) S.findSpidev
  let reset ← override reset (S.environ "GXFP_RESET")
  let irq ← override irq (S.environ "GXFP_IRQ")
  let pads := S.readPads
  let (candRst, candIrq) := classify pads
  let chip := chipPath S
  let reset := if reset = none then defaultReset pads candRst else reset
  let aboutReset ← sayReset pads candRst reset
  let irq := if irq = none then defaultIrq pads candIrq else irq
  let aboutIrq ← sayIrq pads candIrq irq
  let said := saySpidev spidev ++ aboutReset ++ aboutIrq ++ [("gpiochip    %s", [.str chip])]
  pure { spidev := spidev, chip := chip, reset := reset, irq := irq, said := if quiet then [] else said }

end GoodixSpi.Tools.Board
