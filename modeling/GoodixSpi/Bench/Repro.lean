import GoodixSpi.Bench.LowSweeps
import GoodixSpi.Tools.Board
import GoodixSpi.Tools.Hexdump

/-!
# `tools/cshigh_repro.py`

The first-contact test: six cases that differ in the chip-select mode, in the level of the reset line and in what is sent. Unlike the sweeps it takes nothing for granted about the board, so its requests name the GPIO chip, the line and the spidev node they go to. `Ports` is what can be followed from outside: how each line stands, and what is set of each node that is open.
-/

namespace GoodixSpi.Bench.Repro

open Wire Interaction Tools

inductive Failure where
  | py (e : Board.PyError)
  | raised (e : Exn)
  deriving DecidableEq, Repr

inductive ReproReq where
  | geteuid
  | strftime
  | pathExists (path : String)
  | readPads
  | gpioOpen (chip : String) (offset : Int) (output : Bool) (value : Nat)
  | gpioSet (chip : String) (offset : Int) (v : Nat)
  | gpioGet (chip : String) (offset : Int)
  | gpioClose (chip : String) (offset : Int)
  | spiOpen (path : String)
  | spiMode (path : String) (mode : Nat)
  | spiBits (path : String) (bits : Nat)
  | spiSpeed (path : String) (speed : Nat)
  | duplex (path : String) (tx : Bytes)
  | spiClose (path : String)
  | sleep (us : Nat)
  | print (fmt : String) (args : List Shown)

@[reducible] def ReproOut : ReproReq → Type
  | .geteuid => Nat
  | .strftime => String
  | .pathExists _ | .gpioGet _ _ => Bool
  | .readPads => List Board.Pad
  | .duplex _ tx => { rx : Bytes // rx.length = tx.length }
  | _ => Unit

abbrev ReproM := Raise ReproReq ReproOut Failure

abbrev ask (r : ReproReq) : ReproM (ReproOut r) := Raise.call r

def print (fmt : String) (args : List Shown := []) : ReproM Unit := ask (.print fmt args)
def sleep (us : Nat) : ReproM Unit := ask (.sleep us)
def sysExit {α : Type} (msg : String) : ReproM α := Raise.raise (.raised (.systemExit msg))

def SPI_CS_HIGH : Nat := 0x04

structure Line where
  chip : String
  offset : Int

def Line.set (l : Line) (v : Nat) : ReproM Unit := ask (.gpioSet l.chip l.offset v)
def Line.get (l : Line) : ReproM Bool := ask (.gpioGet l.chip l.offset)
def Line.close (l : Line) : ReproM Unit := ask (.gpioClose l.chip l.offset)

def line (chip : String) (offset : Int) (output : Bool) (value : Nat := 0) : ReproM Line := do
  ask (.gpioOpen chip offset output value)
  pure ⟨chip, offset⟩

/-- `Spi.__init__`: the node is opened, and then set up by three ioctls outside any `try`. -/
def spi (path : String) (mode speed : Nat) (bits : Nat := 8) : ReproM Unit := do
  ask (.spiOpen path)
  ask (.spiMode path mode)
  ask (.spiBits path bits)
  ask (.spiSpeed path speed)

def showPads (tag : String) (lines : List Int) : ReproM Unit := do
  let pads ← ask .readPads
  print "%s:" [.str tag]
  Raise.each (fun _ ln =>
    match Board.byLine pads ln with
    | none => pure ()
    | some p =>
        match p.cfg0 with
        | none => Raise.raise (.py .typeError)
        | some cfg0 =>
            print "  line %-4d pin %-4d %-14s PADCFG0 0x%08x"
              [.str (toString ln), .num (some p.pin), .str p.name, .num (some cfg0)]) () lines

/-- Clock out the frames, and then 256 zeros. -/
def conversation (spidev : String) (bodies : List Bytes) : ReproM Bytes := do
  Raise.each (fun _ (body : Bytes) =>
    match CsTimingLow.header body.length with
    | none => Raise.raise (.raised .valueError)
    | some h => do
        let _ ← ask (.duplex spidev h)
        sleep 2000
        let _ ← ask (.duplex spidev body)
        sleep 20000) () bodies
  let rx ← ask (.duplex spidev (zeroBytes 256))
  pure rx.1

def runCase (tag spidev : String) (en irq : Line) (resetAsserted : Bool) (modeBits : Nat) (bodies : List Bytes) :
    ReproM Unit := do
  en.set 1
  sleep 300000
  let irqInReset ← irq.get
  en.set (if resetAsserted then 1 else 0)
  sleep 600000
  let before ← irq.get
  print "\n== %s   reset=%d  irq(in reset)=%d  irq(before cmds)=%d  mode=0x%02x  cmds=%s"
    ([.str tag, .flag resetAsserted, .flag irqInReset, .flag before, .num (some modeBits)] ++
      if bodies = [] then [.str "none"] else bodies.map fun b => .bytes (b.take 1))
  spi spidev modeBits 1000000
  let rx ← Raise.ensure (conversation spidev bodies) (ask (.spiClose spidev))
  let after ← irq.get
  print "   irq after=%d   non-idle bytes: %d distinct" [.flag after, .num (some (odd rx).length)]
  if odd rx ≠ [] then
    Raise.each (fun _ (l : List Char) => print "%s" [.str (String.ofList l)]) () (Tools.CshighRepro.dump rx)
  else pure ()

/-- A case: its tag, whether the reset is held asserted, the mode, and what is sent. -/
structure Case where
  tag : String
  resetAsserted : Bool
  modeBits : Nat
  bodies : List Bytes

def cases : List Case :=
  [ ⟨"A  CS_HIGH, reset LOW, NOP+EVK+CHIPID", false, SPI_CS_HIGH, [NOP, EVK, CHIPID]⟩,
    ⟨"B  CS low,  reset LOW, NOP+EVK+CHIPID", false, 0, [NOP, EVK, CHIPID]⟩,
    ⟨"C  CS_HIGH, reset HIGH, NOP+EVK+CHIPID", true, SPI_CS_HIGH, [NOP, EVK, CHIPID]⟩,
    ⟨"D  CS_HIGH, reset LOW, no commands", false, SPI_CS_HIGH, []⟩,
    ⟨"E  CS_HIGH, reset LOW, EVK only", false, SPI_CS_HIGH, [EVK]⟩,
    ⟨"A' repeat of A", false, SPI_CS_HIGH, [NOP, EVK, CHIPID]⟩ ]

def allCases (spidev : String) (en irq : Line) : ReproM Unit := do
  Raise.each (fun _ (c : Case) => runCase c.tag spidev en irq c.resetAsserted c.modeBits c.bodies) () cases
  en.set 1
  sleep 300000
  en.set 0
  sleep 300000
  let v ← irq.get
  print "\nleft reset LOW (MCU running), irq=%d" [.flag v]

def onBoard (spidev chip : String) (rstLine irqLine : Int) : ReproM Unit := do
  let there ← ask (.pathExists spidev)
  if there = false then sysExit (spidev ++ " does not exist -- bind spidev first")
  else do
    print ""
    showPads "pads before" [rstLine, irqLine]
    let irq ← line chip irqLine false
    let en ← line chip rstLine true 1
    Raise.ensure (allCases spidev en irq) do
      en.close
      irq.close
    print ""
    showPads "pads after" [rstLine, irqLine]

/-- `main`, given what `resolve` finds and the options. -/
def main (S : Board.Sysfs) (spidev : Option String) (reset irq : Option Int) : ReproM Unit := do
  let uid ← ask .geteuid
  if uid ≠ 0 then sysExit "run as root"
  else do
    let now ← ask .strftime
    print "### GXFP51A0 CS_HIGH first-contact test  %s" [.str now]
    match Board.resolve S spidev reset irq false with
    | .error e => Raise.raise (.py e)
    | .ok r => do
        Raise.each (fun _ (l : String × List Shown) => print l.1 l.2) () r.said
        match r.spidev, r.reset, r.irq with
        | some spidev, some rstLine, some irqLine =>
            if spidev = "" then sysExit "could not resolve the board; pass --spidev/--reset/--irq"
            else onBoard spidev r.chip rstLine irqLine
        | _, _, _ => sysExit "could not resolve the board; pass --spidev/--reset/--irq"

/-! ### The board -/

/-- A line: whether and how it is requested, and the level it was last driven to. -/
structure LineState where
  held : Bool
  output : Bool
  level : Bool
  deriving DecidableEq, Repr

/-- An open node: what has been set since it was opened. -/
structure Node where
  mode : Option Nat
  bits : Option Nat
  speed : Option Nat
  deriving DecidableEq, Repr

/-- How the lines stand, and the nodes that are open. -/
structure Ports where
  lines : String → Int → LineState
  nodes : String → Option Node

def Ports.closed : Ports := ⟨fun _ _ => ⟨false, false, false⟩, fun _ => none⟩

def Ports.setLine (p : Ports) (chip : String) (offset : Int) (l : LineState) : Ports :=
  { p with lines := fun c o => if c = chip ∧ o = offset then l else p.lines c o }

def Ports.setNode (p : Ports) (path : String) (node : Option Node) : Ports :=
  { p with nodes := fun q => if q = path then node else p.nodes q }

/-- What a request does. A set writes `v & 1`; a close releases also when it raises. -/
def Ports.after (p : Ports) (r : ReproReq) (a : Except Failure (ReproOut r)) : Ports :=
  match r, a with
  | .gpioOpen chip offset output value, .ok _ =>
      p.setLine chip offset
        { held := true, output := output, level := if output then value &&& 1 = 1 else (p.lines chip offset).level }
  | .gpioSet chip offset v, .ok _ =>
      if (p.lines chip offset).held ∧ (p.lines chip offset).output then
        p.setLine chip offset { held := true, output := true, level := v &&& 1 = 1 }
      else p
  | .gpioClose chip offset, _ => p.setLine chip offset { (p.lines chip offset) with held := false }
  | .spiOpen path, .ok _ => p.setNode path (some ⟨none, none, none⟩)
  | .spiMode path mode, .ok _ => p.setNode path ((p.nodes path).map fun n => { n with mode := some mode })
  | .spiBits path bits, .ok _ => p.setNode path ((p.nodes path).map fun n => { n with bits := some bits })
  | .spiSpeed path speed, .ok _ => p.setNode path ((p.nodes path).map fun n => { n with speed := some speed })
  | .spiClose path, _ => p.setNode path none
  | _, _ => p

/-- Everything outside the script. -/
structure Outside (σ : Type) where
  answer : Ports → (r : ReproReq) → σ → Except Failure (ReproOut r) × σ

/-- What is outside, how the ports stand, and every request so far with how it stood at it. -/
structure State (σ : Type) where
  env : σ
  ports : Ports
  log : List (Ports × ReproReq)

def handle {σ : Type} (O : Outside σ) (r : ReproReq) (s : State σ) : Except Failure (ReproOut r) × State σ :=
  let a := O.answer s.ports r s.env
  (a.1, { env := a.2, ports := s.ports.after r a.1, log := s.log ++ [(s.ports, r)] })

def Outside.run {σ α : Type} (O : Outside σ) (script : ReproM α) (s : State σ) : Except Failure α × State σ :=
  Prog.run (handle O) script s

end GoodixSpi.Bench.Repro
