import GoodixSpi.Lib.Raise
import GoodixSpi.Tools.Host

/-!
# The rig the test scripts run on

The sweep scripts under `tools/` open `GpioLine` and `Spi` objects, and any call on these may raise. A script is a program over `BenchReq`; the objects are known by their line offset and their settings, and what they raise is an `Exn`. `print` and `sleep` do not raise.

What the scripts differ in, and what decides what their results mean, is the level of line 264 while they clock the bus. A `Rig` answers the requests knowing that level, and `handleRig` keeps it, with a record of it at every request.
-/

namespace GoodixSpi.Bench

open Wire Interaction Tools

inductive Exn where
  | osError (errno : Nat)
  | valueError
  | assertionError
  | systemExit (msg : String)
  deriving DecidableEq, Repr

/-- `except OSError`. -/
def Exn.isOsError : Exn → Bool
  | .osError _ => true
  | _ => false

/-- `except Exception`, which lets `SystemExit` through. -/
def Exn.isException : Exn → Bool
  | .systemExit _ => false
  | _ => true

def Exn.shown : Exn → Shown
  | .osError errno => .num (some errno)
  | .valueError => .str "ValueError"
  | .assertionError => .str "AssertionError"
  | .systemExit msg => .str msg

/-- A segment handed to `Spi.xfer`: the bytes clocked out, how many are wanted back, and the delay after it. -/
structure Segment where
  tx : Bytes
  rxlen : Nat
  csChange : Nat := 0
  delay : Nat := 0
  deriving DecidableEq, Repr

inductive BenchReq where
  | geteuid
  | pathExists (path : String)
  | strftime
  | readFile (path : String)
  | writeFile (path val : String)
  | gpioOpen (offset : Nat) (output : Bool) (value : Nat)
  | gpioSet (offset v : Nat)
  | gpioGet (offset : Nat)
  | gpioClose (offset : Nat)
  | devOpen
  | wrMode (mode : Nat)
  | rdMode
  | wrBits (bits : Nat)
  | devClose
  | spiOpen (mode speed bits : Nat)
  | spiXfer (speed bits wordDelay : Nat) (segments : List Segment)
  | spiClose
  | sleep (us : Nat)
  | monotonic
  | clockMs
  | print (fmt : String) (args : List Shown)

@[reducible] def BenchOut : BenchReq → Type
  | .geteuid | .rdMode | .monotonic | .clockMs => Nat
  | .pathExists _ | .gpioGet _ => Bool
  | .strftime | .readFile _ => String
  | .spiXfer _ _ _ segments => { rx : List Bytes // rx.map List.length = segments.map Segment.rxlen }
  | _ => Unit

abbrev BenchM := Raise BenchReq BenchOut Exn

abbrev ask (r : BenchReq) : BenchM (BenchOut r) := Raise.call r

def print (fmt : String) (args : List Shown := []) : BenchM Unit := ask (.print fmt args)
def sleep (us : Nat) : BenchM Unit := ask (.sleep us)
def sysExit {α : Type} (msg : String) : BenchM α := Raise.raise (.systemExit msg)

/-- `bytes([...])` and what is built with it. -/
def orValueError {α : Type} : Option α → BenchM α
  | some a => pure a
  | none => Raise.raise .valueError

def bar (n : Nat) : String := "".pushn '=' n

/-! ### `gpio_raw.GpioLine` and `spidev_raw.Spi` -/

structure GpioLine where
  offset : Nat

def GpioLine.request (offset : Nat) (output : Bool := false) (value : Nat := 0) : BenchM GpioLine := do
  ask (.gpioOpen offset output value)
  pure ⟨offset⟩

def GpioLine.set (l : GpioLine) (v : Nat) : BenchM Unit := ask (.gpioSet l.offset v)
def GpioLine.get (l : GpioLine) : BenchM Bool := ask (.gpioGet l.offset)
def GpioLine.close (l : GpioLine) : BenchM Unit := ask (.gpioClose l.offset)

structure Spi where
  speed : Nat
  bits : Nat

def Spi.open (mode : Nat := 0) (speed : Nat := 10000000) (bits : Nat := 8) : BenchM Spi := do
  ask (.spiOpen mode speed bits)
  pure ⟨speed, bits⟩

def Spi.xfer (s : Spi) (segments : List Segment) (wordDelay : Nat := 0) :
    BenchM { rx : List Bytes // rx.map List.length = segments.map Segment.rxlen } :=
  ask (.spiXfer s.speed s.bits wordDelay segments)

theorem headD_length {rx : List Bytes} {n : Nat} (h : rx.map List.length = [n]) : (rx.headD []).length = n := by
  cases rx with
  | nil => exact absurd h (by simp)
  | cons r rx => exact (List.cons.inj h).1

def Spi.duplex (s : Spi) (tx : Bytes) (wordDelay : Nat := 0) : BenchM { rx : Bytes // rx.length = tx.length } := do
  let rx ← s.xfer [{ tx := tx, rxlen := tx.length }] wordDelay
  pure ⟨rx.1.headD [], headD_length rx.2⟩

def Spi.close (_ : Spi) : BenchM Unit := ask .spiClose

def onDevices {α : Type} (spi : Spi) (irq : GpioLine) (p : HostM α) : BenchM α :=
  Raise.lift
    (fun r => match r with
      | .irqGet => irq.get
      | .duplex tx => spi.duplex tx
      | .sleep us => sleep us
      | .clockMs => ask .clockMs
      | .print fmt args => print fmt args)
    p

/-! ### Bytes the scripts look for -/

/-- `sorted(set(b))`. -/
def distinct (b : Bytes) : Bytes := ((List.range 256).map UInt8.ofNat).filter fun x => x ∈ b

/-- `sorted(set(b) - {0x00, 0xFF})`. -/
def odd (b : Bytes) : Bytes := (distinct b).filter fun x => x ≠ 0x00 ∧ x ≠ 0xFF

def ones (n : Nat) : Bytes := List.replicate n 0xFF

/-- A format with its arguments, which the scripts carry around as a label. -/
abbrev Label := List Shown

/-- A label, and the bytes that were seen under it. -/
abbrev Hit := Label × Bytes

/-! ### The rig -/

/-- A line: whether a script holds it, and the level it was last driven to. -/
structure Pin where
  held : Bool
  level : Bool
  deriving DecidableEq, Repr

/-- What a request does to the line with this offset. A set writes `v & 1`, and a close releases the line also when it raises. -/
def Pin.after (line : Nat) (p : Pin) (r : BenchReq) (a : Except Exn (BenchOut r)) : Pin :=
  match r, a with
  | .gpioOpen offset output value, .ok _ =>
      if offset = line then { held := true, level := if output then value &&& 1 = 1 else p.level } else p
  | .gpioSet offset v, .ok _ => if offset = line ∧ p.held then { p with level := v &&& 1 = 1 } else p
  | .gpioClose offset, _ => if offset = line then { p with held := false } else p
  | _, _ => p

/-- Everything outside a script: the chip, the bus and the sensor, which see how the line stands. -/
structure Rig (σ : Type) where
  answer : Pin → (r : BenchReq) → σ → Except Exn (BenchOut r) × σ

/-- A rig with the state of the line, and every request so far with the state of the line at it. -/
structure Stand (σ : Type) where
  env : σ
  pin : Pin
  log : List (Pin × BenchReq)

/-- `print` and `sleep` do not raise. -/
def calm (r : BenchReq) (a : Except Exn (BenchOut r)) : Except Exn (BenchOut r) :=
  match r with
  | .print _ _ => .ok ()
  | .sleep _ => .ok ()
  | _ => a

def handleRig {σ : Type} (line : Nat) (R : Rig σ) (r : BenchReq) (b : Stand σ) : Except Exn (BenchOut r) × Stand σ :=
  let a := calm r (R.answer b.pin r b.env).1
  (a, { env := (R.answer b.pin r b.env).2, pin := b.pin.after line r a, log := b.log ++ [(b.pin, r)] })

/-- Run a script on a rig, following the line with this offset. -/
def Rig.run {σ α : Type} (R : Rig σ) (line : Nat) (script : BenchM α) (b : Stand σ) : Except Exn α × Stand σ :=
  Prog.run (handleRig line R) script b

/-- A board on which nothing answers: the bus reads as ones, and no request raises. -/
def idleRig : Rig Unit where
  answer _ r s :=
    let a : BenchOut r := match r with
      | .geteuid | .rdMode | .monotonic | .clockMs => 0
      | .pathExists _ => true
      | .gpioGet _ => false
      | .strftime | .readFile _ => ""
      | .spiXfer _ _ _ segments => ⟨segments.map fun seg => ones seg.rxlen, by simp [ones]⟩
      | .writeFile _ _ | .gpioOpen _ _ _ | .gpioSet _ _ | .gpioClose _ | .devOpen | .wrMode _ | .wrBits _ | .devClose
      | .spiOpen _ _ _ | .spiClose | .sleep _ | .print _ _ => ()
    (.ok a, s)

end GoodixSpi.Bench
