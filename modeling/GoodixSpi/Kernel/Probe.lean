import GoodixSpi.Kernel.Debugfs
import GoodixSpi.Lib.Drain

/-!
# `kernel/gxfp.c`: probe and remove

`gxfp_probe` and `gxfp_remove` as programs over what they ask of the kernel, and the life of a bound device: probe, until it is unbound; remove; and the release of the managed resources, newest first, which the driver core also does when probe fails. In between the interrupt handler runs whenever its interrupt is requested, and the file operations whenever their file is there. Freeing the interrupt waits for the handlers, removing the files for their operations.
-/

namespace GoodixSpi.Kernel

open Wire Interaction

def ENODEV : Int := 19

abbrev Gpiod := Nat

inductive GpioIndex where
  | err (e : Int)
  | absent
  | found (d : Gpiod)
  deriving DecidableEq, Repr

inductive Mem where
  | gxfp | txbuf | rxbuf
  deriving DecidableEq, Repr

inductive Managed where
  | mem (m : Mem)
  | gpio (d : Gpiod)
  | irq (n : Int)
  deriving DecidableEq, Repr

inductive File where
  | enable | reset | irqCount | irqLevel | cmd | raw | dsm | ctlregs | cstest | replay | padprobe
  deriving DecidableEq, Repr

/-- The files, with their names and modes, in the order probe creates them. -/
def debugfsFiles : List (File × String × Nat) :=
  [ (.enable, "enable", 0o644), (.reset, "reset", 0o200), (.irqCount, "irq_count", 0o444), (.irqLevel, "irq_level", 0o444),
    (.cmd, "cmd", 0o200), (.raw, "raw", 0o644), (.dsm, "dsm", 0o400), (.ctlregs, "ctlregs", 0o400),
    (.cstest, "cstest", 0o400), (.replay, "replay", 0o400), (.padprobe, "padprobe", 0o400) ]

/-- What `spi_get_chipselect` and the fields of the SPI device say after `spi_setup`. -/
structure SpiInfo where
  chipselect : Nat
  mode : Nat
  bitsPerWord : Nat
  maxSpeedHz : Nat

inductive BindReq where
  | devmKzalloc (m : Mem)
  | mutexInit
  | initWaitqueueHead
  | setDrvdata
  | getDrvdata
  | spiSetup (bitsPerWord mode : Nat) (csSetup csHold csInactive : Option Int)
  | spiInfo
  | gpiodGet (i : Nat)
  | getDirection (d : Gpiod)
  | getValue (d : Gpiod)
  | storeEnable (d : Gpiod)
  | storeIrqGpio (d : Gpiod)
  | loadEnable
  | directionOutput (d : Gpiod) (v : Bool)
  | setValue (d : Gpiod) (v : Bool)
  | acpiGpioIrqGet
  | storeIrq (n : Int)
  | requestIrq (n : Int)
  | createDir
  | createFile (f : File) (name : String) (mode : Nat)
  | removeFiles
  | print (ch : Channel) (fmt : String) (args : List Arg)

@[reducible] def BindAns : BindReq → Type
  | .devmKzalloc _ | .createFile _ _ _ => Bool
  | .spiSetup _ _ _ _ _ | .getDirection _ | .getValue _ | .acpiGpioIrqGet | .requestIrq _ => Int
  | .spiInfo => SpiInfo
  | .gpiodGet _ => GpioIndex
  | .loadEnable => Option Gpiod
  | _ => Unit

abbrev BindM := Prog BindReq BindAns

namespace Probe

abbrev ask (r : BindReq) : BindM (BindAns r) := Prog.perform r

def print (ch : Channel) (fmt : String) (args : List Arg := []) : BindM Unit := ask (.print ch fmt args)

/-- A delay is set when its parameter is not zero. -/
def delay (us : Int) : Option Int := if us ≠ 0 then some us else none

def warnSetup (ret : Int) : BindM Unit := if ret ≠ 0 then print .warn "spi_setup: %d\n" [.int ret] else pure ()

/-- The part of probe that sets the SPI device up. `adev` is the name of its ACPI companion. -/
def setupSpi (adev : Option String) (P : Setup) : BindM Unit := do
  let ret ← ask (.spiSetup 8 0 (delay P.csSetupUs) (delay P.csHoldUs) (delay P.csInactiveUs))
  warnSetup ret
  print .info "cs_setup=%dus cs_hold=%dus cs_inactive=%dus\n" [.int P.csSetupUs, .int P.csHoldUs, .int P.csInactiveUs]
  let spi ← ask .spiInfo
  print .info "ACPI %s: cs=%u mode=0x%x bits=%u max=%u Hz\n"
    [.str (adev.getD "?"), .int spi.chipselect, .int spi.mode, .int spi.bitsPerWord, .int spi.maxSpeedHz]

/-- `g->enable` and `g->irq_gpio` while probe looks for them. -/
structure Found where
  enable : Option Gpiod
  irqGpio : Option Gpiod
  deriving DecidableEq, Repr

/-- One turn of the loop over `_CRS`: the first output is the enable, and the first of the others the interrupt GPIO. -/
def findGpio (g : Found) (i : Nat) : BindM Found := do
  let d ← ask (.gpiodGet i)
  match d with
  | .err e => do
      print .info "gpiod idx %d: err %ld\n" [.int i, .int e]
      pure g
  | .absent => do
      print .info "gpiod idx %d: absent\n" [.int i]
      pure g
  | .found d => do
      let dir ← ask (.getDirection d)
      let value ← ask (.getValue d)
      print .info "gpiod idx %d: dir=%d value=%d\n" [.int i, .int dir, .int value]
      let dir ← ask (.getDirection d)
      if dir = 0 ∧ g.enable = none then do
        ask (.storeEnable d)
        pure { g with enable := some d }
      else if g.irqGpio = none then do
        ask (.storeIrqGpio d)
        pure { g with irqGpio := some d }
      else pure g

def driveEnable (touchEnable : Int) (enable : Gpiod) : BindM Unit :=
  driveEnableBy (fun v => ask (.directionOutput enable v)) (fun ch fmt args => print ch fmt args) touchEnable

/-- The interrupt of the device's `GpioInt`. -/
def gpioIrq (adev : Option String) : BindM Int := if adev.isSome then ask .acpiGpioIrqGet else pure (-ENODEV)

/-- The part of probe that requests the interrupt. Without one probe goes on. -/
def setupIrq (adev : Option String) : BindM Unit := do
  let irq ← gpioIrq adev
  ask (.storeIrq irq)
  if irq < 0 then print .warn "no ACPI GpioInt: %d\n" [.int irq]
  else do
    let ret ← ask (.requestIrq irq)
    if ret ≠ 0 then do
      print .warn "request_irq(%d): %d\n" [.int irq, .int ret]
      ask (.storeIrq (-1))
    else print .info "irq %d requested\n" [.int irq]

def createFiles : BindM Unit := do
  ask .createDir
  Prog.fold (fun _ (f : File × String × Nat) => do
    let _ ← ask (.createFile f.1 f.2.1 f.2.2)
    pure ()) () debugfsFiles

end Probe

open Probe in
def gxfpProbe (adev : Option String) (P : Setup) (touchEnable : Int) : BindM Int := do
  let g ← ask (.devmKzalloc .gxfp)
  if g = false then pure (-ENOMEM)
  else do
    let txbuf ← ask (.devmKzalloc .txbuf)
    let rxbuf ← ask (.devmKzalloc .rxbuf)
    if txbuf = false ∨ rxbuf = false then pure (-ENOMEM)
    else do
      ask .mutexInit
      ask .initWaitqueueHead
      ask .setDrvdata
      setupSpi adev P
      let found ← Prog.fold findGpio ⟨none, none⟩ [0, 1]
      match found.enable with
      | none => do
          Probe.print .err "no output (enable) GPIO found in _CRS\n"
          pure (-ENODEV)
      | some enable => do
          driveEnable touchEnable enable
          setupIrq adev
          createFiles
          Probe.print .info "probed; debugfs at /sys/kernel/debug/gxfp\n"
          pure 0

open Probe in
def gxfpRemove : BindM Unit := do
  ask .getDrvdata
  ask .removeFiles
  let enable ← ask .loadEnable
  match enable with
  | none => pure ()
  | some d => ask (.setValue d false)

/-! ### What is there -/

/-- The managed resources, newest first, what of `struct gxfp` is set up, and the files. -/
structure Res where
  managed : List Managed
  lock : Bool
  wq : Bool
  drvdata : Bool
  enable : Option Gpiod
  irqGpio : Option Gpiod
  files : List File
  deriving DecidableEq, Repr

def Res.none : Res := ⟨[], false, false, false, .none, .none, []⟩

def Res.after (s : Res) : (r : BindReq) → BindAns r → Res
  | .devmKzalloc m, true => { s with managed := .mem m :: s.managed }
  | .mutexInit, _ => { s with lock := true }
  | .initWaitqueueHead, _ => { s with wq := true }
  | .setDrvdata, _ => { s with drvdata := true }
  | .gpiodGet _, .found d => { s with managed := .gpio d :: s.managed }
  | .storeEnable d, _ => { s with enable := some d }
  | .storeIrqGpio d, _ => { s with irqGpio := some d }
  | .requestIrq n, ret => if ret = 0 then { s with managed := .irq n :: s.managed } else s
  | .createFile f _ _, true => { s with files := f :: s.files }
  | .removeFiles, _ => { s with files := [] }
  | _, _ => s

/-- The GPIOs of the device's `_CRS`, and which way they are set when it is probed. -/
structure Wiring where
  gpio : Nat → GpioIndex
  direction : Gpiod → Int

/-- The answers that are settled. -/
def Wiring.Settles (W : Wiring) (s : Res) : (r : BindReq) → BindAns r → Prop
  | .gpiodGet i, a => a = W.gpio i
  | .getDirection d, a => a = W.direction d
  | .loadEnable, a => a = s.enable
  | _, _ => True

/-! ### The life of a device -/

/-- Where the driver core is with the device; from `releasing` on with what probe returned. -/
inductive Core where
  | probing (p : BindM Int)
  | bound
  | removing (p : BindM Unit)
  | releasing (ret : Int)
  | gone (ret : Int)

/-- The driver core, what is there, and the level of each GPIO. -/
structure Life where
  core : Core
  res : Res
  level : Gpiod → Bool

def setLevel (level : Gpiod → Bool) (r : BindReq) : Gpiod → Bool :=
  match r with
  | .directionOutput d v | .setValue d v => fun c => if c = d then v else level c
  | _ => level

/-- A module: its parameters and the device's ACPI companion. -/
structure Module where
  adev : Option String
  setup : Setup
  touchEnable : Int

def Module.start (M : Module) (level : Gpiod → Bool) : Life :=
  ⟨.probing (gxfpProbe M.adev M.setup M.touchEnable), Res.none, level⟩

inductive Moves (W : Wiring) : Life → Life → Prop
  | probe {r : BindReq} {next : BindAns r → BindM Int} {res : Res} {level : Gpiod → Bool} (a : BindAns r)
      (ha : W.Settles res r a) :
      Moves W ⟨.probing (.ask r next), res, level⟩ ⟨.probing (next a), res.after r a, setLevel level r⟩
  | bind {res : Res} {level : Gpiod → Bool} : Moves W ⟨.probing (.ret 0), res, level⟩ ⟨.bound, res, level⟩
  | fail {e : Int} {res : Res} {level : Gpiod → Bool} (he : e ≠ 0) :
      Moves W ⟨.probing (.ret e), res, level⟩ ⟨.releasing e, res, level⟩
  | unbind {res : Res} {level : Gpiod → Bool} : Moves W ⟨.bound, res, level⟩ ⟨.removing gxfpRemove, res, level⟩
  | remove {r : BindReq} {next : BindAns r → BindM Unit} {res : Res} {level : Gpiod → Bool} (a : BindAns r)
      (ha : W.Settles res r a) :
      Moves W ⟨.removing (.ask r next), res, level⟩ ⟨.removing (next a), res.after r a, setLevel level r⟩
  | removed {res : Res} {level : Gpiod → Bool} :
      Moves W ⟨.removing (.ret ()), res, level⟩ ⟨.releasing 0, res, level⟩
  | release {e : Int} {m : Managed} {rest : List Managed} {res : Res} {level : Gpiod → Bool}
      (hm : res.managed = m :: rest) :
      Moves W ⟨.releasing e, res, level⟩ ⟨.releasing e, { res with managed := rest }, level⟩
  | gone {e : Int} {res : Res} {level : Gpiod → Bool} (hm : res.managed = []) :
      Moves W ⟨.releasing e, res, level⟩ ⟨.gone e, res, level⟩

/-! ### What runs meanwhile -/

inductive Kind where
  | isr
  | file (f : File)
  deriving DecidableEq, Repr

def DebugOp.file : DebugOp → File
  | .cmdWrite _ => .cmd
  | .rawWrite _ | .rawRead _ _ => .raw
  | .replay => .replay
  | .dsm _ => .dsm
  | .ctlregs => .ctlregs
  | .cstest => .cstest
  | .padprobe => .padprobe
  | .enableGet | .enableSet _ => .enable
  | .irqcountGet => .irqCount
  | .irqlevelGet => .irqLevel
  | .resetSet _ => .reset

def Serves (P : Setup) (f : File) (p : DriverM OpResult) : Prop := ∃ op : DebugOp, op.file = f ∧ p = op.prog P

/-- A running file operation drives the enable GPIO when it writes `enable` or `reset`. -/
def Life.drive (s : Life) (r : Req) : Life :=
  match r, s.res.enable with
  | .setEnable v, some d => { s with level := fun c => if c = d then v else s.level c }
  | _, _ => s

def device (M : Module) (W : Wiring) : Owner Req Ans Unit Life Kind where
  moves := Moves W
  offers s
    | .isr => ∃ n, Managed.irq n ∈ s.res.managed
    | .file f => f ∈ s.res.files
  begins s
    | .isr, p => p = gxfpIsr
    | .file f, p => ∃ q, Serves { M.setup with irqGpio := s.res.irqGpio.isSome } f q ∧ p = q >>= fun _ => pure ()
  effect r _ s := s.drive r

end GoodixSpi.Kernel
