import GoodixSpi.Lib.Prog
import GoodixSpi.Tools.Gxfp

/-!
# The host the tools run on, and `tools/gxfp.py`'s `Sensor`

The tools drive the sensor from user space through `spidev_raw` and `gpio_raw`. Their code is an interaction program over `HostReq`; a `Host` answers it. `duplex` clocks a string out and returns as many bytes.

`wait_irq` polls against the wall clock. How many polls the clock allows is not the program's to decide, so the number is a parameter.
-/

namespace GoodixSpi.Tools

open Wire Interaction

/-- An argument of a printed line. -/
inductive Shown where
  | str (s : String)
  | bytes (b : Bytes)
  | num (n : Option Nat)
  | flag (v : Bool)
  deriving DecidableEq, Repr

inductive HostReq where
  | irqGet
  | duplex (tx : Bytes)
  | sleep (us : Nat)
  | clockMs
  | print (fmt : String) (args : List Shown)

@[reducible] def HostAns : HostReq → Type
  | .irqGet => Bool
  | .duplex tx => { rx : Bytes // rx.length = tx.length }
  | .clockMs => Nat
  | .sleep _ | .print _ _ => Unit

abbrev HostM := Prog HostReq HostAns

/-- What the tools do not control: the interrupt line, the sensor on the bus, and time. -/
structure Host (σ : Type) where
  irqGet : σ → Bool × σ
  duplex : (tx : Bytes) → σ → { rx : Bytes // rx.length = tx.length } × σ
  sleep : Nat → σ → σ
  clockMs : σ → Nat × σ

/-- The host's state and the lines printed, newest first. -/
structure Session (σ : Type) where
  host : σ
  printed : List (String × List Shown)

variable {σ : Type}

def handleHost (H : Host σ) : (r : HostReq) → Session σ → HostAns r × Session σ
  | .irqGet, s => ((H.irqGet s.host).1, { s with host := (H.irqGet s.host).2 })
  | .duplex tx, s => ((H.duplex tx s.host).1, { s with host := (H.duplex tx s.host).2 })
  | .sleep us, s => ((), { s with host := H.sleep us s.host })
  | .clockMs, s => ((H.clockMs s.host).1, { s with host := (H.clockMs s.host).2 })
  | .print fmt args, s => ((), { s with printed := (fmt, args) :: s.printed })

abbrev issue (r : HostReq) : HostM (HostAns r) := Prog.perform r

def irqGet : HostM Bool := issue .irqGet
def duplex (tx : Bytes) : HostM { rx : Bytes // rx.length = tx.length } := issue (.duplex tx)
def sleep (us : Nat) : HostM Unit := issue (.sleep us)
def print (fmt : String) (args : List Shown := []) : HostM Unit := issue (.print fmt args)

/-- `b"\x00" * n`. -/
def zeroBytes (n : Nat) : Bytes := List.replicate n 0

/-- `wait_irq`, for as many polls as the clock allows before the timeout. -/
def waitIrq (level : Bool) : Nat → HostM Bool
  | 0 => pure false
  | polls + 1 => do
      let v ← irqGet
      if v = level then pure true
      else do
        sleep 1000
        waitIrq level polls

namespace Sensor

def send (cmd0 : Nat) (cmd1 : Nat := 0) (payload : Bytes := []) (checksum : Bool := true) (ptype : Nat := PKT_MSG) :
    HostM Unit := do
  let body := message cmd0 cmd1 payload checksum
  let hdr := spiHeader body.length ptype
  print "[tx] %s cmd=0x%02x hdr=%s body=%s"
    [.str (cmd0Name cmd0), .num (some ((cmd0 <<< 4) ||| (cmd1 <<< 1))), .bytes hdr, .bytes body]
  let _ ← duplex hdr
  sleep 2000
  let _ ← duplex body
  pure ()

/-- The body of `read_packet` after the interrupt. -/
def readBody (hdr : Bytes) : HostM (Option (Bytes × Bytes)) := do
  let n := checkHeader hdr
  print "[rx] hdr=%s -> %s" [.bytes hdr, .num n]
  match n with
  | none => pure none
  | some n =>
      if n = 0 ∨ n > 4096 then pure none
      else do
        let body ← duplex (zeroBytes n)
        print "[rx] body:\n%s" [.bytes body.1]
        pure (some (hdr, body.1))

def readPacket (polls : Nat) : HostM (Option (Bytes × Bytes)) := do
  let ready ← waitIrq true polls
  if ready = false then do
    print "[rx] IRQ never asserted"
    pure none
  else do
    let hdr ← duplex (zeroBytes 4)
    readBody hdr.1

end Sensor

end GoodixSpi.Tools
