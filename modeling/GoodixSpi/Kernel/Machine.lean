import GoodixSpi.Lib.Buffer
import GoodixSpi.Lib.Prog

/-!
# The machine the driver runs on

The driver's code is an interaction program over the requests below: every access to `struct gxfp`, to a buffer, to the mutex, to the SPI core, to a register or to the log is one request. `handle` answers them. It keeps the shared state `Gxfp`, asks an environment for everything the driver does not control (the sensor's bytes, SPI errors, failing allocations, register values), and records an event log, newest first, in which the buses, the buffer indices and the output of a run can be read off.

A transfer is one request. What the controller stores on a failed transfer is unknown, so an answer carries the bytes that reached the receive buffer along with the error code.
-/

namespace GoodixSpi.Kernel

open Wire Interaction

def GXFP_BUF_MAX : Nat := 4096

/-- `struct gxfp`, with the level of the enable GPIO and whether the interrupt line is enabled. -/
structure Gxfp where
  enable : Bool
  lock : Option Nat
  irqCount : UInt32
  dataReady : Bool
  irqMasked : Bool
  irqEnabled : Bool
  txbuf : Buffer GXFP_BUF_MAX
  rxbuf : Buffer GXFP_BUF_MAX
  rxlen : Nat

/-- Where in the source a transfer is submitted. -/
inductive Site where
  | frameHdr | frameBody | recvHdr | recvBody | replayHdr | replayBody | raw | cstest | padprobe
  deriving DecidableEq, Repr

/-- What a transfer clocks out: a caller's bytes, nothing (the controller sends zeros), or the shared transmit buffer. -/
inductive TxSrc where
  | bytes (b : Bytes)
  | zeros
  | txbuf
  deriving DecidableEq, Repr

/-- Where a transfer's answer is stored: nowhere, in a caller's buffer, or in the shared receive buffer. -/
inductive RxDst where
  | discard
  | caller
  | rxbuf
  deriving DecidableEq, Repr

structure Xfer where
  site : Site
  tx : TxSrc
  rx : RxDst
  len : Nat
  speedHz : Nat := 0
  async : Bool := false
  deriving DecidableEq, Repr

/-- The outcome of a transfer: the return value and the bytes that were clocked in. A successful synchronous transfer fills its buffer; a rejected asynchronous one stores nothing. -/
structure XferAns (x : Xfer) where
  ret : Int
  data : Bytes
  short : data.length ≤ x.len
  full : x.async = false → ret = 0 → data.length = x.len
  rejected : x.async = true → ret ≠ 0 → data = []

/-- The buffers whose indices are accounted for. -/
inductive Buf where
  | txbuf | rxbuf | payload | body | out
  deriving DecidableEq, Repr

inductive Channel where
  | info | err | warn | seq
  deriving DecidableEq, Repr

inductive Arg where
  | int (n : Int)
  | str (s : String)
  | bytes (b : Bytes)
  deriving DecidableEq, Repr

inductive Req where
  | kmalloc (size : Nat)
  | ioremap (addr : Nat)
  | readl (addr : Nat)
  | writel (addr : Nat) (v : UInt32)
  | sleep (us : Nat)
  | irqLevel
  | print (ch : Channel) (fmt : String) (args : List Arg)
  | touch (b : Buf) (size off len : Nat)
  | lock
  | unlock
  | getDataReady
  | setDataReady (v : Bool)
  | sleepOnWq (ms : Nat)
  | wakeUp
  | incIrqCount
  | getIrqCount
  | getIrqMasked
  | setIrqMasked (v : Bool)
  | disableIrq
  | getEnable
  | setEnable (v : Bool)
  | getRxlen
  | setRxlen (n : Nat)
  | txStore (off : Nat) (new : Bytes)
  | rxLoad (off len : Nat)
  | spi (x : Xfer)

@[reducible] def Ans : Req → Type
  | .kmalloc _ | .ioremap _ | .irqLevel | .getDataReady | .getIrqMasked | .getEnable => Bool
  | .readl _ | .incIrqCount | .getIrqCount => UInt32
  | .getRxlen => Nat
  | .rxLoad _ _ => Bytes
  | .spi x => XferAns x
  | _ => Unit

abbrev DriverM := Prog Req Ans

/-! ### The environment -/

/-- Everything outside the driver, as a machine with its own state: the sensor and the SPI core behind `xfer`, the allocator, the mapped registers, the interrupt line, and time. -/
structure Env (ε : Type) where
  kmalloc : Nat → ε → Bool × ε
  ioremap : Nat → ε → Bool × ε
  readl : Nat → ε → UInt32 × ε
  writel : Nat → UInt32 → ε → ε
  sleep : Nat → ε → ε
  irqLevel : ε → Bool × ε
  xfer : (x : Xfer) → Bytes → ε → XferAns x × ε

inductive Event where
  | bus (site : Site) (rx : RxDst) (mosi : Bytes) (ret : Int) (miso : Bytes)
  | touch (b : Buf) (size off len : Nat)
  | rxlen (n : Nat)
  | print (ch : Channel) (fmt : String) (args : List Arg)
  | enable (v : Bool)
  | dataReady (v : Bool)
  | waitCond (v : Bool)
  | irqDisabled
  deriving DecidableEq, Repr

structure Entry where
  tid : Nat
  event : Event
  deriving DecidableEq, Repr

structure World (ε : Type) where
  g : Gxfp
  env : ε
  log : List Entry

variable {ε : Type}

/-- The state probe leaves with `touch_enable` in its default, and an empty log. -/
def probed (e : ε) : World ε where
  g :=
    { enable := false
      lock := none
      irqCount := 0
      dataReady := false
      irqMasked := false
      irqEnabled := true
      txbuf := Buffer.zeros _
      rxbuf := Buffer.zeros _
      rxlen := 0 }
  env := e
  log := []

/-- A machine on which everything succeeds and the sensor clocks out zeros. -/
def Env.idle : Env Unit where
  kmalloc _ e := (true, e)
  ioremap _ e := (true, e)
  readl _ e := (0, e)
  writel _ _ e := e
  sleep _ e := e
  irqLevel e := (false, e)
  xfer x _ e := (⟨0, List.replicate x.len 0, by simp, by simp, by simp⟩, e)

def mosi (g : Gxfp) (x : Xfer) : Bytes :=
  match x.tx with
  | .bytes b => b
  | .zeros => List.replicate x.len 0
  | .txbuf => g.txbuf.load 0 x.len

def answer (E : Env ε) : (r : Req) → Gxfp → ε → Ans r × ε
  | .kmalloc size, _, e => E.kmalloc size e
  | .ioremap addr, _, e => E.ioremap addr e
  | .readl addr, _, e => E.readl addr e
  | .writel addr v, _, e => ((), E.writel addr v e)
  | .sleep us, _, e => ((), E.sleep us e)
  -- woken when the flag is up, and otherwise only by the timeout
  | .sleepOnWq ms, g, e => ((), if g.dataReady then e else E.sleep (1000 * ms) e)
  | .irqLevel, _, e => E.irqLevel e
  | .getDataReady, g, e => (g.dataReady, e)
  | .incIrqCount, g, e => (g.irqCount + 1, e)
  | .getIrqCount, g, e => (g.irqCount, e)
  | .getIrqMasked, g, e => (g.irqMasked, e)
  | .getEnable, g, e => (g.enable, e)
  | .getRxlen, g, e => (g.rxlen, e)
  | .rxLoad off len, g, e => (g.rxbuf.load off len, e)
  | .spi x, g, e => E.xfer x (mosi g x) e
  | .print _ _ _, _, e | .touch _ _ _ _, _, e | .lock, _, e | .unlock, _, e | .setDataReady _, _, e
  | .wakeUp, _, e | .setIrqMasked _, _, e | .disableIrq, _, e | .setEnable _, _, e | .setRxlen _, _, e
  | .txStore _ _, _, e => ((), e)

def update (tid : Nat) : (r : Req) → Ans r → Gxfp → Gxfp
  | .lock, _, g => { g with lock := some tid }
  | .unlock, _, g => { g with lock := none }
  | .setDataReady v, _, g => { g with dataReady := v }
  | .incIrqCount, n, g => { g with irqCount := n }
  | .setIrqMasked v, _, g => { g with irqMasked := v }
  | .disableIrq, _, g => { g with irqEnabled := false }
  | .setEnable v, _, g => { g with enable := v }
  | .setRxlen n, _, g => { g with rxlen := n }
  | .txStore off new, _, g => { g with txbuf := g.txbuf.store off new }
  | .spi x, a, g => if x.rx = .rxbuf then { g with rxbuf := g.rxbuf.store 0 a.data } else g
  | _, _, g => g

/-- The buffer ranges a request makes the driver or the controller index. -/
def accesses : Req → List (Buf × Nat × Nat × Nat)
  | .touch b size off len => [(b, size, off, len)]
  | .txStore off new => [(.txbuf, GXFP_BUF_MAX, off, new.length)]
  | .rxLoad off len => [(.rxbuf, GXFP_BUF_MAX, off, len)]
  | .spi x =>
      (if x.tx = .txbuf then [(.txbuf, GXFP_BUF_MAX, 0, x.len)] else []) ++
        (if x.rx = .rxbuf then [(.rxbuf, GXFP_BUF_MAX, 0, x.len)] else [])
  | _ => []

/-- What a request leaves in the log besides its accesses. -/
def record : (r : Req) → Ans r → Gxfp → List Event
  | .spi x, a, g => [.bus x.site x.rx (mosi g x) a.ret a.data]
  | .setRxlen n, _, _ => [.rxlen n]
  | .print ch fmt args, _, _ => [.print ch fmt args]
  | .setEnable v, _, _ => [.enable v]
  | .setDataReady v, _, _ => [.dataReady v]
  | .getDataReady, v, _ => [.waitCond v]
  | .sleepOnWq _, _, g => [.waitCond g.dataReady]
  | .disableIrq, _, _ => [.irqDisabled]
  | _, _, _ => []

def events (r : Req) (a : Ans r) (g : Gxfp) : List Event :=
  record r a g ++ (accesses r).map fun acc => .touch acc.1 acc.2.1 acc.2.2.1 acc.2.2.2

def handle (E : Env ε) (tid : Nat) (r : Req) (w : World ε) : Ans r × World ε :=
  let a := answer E r w.g w.env
  (a.1, { g := update tid r a.1 w.g, env := a.2, log := (events r a.1 w.g).map (Entry.mk tid) ++ w.log })

/-- `mutex_lock` waits for the mutex; every other request proceeds. A sleeper on the queue wakes up at any turn of its own: woken, or by the timeout. -/
def enabled (r : Req) (w : World ε) : Bool :=
  match r with
  | .lock => w.g.lock.isNone
  | _ => true

@[simp] theorem handle_fst (E : Env ε) (tid : Nat) (r : Req) (w : World ε) :
    (handle E tid r w).1 = (answer E r w.g w.env).1 := rfl

@[simp] theorem handle_g (E : Env ε) (tid : Nat) (r : Req) (w : World ε) :
    (handle E tid r w).2.g = update tid r (answer E r w.g w.env).1 w.g := rfl

@[simp] theorem handle_log (E : Env ε) (tid : Nat) (r : Req) (w : World ε) :
    (handle E tid r w).2.log =
      (events r (answer E r w.g w.env).1 w.g).map (Entry.mk tid) ++ w.log := rfl

/-- What is read off the log without looking at the indices does not depend on them. -/
theorem filterMap_events {β : Type} {f : Entry → Option β}
    (hf : ∀ tid b size off len, f ⟨tid, .touch b size off len⟩ = none) (tid : Nat) (r : Req) (a : Ans r) (g : Gxfp) :
    ((events r a g).map (Entry.mk tid)).filterMap f = ((record r a g).map (Entry.mk tid)).filterMap f := by
  have htouch : (((accesses r).map fun acc => Event.touch acc.1 acc.2.1 acc.2.2.1 acc.2.2.2).map
      (Entry.mk tid)).filterMap f = [] := by
    rw [List.filterMap_eq_nil_iff]
    intro e he
    obtain ⟨ev, hev, rfl⟩ := List.mem_map.mp he
    obtain ⟨acc, -, rfl⟩ := List.mem_map.mp hev
    exact hf tid acc.1 acc.2.1 acc.2.2.1 acc.2.2.2
  rw [events, List.map_append, List.filterMap_append, htouch, List.append_nil]

/-! ### Requests as one-step programs -/

abbrev issue (r : Req) : DriverM (Ans r) := Prog.perform r

def kmalloc (size : Nat) : DriverM Bool := issue (.kmalloc size)
def ioremap (addr : Nat) : DriverM Bool := issue (.ioremap addr)
def readl (addr : Nat) : DriverM UInt32 := issue (.readl addr)
def writel (addr : Nat) (v : UInt32) : DriverM Unit := issue (.writel addr v)
def sleep (us : Nat) : DriverM Unit := issue (.sleep us)
def print (ch : Channel) (fmt : String) (args : List Arg := []) : DriverM Unit := issue (.print ch fmt args)
def mutexLock : DriverM Unit := issue .lock
def mutexUnlock : DriverM Unit := issue .unlock
def spi (x : Xfer) : DriverM (XferAns x) := issue (.spi x)
def rxLoad (off len : Nat) : DriverM Bytes := issue (.rxLoad off len)

def load (tag : Buf) {size : Nat} (b : Buffer size) (off len : Nat) : DriverM Bytes :=
  issue (.touch tag size off len) >>= fun _ => pure (b.load off len)

def store (tag : Buf) {size : Nat} (b : Buffer size) (off : Nat) (new : Bytes) : DriverM (Buffer size) :=
  issue (.touch tag size off new.length) >>= fun _ => pure (b.store off new)

end GoodixSpi.Kernel
