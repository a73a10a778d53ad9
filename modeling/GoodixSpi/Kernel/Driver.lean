import GoodixSpi.Kernel.Machine
import GoodixSpi.Kernel.Text

/-!
# `kernel/gxfp.c`: framing, sending, receiving and the interrupt handler

C integer arithmetic is `int` until an assignment truncates it, so lengths are naturals and every store into a `u8` or `u16` is an explicit conversion.
-/

namespace GoodixSpi.Kernel

open Wire Interaction

def GXFP_PKT_MSG : UInt8 := 0xA
def GXFP_PKT_TLS : UInt8 := 0xB
def GXFP_NO_CKSUM : UInt8 := 0x88
def GXFP_IRQ_STORM : UInt32 := 200

def EPROTO : Int := 71
def EBADMSG : Int := 74
def EMSGSIZE : Int := 90
def ENOMEM : Int := 12

/-- What stays fixed after probe: the module parameters and whether an interrupt GPIO was found. -/
structure Setup where
  csSetupUs : Int := 0
  csHoldUs : Int := 0
  csInactiveUs : Int := 0
  gpioCom0 : Nat := 0xFD6E0000
  lpssPhys : Nat := 0x9b804000
  irqGpio : Bool := true

def gxfpMakeSpiHdr (bodyLen : UInt16) (type : UInt8) : Bytes :=
  let h0 := UInt8.ofNat ((type.toNat <<< 4) &&& 0xF0)
  let h1 := UInt8.ofNat (bodyLen.toNat &&& 0xFF)
  let h2 := UInt8.ofNat ((bodyLen.toNat >>> 8) &&& 0xFF)
  [h0, h1, h2, UInt8.ofNat (h0.toNat + h2.toNat + h1.toNat)]

/-- The body length of a header, or a negative errno. -/
def gxfpCheckSpiHdr (h : Bytes) : Int :=
  let h0 := h.getD 0 0
  let h1 := h.getD 1 0
  let h2 := h.getD 2 0
  let h3 := h.getD 3 0
  let type := h0 >>> 4
  if type ≠ GXFP_PKT_MSG ∧ type ≠ GXFP_PKT_TLS then -EPROTO
  else if h3 ≠ UInt8.ofNat (h0.toNat + h2.toNat + h1.toNat) then -EBADMSG
  else (h1.toNat ||| (h2.toNat <<< 8) : Nat)

def copyPayload {size k : Nat} (body : Buffer size) (payload : Buffer k) (n : Nat) : DriverM (Buffer size) :=
  if n ≠ 0 then do
    let ps ← load .payload payload 0 n
    store .body body 3 ps
  else pure body

/-- The part of `gxfp_send` that fills the body buffer. -/
def fillBody (cmd lo hi : UInt8) {k : Nat} (payload : Buffer k) (n : UInt16) (checksum : Bool) (blen : UInt16) :
    DriverM (Buffer blen.toNat) := do
  let body ← store .body (Buffer.zeros blen.toNat) 0 [cmd]
  let body ← store .body body 1 [lo]
  let body ← store .body body 2 [hi]
  let body ← copyPayload body payload n.toNat
  if checksum then do
    let ps ← load .payload payload 0 n.toNat
    let s := ps.foldl (fun s x => s + x) (cmd + lo + hi)
    store .body body (3 + n.toNat) [0xAA - s]
  else
    store .body body (3 + n.toNat) [GXFP_NO_CKSUM]

def frameHdrXfer (hdr : Bytes) : Xfer := { site := .frameHdr, tx := .bytes hdr, rx := .discard, len := 4 }

def frameBodyXfer (body : Bytes) (blen : Nat) : Xfer :=
  { site := .frameBody, tx := .bytes body, rx := .discard, len := blen }

/-- The part of `gxfp_send` that logs the frame and writes it, the header in its own chip-select. -/
def writeFrame (cmd : UInt8) (hdr : Bytes) {blen : Nat} (body : Buffer blen) : DriverM Int := do
  let shown ← load .body body 0 (min blen 16)
  print .info "tx cmd=0x%02x hdr=%4ph body[%u]=%*ph\n" [.int cmd.toNat, .bytes hdr, .int blen, .bytes shown]
  let a ← spi (frameHdrXfer hdr)
  if a.ret ≠ 0 then do
    print .err "header write failed: %d\n" [.int a.ret]
    pure a.ret
  else do
    sleep 2000
    let bytes ← load .body body 0 blen
    let b ← spi (frameBodyXfer bytes blen)
    if b.ret ≠ 0 then do
      print .err "body write failed: %d\n" [.int b.ret]
      pure b.ret
    else pure 0

def gxfpSend (cmd0 cmd1 : UInt8) {k : Nat} (payload : Buffer k) (n : UInt16) (checksum : Bool) : DriverM Int := do
  let blen := UInt16.ofNat (n.toNat + 4)
  let cmd := UInt8.ofNat ((cmd0.toNat <<< 4) ||| (cmd1.toNat <<< 1))
  let lo := UInt8.ofNat ((n.toNat + 1) &&& 0xFF)
  let hi := UInt8.ofNat (((n.toNat + 1) >>> 8) &&& 0xFF)
  if blen.toNat > GXFP_BUF_MAX then pure (-EINVAL)
  else do
    let ok ← kmalloc blen.toNat
    if ok = false then pure (-ENOMEM)
    else do
      let body ← fillBody cmd lo hi payload n checksum blen
      writeFrame cmd (gxfpMakeSpiHdr blen GXFP_PKT_MSG) body

def recvHdrXfer : Xfer := { site := .recvHdr, tx := .zeros, rx := .caller, len := 4 }

def recvBodyXfer (n : Nat) : Xfer := { site := .recvBody, tx := .zeros, rx := .rxbuf, len := n }

def gxfpRecv : DriverM Int := do
  let a ← spi recvHdrXfer
  if a.ret ≠ 0 then pure a.ret
  else do
    let n := gxfpCheckSpiHdr a.data
    print .info "rx hdr=%4ph -> %d\n" [.bytes a.data, .int n]
    if n < 0 then pure n
    else if n = 0 ∨ n > GXFP_BUF_MAX then pure (-EMSGSIZE)
    else do
      let b ← spi (recvBodyXfer n.toNat)
      if b.ret ≠ 0 then pure b.ret
      else do
        issue (.setRxlen n.toNat)
        let shown ← rxLoad 0 (min n.toNat 32)
        print .info "rx body[%d]=%*ph\n" [.int n, .bytes shown]
        pure n

def gxfpIsr : DriverM Unit := do
  let n ← issue .incIrqCount
  issue (.setDataReady true)
  issue .wakeUp
  let masked ← issue .getIrqMasked
  if n = GXFP_IRQ_STORM ∧ masked = false then do
    issue (.setIrqMasked true)
    issue .disableIrq
    print .warn "IRQ storm (%d) - line stuck asserted, masking irq %d\n" [.int n.toNat]
  else pure ()

/-- `wait_event_interruptible_timeout(g->wq, g->data_ready, ms)`: the condition is tested before sleeping, and the sleep ends with a test of it. -/
def waitDataReady (ms : Nat) : DriverM Unit := do
  let ready ← issue .getDataReady
  if ready then pure () else issue (.sleepOnWq ms)

/-- The part of `gxfp_probe` that drives the enable GPIO, by the module parameter `touch_enable`. -/
def driveEnableBy {Req' : Type} {Ans' : Req' → Type} (drive : Bool → Prog Req' Ans' Unit)
    (say : Channel → String → List Arg → Prog Req' Ans' Unit) (touchEnable : Int) : Prog Req' Ans' Unit :=
  if touchEnable ≥ 0 then drive (touchEnable ≠ 0)
  else say .info "leaving enable GPIO untouched (touch_enable=-1)\n" []

end GoodixSpi.Kernel
