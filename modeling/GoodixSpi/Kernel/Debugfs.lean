import GoodixSpi.Kernel.Driver

/-!
# `kernel/gxfp.c`: the debugfs files

Every file operation that touches `struct gxfp`, as a program. Text written to a file arrives as the result of `memdup_user_nul`; text a `show` function prints is the `seq` entries of the log, one for each `seq_printf` with its format string and arguments.
-/

namespace GoodixSpi.Kernel

open Wire Interaction

/-- A user buffer of `len` bytes, as `memdup_user_nul` returns it: an errno or a copy. -/
structure UserBuf where
  len : Nat
  dup : Except Int Bytes
  copied : ∀ b, dup = .ok b → b.length = len

def UserBuf.text (text : Bytes) : UserBuf where
  len := text.length
  dup := .ok text
  copied _ hb := congrArg List.length (Except.ok.inj hb).symm

/-- The result of a file operation: its return value, the bytes handed to the user, and the value of an attribute. -/
structure OpResult where
  ret : Int
  out : Bytes := []
  val : Nat := 0
  deriving DecidableEq, Repr

/-! ### `cmd` -/

/-- The two leading fields, and the cursor after them. Here an empty field is not skipped. -/
def cmdNumbers : List Bytes → Option (Nat × Nat × List Bytes)
  | tok0 :: tok1 :: p =>
      match kstrtouint tok0, kstrtouint tok1 with
      | .ok cmd0, .ok cmd1 => some (cmd0, cmd1, p)
      | _, _ => none
  | _ => none

/-- The payload loop of `gxfp_cmd_write`; `none` is its exit on a bad token. -/
def cmdPayload : List Bytes → Buffer 256 → Nat → DriverM (Option (Buffer 256 × Nat))
  | [], payload, n => pure (some (payload, n))
  | tok :: p, payload, n =>
      if n < 256 then
        if tok = [] then cmdPayload p payload n
        else
          match kstrtouint tok with
          | .error _ => pure none
          | .ok v => do
              let payload ← store .payload payload n [UInt8.ofNat (v &&& 0xFF)]
              cmdPayload p payload (n + 1)
      else pure (some (payload, n))

/-- The part of `gxfp_cmd_write` under the mutex. -/
def cmdExchange (cmd0 cmd1 : Nat) (payload : Buffer 256) (n : Nat) : DriverM Int := do
  mutexLock
  issue (.setDataReady false)
  let ret ← gxfpSend (UInt8.ofNat (cmd0 &&& 0xF)) (UInt8.ofNat (cmd1 &&& 0x7)) payload (UInt16.ofNat n) true
  if ret = 0 then do
    waitDataReady 500
    let _ ← gxfpRecv
    mutexUnlock
    pure ret
  else do
    mutexUnlock
    pure ret

def gxfpCmdWrite (u : UserBuf) : DriverM OpResult :=
  if u.len > 1024 then pure { ret := -EINVAL }
  else
    match u.dup with
    | .error e => pure { ret := e }
    | .ok buf =>
        match cmdNumbers (fields (strim (cString buf))) with
        | none => pure { ret := -EINVAL }
        | some (cmd0, cmd1, p) => do
            let parsed ← cmdPayload p (Buffer.zeros 256) 0
            match parsed with
            | none => pure { ret := -EINVAL }
            | some (payload, n) => do
                let ret ← cmdExchange cmd0 cmd1 payload n
                pure { ret := if ret ≠ 0 then ret else u.len }

/-! ### `raw` -/

/-- The token loop of `gxfp_raw_write`, which parses straight into `g->txbuf`. -/
def rawTokens : List Bytes → Nat → DriverM (Option Nat)
  | [], n => pure (some n)
  | tok :: p, n =>
      if n < GXFP_BUF_MAX then
        if tok = [] then rawTokens p n
        else
          match kstrtouint tok with
          | .error _ => pure none
          | .ok v => do
              issue (.txStore n [UInt8.ofNat (v &&& 0xFF)])
              rawTokens p (n + 1)
      else pure (some n)

def rawXfer (n : Nat) : Xfer := { site := .raw, tx := .txbuf, rx := .rxbuf, len := n }

/-- The transfer of `gxfp_raw_write`, and its log line after the mutex is released. -/
def rawTransfer (n : Nat) : DriverM Int := do
  mutexLock
  let a ← spi (rawXfer n)
  issue (.setRxlen (if a.ret ≠ 0 then 0 else n))
  mutexUnlock
  let shown ← rxLoad 0 (min n 32)
  print .info "raw %u bytes ret=%d rx=%*ph\n" [.int n, .int a.ret, .bytes shown]
  pure a.ret

def gxfpRawWrite (u : UserBuf) : DriverM OpResult :=
  if u.len > 4096 then pure { ret := -EINVAL }
  else
    match u.dup with
    | .error e => pure { ret := e }
    | .ok buf => do
        let parsed ← rawTokens (fields (strim (cString buf))) 0
        match parsed with
        | none => pure { ret := -EINVAL }
        | some 0 => pure { ret := -EINVAL }
        | some n => do
            let ret ← rawTransfer n
            pure { ret := if ret ≠ 0 then ret else u.len }

/-- One turn of the printing loop: `sprintf(out + i * 3, "%02x ", g->rxbuf[i])` with its NUL. -/
def printByte {size : Nat} (out : Buffer size) (i : Nat) : DriverM (Buffer size) := do
  let b ← rxLoad i 1
  store .out out (3 * i) (hex2 (b.headD 0) ++ [32, 0])

def gxfpRawRead (len off : Nat) : DriverM OpResult := do
  mutexLock
  let n ← issue .getRxlen
  let ok ← kmalloc (n * 3 + 2)
  if ok = false then do
    mutexUnlock
    pure { ret := -ENOMEM }
  else do
    let out ← Prog.fold printByte (Buffer.zeros (n * 3 + 2)) (List.range n)
    let out ← store .out out (3 * n) [10]
    mutexUnlock
    -- simple_read_from_buffer(ubuf, len, off, out, n * 3 + 1)
    let text ← load .out out off (min len (n * 3 + 1 - off))
    pure { ret := text.length, out := text }

/-! ### `replay` -/

structure ReplayCmd where
  c0 : UInt8
  c1 : UInt8
  n : UInt8
  name : String

def replaySeq : List ReplayCmd :=
  [ ⟨0x0, 0, 4, "NOP"⟩, ⟨0x9, 3, 2, "0x96 DriverState:Install"⟩, ⟨0x0, 0, 4, "NOP"⟩,
    ⟨0xA, 4, 2, "0xa8 GetEvkVersion"⟩, ⟨0xA, 1, 2, "0xa2 soft reset"⟩, ⟨0x8, 1, 5, "0x82 ChipRegRead"⟩ ]

def replayHdrXfer : Xfer := { site := .replayHdr, tx := .zeros, rx := .caller, len := 4 }

def replayBodyXfer (n : Nat) : Xfer := { site := .replayBody, tx := .zeros, rx := .rxbuf, len := n }

def replayBody (n : Int) : DriverM Unit := do
  let b ← spi (replayBodyXfer n.toNat)
  if b.ret = 0 then do
    let shown ← rxLoad 0 (min n.toNat 32)
    print .seq "      body[%d]: %*ph\n" [.int n, .bytes shown]
  else pure ()

def replayStep (c : ReplayCmd) : DriverM Unit := do
  let ret ← gxfpSend c.c0 c.c1 (Buffer.zeros 8) (UInt16.ofNat c.n.toNat) true
  if ret ≠ 0 then
    print .seq "  %-26s send failed %d\n" [.str c.name, .int ret]
  else do
    sleep 50000
    let a ← spi replayHdrXfer
    if a.ret ≠ 0 then
      print .seq "  %-26s read failed\n" [.str c.name]
    else do
      let n := gxfpCheckSpiHdr a.data
      print .seq "  %-26s hdr=%4ph -> %s\n" [.str c.name, .bytes a.data, .str (if n < 0 then "no reply" else "REPLY!")]
      if n > 0 ∧ n ≤ GXFP_BUF_MAX then replayBody n else pure ()

def gxfpReplayShow (P : Setup) : DriverM OpResult := do
  print .seq "cs_setup=%dus cs_hold=%dus cs_inactive=%dus\n" [.int P.csSetupUs, .int P.csHoldUs, .int P.csInactiveUs]
  mutexLock
  Prog.fold (fun _ c => replayStep c) () replaySeq
  mutexUnlock
  pure { ret := 0 }

/-! ### `cstest` -/

structure CsSample where
  s0 : UInt32
  s1 : UInt32
  ss : UInt32
  cs : UInt32

def flag (x mask : UInt32) : Int := if x &&& mask ≠ 0 then 1 else 0

def frameFormat (s0 : UInt32) : String :=
  if (s0 >>> 4) &&& 3 = 0 then "Motorola SPI"
  else if (s0 >>> 4) &&& 3 = 1 then "TI SSP"
  else if (s0 >>> 4) &&& 3 = 2 then "Microwire" else "PSP"

def takeSample (base : Nat) : DriverM CsSample := do
  let s0 ← readl (base + 0x00)
  let s1 ← readl (base + 0x04)
  let ss ← readl (base + 0x08)
  let cs ← readl (base + 0x224)
  sleep 200
  pure ⟨s0, s1, ss, cs⟩

def printLive : List CsSample → Nat → DriverM Unit
  | [], _ => pure ()
  | x :: xs, i =>
      if x.s0 &&& 0x80 = 0 then printLive xs (i + 1)
      else do
        print .seq "LIVE sample %d: SSCR0=0x%08x SSCR1=0x%08x SSSR=0x%08x\n"
          [.int i, .int x.s0.toNat, .int x.s1.toNat, .int x.ss.toNat]
        print .seq "   SSE=%d  DSS(bits)=%u  FRF=%u(%s)  SCR=%u  EDSS=%d\n"
          [.int (flag x.s0 0x80), .int ((x.s0 &&& 0xF).toNat + 1 + (if (x.s0 >>> 20) &&& 1 ≠ 0 then 16 else 0)),
            .int ((x.s0 >>> 4) &&& 3).toNat, .str (frameFormat x.s0), .int ((x.s0 >>> 8) &&& 0xFFF).toNat,
            .int (flag x.s0 0x100000)]
        print .seq "   SPO(CPOL)=%d SPH(CPHA)=%d  -> SPI mode %d\n"
          [.int (flag x.s1 8), .int (flag x.s1 16), .int (2 * flag x.s1 8 + flag x.s1 16)]

def cstestXfer : Xfer := { site := .cstest, tx := .txbuf, rx := .rxbuf, len := 2048, speedHz := 100000, async := true }

/-- What `gxfp_cstest_show` prints after the transfer was submitted. -/
def cstestReport (base : Nat) (ret : Int) (samples : List CsSample) : DriverM Unit := do
  print .seq "spi_async ret %d\n" [.int ret]
  print .seq "CS_CONTROL samples during a 2048-byte @100 kHz transfer:\n "
  Prog.fold (fun _ x => print .seq " %08x" [.int x.cs.toNat]) () samples
  print .seq "\n"
  printLive samples 0
  sleep 400000
  let after ← readl (base + 0x224)
  print .seq "CS_CONTROL after:  0x%08x\n" [.int after.toNat]

def gxfpCstestShow (P : Setup) : DriverM OpResult := do
  let mapped ← ioremap P.lpssPhys
  if mapped = false then do
    print .seq "ioremap failed\n"
    pure { ret := 0 }
  else do
    issue (.txStore 0 (List.replicate 2048 0))
    let before ← readl (P.lpssPhys + 0x224)
    print .seq "CS_CONTROL before: 0x%08x\n" [.int before.toNat]
    let a ← spi cstestXfer
    let samples ← Prog.fold (fun xs _ => takeSample P.lpssPhys >>= fun x => pure (xs ++ [x])) [] (List.range 24)
    cstestReport P.lpssPhys a.ret samples
    let shown ← rxLoad 0 16
    print .seq "rx first 16: %16ph\n" [.bytes shown]
    pure { ret := 0 }

/-! ### `dsm` and `ctlregs` -/

/-- What `acpi_evaluate_dsm` returns when it returns something. -/
inductive AcpiObj where
  | buffer (pointer : Bytes)
  | other (type : Nat)

/-- The rows at the offsets; a buffer of zeros is cut off. -/
def dsmRows (pointer : Bytes) (nz : Nat) : List Nat → DriverM Unit
  | [] => pure ()
  | j :: js => do
      print .seq "  %04x  %*ph\n" [.int j, .bytes ((pointer.drop j).take (min 16 (pointer.length - j)))]
      if j ≥ 512 ∧ nz = 0 then pure () else dsmRows pointer nz js

def dsmStep (evaluate : Nat → Option AcpiObj) (i : Nat) : DriverM Unit := do
  print .seq "_DSM func %d: " [.int i]
  match evaluate i with
  | none => print .seq "returned NULL\n"
  | some (.other type) => print .seq "type %d (not buffer)\n" [.int type]
  | some (.buffer pointer) => do
      let nz := (pointer.filter (· ≠ 0)).length
      print .seq "%d bytes, %d non-zero\n" [.int pointer.length, .int nz]
      dsmRows pointer nz ((List.range ((pointer.length + 15) / 16)).map (16 * ·))

/-- `h` is what the device's ACPI handle evaluates to, if it has one. -/
def gxfpDsmShow (h : Option (Nat → Option AcpiObj)) : DriverM OpResult :=
  match h with
  | none => do
      print .seq "no ACPI handle\n"
      pure { ret := 0 }
  | some evaluate => do
      Prog.fold (fun _ i => dsmStep evaluate i) () [0, 1]
      pure { ret := 0 }

def gxfpCtlregsShow (P : Setup) : DriverM OpResult := do
  let mapped ← ioremap P.lpssPhys
  if mapped = false then do
    print .seq "ioremap failed\n"
    pure { ret := 0 }
  else do
    let sscr0 ← readl (P.lpssPhys + 0x00)
    let sscr1 ← readl (P.lpssPhys + 0x04)
    let sssr ← readl (P.lpssPhys + 0x08)
    let ssp ← readl (P.lpssPhys + 0x220)
    let cs ← readl (P.lpssPhys + 0x224)
    let caps ← readl (P.lpssPhys + 0x2FC)
    print .seq "BAR0        0x%lx\n" [.int P.lpssPhys]
    print .seq "SSCR0       0x%08x  SSE=%d DSS=%d SCR=%d\n"
      [.int sscr0.toNat, .int (flag sscr0 0x80), .int ((sscr0 &&& 0xF).toNat + 1), .int ((sscr0 >>> 8) &&& 0xFFF).toNat]
    print .seq "SSCR1       0x%08x  SPO(CPOL)=%d SPH(CPHA)=%d\n" [.int sscr1.toNat, .int (flag sscr1 8), .int (flag sscr1 16)]
    print .seq "SSSR        0x%08x\n" [.int sssr.toNat]
    print .seq "SSP_REG     0x%08x\n" [.int ssp.toNat]
    print .seq "CS_CONTROL  0x%08x  SW_MODE=%d CS_HIGH(deasserted)=%d cs_sel=%d\n"
      [.int cs.toNat, .int (flag cs 1), .int (flag cs 2), .int ((cs >>> 8) &&& 3).toNat]
    print .seq "CAPS        0x%08x\n" [.int caps.toNat]
    pure { ret := 0 }

/-! ### `padprobe` -/

structure Pad where
  off : Nat
  n : String
  expect : UInt32

def pads : List Pad :=
  [⟨0x8C0, "CS0B", 0x44000700⟩, ⟨0x8D0, "CLK ", 0x44000700⟩, ⟨0x8E0, "MISO", 0x44000702⟩, ⟨0x8F0, "MOSI", 0x44000700⟩]

def checkPads (com : Nat) : DriverM Bool :=
  Prog.fold (fun ok pad => do
    let v ← readl (com + pad.off)
    print .seq "  %s pad @+0x%03x = 0x%08x  (pinctrl says 0x%08x) %s\n"
      [.str pad.n, .int pad.off, .int v.toNat, .int pad.expect.toNat,
        .str (if v = pad.expect then "MATCH" else "*** MISMATCH ***")]
    pure (ok && v = pad.expect)) true pads

def samplePads (com : Nat) (seen : List (UInt32 × UInt32)) : DriverM (List (UInt32 × UInt32)) :=
  Prog.fold (fun acc x => do
    let v ← readl (com + x.1.off)
    pure (acc ++ [(x.2.1 ||| v, x.2.2 ||| ~~~v)])) [] (pads.zip seen)

def noneSeen : List (UInt32 × UInt32) := List.replicate 4 (0, 0)

def padprobeXfer : Xfer :=
  { site := .padprobe, tx := .txbuf, rx := .rxbuf, len := 2048, speedHz := 50000, async := true }

def printChanged (seen : List (UInt32 × UInt32)) : DriverM Unit :=
  Prog.fold (fun _ x => do
    let changing := x.2.1 &&& x.2.2
    print .seq "  %s: bits that CHANGED = 0x%08x  %s"
      [.str x.1.n, .int changing.toNat, .str (if changing ≠ 0 then "<<< LIVE" else "(frozen)")]
    if changing &&& 2 ≠ 0 then do
      print .seq "  [RXSTATE toggled!]"
      print .seq "\n"
    else print .seq "\n") () (pads.zip seen)

/-- Try to clear `GPIORXDIS` on every pad: the original values, and whether any write took. -/
def unlockPads (com : Nat) : DriverM (List UInt32 × Bool) :=
  Prog.fold (fun acc pad => do
    let orig ← readl (com + pad.off)
    writel (com + pad.off) (orig &&& ~~~0x200)
    let after ← readl (com + pad.off)
    print .seq "  %s 0x%08x -> wrote 0x%08x -> reads 0x%08x  %s\n"
      [.str pad.n, .int orig.toNat, .int (orig &&& ~~~0x200).toNat, .int after.toNat,
        .str (if after &&& 0x200 ≠ 0 then "BLOCKED (locked)" else "TOOK")]
    pure (acc.1 ++ [orig], acc.2 || after &&& 0x200 = 0)) ([], false) pads

def printResampled (seen : List (UInt32 × UInt32)) : DriverM Unit := do
  print .seq "  re-sampled with RX enabled:\n"
  Prog.fold (fun _ x => print .seq "    %s changed=0x%08x %s\n"
    [.str x.1.n, .int (x.2.1 &&& x.2.2).toNat,
      .str (if x.2.1 &&& x.2.2 &&& 2 ≠ 0 then "<<< PIN IS TOGGLING" else "(static)")]) () (pads.zip seen)

def restorePads (com : Nat) (orig : List UInt32) : DriverM Unit := do
  Prog.fold (fun _ x => writel (com + x.1.off) x.2) () (pads.zip orig)
  print .seq "  original pad values restored.\n"

/-- `gxfp_padprobe_show` after its first transfer: report, try to unlock the pads, and sample again if that took. -/
def padprobeUnlock (com : Nat) (seen : List (UInt32 × UInt32)) : DriverM (List UInt32 × Bool) := do
  sleep 600000
  print .seq "%lu samples of each pad\n" [.int 400000]
  printChanged seen
  print .seq "\nAttempting to clear GPIORXDIS (bit 9) to unfreeze RXSTATE:\n"
  unlockPads com

def padprobeResample (com : Nat) : DriverM Unit := do
  let _ ← spi padprobeXfer
  let seen ← Prog.iter (samplePads com) 400000 noneSeen
  sleep 600000
  printResampled seen

def gxfpPadprobeShow (P : Setup) : DriverM OpResult := do
  let mapped ← ioremap P.gpioCom0
  if mapped = false then do
    print .seq "ioremap failed\n"
    pure { ret := 0 }
  else do
    print .seq "GPIO community 0 @ 0x%lx\n" [.int P.gpioCom0]
    let ok ← checkPads P.gpioCom0
    if ok = false then do
      print .seq "\nAddress does not match pinctrl - aborting, not sampling.\n"
      pure { ret := 0 }
    else do
      issue (.txStore 0 (List.replicate 2048 0))
      print .seq "\nSampling all 4 pads during a 2048-byte @50 kHz transfer...\n"
      let _ ← spi padprobeXfer
      let seen ← Prog.iter (samplePads P.gpioCom0) 400000 noneSeen
      let unlocked ← padprobeUnlock P.gpioCom0 seen
      if unlocked.2 then do
        padprobeResample P.gpioCom0
        restorePads P.gpioCom0 unlocked.1
        pure { ret := 0 }
      else do
        restorePads P.gpioCom0 unlocked.1
        pure { ret := 0 }

/-! ### The attribute files -/

def gxfpEnableGet : DriverM OpResult := do
  let v ← issue .getEnable
  pure { ret := 0, val := if v then 1 else 0 }

def gxfpEnableSet (val : UInt64) : DriverM OpResult := do
  issue (.setEnable (val ≠ 0))
  pure { ret := 0 }

/-- The counter is an `int`, sign-extended into the attribute's 64 bits. -/
def gxfpIrqcountGet : DriverM OpResult := do
  let n ← issue .getIrqCount
  pure { ret := 0, val := if n.toNat < 2 ^ 31 then n.toNat else n.toNat + (2 ^ 64 - 2 ^ 32) }

def gxfpIrqlevelGet (P : Setup) : DriverM OpResult :=
  if P.irqGpio then do
    let v ← issue .irqLevel
    pure { ret := 0, val := if v then 1 else 0 }
  else pure { ret := 0, val := 0xFF }

/-- The log line of a reset pulse reads the interrupt line when there is one. -/
def printReset (P : Setup) (keep : UInt32) : DriverM Unit :=
  if P.irqGpio then do
    let v ← issue .irqLevel
    print .info "reset pulse %u ms, irq level now %d\n" [.int keep.toNat, .int (if v then 1 else 0)]
  else print .info "reset pulse %u ms, irq level now %d\n" [.int keep.toNat, .int (-1)]

def gxfpResetSet (P : Setup) (val : UInt64) : DriverM OpResult := do
  let keep : UInt32 := if val ≠ 0 then val.toUInt32 else 10
  issue (.setEnable false)
  sleep (1000 * keep.toNat)
  issue (.setEnable true)
  sleep 100000
  printReset P keep
  pure { ret := 0 }

/-- What probe does to the enable GPIO, as the file operations do it. -/
def probeEnable (touchEnable : Int) : DriverM Unit :=
  driveEnableBy (fun v => issue (.setEnable v)) (fun ch fmt args => print ch fmt args) touchEnable

/-! ### Operations -/

inductive DebugOp where
  | cmdWrite (u : UserBuf)
  | rawWrite (u : UserBuf)
  | rawRead (len off : Nat)
  | replay
  | dsm (h : Option (Nat → Option AcpiObj))
  | ctlregs
  | cstest
  | padprobe
  | enableGet
  | enableSet (val : UInt64)
  | irqcountGet
  | irqlevelGet
  | resetSet (val : UInt64)

def DebugOp.prog (P : Setup) : DebugOp → DriverM OpResult
  | .cmdWrite u => gxfpCmdWrite u
  | .rawWrite u => gxfpRawWrite u
  | .rawRead len off => gxfpRawRead len off
  | .replay => gxfpReplayShow P
  | .dsm h => gxfpDsmShow h
  | .ctlregs => gxfpCtlregsShow P
  | .cstest => gxfpCstestShow P
  | .padprobe => gxfpPadprobeShow P
  | .enableGet => gxfpEnableGet
  | .enableSet val => gxfpEnableSet val
  | .irqcountGet => gxfpIrqcountGet
  | .irqlevelGet => gxfpIrqlevelGet P
  | .resetSet val => gxfpResetSet P val

/-- What a request adds to the text that the reader of the file is handed. -/
def seqText : Req → List (String × List Arg)
  | .print .seq fmt args => [(fmt, args)]
  | _ => []

/-- An operation that returns also the text it has shown. -/
def DebugOp.shown (P : Setup) (op : DebugOp) : DriverM (OpResult × List (String × List Arg)) :=
  Prog.noting seqText [] (op.prog P)

variable {ε : Type}

def runOp (E : Env ε) (P : Setup) (op : DebugOp) (w : World ε) : OpResult × World ε :=
  (op.prog P).run (handle E 0) w

/-- A sequence of operations run one at a time. -/
def runOps (E : Env ε) (P : Setup) : List DebugOp → World ε → List OpResult × World ε
  | [], w => ([], w)
  | op :: ops, w =>
      let first := runOp E P op w
      let rest := runOps E P ops first.2
      (first.1 :: rest.1, rest.2)

/-- The same, with the texts. -/
def showOps (E : Env ε) (P : Setup) : List DebugOp → World ε → List (OpResult × List (String × List Arg)) × World ε
  | [], w => ([], w)
  | op :: ops, w =>
      let first := (op.shown P).run (handle E 0) w
      let rest := showOps E P ops first.2
      (first.1 :: rest.1, rest.2)

theorem showOps_runOps (E : Env ε) (P : Setup) (ops : List DebugOp) (w : World ε) :
    runOps E P ops w = ((showOps E P ops w).1.map Prod.fst, (showOps E P ops w).2) := by
  induction ops generalizing w with
  | nil => rfl
  | cons op ops ih =>
      have hfirst : runOp E P op w =
          (((op.shown P).run (handle E 0) w).1.1, ((op.shown P).run (handle E 0) w).2) :=
        (Prog.run_noting (handle E 0) w).symm
      rw [runOps, hfirst, ih]
      rfl

end GoodixSpi.Kernel
