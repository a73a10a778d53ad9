import GoodixSpi.Tools.Host

/-!
# `tools/refseq.py`: the reference bring-up sequence

`Ref.write` and `Ref.read`, and the five-frame sequence `probe` sends. `GetMcuState` carries the milliseconds of the current minute, which the host's clock supplies.
-/

namespace GoodixSpi.Tools.Refseq

open Wire Interaction

def makeHeader (ptype : UInt8) (bodyLen : Nat) : Bytes :=
  let h := [ptype, UInt8.ofNat (bodyLen &&& 0xFF), UInt8.ofNat ((bodyLen >>> 8) &&& 0xFF)]
  h ++ [UInt8.ofNat (total h &&& 0xFF)]

def headerOk (h : Bytes) : Bool := h.length = 4 && h[3]? = some (UInt8.ofNat (total (h.take 3) &&& 0xFF))

def cksum (b : Bytes) : UInt8 := low8 (0xAA - total b)

def write (payload : Bytes) (tag : String := "") : HostM Unit := do
  let hdr := makeHeader 0xA0 payload.length
  let _ ← duplex hdr
  let _ ← duplex payload
  print "  TX %-22s hdr=%s body=%s" [.str tag, .bytes hdr, .bytes payload]

/-- The remark `read` prints after a header. -/
def headerFlag (hdr : Bytes) (ok : Bool) (n : Nat) : String :=
  if hdr = [0xFF, 0xFF, 0xFF, 0xFF] then "  (all-FF: the wire is idle)"
  else if hdr = [0, 0, 0, 0] then "  (all-zero)"
  else if ok ∧ 0 < n ∧ n ≤ 4096 then "  <<<<<<<<<<<<<<<<<< VALID HEADER" else ""

/-- `read`; the header's sum is checked and its type is not. -/
def read (tag : String) (polls : Nat) : HostM (Option Bytes) := do
  let gotIrq ← waitIrq true polls
  let hdr ← duplex (zeroBytes 4)
  let ok := headerOk hdr.1
  let n := (hdr.1.getD 1 0).toNat ||| ((hdr.1.getD 2 0).toNat <<< 8)
  print "  RX %-22s irq=%d hdr=%s len=%s%s"
    [.str tag, .flag gotIrq, .bytes hdr.1, .num (if ok then some n else none), .str (headerFlag hdr.1 ok n)]
  if ok = false ∨ n = 0 ∨ n > 4096 then pure none
  else do
    let body ← duplex (zeroBytes n)
    print "     body (%d bytes):" [.num (some n)]
    print "%s" [.bytes body.1]
    pure (some body.1)

def mcuStatePacket (ms : Nat) : Bytes :=
  let p := [0xAF, 0x06, 0x00, 0x55, UInt8.ofNat (ms &&& 0xFF), UInt8.ofNat ((ms >>> 8) &&& 0xFF), 0x00, 0x00]
  p ++ [UInt8.ofNat (((cksum p).toNat + 1) &&& 0xFF)]

def unlockTls : Bytes := [0xD5, 0x03, 0x00, 0x00, 0x00, 0xD3]
def mcuConfig : Bytes := [0x01, 0x05, 0x00, 0x00, 0x00, 0x00, 0x00, 0x88]
def getEvkVersion : Bytes := [0xA8, 0x03, 0x00, 0x00, 0x00, 0xFF]
def milanChipId : Bytes := [0x82, 0x06, 0x00, 0x00, 0x00, 0x00, 0x04, 0x00, 0x1E]

/-- A frame, and the one packet read for it. -/
def query (body : Bytes) (tag readTag : String) (polls : Nat) : HostM Bool := do
  write body tag
  let got ← read readTag polls
  pure got.isSome

/-- `probe`, once the devices are open: whether anything answered. -/
def probe (polls : Nat) : HostM Bool := do
  write unlockTls "unlockTLS"
  sleep 50000
  write mcuConfig "mcuConfig"
  sleep 50000
  let hit ← query getEvkVersion "getEvkVersion" "evkVersion" polls
  sleep 50000
  let ms ← issue .clockMs
  let hit' ← query (mcuStatePacket ms) "getMcuState" "mcuState" polls
  sleep 50000
  let hit'' ← query milanChipId "milanChipId" "chipId" polls
  pure (hit || hit' || hit'')

end GoodixSpi.Tools.Refseq
