import GoodixSpi.Tools.Host

/-!
# `tools/framing.py`: `Link.read`

The script compares ways of sending a frame. It reads the replies without waiting for the interrupt; the options of a `Link` only concern sending.
-/

namespace GoodixSpi.Tools.Framing.Link

open Wire Interaction

/-- The header check of `read`. -/
def headerOk (hdr : Bytes) : Bool :=
  hdr.length = 4 && hdr[3]? = some (UInt8.ofNat (total (hdr.take 3) &&& 0xFF)) &&
    ((hdr.getD 0 0).toNat >>> 4 = 0xA || (hdr.getD 0 0).toNat >>> 4 = 0xB)

def headerNote (hdr : Bytes) (ok : Bool) (n : Nat) : String :=
  if hdr = [0xFF, 0xFF, 0xFF, 0xFF] then "  (idle)"
  else if ok ∧ 0 < n ∧ n ≤ 4096 then "  <<<<<<<<<<<<<<<< VALID HEADER" else ""

def read (tag : String) : HostM (Option Bytes) := do
  let hdr ← duplex (zeroBytes 4)
  let ok := headerOk hdr.1
  let n := (hdr.1.getD 1 0).toNat ||| ((hdr.1.getD 2 0).toNat <<< 8)
  let irq ← irqGet
  print "     RX %-15s irq=%d hdr=%s len=%s%s"
    [.str tag, .flag irq, .bytes hdr.1, .num (if ok then some n else none), .str (headerNote hdr.1 ok n)]
  if ok = false ∨ n = 0 ∨ n > 4096 then pure none
  else do
    sleep 200
    let body ← duplex (zeroBytes n)
    print "     body: %s" [.bytes body.1]
    pure (some body.1)

end GoodixSpi.Tools.Framing.Link
