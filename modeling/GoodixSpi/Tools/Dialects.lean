import GoodixSpi.Lib.Bytes

/-!
# The other frame builders of the tools

`tools/sweep_low.py` and `tools/dialects.py` each carry their own copy of the encoder. `bytes([...])` raises on an entry outside `0..255`, which the unmasked high length byte of `sweep_low.milan` can reach.
-/

namespace GoodixSpi.Tools

open Wire

/-- `bytes(xs)`, `none` being `ValueError`. -/
def pyBytes (xs : List Nat) : Option Bytes :=
  if xs.all (· < 256) then some (xs.map UInt8.ofNat) else none

namespace SweepLow

def milan (cmd0 cmd1 : Nat) (payload : Bytes := [0, 0]) : Option Bytes :=
  let cmd := ((cmd0 <<< 4) ||| (cmd1 <<< 1)) &&& 0xFF
  let n := payload.length + 1
  let body := [UInt8.ofNat cmd, UInt8.ofNat (n &&& 0xFF), UInt8.ofNat ((n >>> 8) &&& 0xFF)] ++ payload
  let body := body ++ [low8 (0xAA - total body)]
  (pyBytes [0xA0, body.length &&& 0xFF, body.length >>> 8]).map fun hdr =>
    hdr ++ [UInt8.ofNat (total hdr &&& 0xFF)] ++ body

end SweepLow

namespace Dialects

/-- `t` is a byte at every call. -/
def hdr (n : Nat) (t : UInt8 := 0xA0) : Bytes :=
  let h := [t, UInt8.ofNat (n &&& 0xFF), UInt8.ofNat ((n >>> 8) &&& 0xFF)]
  h ++ [UInt8.ofNat (total h &&& 0xFF)]

def milan (cmd0 cmd1 : Nat) (payload : Bytes := [0, 0]) : Bytes :=
  let cmd := ((cmd0 <<< 4) ||| (cmd1 <<< 1)) &&& 0xFF
  let n := payload.length + 1
  let body := [UInt8.ofNat cmd, UInt8.ofNat (n &&& 0xFF), UInt8.ofNat ((n >>> 8) &&& 0xFF)] ++ payload
  body ++ [low8 (0xAA - total body)]

end Dialects

end GoodixSpi.Tools
