import GoodixSpi.Lib.Bytes

/-!
# The frame codec of `tools/gxfp.py`

The transport header `[type<<4|flags][lenLO][lenHI][sum]` and the inner Milan message `[cmd][lo(len+1)][hi(len+1)][payload][cksum]`, with the two parsers. Python integers are unbounded, so the fields are naturals until `bytes([...])` stores them; every entry stored here is masked to eight bits first, so `bytes` never raises.
-/

namespace GoodixSpi.Tools

open Wire

def PKT_MSG : Nat := 0xA
def PKT_TLS : Nat := 0xB
def NO_CHECKSUM : UInt8 := 0x88

/-- `CMD0.get(c, "?")`. -/
def cmd0Name (c : Nat) : String :=
  match c with
  | 0x0 => "NOP" | 0x2 => "IMAGE" | 0x3 => "FDT" | 0x4 => "FF" | 0x5 => "NAV" | 0x6 => "SLEEP"
  | 0x7 => "IDLE" | 0x8 => "REG" | 0x9 => "CHIP" | 0xA => "OTHER" | 0xB => "MSG" | 0xC => "NOTI"
  | 0xD => "TLSCONN" | 0xE => "PROD" | 0xF => "UPFW" | _ => "?"

def spiHeader (bodyLen : Nat) (ptype : Nat := PKT_MSG) (flags : Nat := 0) : Bytes :=
  let h0 := ((ptype <<< 4) &&& 0xF0) ||| (flags &&& 0x0F)
  let lo := bodyLen &&& 0xFF
  let hi := (bodyLen >>> 8) &&& 0xFF
  [UInt8.ofNat h0, UInt8.ofNat lo, UInt8.ofNat hi, UInt8.ofNat ((h0 + hi + lo) &&& 0xFF)]

/-- The body length a header announces, or `none` where the Python returns `None`. -/
def checkHeader : Bytes → Option Nat
  | h0 :: h1 :: h2 :: h3 :: _ =>
      if ¬ (h0.toNat >>> 4 = PKT_MSG ∨ h0.toNat >>> 4 = PKT_TLS) then none
      else if h3.toNat ≠ (h0.toNat + h2.toNat + h1.toNat) &&& 0xFF then none
      else some (h1.toNat ||| (h2.toNat <<< 8))
  | _ => none

def message (cmd0 cmd1 : Nat) (payload : Bytes := []) (checksum : Bool := true) : Bytes :=
  let cmd := ((cmd0 <<< 4) ||| (cmd1 <<< 1)) &&& 0xFF
  let n := payload.length
  let lo := (n + 1) &&& 0xFF
  let hi := ((n + 1) >>> 8) &&& 0xFF
  let ck :=
    if checksum then
      let s := (cmd + lo + hi + total payload) &&& 0xFF
      low8 (0xAA - s)
    else NO_CHECKSUM
  [UInt8.ofNat cmd, UInt8.ofNat lo, UInt8.ofNat hi] ++ payload ++ [ck]

/-- The dictionary `parse_message` returns. -/
structure Parsed where
  cmd : UInt8
  cmd0 : Nat
  cmd1 : Nat
  name : String
  len : Int
  payload : Bytes
  cksum : Option UInt8
  cksumOk : Bool
  deriving DecidableEq, Repr

/-- `len` is the 16-bit field minus one, so it is `-1` for a zero field, and then the slice is empty and the check byte is read from the length field itself. -/
def parseMessage (b : Bytes) : Option Parsed :=
  match b with
  | cmd :: b1 :: b2 :: _ :: _ =>
      let n : Int := ((b1.toNat ||| (b2.toNat <<< 8) : Nat) : Int) - 1
      let stop := (3 + n).toNat
      let payload := slice b 3 stop
      let ck := b[stop]?
      let expected := low8 (0xAA - ((cmd.toNat + b1.toNat + b2.toNat + total payload) &&& 0xFF : Nat))
      some
        { cmd := cmd
          cmd0 := cmd.toNat >>> 4
          cmd1 := (cmd.toNat >>> 1) &&& 7
          name := cmd0Name (cmd.toNat >>> 4)
          len := n
          payload := payload
          cksum := ck
          cksumOk := ck = some NO_CHECKSUM ∨ ck = some expected }
  | _ => none

end GoodixSpi.Tools
