import GoodixSpi.Lib.Bytes
import GoodixSpi.Lib.Scan

/-!
# `tools/thumbcalls.py`: call targets in a Thumb-2 image

The pass over the halfwords of an image, and the decoder of the two that make up a call.
-/

namespace GoodixSpi.Tools.ThumbCalls

open Wire Scan

/-- `(~x) & 1`, where `~x` is `-(x + 1)`. -/
def notBit (x : Nat) : Nat := (-((x : Int) + 1) % 2).toNat

/-- The signed offset of a call from its two halfwords. -/
def branchOffset (hw1 hw2 : Nat) : Int :=
  let S := (hw1 >>> 10) &&& 1
  let imm10 := hw1 &&& 0x3FF
  let J1 := (hw2 >>> 13) &&& 1
  let J2 := (hw2 >>> 11) &&& 1
  let imm11 := hw2 &&& 0x7FF
  let I1 := notBit (J1 ^^^ S)
  let I2 := notBit (J2 ^^^ S)
  let off : Nat := (S <<< 24) ||| (I1 <<< 23) ||| (I2 <<< 22) ||| (imm10 <<< 12) ||| (imm11 <<< 1)
  if S ≠ 0 then off - (1 <<< 25 : Nat) else off

/-- What the loop appends at offset `i`, if anything. -/
def callAt (d : Bytes) (base : Int) (i : Nat) : Option (Option (Int × Int)) := do
  let hw1 ← unpack 2 d i
  let hw2 ← unpack 2 d (i + 2)
  if hw1 &&& 0xF800 ≠ 0xF000 then pure none
  else if hw2 &&& 0xD000 ∉ [0xD000, 0xC000] then pure none
  else pure (some (base + i, base + i + 4 + branchOffset hw1 hw2))

def blTargets (d : Bytes) (base : Int) : Option (List (Int × Int)) :=
  scan (callAt d base) (positions 0 (d.length - 3) 2)

end GoodixSpi.Tools.ThumbCalls
