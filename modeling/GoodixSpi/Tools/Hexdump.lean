import GoodixSpi.Lib.Bytes
import GoodixSpi.Lib.Hex

/-!
# The hex dumps of the tools

`dump` of `tools/cshigh_repro.py`, which collapses a long tail of one byte, and `hexd` of `tools/spidev_raw.py`. Text is a list of characters.
-/

namespace GoodixSpi.Tools

open Wire Text

/-- `" ".join("%02x" % b for b in chunk)`. -/
def hexBytes : Bytes → List Char
  | [] => []
  | [b] => hexPad 2 b.toNat
  | b :: bs => hexPad 2 b.toNat ++ ' ' :: hexBytes bs

def ljust (w : Nat) (s : List Char) : List Char := s ++ List.replicate (w - s.length) ' '

def ascii (b : UInt8) : Char := if 32 ≤ b.toNat ∧ b.toNat < 127 then Char.ofNat b.toNat else '.'

namespace CshighRepro

/-- `"     %04x  %-48s %s"`. -/
def row (i : Nat) (chunk : Bytes) : List Char :=
  [' ', ' ', ' ', ' ', ' '] ++ hexPad 4 i ++ [' ', ' '] ++ ljust 48 (hexBytes chunk) ++ ' ' :: chunk.map ascii

/-- `"     ...   (%02x to 0x%04x)"`. -/
def collapsed (filler : UInt8) (last : Nat) : List Char :=
  [' ', ' ', ' ', ' ', ' ', '.', '.', '.', ' ', ' ', ' ', '('] ++ hexPad 2 filler.toNat ++
    [' ', 't', 'o', ' ', '0', 'x'] ++ hexPad 4 last ++ [')']

/-- The lines from index `i` on, `rest` being `rx[i:]`. -/
def dumpFrom (i : Nat) : Bytes → List (List Char)
  | [] => []
  | b :: bs =>
      if i ≠ 0 ∧ bs.all (· = b) then [collapsed b (i + bs.length)]
      else row i ((b :: bs).take 16) :: dumpFrom (i + 16) ((b :: bs).drop 16)
termination_by rest => rest.length
decreasing_by simp only [List.length_drop, List.length_cons]; omega

def dump (rx : Bytes) : List (List Char) := dumpFrom 0 rx

end CshighRepro

namespace SpidevRaw

def row (pfx : List Char) (i : Nat) (chunk : Bytes) : List Char :=
  pfx ++ hexPad 4 i ++ [' ', ' '] ++ ljust 48 (hexBytes chunk) ++ [' ', '|'] ++ chunk.map ascii ++ ['|']

/-- The lines from index `i` on. -/
def hexdFrom (pfx : List Char) (i : Nat) : Bytes → List (List Char)
  | [] => []
  | b :: bs => row pfx i ((b :: bs).take 16) :: hexdFrom pfx (i + 16) ((b :: bs).drop 16)
termination_by rest => rest.length
decreasing_by simp only [List.length_drop, List.length_cons]; omega

def hexd (b : Bytes) (pfx : List Char := [' ', ' ']) : List Char := ['\n'].intercalate (hexdFrom pfx 0 b)

end SpidevRaw

end GoodixSpi.Tools
