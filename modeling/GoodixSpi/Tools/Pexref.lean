import GoodixSpi.Lib.Bytes
import GoodixSpi.Lib.Scan

/-!
# `tools/pexref.py`: references in a PE image

The header parser, the two maps between file offsets and addresses relative to the image base, and the scan for `lea` instructions that address relative to the instruction pointer. The functions raise where a field or a byte lies outside the file, and then return `none` here.
-/

namespace GoodixSpi.Tools.Pexref

open Wire Scan

structure Section where
  name : String
  va : Nat
  vs : Nat
  ra : Nat
  rs : Nat
  deriving DecidableEq, Repr

structure PE where
  d : Bytes
  base : Nat
  secs : List Section
  deriving DecidableEq, Repr

def rstripZeros (b : Bytes) : Bytes := (b.reverse.dropWhile fun x => x = 0).reverse

def decode (b : Bytes) : Option String := String.fromUTF8? ⟨b.toArray⟩

def PE.init (d : Bytes) : Option PE := do
  let pe ← unpack 4 d 0x3c
  let nsec ← unpack 2 d (pe + 6)
  let optsz ← unpack 2 d (pe + 20)
  let base ← unpack 8 d (pe + 24 + 24)
  let secs ← (List.range nsec).mapM fun i => do
    let o := pe + 24 + optsz + i * 40
    let name ← decode (rstripZeros (slice d o (o + 8)))
    let vs ← unpack 4 d (o + 8)
    let va ← unpack 4 d (o + 12)
    let rs ← unpack 4 d (o + 16)
    let ra ← unpack 4 d (o + 20)
    pure { name := name, va := va, vs := vs, ra := ra, rs := rs }
  pure { d := d, base := base, secs := secs }

/-- `ra <= f < ra+rs`. -/
def Section.hasOffset (s : Section) (f : Int) : Bool := s.ra ≤ f ∧ f < s.ra + s.rs

/-- `va <= r < va+max(vs, rs)`. -/
def Section.hasRva (s : Section) (r : Int) : Bool := s.va ≤ r ∧ r < s.va + (max s.vs s.rs : Nat)

def PE.f2rva (pe : PE) (f : Int) : Option Int :=
  match pe.secs.find? fun s => s.hasOffset f with
  | none => none
  | some s => some (s.va + (f - s.ra))

def PE.rva2f (pe : PE) (r : Int) : Option Int :=
  match pe.secs.find? fun s => s.hasRva r with
  | none => none
  | some s =>
      let off := r - s.va
      if off < s.rs then some (s.ra + off) else none

/-- The first section of a name. -/
def PE.sec (pe : PE) (name : String) : Option Section := pe.secs.find? fun s => s.name = name

/-! ### The scan -/

/-- The keys of `LEA_REGS`, ModRM bytes without their two extension bits. -/
def LEA_REGS : List UInt8 := [0x05, 0x0d, 0x15, 0x1d, 0x2d, 0x35, 0x3d]

def unpackSigned (d : Bytes) (off : Nat) : Option Int :=
  (unpack 4 d off).map fun n => if n < 2 ^ 31 then n else (n : Int) - 2 ^ 32

/-- What the loop yields at file offset `i`, if anything. -/
def leaAt (d : Bytes) (va ra i : Nat) : Option (Option (Nat × Int)) := do
  let b0 ← d[i]?
  let b1 ← d[i + 1]?
  let b2 ← d[i + 2]?
  if 0x48 ≤ b0 ∧ b0 ≤ 0x4f ∧ b1 = 0x8d then
    let modrm := b2
    if modrm &&& 0xc7 ∉ LEA_REGS ∧ modrm &&& 0x07 ≠ 0x05 then pure none
    else if modrm &&& 0xc0 ≠ 0x00 ∨ modrm &&& 0x07 ≠ 0x05 then pure none
    else do
      let disp ← unpackSigned d (i + 3)
      let nxtRva := va + (i - ra) + 7
      pure (some (i, nxtRva + disp))
  else pure none

def scanLea (pe : PE) : Option (List (Nat × Int)) :=
  match pe.sec ".text" with
  | none => none
  | some s => scan (leaAt pe.d s.va s.ra) (positions s.ra (s.ra + s.rs - 7) 1)

end GoodixSpi.Tools.Pexref
