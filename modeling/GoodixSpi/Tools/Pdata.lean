import GoodixSpi.Lib.Bisect
import GoodixSpi.Tools.Pexref

/-!
# `tools/pdata.py`: the function map of the exception directory

The records of `.pdata` are three words each: start, end and unwind data. A record whose start and end are zero is passed over. The map is sorted by the tuples it holds, and looked up by the start alone.
-/

namespace GoodixSpi.Tools.Pdata

open Wire Scan Bisect Pexref

/-- What the loop of `funcs` appends at offset `i`, if anything. -/
def entryAt (d : Bytes) (i : Nat) : Option (Option (Nat × Nat)) := do
  let start ← unpack 4 d i
  let stop ← unpack 4 d (i + 4)
  let _unwind ← unpack 4 d (i + 8)
  if start = 0 ∧ stop = 0 then pure none else pure (some (start, stop))

def tupleLe (p q : Nat × Nat) : Bool := p.1 < q.1 ∨ (p.1 = q.1 ∧ p.2 ≤ q.2)

/-- `funcs`, which raises where a record lies outside the file. -/
def funcs (pe : PE) : Option (List (Nat × Nat)) :=
  match pe.sec ".pdata" with
  | none => some []
  | some s => do
      let out ← scan (entryAt pe.d) (positions s.ra (s.ra + min s.vs s.rs) 12)
      pure (out.mergeSort tupleLe)

inductive Report where
  | notFound
  | inside (s e : Nat)
  | pastEnd (s e : Nat)
  deriving DecidableEq, Repr

def lookup (fs : List (Nat × Nat)) (rva : Int) : Report :=
  match lastFrom fs (fun f => (f.1 : Int)) rva with
  | none => .notFound
  | some (s, e) => if rva < e then .inside s e else .pastEnd s e

/-- `v - pe.base if v >= pe.base else (pe.f2rva(v) or v)`. -/
def rvaOf (pe : PE) (v : Int) : Int :=
  if v ≥ pe.base then v - pe.base
  else
    match pe.f2rva v with
    | none => v
    | some rva => if rva = 0 then v else rva

def report (pe : PE) (v : Int) : Option Report := (funcs pe).map fun fs => lookup fs (rvaOf pe v)

end GoodixSpi.Tools.Pdata
