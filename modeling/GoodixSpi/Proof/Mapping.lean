import GoodixSpi.Lib.Blocks
import GoodixSpi.Tools.Pexref

/-!
# File offsets and addresses of a PE image

`f2rva` moves the raw ranges of the sections to their virtual ranges, and `rva2f` moves them back. `rva2f` searches by a wider range than it answers for, the larger of the virtual and the raw size, and answers nothing in a section's tail; where the wider ranges do not overlap, that is the reversed table of moves.
-/

namespace GoodixSpi.Tools.Pexref

open Wire Blocks

/-- The sections overlap neither in the file nor in memory: no offset and no address is in the ranges of two. -/
structure LaidOut (secs : List Section) : Prop where
  raw : secs.Pairwise fun s t => ∀ f, ¬ (s.hasOffset f = true ∧ t.hasOffset f = true)
  virtual : secs.Pairwise fun s t => ∀ r, ¬ (s.hasRva r = true ∧ t.hasRva r = true)

/-- The raw range of a section, and where it is in memory. -/
def Section.block (s : Section) : Block Int := ⟨s.ra, s.va, s.rs⟩

def PE.blocks (pe : PE) : List (Block Int) := pe.secs.map Section.block

theorem Section.hasOffset_iff (s : Section) (f : Int) : s.hasOffset f = true ↔ s.block.Has f := decide_eq_true_iff

theorem Section.hasRva_iff (s : Section) (r : Int) :
    s.hasRva r = true ↔ (s.va : Int) ≤ r ∧ r < s.va + (max s.vs s.rs : Nat) := decide_eq_true_iff

theorem Section.hasRva_of_flip {s : Section} {r : Int} (h : s.block.flip.Has r) : s.hasRva r = true := by
  obtain ⟨hlo, hhi⟩ : (s.va : Int) ≤ r ∧ r < s.va + s.rs := h
  rw [hasRva_iff]
  exact ⟨hlo, by omega⟩

theorem PE.f2rva_eq (pe : PE) (f : Int) : pe.f2rva f = move pe.blocks f := by
  rw [f2rva, move, blocks, List.find?_map]
  have hpred : ((fun b : Block Int => decide (b.Has f)) ∘ Section.block) = fun s : Section => s.hasOffset f := by
    funext s
    exact (Bool.eq_iff_iff.mpr ((s.hasOffset_iff f).trans decide_eq_true_iff.symm)).symm
  rw [hpred]
  cases pe.secs.find? fun s => s.hasOffset f <;> rfl

theorem LaidOut.raw_apart {pe : PE} (h : LaidOut pe.secs) : Apart pe.blocks := by
  rw [Apart, PE.blocks, List.pairwise_map]
  apply h.raw.imp
  intro s t hst f hf
  exact hst f ⟨(s.hasOffset_iff f).mpr hf.1, (t.hasOffset_iff f).mpr hf.2⟩

theorem LaidOut.virtual_exclusive {secs : List Section} (h : LaidOut secs) (r : Int) :
    secs.Pairwise fun s t => ¬ (s.hasRva r = true ∧ t.hasRva r = true) := by
  apply h.virtual.imp
  intro s t hst
  exact hst r

theorem LaidOut.virtual_apart {pe : PE} (h : LaidOut pe.secs) : Apart (pe.blocks.map Block.flip) := by
  rw [Apart, PE.blocks, List.map_map, List.pairwise_map, List.pairwise_iff_forall_sublist]
  intro s t hst r hr
  have hexclusive := List.pairwise_iff_forall_sublist.mp (h.virtual_exclusive r) hst
  exact hexclusive ⟨Section.hasRva_of_flip hr.1, Section.hasRva_of_flip hr.2⟩

theorem LaidOut.rva2f_eq {pe : PE} (h : LaidOut pe.secs) (r : Int) :
    pe.rva2f r = move (pe.blocks.map Block.flip) r := by
  rw [PE.rva2f]
  cases hfind : pe.secs.find? fun s => s.hasRva r with
  | none =>
      symm
      rw [move_eq_none_iff, PE.blocks, List.map_map]
      intro b hb hbr
      obtain ⟨s, hs, rfl⟩ := List.mem_map.mp hb
      exact List.find?_eq_none.mp hfind s hs (Section.hasRva_of_flip hbr)
  | some s =>
      obtain ⟨hs, hr⟩ := (find?_eq_some_iff_of_exclusive (h.virtual_exclusive r)).mp hfind
      obtain ⟨hlo, -⟩ := (s.hasRva_iff r).mp hr
      have hmem : s.block.flip ∈ pe.blocks.map Block.flip := List.mem_map_of_mem (List.mem_map_of_mem hs)
      dsimp only
      symm
      by_cases hoff : r - s.va < s.rs
      · rw [if_pos hoff, move_eq_some_iff h.virtual_apart]
        refine ⟨_, hmem, ⟨hlo, ?_⟩, rfl⟩
        change r < s.va + s.rs
        omega
      · rw [if_neg hoff, move_eq_none_iff, PE.blocks, List.map_map]
        intro b hb hbr
        obtain ⟨t, ht, rfl⟩ := List.mem_map.mp hb
        have hfound := (find?_eq_some_iff_of_exclusive (h.virtual_exclusive r)).mpr ⟨ht, Section.hasRva_of_flip hbr⟩
        obtain rfl : s = t := Option.some.inj (hfind.symm.trans hfound)
        obtain ⟨-, hhi⟩ : (s.va : Int) ≤ r ∧ r < s.va + s.rs := hbr
        omega

/-- **The two maps are inverse to each other**, and `rva2f` answers nothing exactly outside the raw data. -/
theorem f2rva_rva2f_inverse (pe : PE) (h : LaidOut pe.secs) :
    (∀ f r, pe.f2rva f = some r → pe.rva2f r = some f) ∧ (∀ r f, pe.rva2f r = some f → pe.f2rva f = some r) ∧
      ∀ r, pe.rva2f r = none ↔ ∀ s ∈ pe.secs, ¬ ((s.va : Int) ≤ r ∧ r < s.va + s.rs) := by
  have hflip {f r : Int} : pe.f2rva f = some r ↔ pe.rva2f r = some f := by
    rw [pe.f2rva_eq, h.rva2f_eq]
    exact move_flip_iff h.raw_apart h.virtual_apart
  refine ⟨fun f r => hflip.mp, fun r f => hflip.mpr, ?_⟩
  intro r
  rw [h.rva2f_eq, move_eq_none_iff, PE.blocks, List.map_map]
  constructor
  · intro hnone s hs
    exact hnone _ (List.mem_map_of_mem hs)
  · intro hnone b hb
    obtain ⟨s, hs, rfl⟩ := List.mem_map.mp hb
    exact hnone s hs

def threeSections : PE where
  d := []
  base := 0x180000000
  secs :=
    [ { name := ".data", va := 0x3000, vs := 0x120, ra := 0x800, rs := 0x200 },
      { name := ".text", va := 0x1000, vs := 0x900, ra := 0x400, rs := 0x400 },
      { name := ".bss", va := 0x4000, vs := 0x500, ra := 0, rs := 0 } ]

theorem threeSections_laidOut : LaidOut threeSections.secs := by
  constructor
  · simp [threeSections, Section.hasOffset]
    omega
  · simp [threeSections, Section.hasRva]
    refine ⟨⟨?_, ?_⟩, ?_⟩ <;> omega

/-- An offset of `.text`, there and back, and an address in its tail. -/
theorem f2rva_rva2f_inverse_threeSections :
    threeSections.rva2f 0x1010 = some 0x410 ∧ threeSections.rva2f 0x1400 = none := by
  obtain ⟨hback, -, hnone⟩ := f2rva_rva2f_inverse threeSections threeSections_laidOut
  exact ⟨hback 0x410 0x1010 (by decide), (hnone 0x1400).mpr (by decide)⟩

end GoodixSpi.Tools.Pexref
