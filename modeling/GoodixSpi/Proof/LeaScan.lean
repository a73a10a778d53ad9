import GoodixSpi.Tools.Pexref

/-!
# The scan for `lea` instructions

An instruction at `i` takes seven bytes, so the last one that fits begins seven bytes before the end of `.text`. The scan stops one position before it: it finds every instruction but one that ends exactly with the section.
-/

namespace GoodixSpi.Tools.Pexref

open Wire Scan

/-- A ModRM byte with `mod = 00` and `r/m = 101`. -/
def RipRelative (modrm : UInt8) : Prop := modrm.toNat / 64 = 0 ∧ modrm.toNat % 8 = 5

instance (modrm : UInt8) : Decidable (RipRelative modrm) := inferInstanceAs (Decidable (_ ∧ _))

/-- A REX.W prefix, the opcode, and an operand relative to the instruction pointer. -/
def IsLea (d : Bytes) (i : Nat) : Prop :=
  ∃ b0 modrm, d[i]? = some b0 ∧ d[i + 1]? = some 0x8d ∧ d[i + 2]? = some modrm ∧ (0x48 ≤ b0 ∧ b0 ≤ 0x4f) ∧
    RipRelative modrm

theorem ripRelative_iff (modrm : UInt8) : RipRelative modrm ↔ modrm &&& 0xc0 = 0x00 ∧ modrm &&& 0x07 = 0x05 := by
  have hall : ∀ n < 256, RipRelative (UInt8.ofNat n) ↔
      UInt8.ofNat n &&& 0xc0 = 0x00 ∧ UInt8.ofNat n &&& 0x07 = 0x05 := by decide +kernel
  have hmodrm := hall modrm.toNat modrm.toNat_lt
  rwa [UInt8.ofNat_toNat] at hmodrm

/-- The body of the loop on the three bytes it reads. The first filter drops nothing that the second would keep. -/
theorem leaAt_eq {d : Bytes} {i : Nat} {b0 b1 b2 : UInt8} (va ra : Nat) (h0 : d[i]? = some b0)
    (h1 : d[i + 1]? = some b1) (h2 : d[i + 2]? = some b2) :
    leaAt d va ra i = if (0x48 ≤ b0 ∧ b0 ≤ 0x4f ∧ b1 = 0x8d) ∧ RipRelative b2 then
      (unpackSigned d (i + 3)).map fun disp => some (i, ((va + (i - ra) + 7 : Nat) : Int) + disp) else some none := by
  simp only [leaAt, h0, h1, h2, Option.bind_eq_bind, Option.bind_some]
  by_cases hop : 0x48 ≤ b0 ∧ b0 ≤ 0x4f ∧ b1 = 0x8d
  · by_cases hrip : RipRelative b2
    · obtain ⟨hmod, hrm⟩ := (ripRelative_iff b2).mp hrip
      simp [hop, hrip, hmod, hrm, Option.map_eq_bind]
    · have hdrop : b2 &&& 0xc0 ≠ 0x00 ∨ b2 &&& 0x07 ≠ 0x05 := by
        rw [ripRelative_iff, not_and_or] at hrip
        exact hrip
      simp [hop, hrip, hdrop]
  · simp [hop]

theorem unpackSigned_isSome {d : Bytes} {off : Nat} (h : off + 4 ≤ d.length) : (unpackSigned d off).isSome = true := by
  obtain ⟨v, hv, -⟩ := unpack_eq_some 4 off h
  rw [unpackSigned, Option.isSome_map, hv]
  rfl

theorem leaAt_isSome {d : Bytes} {i : Nat} (va ra : Nat) (h : i + 7 ≤ d.length) : (leaAt d va ra i).isSome = true := by
  rw [leaAt_eq va ra (List.getElem?_eq_getElem (by omega)) (List.getElem?_eq_getElem (by omega))
    (List.getElem?_eq_getElem (by omega))]
  split
  · rw [Option.isSome_map]
    exact unpackSigned_isSome (by omega)
  · rfl

theorem leaAt_eq_some_iff {d : Bytes} {va ra i : Nat} {p : Nat × Int} :
    leaAt d va ra i = some (some p) ↔
      IsLea d i ∧ ∃ disp, unpackSigned d (i + 3) = some disp ∧ p = (i, ((va + (i - ra) + 7 : Nat) : Int) + disp) := by
  cases h0 : d[i]? with
  | none => simp [leaAt, IsLea, h0]
  | some b0 =>
      cases h1 : d[i + 1]? with
      | none => simp [leaAt, IsLea, h1]
      | some b1 =>
          cases h2 : d[i + 2]? with
          | none => simp [leaAt, IsLea, h2]
          | some b2 =>
              have hlea : IsLea d i ↔ (0x48 ≤ b0 ∧ b0 ≤ 0x4f ∧ b1 = 0x8d) ∧ RipRelative b2 := by
                simp only [IsLea, h0, h1, h2, Option.some.injEq]
                constructor
                · intro h
                  obtain ⟨b, m, rfl, rfl, rfl, ⟨hlo, hhi⟩, hrip⟩ := h
                  exact ⟨⟨hlo, hhi, rfl⟩, hrip⟩
                · intro h
                  obtain ⟨⟨hlo, hhi, hop⟩, hrip⟩ := h
                  exact ⟨b0, b2, rfl, hop, rfl, ⟨hlo, hhi⟩, hrip⟩
              rw [leaAt_eq va ra h0 h1 h2, hlea]
              split
              · rename_i hmatch
                rw [Option.map_eq_some_iff]
                simp only [hmatch, and_self, true_and, Option.some.injEq, eq_comm]
              · rename_i hmatch
                simp [hmatch]

/-- The references of `.text` as the format has them: one for each instruction that lies inside the section. -/
def IsReference (d : Bytes) (s : Section) (p : Nat × Int) : Prop :=
  ∃ i disp, s.ra ≤ i ∧ i + 7 ≤ s.ra + s.rs ∧ IsLea d i ∧ unpackSigned d (i + 3) = some disp ∧
    p = (i, (s.va : Int) + (i - s.ra) + 7 + disp)

/-- The scan yields the references, each once and in the order of the file. -/
def Exact (pe : PE) (s : Section) : Prop :=
  ∃ yields, scanLea pe = some yields ∧ (yields.Pairwise fun p q => p.1 < q.1) ∧
    ∀ p, p ∈ yields ↔ IsReference pe.d s p

variable {pe : PE} {s : Section}

/-- What the scan does yield: every reference but one at the last offset of all. -/
theorem scanLea_eq_some (hsec : pe.sec ".text" = some s) (hfile : s.ra + s.rs ≤ pe.d.length) :
    ∃ yields, scanLea pe = some yields ∧ (yields.Pairwise fun p q => p.1 < q.1) ∧
      ∀ p, p ∈ yields ↔ IsReference pe.d s p ∧ p.1 + 7 < s.ra + s.rs := by
  have hsome : ∀ i ∈ positions s.ra (s.ra + s.rs - 7) 1, (leaAt pe.d s.va s.ra i).isSome = true := by
    intro i hi
    obtain ⟨-, hlt, -⟩ := (mem_positions Nat.one_pos).mp hi
    exact leaAt_isSome s.va s.ra (by omega)
  obtain ⟨yields, hscan, hsorted, hmem⟩ := scan_spec (Q := fun p q : Nat × Int => p.1 < q.1)
    (positions_sorted Nat.one_pos) hsome (by
      intro i _ j _ hij p q hp hq
      obtain ⟨-, _, -, rfl⟩ := leaAt_eq_some_iff.mp hp
      obtain ⟨-, _, -, rfl⟩ := leaAt_eq_some_iff.mp hq
      exact hij)
  refine ⟨yields, ?_, hsorted, fun p => ?_⟩
  · rw [scanLea, hsec]
    exact hscan
  · rw [hmem]
    constructor
    · intro h
      obtain ⟨i, hi, hp⟩ := h
      obtain ⟨hlo, hlt, -⟩ := (mem_positions Nat.one_pos).mp hi
      obtain ⟨hlea, disp, hdisp, rfl⟩ := leaAt_eq_some_iff.mp hp
      refine ⟨⟨i, disp, hlo, by omega, hlea, hdisp, ?_⟩, by dsimp only; omega⟩
      push_cast [hlo]
      rfl
    · intro h
      obtain ⟨⟨i, disp, hlo, -, hlea, hdisp, rfl⟩, hlt⟩ := h
      refine ⟨i, (mem_positions Nat.one_pos).mpr ⟨hlo, by dsimp only at hlt; omega, one_dvd _⟩, ?_⟩
      rw [leaAt_eq_some_iff]
      refine ⟨hlea, disp, hdisp, ?_⟩
      push_cast [hlo]
      rfl

/-- **The scan is exact** unless an instruction ends with the section. -/
theorem scanLea_exact_iff (hsec : pe.sec ".text" = some s) (hfile : s.ra + s.rs ≤ pe.d.length) :
    Exact pe s ↔ ¬ (7 ≤ s.rs ∧ IsLea pe.d (s.ra + s.rs - 7)) := by
  obtain ⟨yields, hscan, hsorted, hmem⟩ := scanLea_eq_some hsec hfile
  constructor
  · intro hexact hlast
    obtain ⟨hrs, hlea⟩ := hlast
    obtain ⟨yields', hscan', -, hmem'⟩ := hexact
    obtain rfl : yields = yields' := Option.some.inj (hscan.symm.trans hscan')
    have hfits : s.ra + s.rs - 7 + 3 + 4 ≤ pe.d.length := by omega
    obtain ⟨disp, hdisp⟩ := Option.isSome_iff_exists.mp (unpackSigned_isSome hfits)
    have hin := (hmem' _).mpr ⟨s.ra + s.rs - 7, disp, by omega, by omega, hlea, hdisp, rfl⟩
    have hlt := ((hmem _).mp hin).2
    dsimp only at hlt
    omega
  · intro hlast
    refine ⟨yields, hscan, hsorted, fun p => ?_⟩
    rw [hmem]
    refine ⟨And.left, fun href => ⟨href, ?_⟩⟩
    obtain ⟨i, disp, hlo, hhi, hlea, -, rfl⟩ := href
    by_contra hge
    dsimp only at hge
    obtain rfl : i = s.ra + s.rs - 7 := by omega
    exact hlast ⟨by omega, hlea⟩

def textImage (text : Bytes) : Bytes :=
  List.replicate 0x3c 0 ++ [0x40, 0, 0, 0] ++
  [0x50, 0x45, 0, 0, 0x64, 0x86, 1, 0] ++ List.replicate 12 0 ++ [0x20, 0, 0x22, 0x20] ++
  [0x0b, 0x02] ++ List.replicate 22 0 ++ [0, 0, 0, 0x80, 1, 0, 0, 0] ++
  [0x2e, 0x74, 0x65, 0x78, 0x74, 0, 0, 0, UInt8.ofNat text.length, 0, 0, 0, 0, 0x10, 0, 0,
    UInt8.ofNat text.length, 0, 0, 0, 0xa0, 0, 0, 0] ++ List.replicate 16 0 ++ text

/-- `lea rax, [rip + 0xff9]`. -/
def leaRax : Bytes := [0x48, 0x8d, 0x05, 0xf9, 0x0f, 0, 0]

theorem textImage_leaRax_ret :
    PE.init (textImage (leaRax ++ [0xc3])) =
      some ⟨textImage (leaRax ++ [0xc3]), 0x180000000, [⟨".text", 0x1000, 8, 0xa0, 8⟩]⟩ := by decide +kernel

theorem textImage_leaRax :
    PE.init (textImage leaRax) = some ⟨textImage leaRax, 0x180000000, [⟨".text", 0x1000, 7, 0xa0, 7⟩]⟩ := by
  decide +kernel

theorem scanLea_exact_iff_ret :
    ∃ pe, PE.init (textImage (leaRax ++ [0xc3])) = some pe ∧ Exact pe ⟨".text", 0x1000, 8, 0xa0, 8⟩ := by
  refine ⟨_, textImage_leaRax_ret, (scanLea_exact_iff (by decide) (by decide +kernel)).mpr ?_⟩
  have hbyte : (textImage (leaRax ++ [0xc3]))[0xa1]? = some 0x8d := by decide +kernel
  intro h
  obtain ⟨-, b0, modrm, h0, -, -, hrex, -⟩ := h
  obtain rfl : b0 = 0x8d := Option.some.inj (h0.symm.trans hbyte)
  exact absurd hrex (by decide)

/-- As the last instruction of the section it is not. -/
theorem scanLea_misses_last :
    ∃ pe, PE.init (textImage leaRax) = some pe ∧ pe.sec ".text" = some ⟨".text", 0x1000, 7, 0xa0, 7⟩ ∧
      0xa0 + 7 ≤ pe.d.length ∧ scanLea pe = some [] ∧ IsReference pe.d ⟨".text", 0x1000, 7, 0xa0, 7⟩ (0xa0, 0x2000) ∧
      ¬ Exact pe ⟨".text", 0x1000, 7, 0xa0, 7⟩ := by
  have hnone : scanLea ⟨textImage leaRax, 0x180000000, [⟨".text", 0x1000, 7, 0xa0, 7⟩]⟩ = some [] := by
    decide +kernel
  have href : IsReference (textImage leaRax) ⟨".text", 0x1000, 7, 0xa0, 7⟩ (0xa0, 0x2000) :=
    ⟨0xa0, 0xff9, by decide, by decide, ⟨0x48, 0x05, by decide +kernel⟩, by decide +kernel, by decide⟩
  refine ⟨_, textImage_leaRax, by decide, by decide +kernel, hnone, href, fun hexact => ?_⟩
  obtain ⟨yields, hscan, -, hmem⟩ := hexact
  obtain rfl : yields = [] := Option.some.inj (hscan.symm.trans hnone)
  exact List.not_mem_nil ((hmem _).mpr href)

end GoodixSpi.Tools.Pexref
