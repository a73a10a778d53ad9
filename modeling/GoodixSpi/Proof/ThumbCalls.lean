import GoodixSpi.Tools.ThumbCalls

/-!
# Calls in a Thumb-2 image

The encodings of the architecture, and what the decoder of the source makes of them. A call carries its displacement as `S:I1:I2:imm10:imm11:0`, with `J1` and `J2` in the place of `I1` and `I2`.
-/

namespace GoodixSpi.Tools.ThumbCalls

open Wire Scan

structure Fields where
  S : Fin 2
  I1 : Fin 2
  I2 : Fin 2
  imm10 : Fin 1024
  imm11 : Fin 2048

namespace Fields

variable (f : Fields)

/-- `S:I1:I2:imm10:imm11:0`, sign-extended. -/
def value : Int := -(f.S : Int) * 2 ^ 24 + f.I1 * 2 ^ 23 + f.I2 * 2 ^ 22 + f.imm10 * 2 ^ 12 + f.imm11 * 2

/-- `NOT(I1) EOR S`. -/
def J1 : Nat := (f.I1 + 1 + f.S) % 2

/-- `NOT(I2) EOR S`. -/
def J2 : Nat := (f.I2 + 1 + f.S) % 2

/-- `11110 S imm10`. -/
def hw1 : Nat := 0xF000 + f.S * 2 ^ 10 + f.imm10

/-- `11 J1 x J2 imm11`, where bit 12 distinguishes the instructions. -/
def hw2 (bit12 : Fin 2) : Nat := 0xC000 + f.J1 * 2 ^ 13 + bit12 * 2 ^ 12 + f.J2 * 2 ^ 11 + f.imm11

theorem J1_lt : f.J1 < 2 := Nat.mod_lt _ (by decide)

theorem J2_lt : f.J2 < 2 := Nat.mod_lt _ (by decide)

theorem I1_eq : (f.J1 + 1 + f.S) % 2 = f.I1 := by
  rw [J1]
  omega

theorem I2_eq : (f.J2 + 1 + f.S) % 2 = f.I2 := by
  rw [J2]
  omega

theorem hw1_S : f.hw1 / 2 ^ 10 % 2 = f.S := by
  rw [hw1]
  omega

theorem hw1_imm10 : f.hw1 % 1024 = f.imm10 := by
  rw [hw1]
  omega

theorem hw2_J1 (bit12 : Fin 2) : f.hw2 bit12 / 2 ^ 13 % 2 = f.J1 := by
  have := f.J1_lt
  have := f.J2_lt
  rw [hw2]
  omega

theorem hw2_J2 (bit12 : Fin 2) : f.hw2 bit12 / 2 ^ 11 % 2 = f.J2 := by
  have := f.J2_lt
  rw [hw2]
  omega

theorem hw2_imm11 (bit12 : Fin 2) : f.hw2 bit12 % 2048 = f.imm11 := by
  rw [hw2]
  omega

theorem hw2_bit12 (bit12 : Fin 2) : f.hw2 bit12 / 2 ^ 12 % 2 = bit12 := by
  have := f.J2_lt
  rw [hw2]
  omega

end Fields

/-- The displacements that a call can carry. -/
def InRange (D : Int) : Prop := 2 ∣ D ∧ -(2 ^ 24) ≤ D ∧ D ≤ 2 ^ 24 - 2

/-- Every displacement in range has its fields, and the fields make up no other. -/
theorem inRange_iff (D : Int) : InRange D ↔ ∃ f : Fields, f.value = D := by
  constructor
  · intro h
    obtain ⟨h2, hlo, hhi⟩ := h
    obtain ⟨u, hu⟩ : ∃ u : Nat, (u : Int) = D % 2 ^ 25 := ⟨(D % 2 ^ 25).toNat, by omega⟩
    refine ⟨⟨⟨u / 2 ^ 24, by omega⟩, ⟨u / 2 ^ 23 % 2, by omega⟩, ⟨u / 2 ^ 22 % 2, by omega⟩,
      ⟨u / 2 ^ 12 % 1024, by omega⟩, ⟨u / 2 % 2048, by omega⟩⟩, ?_⟩
    simp only [Fields.value]
    omega
  · intro h
    obtain ⟨f, rfl⟩ := h
    rw [InRange, Fields.value]
    omega

theorem notBit_xor {J S : Nat} (hJ : J < 2) (hS : S < 2) : notBit (J ^^^ S) = (J + 1 + S) % 2 := by
  have hall : ∀ J < 2, ∀ S < 2, notBit (J ^^^ S) = (J + 1 + S) % 2 := by decide
  exact hall J hJ S hS

theorem and_one (n : Nat) : n &&& 1 = n % 2 := Nat.and_two_pow_sub_one_eq_mod n 1

theorem pack {S I1 I2 imm10 imm11 : Nat} (h1 : I1 < 2) (h2 : I2 < 2) (h10 : imm10 < 1024) (h11 : imm11 < 2048) :
    (S <<< 24) ||| (I1 <<< 23) ||| (I2 <<< 22) ||| (imm10 <<< 12) ||| (imm11 <<< 1) =
      2 ^ 24 * S + (2 ^ 23 * I1 + (2 ^ 22 * I2 + (2 ^ 12 * imm10 + 2 * imm11))) := by
  have hlow : imm11 <<< 1 = 2 * imm11 := by rw [Nat.shiftLeft_eq]; omega
  rw [hlow, Nat.or_assoc, Nat.or_assoc, Nat.or_assoc, shiftLeft_or imm10 (by omega), shiftLeft_or I2 (by omega),
    shiftLeft_or I1 (by omega), shiftLeft_or S (by omega)]

theorem branchOffset_eq (hw1 hw2 : Nat) :
    branchOffset hw1 hw2 = -((hw1 / 2 ^ 10 % 2 : Nat) : Int) * 2 ^ 24 +
      ((hw2 / 2 ^ 13 % 2 + 1 + hw1 / 2 ^ 10 % 2) % 2 : Nat) * 2 ^ 23 +
      ((hw2 / 2 ^ 11 % 2 + 1 + hw1 / 2 ^ 10 % 2) % 2 : Nat) * 2 ^ 22 +
      (hw1 % 1024 : Nat) * 2 ^ 12 + (hw2 % 2048 : Nat) * 2 := by
  have h10 : hw1 &&& 0x3FF = hw1 % 1024 := Nat.and_two_pow_sub_one_eq_mod hw1 10
  have h11 : hw2 &&& 0x7FF = hw2 % 2048 := Nat.and_two_pow_sub_one_eq_mod hw2 11
  simp only [branchOffset, Nat.shiftRight_eq_div_pow, and_one, h10, h11]
  rw [notBit_xor (by omega) (by omega), notBit_xor (by omega) (by omega),
    pack (by omega) (by omega) (by omega) (by omega)]
  split <;> omega

theorem branchOffset_fields (f : Fields) (bit12 : Fin 2) : branchOffset f.hw1 (f.hw2 bit12) = f.value := by
  rw [branchOffset_eq, f.hw1_S, f.hw1_imm10, f.hw2_J1, f.hw2_J2, f.hw2_imm11, f.I1_eq, f.I2_eq, Fields.value]

/-- What the two tests of the source let through. -/
def IsCall (hw1 hw2 : Nat) : Prop := hw1 / 2 ^ 11 = 30 ∧ hw2 / 2 ^ 14 = 3

/-- The calls are the halfwords that are made up of fields. -/
theorem isCall_iff (hw1 hw2 : Nat) : IsCall hw1 hw2 ↔ ∃ (f : Fields) (bit12 : Fin 2), hw1 = f.hw1 ∧ hw2 = f.hw2 bit12 := by
  constructor
  · intro h
    obtain ⟨h1, h2⟩ := h
    refine ⟨⟨⟨hw1 / 2 ^ 10 % 2, by omega⟩, ⟨(hw2 / 2 ^ 13 % 2 + 1 + hw1 / 2 ^ 10 % 2) % 2, by omega⟩,
      ⟨(hw2 / 2 ^ 11 % 2 + 1 + hw1 / 2 ^ 10 % 2) % 2, by omega⟩, ⟨hw1 % 1024, by omega⟩, ⟨hw2 % 2048, by omega⟩⟩,
      ⟨hw2 / 2 ^ 12 % 2, by omega⟩, ?_, ?_⟩
    · rw [Fields.hw1]
      dsimp only
      omega
    · have hJ1 : ((hw2 / 2 ^ 13 % 2 + 1 + hw1 / 2 ^ 10 % 2) % 2 + 1 + hw1 / 2 ^ 10 % 2) % 2 = hw2 / 2 ^ 13 % 2 := by omega
      have hJ2 : ((hw2 / 2 ^ 11 % 2 + 1 + hw1 / 2 ^ 10 % 2) % 2 + 1 + hw1 / 2 ^ 10 % 2) % 2 = hw2 / 2 ^ 11 % 2 := by omega
      rw [Fields.hw2, Fields.J1, Fields.J2, hJ1, hJ2]
      dsimp only
      omega
  · intro h
    obtain ⟨f, bit12, rfl, rfl⟩ := h
    have := f.J1_lt
    have := f.J2_lt
    rw [IsCall, Fields.hw1, Fields.hw2]
    omega

theorem and_shiftLeft (n m k : Nat) : n &&& (m <<< k) = ((n >>> k) &&& m) <<< k := by
  apply Nat.eq_of_testBit_eq
  intro i
  simp only [Nat.testBit_and, Nat.testBit_shiftLeft, Nat.testBit_shiftRight]
  by_cases hik : k ≤ i
  · simp [hik]
  · simp [hik]

theorem prefix_iff {hw1 : Nat} (h : hw1 < 2 ^ 16) : hw1 &&& 0xF800 = 0xF000 ↔ hw1 / 2 ^ 11 = 30 := by
  have hmask : hw1 &&& 0xF800 = (hw1 / 2 ^ 11 &&& 31) <<< 11 := by
    rw [← Nat.shiftRight_eq_div_pow]
    exact and_shiftLeft hw1 31 11
  have hall : ∀ n < 32, ((n &&& 31) <<< 11 = 0xF000 ↔ n = 30) := by decide
  rw [hmask, hall _ (by omega)]

theorem suffix_iff {hw2 : Nat} (h : hw2 < 2 ^ 16) : hw2 &&& 0xD000 ∈ [0xD000, 0xC000] ↔ hw2 / 2 ^ 14 = 3 := by
  have hmask : hw2 &&& 0xD000 = (hw2 / 2 ^ 12 &&& 13) <<< 12 := by
    rw [← Nat.shiftRight_eq_div_pow]
    exact and_shiftLeft hw2 13 12
  have hall : ∀ n < 16, ((n &&& 13) <<< 12 ∈ [0xD000, 0xC000] ↔ n / 4 = 3) := by decide
  rw [hmask, hall _ (by omega)]
  omega

/-! ### The pass -/

/-- At `i` in the image are the two halfwords of a call. -/
structure CallSite (d : Bytes) (i hw1 hw2 : Nat) : Prop where
  even : 2 ∣ i
  inside : i + 4 ≤ d.length
  first : unpack 2 d i = some hw1
  second : unpack 2 d (i + 2) = some hw2
  call : IsCall hw1 hw2

theorem callAt_eq {d : Bytes} (base : Int) {i : Nat} (h : i + 4 ≤ d.length) :
    ∃ hw1 hw2, unpack 2 d i = some hw1 ∧ unpack 2 d (i + 2) = some hw2 ∧
      (IsCall hw1 hw2 → callAt d base i = some (some (base + i, base + i + 4 + branchOffset hw1 hw2))) ∧
      (¬ IsCall hw1 hw2 → callAt d base i = some none) := by
  obtain ⟨hw1, hfirst, hlt1⟩ := unpack_eq_some (b := d) 2 i (by omega)
  obtain ⟨hw2, hsecond, hlt2⟩ := unpack_eq_some (b := d) 2 (i + 2) (by omega)
  refine ⟨hw1, hw2, hfirst, hsecond, ?_, ?_⟩
  · intro hcall
    simp only [callAt, hfirst, hsecond, Option.bind_eq_bind, Option.bind_some]
    rw [if_neg (not_not.mpr ((prefix_iff hlt1).mpr hcall.1)), if_neg (not_not.mpr ((suffix_iff hlt2).mpr hcall.2))]
    rfl
  · intro hcall
    simp only [callAt, hfirst, hsecond, Option.bind_eq_bind, Option.bind_some]
    by_cases hnibble : hw1 / 2 ^ 11 = 30
    · have hsuffix : ¬ hw2 / 2 ^ 14 = 3 := fun h => hcall ⟨hnibble, h⟩
      rw [if_neg (not_not.mpr ((prefix_iff hlt1).mpr hnibble)), if_pos (mt (suffix_iff hlt2).mp hsuffix)]
      rfl
    · rw [if_pos (mt (prefix_iff hlt1).mp hnibble)]
      rfl

theorem callAt_eq_some_iff {d : Bytes} {base : Int} {i : Nat} (h : i + 4 ≤ d.length) {p : Int × Int} :
    callAt d base i = some (some p) ↔ ∃ hw1 hw2, unpack 2 d i = some hw1 ∧ unpack 2 d (i + 2) = some hw2 ∧
      IsCall hw1 hw2 ∧ p = (base + i, base + i + 4 + branchOffset hw1 hw2) := by
  obtain ⟨hw1, hw2, hfirst, hsecond, hyes, hno⟩ := callAt_eq base h
  rw [hfirst, hsecond]
  constructor
  · intro hp
    by_cases hcall : IsCall hw1 hw2
    · rw [hyes hcall] at hp
      exact ⟨hw1, hw2, rfl, rfl, hcall, (Option.some.inj (Option.some.inj hp)).symm⟩
    · rw [hno hcall] at hp
      exact absurd hp (by simp)
  · intro hp
    obtain ⟨hw1', hw2', h1, h2, hcall, rfl⟩ := hp
    obtain rfl := Option.some.inj h1
    obtain rfl := Option.some.inj h2
    exact hyes hcall

/-- **What the pass reports**: every call site, in the order of the image, with the sum of the displacement and the address four bytes on. -/
theorem blTargets_eq_some (d : Bytes) (base : Int) :
    ∃ out, blTargets d base = some out ∧ (out.Pairwise fun p q => p.1 < q.1) ∧
      ∀ p, p ∈ out ↔ ∃ i hw1 hw2, CallSite d i hw1 hw2 ∧ p = (base + i, base + i + 4 + branchOffset hw1 hw2) := by
  have hpos : ∀ i, i ∈ positions 0 (d.length - 3) 2 ↔ 2 ∣ i ∧ i + 4 ≤ d.length := by
    intro i
    rw [mem_positions (by decide), Nat.sub_zero]
    omega
  have horder : (positions 0 (d.length - 3) 2).Pairwise (· < ·) := positions_sorted (by decide)
  have hsome : ∀ i ∈ positions 0 (d.length - 3) 2, (callAt d base i).isSome = true := by
    intro i hi
    obtain ⟨hw1, hw2, -, -, hyes, hno⟩ := callAt_eq base ((hpos i).mp hi).2
    by_cases hcall : IsCall hw1 hw2
    · rw [hyes hcall]
      rfl
    · rw [hno hcall]
      rfl
  obtain ⟨out, hscan, hsorted, hmem⟩ := scan_spec (Q := fun p q : Int × Int => p.1 < q.1) horder hsome (by
    intro i hi j hj hij p q hp hq
    obtain ⟨-, -, -, -, -, rfl⟩ := (callAt_eq_some_iff ((hpos i).mp hi).2).mp hp
    obtain ⟨-, -, -, -, -, rfl⟩ := (callAt_eq_some_iff ((hpos j).mp hj).2).mp hq
    dsimp only
    omega)
  refine ⟨out, hscan, hsorted, fun p => ?_⟩
  rw [hmem]
  constructor
  · intro hp
    obtain ⟨i, hi, hcallAt⟩ := hp
    obtain ⟨heven, hinside⟩ := (hpos i).mp hi
    obtain ⟨hw1, hw2, hfirst, hsecond, hcall, hpair⟩ := (callAt_eq_some_iff hinside).mp hcallAt
    exact ⟨i, hw1, hw2, ⟨heven, hinside, hfirst, hsecond, hcall⟩, hpair⟩
  · intro hp
    obtain ⟨i, hw1, hw2, hsite, hpair⟩ := hp
    refine ⟨i, (hpos i).mpr ⟨hsite.even, hsite.inside⟩, ?_⟩
    exact (callAt_eq_some_iff hsite.inside).mpr ⟨hw1, hw2, hsite.first, hsite.second, hsite.call, hpair⟩

/-! ### The encodings -/

/-- `BL`, encoding T1. -/
def IsBL (hw1 hw2 : Nat) (D : Int) : Prop := ∃ f : Fields, hw1 = f.hw1 ∧ hw2 = f.hw2 1 ∧ D = f.value

/-- `BLX`, encoding T2, where `imm11` is `imm10L:0`. -/
def IsBLX (hw1 hw2 : Nat) (D : Int) : Prop :=
  ∃ f : Fields, hw1 = f.hw1 ∧ hw2 = f.hw2 0 ∧ 2 ∣ (f.imm11 : Nat) ∧ D = f.value

theorem IsBL.decode {hw1 hw2 : Nat} {D : Int} (h : IsBL hw1 hw2 D) : IsCall hw1 hw2 ∧ branchOffset hw1 hw2 = D := by
  obtain ⟨f, rfl, rfl, rfl⟩ := h
  exact ⟨(isCall_iff _ _).mpr ⟨f, 1, rfl, rfl⟩, branchOffset_fields f 1⟩

theorem IsBLX.decode {hw1 hw2 : Nat} {D : Int} (h : IsBLX hw1 hw2 D) :
    IsCall hw1 hw2 ∧ branchOffset hw1 hw2 = D ∧ 4 ∣ D := by
  obtain ⟨f, rfl, rfl, hlow, rfl⟩ := h
  refine ⟨(isCall_iff _ _).mpr ⟨f, 0, rfl, rfl⟩, branchOffset_fields f 0, ?_⟩
  rw [Fields.value]
  omega

theorem IsCall.isBL {hw1 hw2 : Nat} (h : IsCall hw1 hw2) (hbit : hw2.testBit 12 = true) :
    IsBL hw1 hw2 (branchOffset hw1 hw2) := by
  obtain ⟨f, bit12, rfl, rfl⟩ := (isCall_iff _ _).mp h
  have hone : bit12 = 1 := by
    rw [Nat.testBit_eq_decide_div_mod_eq, f.hw2_bit12, decide_eq_true_eq] at hbit
    exact Fin.ext hbit
  subst hone
  exact ⟨f, rfl, rfl, branchOffset_fields f 1⟩

/-- **`BL` is decoded exactly**: each one is reported with its target, and what is reported with bit 12 set is one. -/
theorem blTargets_bl_exact (d : Bytes) (base : Int) :
    ∃ out, blTargets d base = some out ∧
      (∀ i hw1 hw2 D, 2 ∣ i → i + 4 ≤ d.length → unpack 2 d i = some hw1 → unpack 2 d (i + 2) = some hw2 →
        InRange D → IsBL hw1 hw2 D → (base + i, base + i + 4 + D) ∈ out) ∧
      ∀ p ∈ out, ∃ i hw1 hw2, 2 ∣ i ∧ i + 4 ≤ d.length ∧ unpack 2 d i = some hw1 ∧ unpack 2 d (i + 2) = some hw2 ∧
        p.1 = base + i ∧ (hw2.testBit 12 = true → ∃ D, InRange D ∧ IsBL hw1 hw2 D ∧ p.2 = base + i + 4 + D) := by
  obtain ⟨out, hout, -, hmem⟩ := blTargets_eq_some d base
  refine ⟨out, hout, ?_, ?_⟩
  · intro i hw1 hw2 D heven hinside hfirst hsecond _ hbl
    obtain ⟨hcall, hD⟩ := hbl.decode
    exact (hmem _).mpr ⟨i, hw1, hw2, ⟨heven, hinside, hfirst, hsecond, hcall⟩, by rw [hD]⟩
  · intro p hp
    obtain ⟨i, hw1, hw2, hsite, rfl⟩ := (hmem p).mp hp
    refine ⟨i, hw1, hw2, hsite.even, hsite.inside, hsite.first, hsite.second, rfl, fun hbit => ?_⟩
    obtain ⟨f, hw1_eq, hw2_eq, hvalue⟩ := hsite.call.isBL hbit
    exact ⟨_, (inRange_iff _).mpr ⟨f, hvalue.symm⟩, ⟨f, hw1_eq, hw2_eq, hvalue⟩, rfl⟩

/-- `Align(x, 4)`. -/
def wordAlign (x : Int) : Int := x - x % 4

/-- The pair that is reported for `i` is that of a `BLX` with displacement `D`, and its target is a word address. -/
def BLXReported (d : Bytes) (base : Int) (i : Nat) (D : Int) : Prop :=
  ∃ out, blTargets d base = some out ∧ (∀ t, (base + i, t) ∈ out ↔ t = wordAlign (base + i + 4) + D) ∧
    ∀ t, (base + i, t) ∈ out → 4 ∣ t

theorem blTargets_blx {d : Bytes} (base : Int) {i hw1 hw2 : Nat} {D : Int} (heven : 2 ∣ i) (hinside : i + 4 ≤ d.length)
    (hfirst : unpack 2 d i = some hw1) (hsecond : unpack 2 d (i + 2) = some hw2) (hblx : IsBLX hw1 hw2 D) :
    ∃ out, blTargets d base = some out ∧ ∀ t, (base + i, t) ∈ out ↔ t = base + i + 4 + D := by
  obtain ⟨out, hout, -, hmem⟩ := blTargets_eq_some d base
  obtain ⟨hcall, hD, -⟩ := hblx.decode
  refine ⟨out, hout, fun t => ?_⟩
  rw [hmem]
  constructor
  · intro hp
    obtain ⟨j, hw1', hw2', hsite, hpair⟩ := hp
    obtain ⟨hij, rfl⟩ := Prod.mk.inj hpair
    obtain rfl : i = j := by omega
    obtain rfl := Option.some.inj (hfirst.symm.trans hsite.first)
    obtain rfl := Option.some.inj (hsecond.symm.trans hsite.second)
    rw [hD]
  · intro ht
    exact ⟨i, hw1, hw2, ⟨heven, hinside, hfirst, hsecond, hcall⟩, by rw [ht, hD]⟩

/-- **A `BLX` is reported with its target exactly at word addresses.** At the others the decoder adds the displacement to a PC that it has not aligned. -/
theorem blxReported_iff {d : Bytes} {base : Int} (hbase : 4 ∣ base) {i hw1 hw2 : Nat} {D : Int} (heven : 2 ∣ i)
    (hinside : i + 4 ≤ d.length) (hfirst : unpack 2 d i = some hw1) (hsecond : unpack 2 d (i + 2) = some hw2)
    (hblx : IsBLX hw1 hw2 D) : BLXReported d base i D ↔ 4 ∣ i := by
  obtain ⟨out, hout, hpair⟩ := blTargets_blx base heven hinside hfirst hsecond hblx
  obtain ⟨-, -, hD⟩ := hblx.decode
  constructor
  · intro h
    obtain ⟨out', hout', harch, -⟩ := h
    obtain rfl := Option.some.inj (hout.symm.trans hout')
    have htarget := (hpair _).mp ((harch _).mpr rfl)
    rw [wordAlign] at htarget
    omega
  · intro hi
    refine ⟨out, hout, fun t => ?_, fun t ht => ?_⟩
    · rw [hpair, wordAlign]
      omega
    · rw [hpair] at ht
      omega

def blxImage (n : Nat) : Bytes := List.replicate (2 * n) 0 ++ [0x00, 0xF0, 0x00, 0xE8]

theorem isBLX_zero : IsBLX 0xF000 0xE800 0 := ⟨⟨0, 0, 0, 0, 0⟩, by decide, by decide, by decide, by decide⟩

theorem blxReported_iff_word : BLXReported (blxImage 2) 0x20000000 4 0 :=
  (blxReported_iff (by decide) (by decide) (by decide) (by decide) (by decide) isBLX_zero).mpr (by decide)

/-- Behind one halfword the target is two bytes off. -/
theorem blx_misreported :
    blTargets (blxImage 1) 0x20000000 = some [(0x20000002, 0x20000006)] ∧
      wordAlign (0x20000000 + 2 + 4) + 0 = 0x20000004 ∧ ¬ BLXReported (blxImage 1) 0x20000000 2 0 := by
  have hout : blTargets (blxImage 1) 0x20000000 = some [(0x20000002, 0x20000006)] := by decide
  refine ⟨hout, by decide, fun h => ?_⟩
  obtain ⟨out, hout', -, haligned⟩ := h
  obtain rfl := Option.some.inj (hout.symm.trans hout')
  exact absurd (haligned 0x20000006 (by decide)) (by decide)

end GoodixSpi.Tools.ThumbCalls
