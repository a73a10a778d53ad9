import GoodixSpi.Tools.Pdata
import Mathlib.Tactic.IntervalCases

/-!
# Looking up a function

Where the functions of `.pdata` do not overlap, the one that begins last at an address or before it is the only one that can contain it, whatever the order of the records.
-/

namespace GoodixSpi.Tools.Pdata

open Wire Scan Bisect Pexref

/-- Record `k` of the section is the function `p`. All-zero records are none. -/
def IsEntry (d : Bytes) (s : Section) (k : Nat) (p : Nat × Nat) : Prop :=
  12 * k < min s.vs s.rs ∧ unpack 4 d (s.ra + 12 * k) = some p.1 ∧ unpack 4 d (s.ra + 12 * k + 4) = some p.2 ∧
    ¬ (p.1 = 0 ∧ p.2 = 0)

def Apart (p q : Nat × Nat) : Prop := ∀ y, ¬ ((p.1 ≤ y ∧ y < p.2) ∧ q.1 ≤ y ∧ y < q.2)

/-- Whole records inside the file, and functions that are not empty and do not overlap. -/
structure WellFormed (d : Bytes) (s : Section) : Prop where
  whole : 12 ∣ min s.vs s.rs
  inFile : ∀ k, 12 * k < min s.vs s.rs → s.ra + 12 * k + 12 ≤ d.length
  proper : ∀ k p, IsEntry d s k p → p.1 < p.2
  apart : ∀ j k p q, j < k → IsEntry d s j p → IsEntry d s k q → Apart p q

variable {pe : PE} {s : Section}

theorem entryAt_eq {d : Bytes} {i : Nat} (h : i + 12 ≤ d.length) :
    ∃ start stop, unpack 4 d i = some start ∧ unpack 4 d (i + 4) = some stop ∧
      entryAt d i = if start = 0 ∧ stop = 0 then some none else some (some (start, stop)) := by
  obtain ⟨start, hstart, -⟩ := unpack_eq_some (b := d) 4 i (by omega)
  obtain ⟨stop, hstop, -⟩ := unpack_eq_some (b := d) 4 (i + 4) (by omega)
  obtain ⟨unwind, hunwind, -⟩ := unpack_eq_some (b := d) 4 (i + 8) (by omega)
  refine ⟨start, stop, hstart, hstop, ?_⟩
  simp only [entryAt, hstart, hstop, hunwind, Option.bind_eq_bind, Option.bind_some]
  rfl

theorem entryAt_isSome {d : Bytes} {i : Nat} (h : i + 12 ≤ d.length) : (entryAt d i).isSome = true := by
  obtain ⟨start, stop, -, -, hentry⟩ := entryAt_eq h
  rw [hentry]
  split <;> rfl

theorem entryAt_eq_some_iff {d : Bytes} {i : Nat} (h : i + 12 ≤ d.length) {p : Nat × Nat} :
    entryAt d i = some (some p) ↔ unpack 4 d i = some p.1 ∧ unpack 4 d (i + 4) = some p.2 ∧ ¬ (p.1 = 0 ∧ p.2 = 0) := by
  obtain ⟨start, stop, hstart, hstop, hentry⟩ := entryAt_eq h
  rw [hentry, hstart, hstop]
  constructor
  · intro hp
    split at hp
    · exact absurd hp (by simp)
    · obtain rfl := Option.some.inj (Option.some.inj hp)
      exact ⟨rfl, rfl, ‹_›⟩
  · intro hp
    obtain ⟨rfl, rfl⟩ : start = p.1 ∧ stop = p.2 := ⟨Option.some.inj hp.1, Option.some.inj hp.2.1⟩
    rw [if_neg hp.2.2]

theorem WellFormed.mem_positions {d : Bytes} (h : WellFormed d s) {i : Nat} :
    i ∈ positions s.ra (s.ra + min s.vs s.rs) 12 ↔
      ∃ k, i = s.ra + 12 * k ∧ 12 * k < min s.vs s.rs ∧ i + 12 ≤ d.length := by
  have hwhole := h.whole
  rw [Scan.mem_positions (by decide)]
  constructor
  · intro hi
    obtain ⟨hlo, hhi, k, hk⟩ := hi
    have hlt : 12 * k < min s.vs s.rs := by omega
    have hfile := h.inFile k hlt
    exact ⟨k, by omega, hlt, by omega⟩
  · intro hi
    obtain ⟨k, rfl, hk, -⟩ := hi
    exact ⟨by omega, by omega, k, by omega⟩

theorem WellFormed.entry_iff {d : Bytes} (h : WellFormed d s) {p : Nat × Nat} :
    (∃ i ∈ positions s.ra (s.ra + min s.vs s.rs) 12, entryAt d i = some (some p)) ↔ ∃ k, IsEntry d s k p := by
  constructor
  · intro hp
    obtain ⟨i, hi, hentry⟩ := hp
    obtain ⟨k, rfl, hk, hfile⟩ := h.mem_positions.mp hi
    exact ⟨k, hk, (entryAt_eq_some_iff hfile).mp hentry⟩
  · intro hp
    obtain ⟨k, hk, hentry⟩ := hp
    have hfile := h.inFile k hk
    exact ⟨_, h.mem_positions.mpr ⟨k, rfl, hk, hfile⟩, (entryAt_eq_some_iff hfile).mpr hentry⟩

theorem tupleLe_trans (p q r : Nat × Nat) (hpq : tupleLe p q = true) (hqr : tupleLe q r = true) : tupleLe p r = true := by
  simp only [tupleLe, decide_eq_true_eq] at hpq hqr ⊢
  omega

theorem tupleLe_total (p q : Nat × Nat) : (tupleLe p q || tupleLe q p) = true := by
  simp only [tupleLe, Bool.or_eq_true, decide_eq_true_eq]
  omega

/-- What `funcs` returns: the functions of the section, sorted by their starts and still without overlaps. -/
theorem funcs_eq_some (hsec : pe.sec ".pdata" = some s) (h : WellFormed pe.d s) :
    ∃ fs, funcs pe = some fs ∧ (fs.Pairwise fun p q => p.1 ≤ q.1) ∧ fs.Pairwise Apart ∧
      ∀ p, p ∈ fs ↔ ∃ k, IsEntry pe.d s k p := by
  have hsome : ∀ i ∈ positions s.ra (s.ra + min s.vs s.rs) 12, (entryAt pe.d i).isSome = true := by
    intro i hi
    obtain ⟨-, -, -, hfile⟩ := h.mem_positions.mp hi
    exact entryAt_isSome hfile
  obtain ⟨out, hscan, hapart, hmem⟩ := scan_spec (Q := Apart) (positions_sorted (by decide)) hsome (by
    intro i hi j hj hij p q hp hq
    obtain ⟨m, rfl, hm, hmfile⟩ := h.mem_positions.mp hi
    obtain ⟨n, rfl, hn, hnfile⟩ := h.mem_positions.mp hj
    exact h.apart m n p q (by omega) ⟨hm, (entryAt_eq_some_iff hmfile).mp hp⟩ ⟨hn, (entryAt_eq_some_iff hnfile).mp hq⟩)
  have hperm := List.mergeSort_perm out tupleLe
  refine ⟨out.mergeSort tupleLe, ?_, ?_, ?_, fun p => ?_⟩
  · rw [funcs, hsec]
    simp only [hscan]
    rfl
  · apply (List.pairwise_mergeSort tupleLe_trans tupleLe_total out).imp
    intro p q hpq
    simp only [tupleLe, decide_eq_true_eq] at hpq
    omega
  · exact (hperm.pairwise_iff fun hpq y hy => hpq y hy.symm).mpr hapart
  · rw [hperm.mem_iff, hmem, h.entry_iff]

theorem lookup_eq_inside_iff {fs : List (Nat × Nat)} (hsorted : fs.Pairwise fun p q => p.1 ≤ q.1)
    (hapart : fs.Pairwise Apart) (hproper : ∀ p ∈ fs, p.1 < p.2) {rva : Int} {start stop : Nat} :
    lookup fs rva = .inside start stop ↔ (start, stop) ∈ fs ∧ start ≤ rva ∧ rva < stop := by
  have hstarts : fs.Pairwise fun p q => (p.1 : Int) ≤ q.1 := hsorted.imp Int.ofNat_le.mpr
  constructor
  · intro hinside
    rw [lookup] at hinside
    split at hinside
    · exact absurd hinside (by simp)
    · rename_i s e hlast
      obtain ⟨hmem, hle⟩ := lastFrom_start_le hstarts hlast
      split at hinside
      · rename_i hlt
        obtain ⟨rfl, rfl⟩ := Report.inside.inj hinside
        exact ⟨hmem, hle, hlt⟩
      · exact absurd hinside (by simp)
  · intro hrva
    obtain ⟨hmem, hle, hlt⟩ := hrva
    have hlast : lastFrom fs (fun f => (f.1 : Int)) rva = some (start, stop) := by
      apply lastFrom_eq_some (fun f => (f.2 : Int)) hstarts _ _ hmem ⟨hle, hlt⟩
      · apply hapart.imp
        intro p q hpq y hy
        exact hpq y.toNat (by omega)
      · intro p hp
        exact Int.ofNat_lt.mpr (hproper p hp)
    simp only [lookup, hlast, if_pos hlt]

theorem not_inside_iff (fs : List (Nat × Nat)) (rva : Int) :
    (lookup fs rva = .notFound ∨ ∃ start stop, lookup fs rva = .pastEnd start stop) ↔
      ¬ ∃ start stop, lookup fs rva = .inside start stop := by
  cases lookup fs rva <;> simp

/-- **The lookup is exact.** It shows a function as containing an address if and only if it does, and shows none so only where there is none. -/
theorem lookup_exact (pe : PE) (s : Section) (hsec : pe.sec ".pdata" = some s) (h : WellFormed pe.d s) :
    ∃ fs, funcs pe = some fs ∧ ∀ rva,
      (∀ start stop, lookup fs rva = .inside start stop ↔
        (∃ k, IsEntry pe.d s k (start, stop)) ∧ start ≤ rva ∧ rva < stop) ∧
      ((lookup fs rva = .notFound ∨ ∃ start stop, lookup fs rva = .pastEnd start stop) ↔
        ¬ ∃ k start stop, IsEntry pe.d s k (start, stop) ∧ start ≤ rva ∧ rva < stop) := by
  obtain ⟨fs, hfuncs, hsorted, hapart, hmem⟩ := funcs_eq_some hsec h
  have hproper : ∀ p ∈ fs, p.1 < p.2 := by
    intro p hp
    obtain ⟨k, hk⟩ := (hmem p).mp hp
    exact h.proper k p hk
  refine ⟨fs, hfuncs, fun rva => ?_⟩
  have hinside : ∀ start stop, lookup fs rva = .inside start stop ↔
      (∃ k, IsEntry pe.d s k (start, stop)) ∧ start ≤ rva ∧ rva < stop := by
    intro start stop
    rw [lookup_eq_inside_iff hsorted hapart hproper, hmem]
  refine ⟨hinside, ?_⟩
  rw [not_inside_iff, not_iff_not]
  simp only [hinside]
  constructor
  · intro hcontains
    obtain ⟨start, stop, ⟨k, hk⟩, hrange⟩ := hcontains
    exact ⟨k, start, stop, hk, hrange⟩
  · intro hcontains
    obtain ⟨k, start, stop, hk, hrange⟩ := hcontains
    exact ⟨start, stop, ⟨k, hk⟩, hrange⟩

def fourRecordsSection : Section := { name := ".pdata", va := 0x9000, vs := 48, ra := 0, rs := 512 }

def fourRecords : PE where
  d :=
    [0x00, 0x20, 0, 0, 0x00, 0x21, 0, 0, 0x40, 0x90, 0, 0] ++ List.replicate 12 0 ++
    [0x00, 0x10, 0, 0, 0x00, 0x18, 0, 0, 0x50, 0x90, 0, 0] ++ [0x00, 0x18, 0, 0, 0x20, 0x18, 0, 0, 0x60, 0x90, 0, 0]
  base := 0x180000000
  secs := [fourRecordsSection]

theorem fourRecords_entries {k : Nat} {p : Nat × Nat}
    (h : IsEntry fourRecords.d fourRecordsSection k p) :
    (k = 0 ∧ p = (0x2000, 0x2100)) ∨ (k = 2 ∧ p = (0x1000, 0x1800)) ∨ (k = 3 ∧ p = (0x1800, 0x1820)) := by
  obtain ⟨hk, hstart, hstop, hzero⟩ := h
  have hlt : k < 4 := by
    simp only [fourRecordsSection] at hk
    omega
  obtain ⟨start, stop⟩ := p
  interval_cases k <;> simp [fourRecords, fourRecordsSection, unpack, slice, fromLittle] at hstart hstop <;> grind

theorem fourRecords_wellFormed : WellFormed fourRecords.d fourRecordsSection := by
  refine ⟨by decide, ?_, ?_, ?_⟩
  · intro k hk
    have hlength : fourRecords.d.length = 48 := by decide
    simp only [fourRecordsSection] at hk ⊢
    omega
  · intro k p hp
    obtain ⟨-, rfl⟩ | ⟨-, rfl⟩ | ⟨-, rfl⟩ := fourRecords_entries hp <;> decide
  · intro j k p q hjk hp hq y
    obtain ⟨rfl, rfl⟩ | ⟨rfl, rfl⟩ | ⟨rfl, rfl⟩ := fourRecords_entries hp <;>
      obtain ⟨rfl, rfl⟩ | ⟨rfl, rfl⟩ | ⟨rfl, rfl⟩ := fourRecords_entries hq <;> simp <;> omega

/-- The start of a function, its end, and an address before them all. -/
theorem lookup_exact_fourRecords :
    ∃ fs, funcs fourRecords = some fs ∧ lookup fs 0x1800 = .inside 0x1800 0x1820 ∧
      lookup fs 0x1820 ≠ .inside 0x1800 0x1820 ∧ ¬ ∃ start stop, lookup fs 0xfff = .inside start stop := by
  obtain ⟨fs, hfuncs, hexact⟩ := lookup_exact fourRecords _ (by decide) fourRecords_wellFormed
  refine ⟨fs, hfuncs, ?_, ?_, ?_⟩
  · exact ((hexact 0x1800).1 _ _).mpr ⟨⟨3, by decide, by decide, by decide, by decide⟩, by decide⟩
  · intro hinside
    obtain ⟨-, -, hlt⟩ := ((hexact 0x1820).1 _ _).mp hinside
    omega
  · intro hinside
    obtain ⟨start, stop, hinside⟩ := hinside
    obtain ⟨⟨k, hk⟩, hle, -⟩ := ((hexact 0xfff).1 _ _).mp hinside
    obtain ⟨-, hp⟩ | ⟨-, hp⟩ | ⟨-, hp⟩ := fourRecords_entries hk <;> simp only [Prod.mk.injEq] at hp <;> omega

end GoodixSpi.Tools.Pdata
