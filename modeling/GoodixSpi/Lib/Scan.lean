import Mathlib.Data.List.Basic
import Mathlib.Data.Nat.ModEq

/-!
# Scans over positions

A loop `for i in range(start, stop, step)` whose body may fail, pass over a position, or yield a value. Where the body fails at no position, the yields are those of the positions that have one, in their order.
-/

namespace Scan

/-- `range(start, stop, step)`. -/
def positions (start stop step : Nat) : List Nat := List.range' start ((stop - start + step - 1) / step) step

theorem mem_positions {start stop step i : Nat} (hstep : 0 < step) :
    i ∈ positions start stop step ↔ start ≤ i ∧ i < stop ∧ step ∣ i - start := by
  rw [positions, List.mem_range']
  constructor
  · rintro ⟨k, hk, rfl⟩
    have hlt : step * k < stop - start := by
      have hle := (Nat.le_div_iff_mul_le hstep).mp (Nat.succ_le_of_lt hk)
      rw [Nat.succ_mul, Nat.mul_comm] at hle
      omega
    refine ⟨by omega, by omega, ?_⟩
    rw [Nat.add_sub_cancel_left]
    exact Nat.dvd_mul_right step k
  · rintro ⟨hlo, hhi, k, hk⟩
    refine ⟨k, ?_, by omega⟩
    apply Nat.lt_of_succ_le
    rw [Nat.le_div_iff_mul_le hstep, Nat.succ_mul, Nat.mul_comm k]
    omega

theorem positions_sorted {start stop step : Nat} (hstep : 0 < step) :
    (positions start stop step).Pairwise (· < ·) := List.pairwise_lt_range' step hstep

variable {α β : Type}

/-- The body answers `none` where it fails, `some none` where it passes over the position. -/
def scan (body : α → Option (Option β)) (l : List α) : Option (List β) := (l.mapM body).map (List.filterMap id)

theorem scan_eq_some {body : α → Option (Option β)} {l : List α} (h : ∀ a ∈ l, (body a).isSome = true) :
    scan body l = some (l.filterMap fun a => (body a).join) := by
  have hmap : l.mapM body = some (l.map fun a => (body a).join) := by
    induction l with
    | nil => rfl
    | cons a l ih =>
        obtain ⟨b, hb⟩ := Option.isSome_iff_exists.mp (h a List.mem_cons_self)
        have hrest := ih fun c hc => h c (List.mem_cons_of_mem a hc)
        rw [List.mapM_cons, List.map_cons, hrest, hb]
        rfl
  rw [scan, hmap, Option.map_some, List.filterMap_map, Function.id_comp]

/-- **Where the body fails nowhere, the scan yields what the body yields**, in the order of the positions. -/
theorem scan_spec {body : α → Option (Option β)} {l : List α} {R : α → α → Prop} {Q : β → β → Prop}
    (hl : l.Pairwise R) (hsome : ∀ a ∈ l, (body a).isSome = true)
    (hQ : ∀ a ∈ l, ∀ a' ∈ l, R a a' → ∀ b b', body a = some (some b) → body a' = some (some b') → Q b b') :
    ∃ yields, scan body l = some yields ∧ yields.Pairwise Q ∧ ∀ b, b ∈ yields ↔ ∃ a ∈ l, body a = some (some b) := by
  refine ⟨_, scan_eq_some hsome, ?_, fun b => ?_⟩
  · rw [List.pairwise_filterMap]
    apply hl.imp_of_mem
    intro a a' ha ha' hr b hb b' hb'
    exact hQ a ha a' ha' hr b b' (Option.join_eq_some_iff.mp hb) (Option.join_eq_some_iff.mp hb')
  · simp only [List.mem_filterMap, Option.join_eq_some_iff]

end Scan
