import Mathlib.Algebra.Order.Group.Basic
import Mathlib.Algebra.Order.Group.Defs
import Mathlib.Data.List.Basic
import Mathlib.Data.List.Pairwise
import Mathlib.Tactic.Abel

/-!
# Moving blocks

A table of blocks, each an interval that is moved as a whole to another place. An address is moved by the first block that has it. If no two blocks overlap, neither where they come from nor where they go, the table is a partial bijection, and the table of the reversed moves is its inverse.
-/

namespace Blocks

/-- Where no two members of a list pass a test, the first that passes is the only one. -/
theorem find?_eq_some_iff_of_exclusive {β : Type} {p : β → Bool} {l : List β}
    (h : l.Pairwise fun a b => ¬ (p a = true ∧ p b = true)) {b : β} : l.find? p = some b ↔ b ∈ l ∧ p b = true := by
  constructor
  · intro hfind
    exact ⟨List.mem_of_find?_eq_some hfind, List.find?_some hfind⟩
  · rintro ⟨hmem, hb⟩
    obtain ⟨c, hfind⟩ := Option.isSome_iff_exists.mp (List.find?_isSome.mpr ⟨b, hmem, hb⟩)
    have : Std.Symm fun a b => ¬ (p a = true ∧ p b = true) := ⟨fun a b hab hba => hab ⟨hba.2, hba.1⟩⟩
    have heq : c = b := by
      by_contra hne
      exact h.forall (List.mem_of_find?_eq_some hfind) hmem hne ⟨List.find?_some hfind, hb⟩
    rw [hfind, heq]

/-- A block of addresses, and where it goes. -/
structure Block (α : Type) where
  src : α
  dst : α
  len : α

variable {α : Type} [AddCommGroup α]

/-- Where the block takes an address. -/
def Block.place (b : Block α) (x : α) : α := b.dst + (x - b.src)

def Block.flip (b : Block α) : Block α := ⟨b.dst, b.src, b.len⟩

theorem Block.flip_place_place (b : Block α) (x : α) : b.flip.place (b.place x) = x := by
  rw [place, place, flip]
  abel

variable [LinearOrder α]

def Block.Has (b : Block α) (x : α) : Prop := b.src ≤ x ∧ x < b.src + b.len

instance (b : Block α) (x : α) : Decidable (b.Has x) := inferInstanceAs (Decidable (_ ∧ _))

/-- Where the table takes an address. -/
def move (bs : List (Block α)) (x : α) : Option α := (bs.find? fun b => b.Has x).map fun b => b.place x

/-- No address is in two blocks. -/
def Apart (bs : List (Block α)) : Prop := bs.Pairwise fun b c => ∀ x, ¬ (b.Has x ∧ c.Has x)

theorem find_eq_some_iff {bs : List (Block α)} (h : Apart bs) {x : α} {b : Block α} :
    (bs.find? fun b => b.Has x) = some b ↔ b ∈ bs ∧ b.Has x := by
  have hexclusive : bs.Pairwise fun b c => ¬ (decide (b.Has x) = true ∧ decide (c.Has x) = true) := by
    apply h.imp
    intro b c hbc
    rw [decide_eq_true_iff, decide_eq_true_iff]
    exact hbc x
  rw [find?_eq_some_iff_of_exclusive hexclusive, decide_eq_true_iff]

theorem move_eq_some_iff {bs : List (Block α)} (h : Apart bs) {x y : α} :
    move bs x = some y ↔ ∃ b ∈ bs, b.Has x ∧ b.place x = y := by
  rw [move, Option.map_eq_some_iff]
  simp only [find_eq_some_iff h, and_assoc]

theorem move_eq_none_iff (bs : List (Block α)) (x : α) : move bs x = none ↔ ∀ b ∈ bs, ¬ b.Has x := by
  rw [move, Option.map_eq_none_iff, List.find?_eq_none]
  simp

variable [IsOrderedAddMonoid α]

theorem Block.flip_has_place {b : Block α} {x : α} (h : b.Has x) : b.flip.Has (b.place x) := by
  obtain ⟨hlo, hhi⟩ := h
  constructor
  · exact le_add_of_nonneg_right (sub_nonneg.mpr hlo)
  · exact add_lt_add_right (sub_lt_iff_lt_add'.mpr hhi) b.dst

/-- **The reversed table is the inverse**, where neither table has overlaps. -/
theorem move_flip_iff {bs : List (Block α)} (hsrc : Apart bs) (hdst : Apart (bs.map Block.flip)) {x y : α} :
    move bs x = some y ↔ move (bs.map Block.flip) y = some x := by
  rw [move_eq_some_iff hsrc, move_eq_some_iff hdst]
  constructor
  · rintro ⟨b, hb, hx, rfl⟩
    exact ⟨b.flip, List.mem_map_of_mem hb, Block.flip_has_place hx, b.flip_place_place x⟩
  · rintro ⟨c, hc, hy, rfl⟩
    obtain ⟨b, hb, rfl⟩ := List.mem_map.mp hc
    exact ⟨b, hb, Block.flip_has_place hy, b.flip.flip_place_place y⟩

end Blocks
