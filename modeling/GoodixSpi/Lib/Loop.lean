import Mathlib.Logic.Basic

/-!
# Loops that carry their bound

A `while` loop as a value: what one turn does, and a rank that falls in every turn that goes on. The rank is part of the loop, so a loop that is not known to end cannot be built, and `run` is a total function that computes. `Leaves` is the loop as the source has it, turn after turn.
-/

/-- A loop over states `σ` with results in `α`. A turn leaves the loop with a result, or goes on in another state. -/
structure BoundedLoop (σ α : Type) where
  turn : σ → α ⊕ σ
  rank : σ → Nat
  falls : ∀ {s s'}, turn s = .inr s' → rank s' < rank s

namespace BoundedLoop

variable {σ α : Type} (L : BoundedLoop σ α)

def runWithin : (n : Nat) → (s : σ) → L.rank s < n → α
  | n + 1, s, h =>
      match hturn : L.turn s with
      | .inl a => a
      | .inr s' => runWithin n s' (Nat.lt_of_lt_of_le (L.falls hturn) (Nat.le_of_lt_succ h))

def run (s : σ) : α := L.runWithin (L.rank s + 1) s (Nat.lt_succ_self _)

/-- From `s` the loop goes on for `n` turns and then leaves with `a`. -/
def Leaves : Nat → σ → α → Prop
  | 0, s, a => L.turn s = .inl a
  | n + 1, s, a => ∃ s', L.turn s = .inr s' ∧ Leaves n s' a

variable {L} {s : σ}

theorem runWithin_congr {m n : Nat} (hm : L.rank s < m) (hn : L.rank s < n) :
    L.runWithin m s hm = L.runWithin n s hn := by
  induction m generalizing n s with
  | zero => exact absurd hm (Nat.not_lt_zero _)
  | succ m ih =>
      cases n with
      | zero => exact absurd hn (Nat.not_lt_zero _)
      | succ n =>
          rw [runWithin, runWithin]
          split
          · rfl
          · exact ih _ _

theorem run_leave {a : α} (h : L.turn s = .inl a) : L.run s = a := by
  rw [run, runWithin]
  split
  · next a' hturn => exact Sum.inl.inj (hturn.symm.trans h)
  · next s' hturn => exact absurd (hturn.symm.trans h) (by simp)

theorem run_go {s' : σ} (h : L.turn s = .inr s') : L.run s = L.run s' := by
  rw [run, runWithin]
  split
  · next a hturn => exact absurd (hturn.symm.trans h) (by simp)
  · next s'' hturn =>
      obtain rfl : s'' = s' := Sum.inr.inj (hturn.symm.trans h)
      exact runWithin_congr _ _

theorem turns_induction {P : σ → Prop} (hleave : ∀ s a, L.turn s = .inl a → P s)
    (hgo : ∀ s s', L.turn s = .inr s' → P s' → P s) (s : σ) : P s := by
  induction hn : L.rank s using Nat.strongRecOn generalizing s with
  | ind n ih =>
      cases hturn : L.turn s with
      | inl a => exact hleave s a hturn
      | inr s' => exact hgo s s' hturn (ih _ (hn ▸ L.falls hturn) s' rfl)

/-- **The invariant rule.** What the turns keep, and what follows from it when the loop is left, holds of the result. -/
theorem run_spec {I : σ → Prop} {Q : α → Prop} (hgo : ∀ s s', I s → L.turn s = .inr s' → I s')
    (hleave : ∀ s a, I s → L.turn s = .inl a → Q a) {s : σ} (hs : I s) : Q (L.run s) := by
  induction s using L.turns_induction with
  | hleave s a hturn =>
      rw [run_leave hturn]
      exact hleave s a hs hturn
  | hgo s s' hturn ih =>
      rw [run_go hturn]
      exact ih (hgo s s' hs hturn)

end BoundedLoop
