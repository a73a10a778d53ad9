import Mathlib.Data.List.Basic

/-!
# A memory that is overwritten from the front

Several writers store strings of different lengths into one memory, each from its first cell. What a cell holds afterwards is what the last string that reaches it has there. The theorem at the end says when a string that was stored can still be read: exactly when at each of its cells the last such string agrees with it.
-/

namespace Overlay

variable {α : Type}

def overwrite (new old : List α) : List α := new ++ old.drop new.length

/-- A memory after some stores, the newest first. -/
def overlay (init : List α) : List (List α) → List α
  | [] => init
  | new :: older => overwrite new (overlay init older)

/-- The value the last store that reaches a cell put there. -/
def lastStored (p : Nat) : List (List α) → Option α
  | [] => none
  | new :: older => new[p]?.or (lastStored p older)

theorem overlay_append (init : List α) (newer older : List (List α)) :
    overlay init (newer ++ older) = overlay (overlay init older) newer := by
  induction newer with
  | nil => rfl
  | cons new newer ih => rw [List.cons_append, overlay, overlay, ih]

theorem getElem?_overwrite (new old : List α) (p : Nat) : (overwrite new old)[p]? = new[p]?.or old[p]? := by
  rw [overwrite]
  by_cases hp : p < new.length
  · rw [List.getElem?_append_left hp, List.getElem?_eq_getElem hp, Option.some_or]
  · have hle : new.length ≤ p := Nat.le_of_not_lt hp
    rw [List.getElem?_append_right hle, List.getElem?_eq_none hle, Option.none_or, List.getElem?_drop]
    congr 1
    omega

theorem getElem?_overlay (init : List α) (stores : List (List α)) (p : Nat) :
    (overlay init stores)[p]? = (lastStored p stores).or init[p]? := by
  induction stores with
  | nil => rw [overlay, lastStored, Option.none_or]
  | cons new older ih => rw [overlay, lastStored, getElem?_overwrite, ih, Option.or_assoc]

theorem exists_lastStored {stores : List (List α)} {own : List α} (hown : own ∈ stores) {p : Nat} (hp : p < own.length) :
    ∃ x, lastStored p stores = some x := by
  induction stores with
  | nil => exact absurd hown List.not_mem_nil
  | cons new older ih =>
      rw [lastStored]
      by_cases hnew : p < new.length
      · exact ⟨new[p], by rw [List.getElem?_eq_getElem hnew, Option.some_or]⟩
      · rw [List.getElem?_eq_none (Nat.le_of_not_lt hnew), Option.none_or]
        rcases List.mem_cons.mp hown with rfl | hold
        · exact absurd hp hnew
        · exact ih hold

/-- **A stored string is still there** exactly when at each of its cells the last store that reaches it agrees with it. -/
theorem take_overlay_eq_iff (init : List α) {stores : List (List α)} {own : List α} (hown : own ∈ stores) :
    (overlay init stores).take own.length = own ↔ ∀ p < own.length, lastStored p stores = own[p]? := by
  have hcell {p : Nat} (hp : p < own.length) : (overlay init stores)[p]? = lastStored p stores := by
    obtain ⟨x, hx⟩ := exists_lastStored hown hp
    rw [getElem?_overlay, hx, Option.some_or]
  constructor
  · intro heq p hp
    have hread := congrArg (fun l => l[p]?) heq
    rwa [List.getElem?_take_of_lt hp, hcell hp] at hread
  · intro hall
    apply List.ext_getElem?
    intro p
    by_cases hp : p < own.length
    · rw [List.getElem?_take_of_lt hp, hcell hp, hall p hp]
    · have hle : own.length ≤ p := Nat.le_of_not_lt hp
      rw [List.getElem?_eq_none hle, List.getElem?_eq_none]
      rw [List.length_take]
      omega

end Overlay
