import Mathlib.Logic.Function.Iterate

/-!
# Taking records off a queue

A queue holds the encodings of records one after another, and a receiver is called again and again. If one call takes exactly the first record whenever that record is of a kind it handles, and leaves something else behind when it is not, then the receiver stays at record boundaries exactly on the queues whose records are all of that kind.
-/

namespace Wire

section Stream

variable {σ P α : Type} {recv : σ → σ} (queue : σ → List α) {encode : P → List α} {Handled : P → Prop}

theorem iterate_queue (hnil : ∀ s, queue s = [] → queue (recv s) = [])
    (htake : ∀ s p rest, Handled p → queue s = encode p ++ rest → queue (recv s) = rest) {ps : List P}
    (hps : ∀ p ∈ ps, Handled p) {s : σ} (hs : queue s = ps.flatMap encode) (k : Nat) :
    queue (recv^[k] s) = (ps.drop k).flatMap encode := by
  induction k generalizing s ps with
  | zero => exact hs
  | succ k ih =>
      rw [Function.iterate_succ_apply]
      cases ps with
      | nil =>
          have hrest := ih (fun p hp => absurd hp (List.not_mem_nil)) (hnil s hs)
          rwa [List.drop_nil] at hrest ⊢
      | cons p ps =>
          have hrest := htake s p (ps.flatMap encode) (hps p List.mem_cons_self) hs
          exact ih (fun q hq => hps q (List.mem_cons_of_mem p hq)) hrest

/-- **Staying at record boundaries.** -/
theorem iterate_queue_iff (hnil : ∀ s, queue s = [] → queue (recv s) = [])
    (htake : ∀ s p rest, Handled p → queue s = encode p ++ rest → queue (recv s) = rest)
    (hleave : ∀ s p rest, ¬ Handled p → queue s = encode p ++ rest → queue (recv s) ≠ rest) {ps : List P} {s : σ}
    (hs : queue s = ps.flatMap encode) :
    (∀ k, queue (recv^[k] s) = (ps.drop k).flatMap encode) ↔ ∀ p ∈ ps, Handled p := by
  refine ⟨?_, fun hps k => iterate_queue queue hnil htake hps hs k⟩
  induction ps generalizing s with
  | nil => exact fun _ p hp => absurd hp (List.not_mem_nil)
  | cons p ps ih =>
      intro hsync
      have hone : queue (recv s) = ps.flatMap encode := hsync 1
      have hp : Handled p := by
        by_contra hnot
        exact hleave s p (ps.flatMap encode) hnot hs hone
      have hps := ih hone fun k => hsync (k + 1)
      intro q hq
      rcases List.mem_cons.mp hq with rfl | hq
      · exact hp
      · exact hps q hq

end Stream

end Wire
