import GoodixSpi.Lib.Interleave
import Mathlib.Logic.Hydra
import Mathlib.Tactic.Abel

/-!
# Runs that end under a fair schedule

A system whose moves never raise a well-founded rank, and in which some helpful move lowers it and stays helpful until the rank falls, gets to the end under every schedule that makes each move again and again. Threads are such a system: a program is a well-founded tree, and a turn puts one program a step below where it was. What is left to show of a particular system is that it never gets stuck.
-/

namespace Interaction

/-! ### Fair schedules -/

section Fair

variable {X A V : Type} (step : A → X → X)

/-- The state after the first `n` moves of an infinite schedule. -/
def after : Nat → (Nat → A) → X → X
  | 0, _, x => x
  | n + 1, f, x => after n (fun k => f (k + 1)) (step (f 0) x)

/-- The move `a` comes again and again. -/
def Recurs (f : Nat → A) (a : A) : Prop := ∀ n, ∃ m, n ≤ m ∧ f m = a

variable {step}

theorem Recurs.shift {f : Nat → A} {a : A} (h : Recurs f a) (k : Nat) : Recurs (fun n => f (n + k)) a := by
  intro n
  obtain ⟨m, hm, hfm⟩ := h (n + k)
  refine ⟨m - k, by omega, ?_⟩
  show f (m - k + k) = a
  rw [Nat.sub_add_cancel (by omega)]
  exact hfm

theorem after_add (m n : Nat) (f : Nat → A) (x : X) :
    after step (m + n) f x = after step n (fun k => f (k + m)) (after step m f x) := by
  induction m generalizing f x with
  | zero => rw [Nat.zero_add]; rfl
  | succ m ih =>
      rw [Nat.succ_add, after, ih, after]
      exact congrArg (fun g => after step n g _) (funext fun k => congrArg f (by omega))

theorem after_keeps {J : X → Prop} (hJ : ∀ a x, J x → J (step a x)) (n : Nat) (f : Nat → A) {x : X} (hx : J x) :
    J (after step n f x) := by
  induction n generalizing f x with
  | zero => exact hx
  | succ n ih => exact ih _ (hJ _ x hx)

/-- What makes a system live: the rank `view` falls under `R` or stays, and short of the end some move from `fair` lowers it and can wait. -/
structure Live (step : A → X → X) (view : X → V) (R : V → V → Prop) (J ended : X → Prop) (fair : A → Prop)
    (helps : A → X → Prop) : Prop where
  keeps : ∀ a x, J x → J (step a x)
  progress : ∀ x, J x → ¬ ended x → ∃ a, fair a ∧ helps a x
  lowers : ∀ a x, J x → helps a x → R (view (step a x)) (view x)
  waits : ∀ a b x, J x → helps a x → R (view (step b x)) (view x) ∨ view (step b x) = view x ∧ helps a (step b x)

variable {view : X → V} {R : V → V → Prop} {J ended : X → Prop} {fair : A → Prop} {helps : A → X → Prop}

/-- A helpful move that comes at time `m` finds the rank lower by then, or lowers it. -/
theorem Live.falls (h : Live step view R J ended fair helps) (m : Nat) {f : Nat → A} {a : A} (hm : f m = a) {x : X}
    (hx : J x) (ha : helps a x) : ∃ n, R (view (after step n f x)) (view x) := by
  induction m generalizing f x with
  | zero => exact ⟨1, h.lowers (f 0) x hx (hm ▸ ha)⟩
  | succ m ih =>
      rcases h.waits a (f 0) x hx ha with hfall | ⟨hsame, ha'⟩
      · exact ⟨1, hfall⟩
      · obtain ⟨n, hn⟩ := ih (f := fun k => f (k + 1)) hm (h.keeps _ x hx) ha'
        rw [hsame] at hn
        exact ⟨n + 1, hn⟩

/-- **Fair schedules end.** -/
theorem Live.ends (h : Live step view R J ended fair helps) (hR : WellFounded R) {f : Nat → A}
    (hf : ∀ a, fair a → Recurs f a) {x : X} (hx : J x) : ∃ n, ended (after step n f x) := by
  induction hv : view x using hR.induction generalizing f x with
  | _ v ih =>
      subst hv
      by_cases hend : ended x
      · exact ⟨0, hend⟩
      · obtain ⟨a, hfair, ha⟩ := h.progress x hx hend
        obtain ⟨m, -, hm⟩ := hf a hfair 0
        obtain ⟨n, hn⟩ := h.falls m hm hx ha
        obtain ⟨k, hk⟩ := ih _ hn (fun b hb => (hf b hb).shift n) (after_keeps h.keeps n f hx) rfl
        exact ⟨n + k, by rwa [after_add]⟩

end Fair

/-! ### Threads -/

open Prog

variable {Req : Type} {Ans : Req → Type} {α σ : Type}

/-- What is left of a program after one of its requests was answered. -/
def Prog.Below (q p : Prog Req Ans α) : Prop := ∃ r next a, p = ask r next ∧ q = next a

theorem Prog.below_wf : WellFounded (@Prog.Below Req Ans α) := by
  constructor
  intro p
  induction p with
  | ret a =>
      constructor
      intro q hq
      obtain ⟨r, next, b, heq, -⟩ := hq
      exact absurd heq (by simp)
  | ask r next ih =>
      constructor
      intro q hq
      obtain ⟨r', next', b, heq, rfl⟩ := hq
      injection heq with hr hnext
      subst hr
      obtain rfl := eq_of_heq hnext
      exact ih b

/-- What is left of the threads, in no particular order. -/
def Threads.rest (s : Threads Req Ans α σ) : Multiset (Prog Req Ans α) := ↑s.progs

theorem rest_wf : WellFounded (Relation.CutExpand (@Prog.Below Req Ans α)) :=
  Prog.below_wf.cutExpand

def Threads.Finished (s : Threads Req Ans α σ) : Prop := ∀ (i : Nat) (p : Prog Req Ans α), s.progs[i]? = some p → ∃ a, p = ret a

namespace Shared

variable {S : Shared Req Ans σ} {s : Threads Req Ans α σ} {i : Nat}

def Ready (S : Shared Req Ans σ) (i : Nat) (s : Threads Req Ans α σ) : Prop :=
  ∃ r next, s.progs[i]? = some (ask r next) ∧ S.enabled r s.shared = true

theorem rest_reply {r : Req} {next : Ans r → Prog Req Ans α} (hi : s.progs[i]? = some (ask r next)) :
    Relation.CutExpand Prog.Below (S.reply i r next s).rest s.rest := by
  obtain ⟨hlt, hget⟩ := List.getElem?_eq_some_iff.mp hi
  refine ⟨{next (S.handle i r s.shared).1}, ask r next, ?_, ?_⟩
  · intro q hq
    exact ⟨r, next, _, rfl, Multiset.mem_singleton.mp hq⟩
  · have hsplit : s.progs = s.progs.take i ++ ask r next :: s.progs.drop (i + 1) := by
      rw [← hget, List.getElem_cons_drop, List.take_append_drop]
    show (↑(s.progs.set i (next (S.handle i r s.shared).1)) : Multiset (Prog Req Ans α)) + _ = ↑s.progs + _
    rw [List.set_eq_take_append_cons_drop, if_pos hlt]
    nth_rewrite 3 [hsplit]
    simp only [← Multiset.coe_add, ← Multiset.cons_coe, ← Multiset.singleton_add]
    abel

theorem Ready.step_falls (h : S.Ready i s) : Relation.CutExpand Prog.Below (S.step i s).rest s.rest := by
  obtain ⟨r, next, hi, hready⟩ := h
  rw [step_eq hi hready]
  exact rest_reply hi

/-- A turn either takes a thread a step down or changes nothing. -/
theorem step_falls_or_skips (S : Shared Req Ans σ) (i : Nat) (s : Threads Req Ans α σ) :
    Relation.CutExpand Prog.Below (S.step i s).rest s.rest ∨ S.step i s = s := by
  rcases S.step_cases i s with hskip | ⟨r, next, hi, -, hreply⟩
  · exact Or.inr hskip
  · rw [hreply]
    exact Or.inl (rest_reply hi)

theorem length_step (S : Shared Req Ans σ) (i : Nat) (s : Threads Req Ans α σ) :
    (S.step i s).progs.length = s.progs.length := by
  rcases S.step_cases i s with hskip | ⟨r, next, -, -, hreply⟩
  · rw [hskip]
  · rw [hreply]
    exact List.length_set

end Shared

end Interaction
