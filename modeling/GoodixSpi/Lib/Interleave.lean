import Mathlib.Logic.Function.Basic
import GoodixSpi.Lib.Prog

/-!
# Interleavings

Several programs over one shared state. A step of a thread is its next request, if it has one and the state is ready for it; a schedule says whose turn it is, and a turn that cannot be taken passes. A contract is kept by each thread on its own, in its own mode, whatever the others do in between.
-/

namespace Interaction

open Prog

variable {Req : Type} {Ans : Req → Type} {α β σ M : Type}

/-- A state that several programs share: how it answers a thread's request, and which requests have to wait. -/
structure Shared (Req : Type) (Ans : Req → Type) (σ : Type) where
  handle : (tid : Nat) → (r : Req) → σ → Ans r × σ
  enabled : Req → σ → Bool

/-- The shared state and what is left of each thread's program. -/
structure Threads (Req : Type) (Ans : Req → Type) (α σ : Type) where
  shared : σ
  progs : List (Prog Req Ans α)

namespace Shared

variable (S : Shared Req Ans σ)

def reply (i : Nat) (r : Req) (next : Ans r → Prog Req Ans α) (s : Threads Req Ans α σ) : Threads Req Ans α σ :=
  ⟨(S.handle i r s.shared).2, s.progs.set i (next (S.handle i r s.shared).1)⟩

def step (i : Nat) (s : Threads Req Ans α σ) : Threads Req Ans α σ :=
  match s.progs[i]? with
  | some (.ask r next) => if S.enabled r s.shared then S.reply i r next s else s
  | _ => s

def run : List Nat → Threads Req Ans α σ → Threads Req Ans α σ
  | [], s => s
  | i :: schedule, s => run schedule (S.step i s)

/-- Every step of the schedule is taken in a state that satisfies `P`. -/
def Along (P : Nat → Threads Req Ans α σ → Prop) : List Nat → Threads Req Ans α σ → Prop
  | [], _ => True
  | i :: schedule, s => P i s ∧ Along P schedule (S.step i s)

variable {S} {i : Nat} {s : Threads Req Ans α σ}

theorem step_cases (S : Shared Req Ans σ) (i : Nat) (s : Threads Req Ans α σ) :
    S.step i s = s ∨ ∃ r next, s.progs[i]? = some (ask r next) ∧ S.enabled r s.shared = true ∧
      S.step i s = S.reply i r next s := by
  rw [step]
  match hi : s.progs[i]? with
  | none => exact Or.inl rfl
  | some (ret a) => exact Or.inl rfl
  | some (ask r next) =>
      by_cases hready : S.enabled r s.shared = true
      · exact Or.inr ⟨r, next, rfl, hready, if_pos hready⟩
      · exact Or.inl (if_neg hready)

theorem step_eq {r : Req} {next : Ans r → Prog Req Ans α} (hi : s.progs[i]? = some (ask r next))
    (hready : S.enabled r s.shared = true) : S.step i s = S.reply i r next s := by
  rw [step, hi]
  exact if_pos hready

theorem progs_reply_self {r : Req} {next : Ans r → Prog Req Ans α} (hi : s.progs[i]? = some (ask r next)) :
    (S.reply i r next s).progs[i]? = some (next (S.handle i r s.shared).1) := by
  obtain ⟨hlt, -⟩ := List.getElem?_eq_some_iff.mp hi
  exact List.getElem?_set_self hlt

theorem progs_reply_ne {r : Req} {next : Ans r → Prog Req Ans α} {j : Nat} (hij : j ≠ i) :
    (S.reply i r next s).progs[j]? = s.progs[j]? :=
  List.getElem?_set_ne (Ne.symm hij)

theorem progs_reply {r : Req} {next : Ans r → Prog Req Ans α} {j : Nat} {p : Prog Req Ans α}
    (hj : (S.reply i r next s).progs[j]? = some p) :
    (j = i ∧ p = next (S.handle i r s.shared).1) ∨ (j ≠ i ∧ s.progs[j]? = some p) := by
  rw [reply, List.getElem?_set] at hj
  by_cases hij : i = j
  · rw [if_pos hij] at hj
    split at hj
    · exact Or.inl ⟨hij.symm, (Option.some.inj hj).symm⟩
    · exact absurd hj (by simp)
  · rw [if_neg hij] at hj
    exact Or.inr ⟨Ne.symm hij, hj⟩

/-- **Every run.** What each step in a good state keeps holds in every state that is reached through good states. -/
theorem run_keeps {J : Threads Req Ans α σ → Prop} {P : Nat → Threads Req Ans α σ → Prop}
    (hstep : ∀ i s, J s → P i s → J (S.step i s)) {schedule : List Nat} (hP : S.Along P schedule s) (hs : J s)
    {pre : List Nat} (hpre : pre <+: schedule) : J (S.run pre s) := by
  induction pre generalizing s schedule with
  | nil => exact hs
  | cons i pre ih =>
      obtain ⟨post, rfl⟩ := hpre
      obtain ⟨hi, hrest⟩ := hP
      exact ih hrest (hstep i s hs hi) ⟨post, rfl⟩

theorem Along.mono {P R : Nat → Threads Req Ans α σ → Prop} {schedule : List Nat} (hP : S.Along P schedule s)
    (himp : ∀ i s, P i s → R i s) : S.Along R schedule s := by
  induction schedule generalizing s with
  | nil => trivial
  | cons i schedule ih => exact ⟨himp i s hP.1, ih hP.2⟩

/-- A run that leaves the good states does so at a first step. -/
theorem Along.exists_first {P : Nat → Threads Req Ans α σ → Prop} {schedule : List Nat}
    (h : ¬ S.Along P schedule s) : ∃ pre i, S.Along P pre s ∧ ¬ P i (S.run pre s) := by
  induction schedule generalizing s with
  | nil => exact absurd trivial h
  | cons i schedule ih =>
      by_cases hi : P i s
      · obtain ⟨pre, j, hpre, hj⟩ := ih fun hrest => h ⟨hi, hrest⟩
        exact ⟨i :: pre, j, ⟨hi, hpre⟩, hj⟩
      · exact ⟨[], i, trivial, hi⟩

theorem run_append (pre post : List Nat) : S.run (pre ++ post) s = S.run post (S.run pre s) := by
  induction pre generalizing s with
  | nil => rfl
  | cons i pre ih => exact ih

instance decidableAlong {P : Nat → Threads Req Ans α σ → Prop} [hP : ∀ i s, Decidable (P i s)] :
    (schedule : List Nat) → (s : Threads Req Ans α σ) → Decidable (S.Along P schedule s)
  | [], _ => .isTrue trivial
  | i :: schedule, s => @instDecidableAnd _ _ (hP i s) (decidableAlong schedule (S.step i s))

end Shared

/-! ### Threads that ask only some requests -/

/-- Every request that a thread can still ask satisfies `P`. -/
def AllOnly (P : Req → Prop) (s : Threads Req Ans α σ) : Prop :=
  ∀ (i : Nat) (p : Prog Req Ans α), s.progs[i]? = some p → Only P p

theorem AllOnly.step {P : Req → Prop} {s : Threads Req Ans α σ} (h : AllOnly P s) (S : Shared Req Ans σ) (i : Nat) :
    AllOnly P (S.step i s) := by
  rcases S.step_cases i s with hskip | ⟨r, next, hi, -, hreply⟩
  · rw [hskip]
    exact h
  · rw [hreply]
    intro j p hj
    rcases Shared.progs_reply hj with ⟨-, rfl⟩ | ⟨-, hj⟩
    · exact (h i _ hi).2 _
    · exact h j p hj

theorem AllOnly.step_keeps {P : Req → Prop} {s : Threads Req Ans α σ} (h : AllOnly P s) {S : Shared Req Ans σ}
    {I : σ → Prop} (hI : ∀ i r s, P r → I s → I (S.handle i r s).2) (i : Nat) (hs : I s.shared) :
    I (S.step i s).shared := by
  rcases S.step_cases i s with hskip | ⟨r, next, hi, -, hreply⟩
  · rw [hskip]
    exact hs
  · rw [hreply]
    exact hI i r _ (h i _ hi).1 hs

/-! ### Contracts, thread by thread -/

variable {C : Contract Req Ans M}

/-- What is left of each thread keeps the contract from the thread's mode. -/
def Obeys (C : Contract Req Ans M) (Q : M → α → Prop) (mode : Nat → M) (s : Threads Req Ans α σ) : Prop :=
  ∀ i p, s.progs[i]? = some p → wp C p (mode i) Q

theorem Obeys.may {Q : M → α → Prop} {mode : Nat → M} {s : Threads Req Ans α σ} (h : Obeys C Q mode s) {i : Nat}
    {r : Req} {next : Ans r → Prog Req Ans α} (hi : s.progs[i]? = some (ask r next)) : C.may (mode i) r :=
  (h i _ hi).1

/-- A reply that is as relied on moves the mode of the thread that gets it. -/
theorem Obeys.reply {Q : M → α → Prop} {mode : Nat → M} {s : Threads Req Ans α σ} (h : Obeys C Q mode s)
    (S : Shared Req Ans σ) {i : Nat} {r : Req} {next : Ans r → Prog Req Ans α} (hi : s.progs[i]? = some (ask r next))
    (hrely : C.rely (mode i) r (S.handle i r s.shared).1) :
    Obeys C Q (Function.update mode i (C.next (mode i) r (S.handle i r s.shared).1)) (S.reply i r next s) := by
  intro j p hj
  rcases Shared.progs_reply hj with ⟨rfl, rfl⟩ | ⟨hij, hj⟩
  · rw [Function.update_self]
    exact (h j _ hi).2 _ hrely
  · rw [Function.update_of_ne hij]
    exact h j p hj

/-! ### Results -/

/-- The same threads, with `f` applied to what they return. -/
def Threads.map (f : α → β) (s : Threads Req Ans α σ) : Threads Req Ans β σ :=
  ⟨s.shared, s.progs.map fun p => p >>= fun a => ret (f a)⟩

/-- What is done with the results makes no difference to a step. -/
theorem Shared.step_map (S : Shared Req Ans σ) (f : α → β) (i : Nat) (s : Threads Req Ans α σ) :
    S.step i (s.map f) = (S.step i s).map f := by
  rw [step, step, Threads.map, List.getElem?_map]
  match s.progs[i]? with
  | none => rfl
  | some (ret a) => rfl
  | some (ask r next) =>
      show (if S.enabled r s.shared then _ else _) = Threads.map f (if S.enabled r s.shared then _ else _)
      split
      · rw [reply, reply, Threads.map, List.map_set]
        rfl
      · rfl

/-! ### A thread alone -/

/-- A thread that never has to wait runs to its end while the others stand still. -/
theorem Shared.run_thread {S : Shared Req Ans σ} {i : Nat} {I : M → σ → Prop}
    (hstep : ∀ m s r, I m s → C.may m r →
      S.enabled r s = true ∧ C.rely m r (S.handle i r s).1 ∧ I (C.next m r (S.handle i r s).1) (S.handle i r s).2)
    {p : Prog Req Ans α} {m : M} {s : Threads Req Ans α σ} {Q : M → α → Prop} (hp : wp C p m Q) (hI : I m s.shared)
    (hi : s.progs[i]? = some p) :
    ∃ n, S.run (List.replicate n i) s =
      ⟨(p.run (S.handle i) s.shared).2, s.progs.set i (ret (p.run (S.handle i) s.shared).1)⟩ := by
  induction p generalizing m s with
  | ret a =>
      obtain ⟨hlt, hget⟩ := List.getElem?_eq_some_iff.mp hi
      refine ⟨0, ?_⟩
      change s = ⟨s.shared, s.progs.set i (ret a)⟩
      rw [← hget, List.set_getElem_self]
  | ask r next ih =>
      obtain ⟨hready, hrely, hI'⟩ := hstep m s.shared r hI hp.1
      have hturn := step_eq hi hready
      obtain ⟨n, hn⟩ := ih _ (s := S.reply i r next s) (hp.2 _ hrely) hI' (progs_reply_self hi)
      refine ⟨n + 1, ?_⟩
      rw [List.replicate_succ, Shared.run, hturn, hn, run_ask, reply, List.set_set]

/-- The interleaving of one program with nothing is its run, if it never has to wait. -/
theorem Shared.run_alone {S : Shared Req Ans σ} {I : M → σ → Prop}
    (hstep : ∀ m s r, I m s → C.may m r →
      S.enabled r s = true ∧ C.rely m r (S.handle 0 r s).1 ∧ I (C.next m r (S.handle 0 r s).1) (S.handle 0 r s).2)
    {p : Prog Req Ans α} {m : M} {s : σ} {Q : M → α → Prop} (hp : wp C p m Q) (hI : I m s) :
    ∃ n, S.run (List.replicate n 0) ⟨s, [p]⟩ =
      ⟨(p.run (S.handle 0) s).2, [ret (p.run (S.handle 0) s).1]⟩ :=
  Shared.run_thread (s := ⟨s, [p]⟩) hstep hp hI rfl

end Interaction
