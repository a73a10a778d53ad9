import Mathlib.Logic.Basic

/-!
# Interaction programs

A program is a tree of requests and continuations on their answers. It fixes what the code asks and in what order, and nothing about who answers: `run` plays it against one handler, and the interleaving semantics plays several against a shared one.

What a program does to any handler is reasoned about through a `Contract`, a ghost automaton over the requests: which requests a mode admits, what may be relied on about an answer, and the mode that follows. `wp` is the weakest precondition of a program against a contract. It is proved of a program once and read in three ways: as an invariant of a run (`wp_run`), as agreement of two runs (`wp_agree`), and thread by thread in an interleaving.
-/

namespace Interaction

/-- A program over requests `Req`, the answer to `r` being an `Ans r`. -/
inductive Prog (Req : Type) (Ans : Req → Type) (α : Type) : Type where
  | ret (a : α)
  | ask (r : Req) (next : Ans r → Prog Req Ans α)

variable {Req : Type} {Ans : Req → Type} {α β γ σ τ M : Type}

namespace Prog

def bind : Prog Req Ans α → (α → Prog Req Ans β) → Prog Req Ans β
  | ret a, f => f a
  | ask r next, f => ask r fun a => (next a).bind f

instance : Monad (Prog Req Ans) where
  pure := ret
  bind := bind

def perform (r : Req) : Prog Req Ans (Ans r) := ask r ret

@[simp] theorem pure_eq (a : α) : (pure a : Prog Req Ans α) = ret a := rfl

@[simp] theorem ret_bind (a : α) (f : α → Prog Req Ans β) : ((ret a : Prog Req Ans α) >>= f) = f a := rfl

@[simp] theorem ask_bind (r : Req) (next : Ans r → Prog Req Ans α) (f : α → Prog Req Ans β) :
    (ask r next >>= f) = ask r fun a => next a >>= f := rfl

@[simp] theorem perform_bind (r : Req) (f : Ans r → Prog Req Ans β) :
    (perform r >>= f) = ask r f := rfl

theorem bind_ret (p : Prog Req Ans α) : (p >>= ret) = p := by
  induction p with
  | ret a => rfl
  | ask r next ih => exact congrArg (ask r) (funext ih)

theorem bind_assoc (p : Prog Req Ans α) (f : α → Prog Req Ans β) (g : β → Prog Req Ans γ) :
    (p >>= f >>= g) = p >>= fun a => f a >>= g := by
  induction p with
  | ret a => rfl
  | ask r next ih => exact congrArg (ask r) (funext ih)

instance : LawfulMonad (Prog Req Ans) :=
  LawfulMonad.mk' _ bind_ret (fun _ _ => rfl) bind_assoc

def fold (f : γ → β → Prog Req Ans γ) : γ → List β → Prog Req Ans γ
  | g, [] => ret g
  | g, x :: xs => f g x >>= fun g' => fold f g' xs

def iter (f : γ → Prog Req Ans γ) : Nat → γ → Prog Req Ans γ
  | 0, g => ret g
  | n + 1, g => f g >>= fun g' => iter f n g'

/-! ### Running against one handler -/

def run (h : (r : Req) → σ → Ans r × σ) : Prog Req Ans α → σ → α × σ
  | ret a, s => (a, s)
  | ask r next, s => run h (next (h r s).1) (h r s).2

@[simp] theorem run_ret (h : (r : Req) → σ → Ans r × σ) (a : α) (s : σ) :
    run h (ret a : Prog Req Ans α) s = (a, s) := rfl

@[simp] theorem run_ask (h : (r : Req) → σ → Ans r × σ) (r : Req) (next : Ans r → Prog Req Ans α) (s : σ) :
    run h (ask r next) s = run h (next (h r s).1) (h r s).2 := rfl

@[simp] theorem run_bind (h : (r : Req) → σ → Ans r × σ) (p : Prog Req Ans α) (f : α → Prog Req Ans β) (s : σ) :
    run h (p >>= f) s = run h (f (run h p s).1) (run h p s).2 := by
  induction p generalizing s with
  | ret a => rfl
  | ask r next ih => exact ih _ _

theorem run_keeps {h : (r : Req) → σ → Ans r × σ} {I : σ → Prop} (hstep : ∀ r s, I s → I (h r s).2)
    (p : Prog Req Ans α) {s : σ} (hs : I s) : I (run h p s).2 := by
  induction p generalizing s with
  | ret a => exact hs
  | ask r next ih => exact ih _ (hstep r s hs)

/-- Running commutes with a view of the state that determines the answers and its own next value. -/
theorem run_view {h : (r : Req) → σ → Ans r × σ} {h' : (r : Req) → τ → Ans r × τ} {view : σ → τ}
    (hview : ∀ r s, (h' r (view s)) = ((h r s).1, view (h r s).2)) (p : Prog Req Ans α) (s : σ) :
    run h' p (view s) = ((run h p s).1, view (run h p s).2) := by
  induction p generalizing s with
  | ret a => rfl
  | ask r next ih =>
      rw [run_ask, hview, ih]
      rfl

/-- Every request the program can ask satisfies `P`. -/
def Only (P : Req → Prop) : Prog Req Ans α → Prop
  | ret _ => True
  | ask r next => P r ∧ ∀ a, Only P (next a)

theorem Only.bind {P : Req → Prop} {p : Prog Req Ans α} {f : α → Prog Req Ans β} (hp : Only P p)
    (hf : ∀ a, Only P (f a)) : Only P (p >>= f) := by
  induction p with
  | ret a => exact hf a
  | ask r next ih => exact ⟨hp.1, fun a => ih a (hp.2 a)⟩

theorem Only.perform {P : Req → Prop} {r : Req} (hr : P r) : Only P (perform r : Prog Req Ans (Ans r)) :=
  ⟨hr, fun _ => trivial⟩

theorem Only.perform_bind {P : Req → Prop} {r : Req} {f : Ans r → Prog Req Ans β} (hr : P r)
    (hf : ∀ a, Only P (f a)) : Only P (Prog.perform r >>= f) :=
  ⟨hr, hf⟩

theorem Only.mono {P R : Req → Prop} {p : Prog Req Ans α} (hp : Only P p) (himp : ∀ r, P r → R r) : Only R p := by
  induction p with
  | ret a => trivial
  | ask r next ih => exact ⟨himp r hp.1, fun a => ih a (hp.2 a)⟩

/-- What the answers to the program's own requests keep, a run of it keeps. -/
theorem Only.run_keeps {P : Req → Prop} {h : (r : Req) → σ → Ans r × σ} {I : σ → Prop} {p : Prog Req Ans α}
    (hp : Only P p) (hstep : ∀ r s, P r → I s → I (h r s).2) {s : σ} (hs : I s) : I (run h p s).2 := by
  induction p generalizing s with
  | ret a => exact hs
  | ask r next ih => exact ih _ (hp.2 _) (hstep r s hp.1 hs)

theorem Only.fold {P : Req → Prop} {f : γ → β → Prog Req Ans γ} (hf : ∀ g x, Only P (f g x)) (xs : List β) (g : γ) :
    Only P (fold f g xs) := by
  induction xs generalizing g with
  | nil => trivial
  | cons x xs ih => exact (hf g x).bind fun g' => ih g'

theorem Only.iter {P : Req → Prop} {f : γ → Prog Req Ans γ} (hf : ∀ g, Only P (f g)) (n : Nat) (g : γ) :
    Only P (iter f n g) := by
  induction n generalizing g with
  | zero => trivial
  | succ n ih => exact (hf g).bind fun g' => ih g'

/-! ### Notes -/

/-- The program, returning also what `note` says of the requests it has made, behind `notes`. -/
def noting (note : Req → List τ) : List τ → Prog Req Ans α → Prog Req Ans (α × List τ)
  | notes, ret a => ret (a, notes)
  | notes, ask r next => ask r fun a => noting note (notes ++ note r) (next a)

section Noting

variable {note : Req → List τ} {notes : List τ} {p : Prog Req Ans α}

/-- But for what it returns it is the same program. -/
theorem noting_fst : (noting note notes p >>= fun x => ret x.1) = p := by
  induction p generalizing notes with
  | ret a => rfl
  | ask r next ih =>
      rw [noting, ask_bind]
      congr 1
      funext a
      exact ih a

theorem noting_bind (f : α → Prog Req Ans β) :
    noting note notes (p >>= f) = noting note notes p >>= fun x => noting note x.2 (f x.1) := by
  induction p generalizing notes with
  | ret a => rfl
  | ask r next ih =>
      rw [ask_bind, noting, noting, ask_bind]
      congr 1
      funext a
      exact ih a

theorem Only.noting {P : Req → Prop} (h : Only P p) (note : Req → List τ) (notes : List τ) :
    Only P (Prog.noting note notes p) := by
  induction p generalizing notes with
  | ret a => trivial
  | ask r next ih => exact ⟨h.1, fun a => ih a (h.2 a) _⟩

theorem run_noting (h : (r : Req) → σ → Ans r × σ) (s : σ) :
    ((run h (noting note notes p) s).1.1, (run h (noting note notes p) s).2) = run h p s := by
  have hrun := run_bind h (noting note notes p) (fun x => ret x.1) s
  rw [noting_fst] at hrun
  exact hrun.symm

end Noting

end Prog

open Prog

/-! ### Contracts -/

/-- A ghost automaton over requests: what a mode admits, what is relied on about the answer, and the mode that follows. -/
structure Contract (Req : Type) (Ans : Req → Type) (M : Type) where
  may : M → Req → Prop
  rely : M → (r : Req) → Ans r → Prop
  next : M → (r : Req) → Ans r → M

/-- Against `C`, from mode `m`, the program asks only what is admitted and ends in a mode and with a result in `Q`. -/
def wp (C : Contract Req Ans M) : Prog Req Ans α → M → (M → α → Prop) → Prop
  | ret a, m, Q => Q m a
  | ask r next, m, Q => C.may m r ∧ ∀ a, C.rely m r a → wp C (next a) (C.next m r a) Q

variable {C : Contract Req Ans M}

theorem wp_mono {p : Prog Req Ans α} {m : M} {Q R : M → α → Prop} (hp : wp C p m Q)
    (himp : ∀ m' a, Q m' a → R m' a) : wp C p m R := by
  induction p generalizing m with
  | ret a => exact himp m a hp
  | ask r next ih => exact ⟨hp.1, fun a hrely => ih a (hp.2 a hrely)⟩

theorem wp_bind_iff {p : Prog Req Ans α} {f : α → Prog Req Ans β} {m : M} {Q : M → β → Prop} :
    wp C (p >>= f) m Q ↔ wp C p m fun m' a => wp C (f a) m' Q := by
  induction p generalizing m with
  | ret a => exact Iff.rfl
  | ask r next ih => exact and_congr_right fun _ => forall_congr' fun a => imp_congr_right fun _ => ih a

/-- Sequencing: a result of the first program known to be in `Q` is all the second may use. -/
theorem wp_bind {p : Prog Req Ans α} {f : α → Prog Req Ans β} {m : M} {Q : M → α → Prop} {R : M → β → Prop}
    (hp : wp C p m Q) (hf : ∀ m' a, Q m' a → wp C (f a) m' R) : wp C (p >>= f) m R :=
  wp_bind_iff.mpr (wp_mono hp hf)

theorem wp_perform_bind {r : Req} {f : Ans r → Prog Req Ans β} {m : M} {Q : M → β → Prop} (hmay : C.may m r)
    (h : ∀ a, C.rely m r a → wp C (f a) (C.next m r a) Q) : wp C (perform r >>= f) m Q :=
  ⟨hmay, h⟩

/-- The loop rule: an invariant each turn keeps holds after the loop. -/
theorem wp_fold {f : γ → β → Prog Req Ans γ} {I : M → γ → Prop} (xs : List β)
    (hstep : ∀ m g x, x ∈ xs → I m g → wp C (f g x) m I) {m : M} {g : γ} (h : I m g) :
    wp C (fold f g xs) m I := by
  induction xs generalizing m g with
  | nil => exact h
  | cons x xs ih =>
      exact wp_bind (hstep m g x List.mem_cons_self h) fun _ _ h' =>
        ih (fun m g y hy => hstep m g y (List.mem_cons_of_mem x hy)) h'

theorem wp_fold_rest {f : γ → β → Prog Req Ans γ} {I : List β → M → γ → Prop} (xs : List β)
    (hstep : ∀ x xs m g, I (x :: xs) m g → wp C (f g x) m (I xs)) {m : M} {g : γ} (h : I xs m g) :
    wp C (fold f g xs) m (I []) := by
  induction xs generalizing m g with
  | nil => exact h
  | cons x xs ih => exact wp_bind (hstep x xs m g h) fun _ _ => ih

/-- The loop rule of a counted loop: the invariant may speak of the counter. -/
theorem wp_fold_range {f : γ → Nat → Prog Req Ans γ} {I : Nat → M → γ → Prop} (n : Nat)
    (hstep : ∀ i < n, ∀ m g, I i m g → wp C (f g i) m (I (i + 1))) {m : M} {g : γ} (h : I 0 m g) :
    wp C (fold f g (List.range n)) m (I n) := by
  have hfrom : ∀ k s m g, s + k = n → I s m g → wp C (fold f g (List.range' s k)) m (I n) := by
    intro k
    induction k with
    | zero =>
        intro s m g hs hI
        obtain rfl : s = n := by omega
        exact hI
    | succ k ih =>
        intro s m g hs hI
        exact wp_bind (hstep s (by omega) m g hI) fun m' g' hI' => ih (s + 1) m' g' (by omega) hI'
  rw [List.range_eq_range']
  exact hfrom n 0 m g (Nat.zero_add n) h

/-- A contract that relies on nothing bounds the requests of the program on every path. -/
theorem only_of_wp {P : Req → Prop} {p : Prog Req Ans α} {m : M} {Q : M → α → Prop} (hp : wp C p m Q)
    (hrely : ∀ m r a, C.rely m r a) (hmay : ∀ m r, C.may m r → P r) : Only P p := by
  induction p generalizing m with
  | ret a => trivial
  | ask r next ih => exact ⟨hmay m r hp.1, fun a => ih a (hp.2 a (hrely m r a))⟩

/-! ### Quiet programs -/

/-- Admitted in every mode, and in the same mode afterwards. -/
def Quiet (C : Contract Req Ans M) (p : Prog Req Ans α) : Prop := ∀ m, wp C p m fun m' _ => m' = m

theorem wp_of_quiet {p : Prog Req Ans α} (hp : Quiet C p) {m : M} {Q : M → α → Prop} (h : ∀ a, Q m a) :
    wp C p m Q :=
  wp_mono (hp m) fun _ a hm => hm ▸ h a

theorem wp_quiet_bind {p : Prog Req Ans α} {f : α → Prog Req Ans β} (hp : Quiet C p) {m : M} {Q : M → β → Prop}
    (h : ∀ a, wp C (f a) m Q) : wp C (p >>= f) m Q :=
  wp_bind_iff.mpr (wp_of_quiet hp h)

/-- A program is quiet when every request it can ask is one the contract ignores. -/
theorem quiet_of_only {P : Req → Prop} (hC : ∀ m r, P r → C.may m r ∧ ∀ a, C.next m r a = m) {p : Prog Req Ans α}
    (hp : Only P p) : Quiet C p := by
  intro m
  induction p with
  | ret a => rfl
  | ask r next ih =>
      refine ⟨(hC m r hp.1).1, fun a _ => ?_⟩
      rw [(hC m r hp.1).2 a]
      exact ih a (hp.2 a)

/-! ### What a contract says about runs -/

/-- **One run.** If the handler keeps a relation between modes and states, and lives up to what is relied on, then the relation holds at the end of the run. -/
theorem wp_run {h : (r : Req) → σ → Ans r × σ} {I : M → σ → Prop}
    (hstep : ∀ m s r, I m s → C.may m r → C.rely m r (h r s).1 ∧ I (C.next m r (h r s).1) (h r s).2)
    {p : Prog Req Ans α} {m : M} {s : σ} {Q : M → α → Prop} (hp : wp C p m Q) (hI : I m s) :
    ∃ m', I m' (run h p s).2 ∧ Q m' (run h p s).1 := by
  induction p generalizing m s with
  | ret a => exact ⟨m, hI, hp⟩
  | ask r next ih =>
      obtain ⟨hrely, hI'⟩ := hstep m s r hI hp.1
      exact ih _ (hp.2 _ hrely) hI'

/-- **Two runs.** If admitted requests are answered alike from related states, the whole runs agree. -/
theorem wp_agree {h h' : (r : Req) → σ → Ans r × σ} {R : M → σ → σ → Prop}
    (hstep : ∀ m s t r, R m s t → C.may m r →
      (h r s).1 = (h' r t).1 ∧ C.rely m r (h r s).1 ∧ R (C.next m r (h r s).1) (h r s).2 (h' r t).2)
    {p : Prog Req Ans α} {m : M} {s t : σ} {Q : M → α → Prop} (hp : wp C p m Q) (hR : R m s t) :
    (run h p s).1 = (run h' p t).1 ∧ ∃ m', R m' (run h p s).2 (run h' p t).2 ∧ Q m' (run h p s).1 := by
  induction p generalizing m s t with
  | ret a => exact ⟨rfl, m, hR, hp⟩
  | ask r next ih =>
      obtain ⟨heq, hrely, hR'⟩ := hstep m s t r hR hp.1
      have hrest := ih _ (hp.2 _ hrely) hR'
      rw [run_ask, run_ask, ← heq]
      exact hrest

end Interaction
