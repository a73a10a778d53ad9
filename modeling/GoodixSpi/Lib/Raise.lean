import GoodixSpi.Lib.Prog

/-!
# Programs that raise

An interaction program every request of which answers or raises, with the constructs that catch: `tryExcept` for `try`/`except`/`else`, `ensure` for `try`/`finally`. A contract is read on both ways out: `Meets` is the weakest precondition with a postcondition for results and one for exceptions.

`translate` runs a program with each of its requests replaced by a program, which is what a wrapper around an interface does to the code that uses the interface. `run_translate` is its simulation rule.
-/

namespace Interaction

variable {Req Req' : Type} {Ans : Req → Type} {Ans' : Req' → Type} {Out : Req → Type} {X α β γ σ τ M : Type}

/-- A program whose requests answer or raise, and that itself ends with a result or an exception. -/
def Raise (Req : Type) (Out : Req → Type) (X α : Type) : Type := Prog Req (fun r => Except X (Out r)) (Except X α)

namespace Raise

def raise (e : X) : Raise Req Out X α := Prog.ret (.error e)

/-- What follows a program: the continuation, or the exception passed on. -/
def andThen (f : α → Raise Req Out X β) : Except X α → Raise Req Out X β
  | .ok a => f a
  | .error e => raise e

def bind (p : Raise Req Out X α) (f : α → Raise Req Out X β) : Raise Req Out X β := Prog.bind p (andThen f)

instance : Monad (Raise Req Out X) where
  pure a := Prog.ret (.ok a)
  bind := bind

def call (r : Req) : Raise Req Out X (Out r) := Prog.perform r

/-- `try: p`, `except` for the exceptions that `handles` selects, `else`. -/
def tryExcept (handles : X → Bool) (p : Raise Req Out X α) (caught : X → Raise Req Out X β)
    (otherwise : α → Raise Req Out X β) : Raise Req Out X β :=
  Prog.bind p fun
    | .ok a => otherwise a
    | .error e => if handles e then caught e else raise e

def done : Except X α → Raise Req Out X α
  | .ok a => pure a
  | .error e => raise e

/-- `try: p` `finally: q`. An exception of `q` takes the place of what `p` ended with. -/
def ensure (p : Raise Req Out X α) (q : Raise Req Out X Unit) : Raise Req Out X α :=
  Prog.bind p fun r => Raise.bind q fun _ => done r

def each (f : γ → β → Raise Req Out X γ) : γ → List β → Raise Req Out X γ
  | g, [] => pure g
  | g, x :: xs => f g x >>= fun g' => each f g' xs

/-- A program over an interface whose requests never raise, on one whose requests can. -/
def lift (f : (r : Req') → Raise Req Out X (Ans' r)) : Prog Req' Ans' α → Raise Req Out X α
  | .ret a => pure a
  | .ask r next => f r >>= fun a => lift f (next a)

theorem bind_pure (p : Raise Req Out X α) : (p >>= fun a => (pure a : Raise Req Out X α)) = p := by
  refine Eq.trans ?_ (Prog.bind_ret p)
  change Prog.bind p _ = Prog.bind p _
  congr 1
  funext r
  cases r <;> rfl

theorem bind_assoc (p : Raise Req Out X α) (f : α → Raise Req Out X β) (g : β → Raise Req Out X γ) :
    (p >>= f >>= g) = p >>= fun a => f a >>= g := by
  refine (Prog.bind_assoc p (andThen f) (andThen g)).trans ?_
  change Prog.bind p _ = Prog.bind p _
  congr 1
  funext r
  cases r <;> rfl

/-! ### What a program can ask -/

def Asks (P : Req → Prop) (p : Raise Req Out X α) : Prop := Prog.Only P p

section Asks

variable {P : Req → Prop} {p : Raise Req Out X α}

theorem asks_pure (a : α) : Asks P (pure a : Raise Req Out X α) := trivial

theorem asks_raise (e : X) : Asks P (raise e : Raise Req Out X α) := trivial

theorem Asks.bind {f : α → Raise Req Out X β} (hp : Asks P p) (hf : ∀ a, Asks P (f a)) : Asks P (p >>= f) := by
  apply Prog.Only.bind hp
  intro r
  cases r with
  | ok a => exact hf a
  | error e => exact asks_raise e

theorem asks_call {r : Req} (hr : P r) : Asks P (call r : Raise Req Out X (Out r)) := ⟨hr, fun _ => trivial⟩

theorem Asks.tryExcept {caught : X → Raise Req Out X β} {otherwise : α → Raise Req Out X β} (hp : Asks P p)
    (hcaught : ∀ e, Asks P (caught e)) (hok : ∀ a, Asks P (otherwise a)) (handles : X → Bool) :
    Asks P (tryExcept handles p caught otherwise) := by
  apply Prog.Only.bind hp
  intro r
  cases r with
  | ok a => exact hok a
  | error e =>
      change Asks P (if handles e = true then caught e else raise e)
      split
      · exact hcaught e
      · exact asks_raise e

theorem Asks.ensure {q : Raise Req Out X Unit} (hp : Asks P p) (hq : Asks P q) : Asks P (ensure p q) := by
  apply Prog.Only.bind hp
  intro r
  apply Asks.bind hq
  intro _
  cases r with
  | ok a => exact asks_pure a
  | error e => exact asks_raise e

theorem asks_each {f : γ → β → Raise Req Out X γ} {xs : List β} (hf : ∀ g, ∀ x ∈ xs, Asks P (f g x)) (g : γ) :
    Asks P (each f g xs) := by
  induction xs generalizing g with
  | nil => exact asks_pure g
  | cons x xs ih =>
      exact (hf g x List.mem_cons_self).bind fun g' => ih (fun g y hy => hf g y (List.mem_cons_of_mem x hy)) g'

theorem asks_lift {P' : Req' → Prop} {f : (r : Req') → Raise Req Out X (Ans' r)} (hf : ∀ r, P' r → Asks P (f r))
    {p : Prog Req' Ans' α} (hp : Prog.Only P' p) : Asks P (lift f p) := by
  induction p with
  | ret a => exact asks_pure a
  | ask r next ih => exact (hf r hp.1).bind fun a => ih a (hp.2 a)

theorem Asks.mono {P' : Req → Prop} (hp : Asks P p) (himp : ∀ r, P r → P' r) : Asks P' p := Prog.Only.mono hp himp

end Asks

/-! ### Contracts -/

/-- A postcondition for either way out. -/
def Ends (Q : M → α → Prop) (E : M → X → Prop) (m : M) : Except X α → Prop
  | .ok a => Q m a
  | .error e => E m e

/-- Against `C`, from mode `m`, the program asks only what is admitted, and ends with a result in `Q` or an exception in `E`. -/
def Meets (C : Contract Req (fun r => Except X (Out r)) M) (p : Raise Req Out X α) (m : M) (Q : M → α → Prop)
    (E : M → X → Prop) : Prop :=
  wp C p m (Ends Q E)

section Meets

variable {C : Contract Req (fun r => Except X (Out r)) M} {p : Raise Req Out X α} {m : M} {E : M → X → Prop}

theorem Meets.mono {Q R : M → α → Prop} {F : M → X → Prop} (hp : Meets C p m Q E) (hok : ∀ m' a, Q m' a → R m' a)
    (herr : ∀ m' e, E m' e → F m' e) : Meets C p m R F := by
  apply wp_mono hp
  intro m' r hr
  cases r with
  | ok a => exact hok m' a hr
  | error e => exact herr m' e hr

theorem meets_bind {f : α → Raise Req Out X β} {Q : M → β → Prop} (h : Meets C p m (fun m' a => Meets C (f a) m' Q E) E) :
    Meets C (p >>= f) m Q E := by
  apply wp_bind_iff.mpr
  apply wp_mono h
  intro m' r hr
  cases r with
  | ok a => exact hr
  | error e => exact hr

theorem meets_call {r : Req} {Q : M → Out r → Prop} (hmay : C.may m r)
    (hok : ∀ a, C.rely m r (.ok a) → Q (C.next m r (.ok a)) a)
    (herr : ∀ e, C.rely m r (.error e) → E (C.next m r (.error e)) e) :
    Meets C (call r : Raise Req Out X (Out r)) m Q E := by
  refine ⟨hmay, ?_⟩
  intro a ha
  cases a with
  | ok a => exact hok a ha
  | error e => exact herr e ha

/-- A program that asks only what the contract ignores in this mode can be left by either way, in the same mode. -/
theorem Asks.meets {P : Req → Prop} (hp : Asks P p) (hC : ∀ r, P r → C.may m r ∧ ∀ a, C.next m r a = m)
    {Q : M → α → Prop} (hok : ∀ a, Q m a) (herr : ∀ e, E m e) : Meets C p m Q E := by
  induction p with
  | ret r =>
      cases r with
      | ok a => exact hok a
      | error e => exact herr e
  | ask r next ih =>
      refine ⟨(hC r hp.1).1, fun a _ => ?_⟩
      rw [(hC r hp.1).2 a]
      exact ih a (hp.2 a)

theorem meets_tryExcept {handles : X → Bool} {caught : X → Raise Req Out X β} {otherwise : α → Raise Req Out X β}
    {Q : M → β → Prop}
    (h : Meets C p m (fun m' a => Meets C (otherwise a) m' Q E)
      fun m' e => if handles e then Meets C (caught e) m' Q E else E m' e) :
    Meets C (tryExcept handles p caught otherwise) m Q E := by
  apply wp_bind_iff.mpr
  apply wp_mono h
  intro m' r hr
  cases r with
  | ok a => exact hr
  | error e =>
      change if handles e = true then Meets C (caught e) m' Q E else E m' e at hr
      change Meets C (if handles e = true then caught e else raise e) m' Q E
      by_cases he : handles e = true
      · rw [if_pos he] at hr ⊢
        exact hr
      · rw [if_neg he] at hr ⊢
        exact hr

/-- What holds after `finally` is what the clean-up leads to, from either way out of the body. -/
theorem meets_ensure {q : Raise Req Out X Unit} {Q : M → α → Prop}
    (h : Meets C p m (fun m' a => Meets C q m' (fun m'' _ => Q m'' a) E) fun m' e => Meets C q m' (fun m'' _ => E m'' e) E) :
    Meets C (ensure p q) m Q E := by
  apply wp_bind_iff.mpr
  apply wp_mono h
  intro m' r hr
  cases r with
  | ok a => exact meets_bind hr
  | error e => exact meets_bind hr

/-- The loop rule: every turn keeps the invariant or leaves by an exception. -/
theorem meets_each {f : γ → β → Raise Req Out X γ} {I : M → γ → Prop} (xs : List β)
    (hstep : ∀ m g x, x ∈ xs → I m g → Meets C (f g x) m I E) {g : γ} (h : I m g) : Meets C (each f g xs) m I E := by
  induction xs generalizing m g with
  | nil => exact h
  | cons x xs ih =>
      apply meets_bind
      apply (hstep m g x List.mem_cons_self h).mono
      · intro m' g' hI
        exact ih (fun m g y hy => hstep m g y (List.mem_cons_of_mem x hy)) hI
      · intro _ _ hE
        exact hE

end Meets

/-! ### Programs that run alike -/

section Alike

variable {h : (r : Req) → σ → Except X (Out r) × σ}

/-- Played against `h`, the programs end alike and leave the same state. -/
def Alike (h : (r : Req) → σ → Except X (Out r) × σ) (p q : Raise Req Out X α) : Prop :=
  Prog.run h p = Prog.run h q

theorem Alike.refl (h : (r : Req) → σ → Except X (Out r) × σ) (p : Raise Req Out X α) : Alike h p p := Eq.refl _

theorem alike_andThen {f g : α → Raise Req Out X β} (hf : ∀ a, Alike h (f a) (g a)) (r : Except X α) :
    Alike h (andThen f r) (andThen g r) := by
  cases r with
  | ok a => exact hf a
  | error e => exact Alike.refl h _

theorem Alike.bind {p q : Raise Req Out X α} {f g : α → Raise Req Out X β} (hp : Alike h p q)
    (hf : ∀ a, Alike h (f a) (g a)) : Alike h (p >>= f) (q >>= g) := by
  funext s
  have hleft := Prog.run_bind h p (andThen f) s
  have hright := Prog.run_bind h q (andThen g) s
  have hpq : Prog.run h p s = Prog.run h q s := congrFun hp s
  rw [hpq] at hleft
  exact hleft.trans ((congrFun (alike_andThen hf _) _).trans hright.symm)

theorem Alike.ensure {p q : Raise Req Out X α} (hp : Alike h p q) (c : Raise Req Out X Unit) :
    Alike h (ensure p c) (ensure q c) := by
  funext s
  have hleft := Prog.run_bind h p (fun r => Raise.bind c fun _ => done r) s
  have hright := Prog.run_bind h q (fun r => Raise.bind c fun _ => done r) s
  have hpq : Prog.run h p s = Prog.run h q s := congrFun hp s
  rw [hpq] at hleft
  exact hleft.trans hright.symm

theorem Alike.each {f g : γ → β → Raise Req Out X γ} (hf : ∀ acc x, Alike h (f acc x) (g acc x)) (xs : List β) (acc : γ) :
    Alike h (each f acc xs) (each g acc xs) := by
  induction xs generalizing acc with
  | nil => exact Alike.refl h _
  | cons x xs ih => exact (hf acc x).bind ih

end Alike

end Raise

/-! ### Replacing the requests -/

namespace Prog

/-- The program with every request `r` replaced by `f r`. -/
def translate (f : (r : Req) → Prog Req' Ans' (Ans r)) : Prog Req Ans α → Prog Req' Ans' α
  | ret a => ret a
  | ask r next => f r >>= fun a => translate f (next a)

theorem translate_bind (f : (r : Req) → Prog Req' Ans' (Ans r)) (p : Prog Req Ans α) (g : α → Prog Req Ans β) :
    translate f (p >>= g) = translate f p >>= fun a => translate f (g a) := by
  induction p with
  | ret a => rfl
  | ask r next ih =>
      rw [ask_bind, translate, translate, bind_assoc]
      congr 1
      funext a
      exact ih a

/-- **Simulation.** If the replacement of every request a program can ask is answered as `h'` answers the request, the states being related by `view`, then so is the whole program. -/
theorem run_translate {P : Req → Prop} {f : (r : Req) → Prog Req' Ans' (Ans r)} {h : (r : Req') → σ → Ans' r × σ}
    {h' : (r : Req) → τ → Ans r × τ} {view : τ → σ}
    (hstep : ∀ r t, P r → run h (f r) (view t) = ((h' r t).1, view (h' r t).2)) {p : Prog Req Ans α} (hp : Only P p)
    (t : τ) : run h (translate f p) (view t) = ((run h' p t).1, view (run h' p t).2) := by
  induction p generalizing t with
  | ret a => rfl
  | ask r next ih => rw [translate, run_bind, hstep r t hp.1, ih _ (hp.2 _), run_ask]

end Prog

namespace Raise

def translate (f : (r : Req) → Raise Req Out X (Out r)) (p : Raise Req Out X α) : Raise Req Out X α := Prog.translate f p

theorem translate_bind (f : (r : Req) → Raise Req Out X (Out r)) (p : Raise Req Out X α) (g : α → Raise Req Out X β) :
    translate f (p >>= g) = translate f p >>= fun a => translate f (g a) := by
  refine (Prog.translate_bind f p (andThen g)).trans ?_
  change Prog.bind (Prog.translate f p) _ = Prog.bind (Prog.translate f p) _
  congr 1
  funext r
  cases r <;> rfl

theorem translate_call (f : (r : Req) → Raise Req Out X (Out r)) (r : Req) : translate f (call r) = f r :=
  Prog.bind_ret (f r)

end Raise

end Interaction
