import Mathlib.Logic.Relation
import GoodixSpi.Lib.Prog

/-!
# Activities on an owner's resources

An owner that moves on its own, and any number of activities, each a program of some kind, over one state. The state says which kinds may begin. A move that withdraws a kind waits for the activities of the kind to end, so no activity outlives what it began on: if a state that offers a kind has all that the requests of the kind need, then no activity ever asks for what is not there.
-/

namespace Interaction

open Prog

variable {Req : Type} {Ans : Req → Type} {α S K : Type}

/-- How the owner moves, which kinds of activity a state offers, the programs of a kind, and what an answered request does to the state. -/
structure Owner (Req : Type) (Ans : Req → Type) (α S K : Type) where
  moves : S → S → Prop
  offers : S → K → Prop
  begins : S → K → Prog Req Ans α → Prop
  effect : (r : Req) → Ans r → S → S

structure Activity (Req : Type) (Ans : Req → Type) (α K : Type) where
  kind : K
  prog : Prog Req Ans α

structure Busy (Req : Type) (Ans : Req → Type) (α S K : Type) where
  state : S
  running : List (Activity Req Ans α K)

namespace Owner

/-- Of an activity a step is its next request, answered in any way. -/
inductive Step (O : Owner Req Ans α S K) : Busy Req Ans α S K → Busy Req Ans α S K → Prop
  | move {s s' : S} {running : List (Activity Req Ans α K)} (h : O.moves s s')
      (hwait : ∀ a ∈ running, O.offers s a.kind → O.offers s' a.kind) : Step O ⟨s, running⟩ ⟨s', running⟩
  | start {s : S} {running : List (Activity Req Ans α K)} {k : K} {p : Prog Req Ans α} (hoffers : O.offers s k)
      (hp : O.begins s k p) : Step O ⟨s, running⟩ ⟨s, ⟨k, p⟩ :: running⟩
  | work {s : S} {before after : List (Activity Req Ans α K)} {k : K} {r : Req} {next : Ans r → Prog Req Ans α}
      (a : Ans r) : Step O ⟨s, before ++ ⟨k, ask r next⟩ :: after⟩ ⟨O.effect r a s, before ++ ⟨k, next a⟩ :: after⟩
  | finish {s : S} {before after : List (Activity Req Ans α K)} {k : K} {x : α} :
      Step O ⟨s, before ++ ⟨k, ret x⟩ :: after⟩ ⟨s, before ++ after⟩

theorem step_newest {O : Owner Req Ans α S K} {s : S} {running : List (Activity Req Ans α K)} {k : K} {r : Req}
    {next : Ans r → Prog Req Ans α} (a : Ans r) :
    O.Step ⟨s, ⟨k, ask r next⟩ :: running⟩ ⟨O.effect r a s, ⟨k, next a⟩ :: running⟩ :=
  @Step.work _ _ _ _ _ O s [] running k r next a

/-- Reached from a state in which nothing is running. -/
def Reaches (O : Owner Req Ans α S K) (s : S) (t : Busy Req Ans α S K) : Prop := Relation.ReflTransGen O.Step ⟨s, []⟩ t

/-- An invariant of the state, when the requests of a kind are those in `Need`. -/
structure Keeps (O : Owner Req Ans α S K) (I : S → Prop) (Need : K → Req → Prop) : Prop where
  move : ∀ {s s'}, I s → O.moves s s' → I s'
  begins : ∀ {s k p}, I s → O.begins s k p → Only (Need k) p
  effect : ∀ {s k r} a, I s → O.offers s k → Need k r → I (O.effect r a s)
  offers : ∀ {s k r} a, O.offers s k → O.offers (O.effect r a s) k

variable {O : Owner Req Ans α S K} {I : S → Prop} {Need : K → Req → Prop} {s : S} {t : Busy Req Ans α S K}

/-- The invariant holds, and every activity is of a kind that is still offered and has the kind's requests left. -/
structure Sound (O : Owner Req Ans α S K) (I : S → Prop) (Need : K → Req → Prop) (t : Busy Req Ans α S K) : Prop where
  state : I t.state
  running : ∀ a ∈ t.running, O.offers t.state a.kind ∧ Only (Need a.kind) a.prog

theorem Keeps.step (h : O.Keeps I Need) {t t' : Busy Req Ans α S K} (ht : Sound O I Need t) (hstep : O.Step t t') :
    Sound O I Need t' := by
  cases hstep with
  | move hmove hwait =>
      refine ⟨h.move ht.state hmove, fun a ha => ?_⟩
      obtain ⟨hoffers, hprog⟩ := ht.running a ha
      exact ⟨hwait a ha hoffers, hprog⟩
  | start hoffers hp =>
      refine ⟨ht.state, fun a ha => ?_⟩
      rcases List.mem_cons.mp ha with rfl | ha
      · exact ⟨hoffers, h.begins ht.state hp⟩
      · exact ht.running a ha
  | @work s before after k r next b =>
      obtain ⟨hoffers, hr, hnext⟩ := ht.running ⟨k, ask r next⟩ (by simp)
      refine ⟨h.effect b ht.state hoffers hr, fun a ha => ?_⟩
      have hold : a = ⟨k, next b⟩ ∨ a ∈ before ++ ⟨k, ask r next⟩ :: after := by
        simp only [List.mem_append, List.mem_cons] at ha ⊢
        rcases ha with ha | ha | ha
        · exact Or.inr (Or.inl ha)
        · exact Or.inl ha
        · exact Or.inr (Or.inr (Or.inr ha))
      rcases hold with rfl | hold
      · exact ⟨h.offers b hoffers, hnext b⟩
      · obtain ⟨hoffers', hprog⟩ := ht.running a hold
        exact ⟨h.offers b hoffers', hprog⟩
  | @finish s before after k x =>
      refine ⟨ht.state, fun a ha => ht.running a ?_⟩
      rcases List.mem_append.mp ha with ha | ha
      · exact List.mem_append_left _ ha
      · exact List.mem_append_right _ (List.mem_cons_of_mem _ ha)

theorem Keeps.reaches (h : O.Keeps I Need) (hs : I s) (hreach : O.Reaches s t) : Sound O I Need t := by
  induction hreach with
  | refl => exact ⟨hs, fun a ha => absurd ha List.not_mem_nil⟩
  | tail _ hstep ih => exact h.step ih hstep

/-- **No activity asks for what is not there.** -/
theorem Sound.backed (ht : Sound O I Need t) (Backed : S → Req → Prop)
    (hback : ∀ {s k r}, I s → O.offers s k → Need k r → Backed s r) {a : Activity Req Ans α K} (ha : a ∈ t.running)
    {r : Req} {next : Ans r → Prog Req Ans α} (hprog : a.prog = ask r next) : Backed t.state r := by
  obtain ⟨hoffers, honly⟩ := ht.running a ha
  rw [hprog] at honly
  exact hback ht.state hoffers honly.1

/-- **Where nothing is offered, nothing is running.** -/
theorem Sound.drained (ht : Sound O I Need t) (hnone : ∀ k, ¬ O.offers t.state k) : t.running = [] := by
  rw [List.eq_nil_iff_forall_not_mem]
  intro a ha
  exact hnone a.kind (ht.running a ha).1

end Owner

end Interaction
