import Mathlib.Data.List.Nodup
import Mathlib.Data.List.Perm.Basic
import GoodixSpi.Lib.Interleave

/-!
# Critical sections

Threads that touch what they share only under one lock might as well run one after the other, in the order in which they took it. Two things make that exact. `Erases` removes from a program the requests that leave no trace in what is observed, whatever they are answered: a thread outside the lock may make them at any time. What remains of a thread is `Critical`: nothing, or one section from the lock to its release.

`Linear` relates a state of the interleaving to the threads run one at a time, the thread inside being as far as its own run has come. Every step keeps it, and so does any change that is not observed.
-/

namespace Interaction

open Prog

variable {Req : Type} {Ans : Req → Type} {α β σ : Type}

/-! ### Erasing requests -/

/-- The second program is the first with some requests removed that nobody sees, and that no answer to makes a difference. -/
inductive Erases (quiet kept : Req → Prop) : Prog Req Ans α → Prog Req Ans α → Prop
  | ret (a : α) : Erases quiet kept (ret a) (ret a)
  | skip {r : Req} {next : Ans r → Prog Req Ans α} {q : Prog Req Ans α} (hr : quiet r)
      (h : ∀ a, Erases quiet kept (next a) q) : Erases quiet kept (ask r next) q
  | keep {r : Req} {next next' : Ans r → Prog Req Ans α} (hr : kept r)
      (h : ∀ a, Erases quiet kept (next a) (next' a)) : Erases quiet kept (ask r next) (ask r next')

/-- States that look alike: quiet requests lead to such a state, and kept ones are answered alike in such states. -/
structure Unseen (S : Shared Req Ans σ) (quiet kept : Req → Prop) (Alike : σ → σ → Prop) : Prop where
  equiv : Equivalence Alike
  quiet : ∀ i r s, quiet r → Alike (S.handle i r s).2 s
  kept : ∀ i j r s t, kept r → Alike s t → (S.handle i r s).1 = (S.handle j r t).1 ∧ Alike (S.handle i r s).2 (S.handle j r t).2
  enabled : ∀ r s t, Alike s t → S.enabled r s = S.enabled r t

section Erases

variable {quiet kept : Req → Prop}

theorem Erases.bind {p q : Prog Req Ans α} {f g : α → Prog Req Ans β} (h : Erases quiet kept p q)
    (hf : ∀ a, Erases quiet kept (f a) (g a)) : Erases quiet kept (p >>= f) (q >>= g) := by
  induction h with
  | ret a => exact hf a
  | skip hr _ ih => exact .skip hr ih
  | keep hr _ ih => exact .keep hr ih

theorem Erases.ret_bind {p : Prog Req Ans α} {a : α} {f : α → Prog Req Ans β} {q : Prog Req Ans β}
    (h : Erases quiet kept p (.ret a)) (hf : Erases quiet kept (f a) q) : Erases quiet kept (p >>= f) q := by
  generalize hr : (Prog.ret a : Prog Req Ans α) = r at h
  induction h with
  | ret b => exact Prog.ret.inj hr ▸ hf
  | skip hquiet _ ih => exact .skip hquiet fun b => ih b hr
  | keep _ _ _ => exact absurd hr (by simp)

theorem Erases.of_only {p : Prog Req Ans α} (h : Only kept p) : Erases quiet kept p p := by
  induction p with
  | ret a => exact .ret a
  | ask r next ih => exact .keep h.1 fun a => ih a (h.2 a)

/-- Alone, a program and what is left of it return the same and lead to states that look alike. -/
theorem Erases.run {S : Shared Req Ans σ} {Alike : σ → σ → Prop} (hU : Unseen S quiet kept Alike) {p q : Prog Req Ans α}
    (h : Erases quiet kept p q) (i j : Nat) {s t : σ} (hst : Alike s t) :
    (p.run (S.handle i) s).1 = (q.run (S.handle j) t).1 ∧ Alike (p.run (S.handle i) s).2 (q.run (S.handle j) t).2 := by
  induction h generalizing s t with
  | ret a => exact ⟨rfl, hst⟩
  | skip hr _ ih => exact ih _ (hU.equiv.trans (hU.quiet i _ s hr) hst)
  | keep hr _ ih =>
      obtain ⟨hans, hnext⟩ := hU.kept i j _ s t hr hst
      rw [run_ask, run_ask, ← hans]
      exact ih _ hnext

end Erases

/-! ### Sections -/

/-- Where a thread is: before its section, in it, or after it. -/
inductive Phase where
  | before
  | inside
  | after
  deriving DecidableEq, Repr

/-- Nothing but one section: the lock, requests other than the lock, and the release, after which nothing is asked. -/
def critical (acquires releases : Req → Bool) : Contract Req Ans Phase where
  may m r := match m with
    | .before => acquires r = true
    | .inside => acquires r = false
    | .after => False
  rely _ _ _ := True
  next m r _ := match m with
    | .before => .inside
    | .inside => if releases r then .after else .inside
    | .after => .after

/-- The program is one section, or nothing. -/
def Critical (acquires releases : Req → Bool) (q : Prog Req Ans α) : Prop :=
  wp (critical acquires releases) q .before fun m _ => m ≠ .inside

/-- What is left of the program goes, from `phase`, through at most one section. -/
def Sectioned (quiet kept : Req → Prop) (acquires releases : Req → Bool) (phase : Phase) (p : Prog Req Ans α) : Prop :=
  ∃ q, Erases quiet kept p q ∧ wp (critical acquires releases) q phase fun m _ => m ≠ .inside

section Sectioned

variable {quiet kept : Req → Prop} {acquires releases : Req → Bool} {phase : Phase}

theorem Sectioned.of_erased {p : Prog Req Ans α} {a : α} (h : Erases quiet kept p (ret a)) (hphase : phase ≠ .inside) :
    Sectioned quiet kept acquires releases phase p :=
  ⟨ret a, h, hphase⟩

theorem Sectioned.erased_bind {p : Prog Req Ans α} {a : α} {f : α → Prog Req Ans β} (h : Erases quiet kept p (ret a))
    (hf : Sectioned quiet kept acquires releases phase (f a)) :
    Sectioned quiet kept acquires releases phase (p >>= f) := by
  obtain ⟨q, herases, hq⟩ := hf
  exact ⟨q, h.ret_bind herases, hq⟩

theorem Sectioned.acquire_bind {r : Req} {f : Ans r → Prog Req Ans β} (hr : kept r) (hacquires : acquires r = true)
    (hf : ∀ a, Sectioned quiet kept acquires releases .inside (f a)) :
    Sectioned quiet kept acquires releases .before (perform r >>= f) := by
  choose q herases hq using hf
  exact ⟨ask r q, .keep hr herases, hacquires, fun a _ => hq a⟩

theorem Sectioned.release_bind {r : Req} {f : Ans r → Prog Req Ans β} (hr : kept r) (hacquires : acquires r = false)
    (hreleases : releases r = true) (hf : ∀ a, Sectioned quiet kept acquires releases .after (f a)) :
    Sectioned quiet kept acquires releases .inside (perform r >>= f) := by
  choose q herases hq using hf
  refine ⟨ask r q, .keep hr herases, hacquires, fun a _ => ?_⟩
  show wp (critical acquires releases) (q a) (if releases r then Phase.after else .inside) _
  rw [if_pos hreleases]
  exact hq a

theorem Sectioned.only_bind {p : Prog Req Ans α} {f : α → Prog Req Ans β}
    (hp : Only (fun r => kept r ∧ acquires r = false ∧ releases r = false) p)
    (hf : ∀ a, Sectioned quiet kept acquires releases .inside (f a)) :
    Sectioned quiet kept acquires releases .inside (p >>= f) := by
  choose q herases hq using hf
  refine ⟨p >>= q, (Erases.of_only (hp.mono fun _ hr => hr.1)).bind herases, wp_bind_iff.mpr ?_⟩
  induction p with
  | ret a => exact hq a
  | ask r next ih =>
      refine ⟨hp.1.2.1, fun a _ => ?_⟩
      show wp (critical acquires releases) (next a) (if releases r then Phase.after else .inside) _
      rw [if_neg (by simp [hp.1.2.2])]
      exact ih a (hp.2 a)

end Sectioned

/-- A lock: what takes it waits until it is free, and nothing else waits or changes it. -/
structure Mutex (S : Shared Req Ans σ) (acquires releases : Req → Bool) (held : σ → Bool) : Prop where
  enabled : ∀ r s, S.enabled r s = true → acquires r = true → held s = false
  take : ∀ i r s, acquires r = true → held (S.handle i r s).2 = true
  give : ∀ i r s, acquires r = false → releases r = true → held (S.handle i r s).2 = false
  keep : ∀ i r s, acquires r = false → releases r = false → held (S.handle i r s).2 = held s

/-- Threads run one at a time: their results, in the order in which they run, and the state they lead to. -/
def Shared.serial (S : Shared Req Ans σ) (progs : List (Prog Req Ans α)) : List Nat → σ → List α × σ
  | [], s => ([], s)
  | i :: order, s =>
      match progs[i]? with
      | none => S.serial progs order s
      | some p =>
          let rest := S.serial progs order (p.run (S.handle i) s).2
          ((p.run (S.handle i) s).1 :: rest.1, rest.2)

section Serial

variable {S : Shared Req Ans σ} {acquires releases : Req → Bool} {held : σ → Bool} {qs : List (Prog Req Ans α)}
  {order : List Nat} {phase : Nat → Phase} {u : σ} {t : Threads Req Ans α σ}

theorem Shared.serial_append (S : Shared Req Ans σ) (progs : List (Prog Req Ans α)) (front back : List Nat) (s : σ) :
    S.serial progs (front ++ back) s =
      ((S.serial progs front s).1 ++ (S.serial progs back (S.serial progs front s).2).1,
        (S.serial progs back (S.serial progs front s).2).2) := by
  induction front generalizing s with
  | nil => rfl
  | cons i front ih =>
      rw [List.cons_append, Shared.serial, Shared.serial]
      cases progs[i]? with
      | none => exact ih s
      | some p =>
          dsimp only
          rw [ih]
          rfl

/-- The interleaving at a moment, against the threads in `order` run one at a time from `u`: all of them have finished, but that the last may still be in its section, and then it is in the middle of its own run. -/
structure Serialized (S : Shared Req Ans σ) (acquires releases : Req → Bool) (held : σ → Bool)
    (qs : List (Prog Req Ans α)) (u : σ) (order : List Nat) (phase : Nat → Phase) (t : Threads Req Ans α σ) : Prop where
  obeys : Obeys (critical acquires releases) (fun m _ => m ≠ .inside) phase t
  length : t.progs.length = qs.length
  fresh : ∀ i, phase i = .before → t.progs[i]? = qs[i]?
  entered : ∀ i, i ∈ order ↔ phase i ≠ .before
  nodup : order.Nodup
  bound : ∀ i ∈ order, i < qs.length
  owner : held t.shared = true ↔ ∃ i, phase i = .inside
  last : ∀ i, phase i = .inside → order.getLast? = some i
  state : ∀ (i : Nat) (q : Prog Req Ans α), order.getLast? = some i → t.progs[i]? = some q →
    (q.run (S.handle i) t.shared).2 = (S.serial qs order u).2
  start : order = [] → t.shared = u
  results : ∀ (k i : Nat) (q : Prog Req Ans α), order[k]? = some i → t.progs[i]? = some q →
    (S.serial qs order u).1[k]? = some (q.run (S.handle i) t.shared).1

theorem Serialized.returned (h : Serialized S acquires releases held qs u order phase t) {i : Nat}
    {q : Prog Req Ans α} (hi : t.progs[i]? = some q) (hphase : phase i = .after) : ∃ a, q = ret a := by
  have hq := h.obeys i q hi
  rw [hphase] at hq
  cases q with
  | ret a => exact ⟨a, rfl⟩
  | ask r next => exact hq.1.elim

/-- While nobody is inside, the shared state is the one the finished threads have led to. -/
theorem Serialized.shared_eq (h : Serialized S acquires releases held qs u order phase t)
    (hfree : held t.shared = false) : t.shared = (S.serial qs order u).2 := by
  cases hlast : order.getLast? with
  | none =>
      obtain rfl := List.getLast?_eq_none_iff.mp hlast
      exact h.start rfl
  | some i =>
      have hi : i ∈ order := List.mem_of_getLast? hlast
      have hlt : i < t.progs.length := h.length ▸ h.bound i hi
      have hget : t.progs[i]? = some t.progs[i] := List.getElem?_eq_getElem hlt
      have hphase : phase i = .after := by
        cases hp : phase i with
        | before => exact absurd hp ((h.entered i).mp hi)
        | inside => exact absurd (h.owner.mpr ⟨i, hp⟩) (by simp [hfree])
        | after => rfl
      obtain ⟨a, ha⟩ := h.returned hget hphase
      have hstate := h.state i _ hlast hget
      rw [ha] at hstate
      exact hstate

theorem Shared.serial_length (S : Shared Req Ans σ) {progs : List (Prog Req Ans α)} {order : List Nat}
    (h : ∀ i ∈ order, i < progs.length) (s : σ) : (S.serial progs order s).1.length = order.length := by
  induction order generalizing s with
  | nil => rfl
  | cons i order ih =>
      have hlt : i < progs.length := h i List.mem_cons_self
      have hi : progs[i]? = some progs[i] := List.getElem?_eq_getElem hlt
      rw [Shared.serial, hi]
      exact congrArg (· + 1) (ih (fun j hj => h j (List.mem_cons_of_mem i hj)) _)

theorem Serialized.finished (h : Serialized S acquires releases held qs u order phase t) {i : Nat} (hi : i ∈ order)
    (hinside : phase i ≠ .inside) {q : Prog Req Ans α} (hq : t.progs[i]? = some q) : ∃ a, q = ret a := by
  apply h.returned hq
  cases hp : phase i with
  | before => exact absurd hp ((h.entered i).mp hi)
  | inside => exact absurd hp hinside
  | after => rfl

theorem Serialized.enter (h : Serialized S acquires releases held qs u order phase t)
    (hS : Mutex S acquires releases held) {i : Nat} {r : Req} {next : Ans r → Prog Req Ans α}
    (hi : t.progs[i]? = some (ask r next)) (hready : S.enabled r t.shared = true) (hphase : phase i = .before) :
    Serialized S acquires releases held qs u (order ++ [i]) (Function.update phase i .inside) (S.reply i r next t) := by
  have hr : acquires r = true := by
    have hmay := h.obeys.may hi
    rw [hphase] at hmay
    exact hmay
  have hfree := hS.enabled r t.shared hready hr
  have hnone : ∀ j, phase j ≠ .inside := by
    intro j hj
    have hheld := h.owner.mpr ⟨j, hj⟩
    rw [hfree] at hheld
    exact Bool.false_ne_true hheld
  have hnew : i ∉ order := fun hmem => (h.entered i).mp hmem hphase
  have hqi : qs[i]? = some (ask r next) := by rw [← h.fresh i hphase, hi]
  obtain ⟨hlt, -⟩ := List.getElem?_eq_some_iff.mp hqi
  have hserial : S.serial qs (order ++ [i]) u =
      ((S.serial qs order u).1 ++ [((next (S.handle i r t.shared).1).run (S.handle i) (S.handle i r t.shared).2).1],
        ((next (S.handle i r t.shared).1).run (S.handle i) (S.handle i r t.shared).2).2) := by
    rw [Shared.serial_append, ← h.shared_eq hfree, Shared.serial, hqi]
    rfl
  constructor
  case obeys =>
    have hobeys := h.obeys.reply S hi trivial
    rw [hphase] at hobeys
    exact hobeys
  case length => exact List.length_set.trans h.length
  case fresh =>
    intro j hj
    have hij : j ≠ i := by
      rintro rfl
      rw [Function.update_self] at hj
      exact Phase.noConfusion hj
    rw [Function.update_of_ne hij] at hj
    rw [Shared.progs_reply_ne hij, h.fresh j hj]
  case entered =>
    intro j
    by_cases hij : j = i
    · subst hij
      simp
    · rw [Function.update_of_ne hij, List.mem_append, List.mem_singleton, h.entered j]
      simp [hij]
  case nodup => exact List.concat_eq_append ▸ h.nodup.concat hnew
  case bound =>
    intro j hj
    rcases List.mem_append.mp hj with hj | hj
    · exact h.bound j hj
    · exact List.mem_singleton.mp hj ▸ hlt
  case owner => exact iff_of_true (hS.take i r t.shared hr) ⟨i, Function.update_self ..⟩
  case last =>
    intro j hj
    by_cases hij : j = i
    · rw [hij, List.getLast?_concat]
    · rw [Function.update_of_ne hij] at hj
      exact absurd hj (hnone j)
  case state =>
    intro j q hj hq
    rw [List.getLast?_concat] at hj
    obtain rfl := Option.some.inj hj
    rw [Shared.progs_reply_self hi] at hq
    obtain rfl := Option.some.inj hq
    rw [hserial]
    rfl
  case start => exact fun hnil => absurd hnil (by simp)
  case results =>
    intro k j q hk hq
    rw [hserial]
    by_cases hlast : k < order.length
    · rw [List.getElem?_append_left hlast] at hk
      have hj : j ∈ order := List.mem_of_getElem? hk
      have hij : j ≠ i := fun hji => hnew (hji ▸ hj)
      rw [Shared.progs_reply_ne hij] at hq
      obtain ⟨a, rfl⟩ := h.finished hj (hnone j) hq
      rw [List.getElem?_append_left (by rw [S.serial_length h.bound]; exact hlast)]
      exact h.results k j _ hk hq
    · have hkk : k = order.length := by
        have := (List.getElem?_eq_some_iff.mp hk).1
        simp only [List.length_append, List.length_singleton] at this
        omega
      subst hkk
      rw [List.getElem?_concat_length] at hk
      obtain rfl := Option.some.inj hk
      rw [Shared.progs_reply_self hi] at hq
      obtain rfl := Option.some.inj hq
      rw [← S.serial_length h.bound u, List.getElem?_concat_length]
      rfl

theorem Serialized.proceed (h : Serialized S acquires releases held qs u order phase t)
    (hS : Mutex S acquires releases held) {i : Nat} {r : Req} {next : Ans r → Prog Req Ans α}
    (hi : t.progs[i]? = some (ask r next)) (hphase : phase i = .inside) :
    Serialized S acquires releases held qs u order
      (Function.update phase i (if releases r then .after else .inside)) (S.reply i r next t) := by
  have hr : acquires r = false := by
    have hmay := h.obeys.may hi
    rw [hphase] at hmay
    exact hmay
  have hlast := h.last i hphase
  have hmem : i ∈ order := List.mem_of_getLast? hlast
  have hothers : ∀ j, j ≠ i → phase j ≠ .inside := by
    intro j hij hj
    have := h.last j hj
    rw [hlast] at this
    exact hij (Option.some.inj this).symm
  have hentered : (if releases r then Phase.after else .inside) ≠ .before := by
    split <;> exact Phase.noConfusion
  constructor
  case obeys =>
    have hobeys := h.obeys.reply S hi trivial
    rw [hphase] at hobeys
    exact hobeys
  case length => exact List.length_set.trans h.length
  case fresh =>
    intro j hj
    have hij : j ≠ i := by
      rintro rfl
      rw [Function.update_self] at hj
      exact hentered hj
    rw [Function.update_of_ne hij] at hj
    rw [Shared.progs_reply_ne hij, h.fresh j hj]
  case entered =>
    intro j
    by_cases hij : j = i
    · subst hij
      rw [Function.update_self]
      exact iff_of_true hmem hentered
    · rw [Function.update_of_ne hij, h.entered j]
  case nodup => exact h.nodup
  case bound => exact h.bound
  case owner =>
    cases hrel : releases r with
    | true =>
        refine iff_of_false ?_ ?_
        · rw [Shared.reply, hS.give i r t.shared hr hrel]
          exact Bool.false_ne_true
        · rintro ⟨j, hj⟩
          by_cases hij : j = i
          · rw [hij, Function.update_self] at hj
            exact Phase.noConfusion hj
          · rw [Function.update_of_ne hij] at hj
            exact hothers j hij hj
    | false =>
        refine iff_of_true ?_ ⟨i, by rw [Function.update_self, if_neg Bool.false_ne_true]⟩
        rw [Shared.reply, hS.keep i r t.shared hr hrel]
        exact h.owner.mpr ⟨i, hphase⟩
  case last =>
    intro j hj
    by_cases hij : j = i
    · rw [hij, hlast]
    · rw [Function.update_of_ne hij] at hj
      exact absurd hj (hothers j hij)
  case state =>
    intro j q hj hq
    rw [hlast] at hj
    obtain rfl := Option.some.inj hj
    rw [Shared.progs_reply_self hi] at hq
    obtain rfl := Option.some.inj hq
    exact h.state i _ hlast hi
  case start =>
    rintro rfl
    exact absurd hmem List.not_mem_nil
  case results =>
    intro k j q hk hq
    by_cases hij : j = i
    · subst hij
      rw [Shared.progs_reply_self hi] at hq
      obtain rfl := Option.some.inj hq
      exact h.results k j _ hk hi
    · rw [Shared.progs_reply_ne hij] at hq
      obtain ⟨a, rfl⟩ := h.finished (List.mem_of_getElem? hk) (hothers j hij) hq
      exact h.results k j _ hk hq

/-- Every step of the interleaving keeps it in step with the threads run one at a time. -/
theorem Serialized.step (h : Serialized S acquires releases held qs u order phase t)
    (hS : Mutex S acquires releases held) (i : Nat) :
    ∃ order' phase', Serialized S acquires releases held qs u order' phase' (S.step i t) := by
  rcases S.step_cases i t with hskip | ⟨r, next, hi, hready, hstep⟩
  · rw [hskip]
    exact ⟨order, phase, h⟩
  · rw [hstep]
    cases hphase : phase i with
    | before => exact ⟨_, _, h.enter hS hi hready hphase⟩
    | inside => exact ⟨_, _, h.proceed hS hi hphase⟩
    | after =>
        have hmay := h.obeys.may hi
        rw [hphase] at hmay
        exact hmay.elim

theorem Serialized.init (hqs : ∀ q ∈ qs, Critical acquires releases q) (hfree : held u = false) :
    Serialized S acquires releases held qs u [] (fun _ => .before) ⟨u, qs⟩ where
  obeys i q hi := hqs q (List.mem_of_getElem? hi)
  length := rfl
  fresh _ _ := rfl
  entered i := by simp
  nodup := List.nodup_nil
  bound i hi := absurd hi List.not_mem_nil
  owner := iff_of_false (by simp [hfree]) fun ⟨_, hi⟩ => Phase.noConfusion hi
  last _ hi := Phase.noConfusion hi
  state i _ hi := by simp at hi
  start _ := rfl
  results k i _ hk := by simp at hk

/-- Threads that have returned without entering can be put anywhere in the order. -/
theorem Shared.serial_idle (S : Shared Req Ans σ) {progs : List (Prog Req Ans α)} {order : List Nat}
    (h : ∀ i ∈ order, ∃ a, progs[i]? = some (ret a)) (s : σ) :
    (S.serial progs order s).2 = s ∧ ∀ (k i : Nat) (a : α), order[k]? = some i → progs[i]? = some (ret a) →
      (S.serial progs order s).1[k]? = some a := by
  induction order with
  | nil => exact ⟨rfl, fun k i a hk => absurd hk (by simp)⟩
  | cons i order ih =>
      obtain ⟨a, ha⟩ := h i List.mem_cons_self
      obtain ⟨hstate, hresults⟩ := ih fun j hj => h j (List.mem_cons_of_mem i hj)
      rw [Shared.serial, ha]
      refine ⟨hstate, ?_⟩
      intro k j b hk hb
      cases k with
      | zero =>
          obtain rfl : i = j := Option.some.inj hk
          obtain rfl : a = b := Prog.ret.inj (Option.some.inj (ha.symm.trans hb))
          rfl
      | succ k => exact hresults k j b hk hb

/-- When every thread has returned, the interleaving has done what the threads do one at a time, in some order. -/
theorem Serialized.complete (h : Serialized S acquires releases held qs u order phase t)
    (hdone : ∀ (i : Nat) (q : Prog Req Ans α), t.progs[i]? = some q → ∃ a, q = ret a) :
    ∃ order : List Nat, order.Perm (List.range qs.length) ∧ t.shared = (S.serial qs order u).2 ∧
      ∀ (k i : Nat), order[k]? = some i → ∃ a, t.progs[i]? = some (ret a) ∧ (S.serial qs order u).1[k]? = some a := by
  have hget : ∀ i < qs.length, ∃ a, t.progs[i]? = some (ret a) := by
    intro i hi
    have hlt : i < t.progs.length := h.length ▸ hi
    obtain ⟨a, ha⟩ := hdone i _ (List.getElem?_eq_getElem hlt)
    exact ⟨a, by rw [List.getElem?_eq_getElem hlt, ha]⟩
  have hfree : held t.shared = false := by
    rw [Bool.eq_false_iff]
    intro hheld
    obtain ⟨i, hi⟩ := h.owner.mp hheld
    have hmem : i ∈ order := List.mem_of_getLast? (h.last i hi)
    obtain ⟨a, ha⟩ := hget i (h.bound i hmem)
    have hends := h.obeys i _ ha
    rw [hi] at hends
    exact hends rfl
  -- Threads that never entered had nothing to do, and come last.
  have hidle : ∀ i ∈ (List.range qs.length).filter (· ∉ order), ∃ a, qs[i]? = some (ret a) := by
    intro i hi
    obtain ⟨hrange, hnew⟩ := List.mem_filter.mp hi
    have hbefore : phase i = .before := not_not.mp (mt (h.entered i).mpr (by simpa using hnew))
    rw [← h.fresh i hbefore]
    exact hget i (List.mem_range.mp hrange)
  refine ⟨order ++ (List.range qs.length).filter (· ∉ order), ?_, ?_, ?_⟩
  · refine (List.perm_ext_iff_of_nodup ?_ List.nodup_range).mpr fun i => ?_
    · refine List.Nodup.append h.nodup (List.nodup_range.filter _) fun i hi hi' => ?_
      simp [hi] at hi'
    · have hbound := h.bound i
      simp only [List.mem_append, List.mem_filter, List.mem_range, decide_eq_true_eq]
      tauto
  · rw [Shared.serial_append, (S.serial_idle hidle _).1]
    exact h.shared_eq hfree
  · intro k i hk
    rw [Shared.serial_append]
    by_cases hlt : k < order.length
    · rw [List.getElem?_append_left hlt] at hk
      obtain ⟨a, ha⟩ := hget i (h.bound i (List.mem_of_getElem? hk))
      refine ⟨a, ha, ?_⟩
      rw [List.getElem?_append_left (by rw [S.serial_length h.bound]; exact hlt)]
      exact h.results k i _ hk ha
    · rw [List.getElem?_append_right (by omega)] at hk
      have hi := List.mem_of_getElem? hk
      obtain ⟨a, ha⟩ := hidle i hi
      have hbefore : phase i = .before :=
        not_not.mp (mt (h.entered i).mpr (by simpa using (List.mem_filter.mp hi).2))
      refine ⟨a, (h.fresh i hbefore).trans ha, ?_⟩
      rw [List.getElem?_append_right (by rw [S.serial_length h.bound]; omega), S.serial_length h.bound]
      exact (S.serial_idle hidle _).2 _ i a hk ha

end Serial

/-! ### Reduction -/

section Linear

variable {S : Shared Req Ans σ} {quiet kept : Req → Prop} {Alike : σ → σ → Prop} {acquires releases : Req → Bool}
  {held : σ → Bool} {qs : List (Prog Req Ans α)} {u : σ} {s s' : Threads Req Ans α σ}

/-- The second interleaving is the first with quiet requests removed. -/
structure Pruned (quiet kept : Req → Prop) (Alike : σ → σ → Prop) (s t : Threads Req Ans α σ) : Prop where
  shared : Alike s.shared t.shared
  progs : ∀ (i : Nat) (p : Prog Req Ans α), s.progs[i]? = some p → ∃ q, t.progs[i]? = some q ∧ Erases quiet kept p q

theorem Pruned.step {t : Threads Req Ans α σ} (h : Pruned quiet kept Alike s t) (hU : Unseen S quiet kept Alike)
    (i : Nat) : ∃ t', (t' = t ∨ t' = S.step i t) ∧ Pruned quiet kept Alike (S.step i s) t' := by
  rcases S.step_cases i s with hskip | ⟨r, next, hi, hready, hstep⟩
  · rw [hskip]
    exact ⟨t, Or.inl rfl, h⟩
  · rw [hstep]
    obtain ⟨q, hq, herases⟩ := h.progs i _ hi
    cases herases with
    | skip hr hnext =>
        refine ⟨t, Or.inl rfl, hU.equiv.trans (hU.quiet i r _ hr) h.shared, ?_⟩
        intro j p hj
        rcases Shared.progs_reply hj with ⟨rfl, rfl⟩ | ⟨-, hj⟩
        · exact ⟨q, hq, hnext _⟩
        · exact h.progs j p hj
    | @keep _ _ next' hr hnext =>
        obtain ⟨hans, halike⟩ := hU.kept i i r _ _ hr h.shared
        have hready' : S.enabled r t.shared = true := (hU.enabled r _ _ h.shared).symm.trans hready
        refine ⟨S.reply i r next' t, Or.inr (Shared.step_eq hq hready').symm, halike, ?_⟩
        intro j p hj
        rcases Shared.progs_reply hj with ⟨rfl, rfl⟩ | ⟨hij, hj⟩
        · refine ⟨_, Shared.progs_reply_self hq, ?_⟩
          rw [← hans]
          exact hnext _
        · obtain ⟨q', hq', hpq⟩ := h.progs j p hj
          exact ⟨q', (Shared.progs_reply_ne hij).trans hq', hpq⟩

/-- The state of an interleaving of threads of which `qs` is left, begun in `u`. -/
def Linear (S : Shared Req Ans σ) (quiet kept : Req → Prop) (Alike : σ → σ → Prop) (acquires releases : Req → Bool)
    (held : σ → Bool) (qs : List (Prog Req Ans α)) (u : σ) (s : Threads Req Ans α σ) : Prop :=
  ∃ t order phase, Pruned quiet kept Alike s t ∧ Serialized S acquires releases held qs u order phase t

theorem exists_erased {ps : List (Prog Req Ans α)} (hps : ∀ p ∈ ps, Sectioned quiet kept acquires releases .before p) :
    ∃ qs : List (Prog Req Ans α), qs.length = ps.length ∧ (∀ q ∈ qs, Critical acquires releases q) ∧
      ∀ (i : Nat) (p : Prog Req Ans α), ps[i]? = some p → ∃ q, qs[i]? = some q ∧ Erases quiet kept p q := by
  induction ps with
  | nil => exact ⟨[], rfl, by simp, by simp⟩
  | cons p ps ih =>
      obtain ⟨q, herases, hq⟩ := hps p List.mem_cons_self
      obtain ⟨qs, hlength, hqs, hget⟩ := ih fun p' hp' => hps p' (List.mem_cons_of_mem p hp')
      refine ⟨q :: qs, congrArg (· + 1) hlength, List.forall_mem_cons.mpr ⟨hq, hqs⟩, ?_⟩
      intro i p' hi
      cases i with
      | zero =>
          obtain rfl : p = p' := Option.some.inj hi
          exact ⟨q, rfl, herases⟩
      | succ i => exact hget i p' hi

theorem Linear.init (hU : Unseen S quiet kept Alike) {ps : List (Prog Req Ans α)}
    (hps : ∀ (i : Nat) (p : Prog Req Ans α), ps[i]? = some p → ∃ q, qs[i]? = some q ∧ Erases quiet kept p q)
    (hqs : ∀ q ∈ qs, Critical acquires releases q) (hfree : held u = false) :
    Linear S quiet kept Alike acquires releases held qs u ⟨u, ps⟩ :=
  ⟨⟨u, qs⟩, [], _, ⟨hU.equiv.refl u, hps⟩, Serialized.init hqs hfree⟩

theorem Linear.step (h : Linear S quiet kept Alike acquires releases held qs u s) (hU : Unseen S quiet kept Alike)
    (hS : Mutex S acquires releases held) (i : Nat) :
    Linear S quiet kept Alike acquires releases held qs u (S.step i s) := by
  obtain ⟨t, order, phase, hpruned, hserial⟩ := h
  obtain ⟨t', ht', hpruned'⟩ := hpruned.step hU i
  rcases ht' with rfl | rfl
  · exact ⟨_, order, phase, hpruned', hserial⟩
  · obtain ⟨order', phase', hserial'⟩ := hserial.step hS i
    exact ⟨_, order', phase', hpruned', hserial'⟩

theorem Linear.unseen (h : Linear S quiet kept Alike acquires releases held qs u s) (hU : Unseen S quiet kept Alike)
    (hprogs : s'.progs = s.progs) (hshared : Alike s'.shared s.shared) :
    Linear S quiet kept Alike acquires releases held qs u s' := by
  obtain ⟨t, order, phase, hpruned, hserial⟩ := h
  refine ⟨t, order, phase, ⟨hU.equiv.trans hshared hpruned.shared, ?_⟩, hserial⟩
  rw [hprogs]
  exact hpruned.progs

/-- **Reduction.** Once every thread has returned, there is an order of the threads in which, run one at a time, they return the same and lead to a state that looks alike. -/
theorem Linear.complete (h : Linear S quiet kept Alike acquires releases held qs u s)
    (hlength : s.progs.length = qs.length)
    (hdone : ∀ (i : Nat) (p : Prog Req Ans α), s.progs[i]? = some p → ∃ a, p = ret a) :
    ∃ order : List Nat, order.Perm (List.range qs.length) ∧ Alike s.shared (S.serial qs order u).2 ∧
      ∀ (k i : Nat), order[k]? = some i → ∃ a, s.progs[i]? = some (ret a) ∧ (S.serial qs order u).1[k]? = some a := by
  obtain ⟨t, order, phase, hpruned, hserial⟩ := h
  have hreturned : ∀ (i : Nat) (q : Prog Req Ans α), t.progs[i]? = some q → ∃ a, q = ret a ∧ s.progs[i]? = some (ret a) := by
    intro i q hq
    have hlt : i < s.progs.length := by
      rw [hlength, ← hserial.length]
      exact (List.getElem?_eq_some_iff.mp hq).1
    have hp := List.getElem?_eq_getElem hlt
    obtain ⟨q', hq', herases⟩ := hpruned.progs i _ hp
    obtain rfl : q = q' := Option.some.inj (hq.symm.trans hq')
    obtain ⟨a, ha⟩ := hdone i _ hp
    rw [ha] at hp herases
    cases herases
    exact ⟨a, rfl, hp⟩
  obtain ⟨order, hperm, hstate, hresults⟩ := hserial.complete fun i q hq => by
    obtain ⟨a, ha, -⟩ := hreturned i q hq
    exact ⟨a, ha⟩
  refine ⟨order, hperm, hstate ▸ hpruned.shared, ?_⟩
  intro k i hk
  obtain ⟨a, ha, hresult⟩ := hresults k i hk
  obtain ⟨b, hb, hs⟩ := hreturned i _ ha
  obtain rfl : a = b := Prog.ret.inj hb
  exact ⟨a, hs, hresult⟩

end Linear

end Interaction
