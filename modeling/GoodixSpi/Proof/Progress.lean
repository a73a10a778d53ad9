import GoodixSpi.Lib.Fairness
import GoodixSpi.Proof.Interrupts

/-!
# The driver does not get stuck

The mutex is the only thing an operation waits for, and its holder never does: it takes no second lock and gives the first one back on every path. So whatever the operations and however many interrupts come in between, a schedule in which each operation's turn comes again and again finishes them all.
-/

namespace GoodixSpi.Kernel

open Wire Interaction

variable {ε : Type}

/-- The operations keep the discipline of the mutex, and the turns tell exactly who holds it. -/
structure Guarded (n : Nat) (turn : Nat → Turn) (s : Threads Req Ans OpResult (World ε)) : Prop where
  obeys : Obeys serial (fun m _ => m = .free) turn s
  running : ∀ i, turn i ≠ .free → ∃ p, s.progs[i]? = some p
  owner : ∀ i, turn i ≠ .free ↔ s.shared.g.lock = some i
  length : s.progs.length = n

variable {n : Nat} {turn : Nat → Turn} {s : Threads Req Ans OpResult (World ε)} {E : Env ε} {i : Nat}

theorem Guarded.owner_reply (h : Guarded n turn s) {r : Req} {next : Ans r → DriverM OpResult}
    (hi : s.progs[i]? = some (.ask r next)) (a : Ans r) (j : Nat)
    (hj : (update i r a s.shared.g).lock = some j) : Function.update turn i (serial.next (turn i) r a) j ≠ .free := by
  by_cases hlock : r = .lock
  · subst hlock
    obtain rfl : i = j := Option.some.inj hj
    rw [Function.update_self]
    simp [serial]
  · by_cases hunlock : r = .unlock
    · subst hunlock
      exact absurd hj (by simp [update])
    · rw [update_lock i a _ hlock hunlock] at hj
      have hheld := (h.owner j).mpr hj
      by_cases hij : j = i
      · subst hij
        rw [Function.update_self]
        exact mt (serial_free_iff (h.obeys.may hi) hlock hunlock).mp hheld
      · rw [Function.update_of_ne hij]
        exact hheld

theorem Guarded.reply (h : Guarded n turn s) {r : Req} {next : Ans r → DriverM OpResult}
    (hi : s.progs[i]? = some (.ask r next)) (hready : enabled r s.shared = true) :
    Guarded n (Function.update turn i (serial.next (turn i) r (handle E i r s.shared).1))
      ((kernel E).reply i r next s) where
  obeys := h.obeys.reply (kernel E) hi trivial
  running := by
    intro j hj
    by_cases hij : j = i
    · subst hij
      exact ⟨_, Shared.progs_reply_self hi⟩
    · rw [Function.update_of_ne hij] at hj
      rw [Shared.progs_reply_ne hij]
      exact h.running j hj
  owner j := ⟨serial_locks.reply (fun j => (h.owner j).mp) (h.obeys.may hi) hready _ j, h.owner_reply hi _ j⟩
  length := List.length_set.trans h.length

theorem Guarded.interrupt (h : Guarded n turn s) : Guarded n turn (interrupt E s) where
  obeys := by
    intro j p hj
    rw [interrupt_progs] at hj
    exact h.obeys j p hj
  running := by
    intro j hj
    rw [interrupt_progs]
    exact h.running j hj
  owner := by
    intro j
    rw [interrupt_lock]
    exact h.owner j
  length := by rw [interrupt_progs, h.length]

theorem Guarded.perform (h : Guarded n turn s) (act : Act) : ∃ turn', Guarded n turn' (act.perform E s) := by
  cases act with
  | isr => exact ⟨turn, h.interrupt⟩
  | turn i =>
      rcases (kernel E).step_cases i s with hskip | ⟨r, next, hi, hready, hreply⟩
      · rw [Act.perform, hskip]
        exact ⟨turn, h⟩
      · rw [Act.perform, hreply]
        exact ⟨_, h.reply hi hready⟩

theorem guarded_start (P : Setup) (ops : List DebugOp) (e : ε) :
    Guarded ops.length (fun _ => .free) (start P ops e) where
  obeys := by
    intro i p hi
    rw [start, List.getElem?_map] at hi
    obtain ⟨op, -, rfl⟩ := Option.map_eq_some_iff.mp hi
    exact serial_prog P op
  running _ h := absurd rfl h
  owner _ := iff_of_false (fun h => h rfl) (by simp [start, probed])
  length := List.length_map _

/-- The holder of the mutex is not at its end, and does not ask for the mutex. -/
theorem Guarded.holder_ready (h : Guarded n turn s) (hi : s.shared.g.lock = some i) :
    ∃ r next, s.progs[i]? = some (.ask r next) ∧ enabled r s.shared = true := by
  have hheld := (h.owner i).mpr hi
  obtain ⟨p, hp⟩ := h.running i hheld
  have hobeys := h.obeys i p hp
  cases p with
  | ret a => exact absurd hobeys hheld
  | ask r next =>
      refine ⟨r, next, hp, ?_⟩
      cases r with
      | lock => exact absurd hobeys.1 hheld
      | _ => rfl

theorem enabled_of_unlocked {w : World ε} (hlock : w.g.lock = none) (r : Req) : enabled r w = true := by
  cases r with
  | lock => rw [enabled, hlock]; rfl
  | _ => rfl

/-- **No deadlock.** If an operation is not at its end, some operation can go on. -/
theorem Guarded.progress (h : Guarded n turn s) (hend : ¬ s.Finished) : ∃ i < n, (kernel E).Ready i s := by
  have hready : ∃ i, (kernel E).Ready i s := by
    cases hlock : s.shared.g.lock with
    | some j => exact ⟨j, h.holder_ready hlock⟩
    | none =>
        by_contra hnone
        apply hend
        intro i p hp
        cases p with
        | ret a => exact ⟨a, rfl⟩
        | ask r next => exact absurd ⟨i, r, next, hp, enabled_of_unlocked hlock r⟩ hnone
  obtain ⟨i, r, next, hi, henabled⟩ := hready
  obtain ⟨hlt, -⟩ := List.getElem?_eq_some_iff.mp hi
  exact ⟨i, h.length ▸ hlt, r, next, hi, henabled⟩

theorem Guarded.unlocked (h : Guarded n turn s) (hend : s.Finished) : s.shared.g.lock = none := by
  by_contra hlock
  obtain ⟨j, hj⟩ := Option.ne_none_iff_exists'.mp hlock
  obtain ⟨r, next, hi, -⟩ := h.holder_ready hj
  obtain ⟨a, ha⟩ := hend j _ hi
  exact absurd ha (by simp)

/-- A turn that can be taken. -/
def Helps (E : Env ε) : Act → Threads Req Ans OpResult (World ε) → Prop
  | .turn i, s => (kernel E).Ready i s
  | .isr, _ => False

theorem Helps.waits {act other : Act} (h : Helps E act s) :
    Relation.CutExpand Prog.Below (other.perform E s).rest s.rest ∨
      (other.perform E s).rest = s.rest ∧ Helps E act (other.perform E s) := by
  cases other with
  | turn j =>
      rcases (kernel E).step_falls_or_skips j s with hfall | hskip
      · exact Or.inl hfall
      · rw [Act.perform, hskip]
        exact Or.inr ⟨rfl, h⟩
  | isr =>
      refine Or.inr ⟨congrArg Multiset.ofList (interrupt_progs E s), ?_⟩
      cases act with
      | isr => exact h
      | turn i =>
          obtain ⟨r, next, hi, hready⟩ := h
          refine ⟨r, next, by rw [Act.perform, interrupt_progs]; exact hi, ?_⟩
          cases r with
          | lock =>
              show (Kernel.interrupt E s).shared.g.lock.isNone = true
              rw [interrupt_lock]
              exact hready
          | _ => rfl

theorem live (E : Env ε) (n : Nat) :
    Live (Act.perform E) Threads.rest (Relation.CutExpand Prog.Below) (fun s => ∃ turn, Guarded n turn s)
      Threads.Finished (fun act => ∃ i < n, act = .turn i) (Helps E) where
  keeps act _ h := h.elim fun _ h => h.perform act
  progress := by
    intro s h hend
    obtain ⟨turn, h⟩ := h
    obtain ⟨i, hi, hready⟩ := h.progress (E := E) hend
    exact ⟨.turn i, ⟨i, hi, rfl⟩, hready⟩
  lowers := by
    intro act s _ hhelps
    cases act with
    | turn i => exact hhelps.step_falls
    | isr => exact absurd hhelps id
  waits _ _ _ _ := Helps.waits

/-- **Every operation completes.** Any number of operations on a probed device, in any interleaving with any number of interrupts: if the turn of each operation comes again and again, then at some point all have returned and the mutex is free. -/
theorem operations_complete (E : Env ε) (P : Setup) (ops : List DebugOp) (e : ε) (schedule : Nat → Act)
    (hfair : ∀ i < ops.length, Recurs schedule (.turn i)) :
    ∃ k, (after (Act.perform E) k schedule (start P ops e)).Finished ∧
      (after (Act.perform E) k schedule (start P ops e)).shared.g.lock = none := by
  have hstart : ∃ turn, Guarded ops.length turn (start P ops e) := ⟨_, guarded_start P ops e⟩
  obtain ⟨k, hend⟩ := (live E ops.length).ends rest_wf
    (fun act hact => hact.elim fun i hi => hi.2 ▸ hfair i hi.1) hstart
  obtain ⟨turn, h⟩ := after_keeps (live E ops.length).keeps k schedule hstart
  exact ⟨k, hend, h.unlocked hend⟩

theorem operations_complete_alternating :
    ∃ k, (after (Act.perform Env.idle) k (fun n => if n % 3 = 2 then .isr else .turn (n % 3))
        (start {} [.cmdWrite liveness, .rawWrite rawZero] ())).Finished ∧
      (after (Act.perform Env.idle) k (fun n => if n % 3 = 2 then .isr else .turn (n % 3))
        (start {} [.cmdWrite liveness, .rawWrite rawZero] ())).shared.g.lock = none := by
  apply operations_complete
  intro i hi n
  have hlt : i < 2 := hi
  refine ⟨3 * n + i, by omega, ?_⟩
  have hmod : (3 * n + i) % 3 = i := by omega
  show (if (3 * n + i) % 3 = 2 then Act.isr else .turn ((3 * n + i) % 3)) = .turn i
  rw [hmod, if_neg (by omega)]

end GoodixSpi.Kernel
