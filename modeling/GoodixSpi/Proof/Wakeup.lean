import GoodixSpi.Proof.Interrupts

/-!
# No lost wake-up

`gxfp_cmd_write` clears `data_ready` before it sends and tests it before it sleeps, both under `g->lock`; `gxfp_isr` sets it without the mutex. An interrupt between the two is not lost, because nobody else clears the flag while the mutex is held. The contract `awaiting` says where an operation stands in this; once an interrupt has come, the flag stays up for as long as the command holds the mutex.
-/

namespace GoodixSpi.Kernel

open Wire Interaction

variable {ε : Type}

/-- Where an operation stands: before it takes the mutex, with it, after it cleared the flag, after it tested it, or after it released the mutex. -/
inductive Await where
  | before
  | held
  | cleared
  | tested (ready : Bool)
  | released
  deriving DecidableEq, Repr

def Await.holds : Await → Prop
  | .before | .released => False
  | _ => True

/-- The flag was cleared, if it is cleared at all. -/
def Await.past : Await → Prop
  | .before | .held => False
  | _ => True

/-- The contract of the operations: the mutex is taken once, the flag is only ever cleared and tested by its holder, in this order and once, and an operation sleeps only after a test that failed. -/
def awaiting : Contract Req Ans Await where
  may m r := match r with
    | .lock => m = .before
    | .unlock => m.holds
    | .setDataReady v => m = .held ∧ v = false
    | .getDataReady => m = .cleared
    | .sleepOnWq _ => m = .tested false
    | _ => True
  rely _ _ _ := True
  next m r a := match r, a with
    | .lock, _ => .held
    | .unlock, _ => .released
    | .setDataReady _, _ => .cleared
    | .getDataReady, v => .tested v
    | _, _ => m

theorem awaiting_ignores (m : Await) (r : Req) (hr : OfPadprobe r) : IgnoredAt awaiting m r := by
  cases r with
  | lock | unlock | getDataReady | setDataReady v | sleepOnWq ms => exact absurd hr id
  | _ => exact ⟨trivial, fun _ => rfl⟩

theorem awaiting_quiet {α : Type} {p : DriverM α} (hp : Prog.Only Inner p) : Quiet awaiting p :=
  quiet_of_only awaiting_ignores (hp.mono fun _ => Inner.ofPadprobe)

theorem awaiting_working {α : Type} {p : DriverM α} (hp : Prog.Only Working p) : Quiet awaiting p :=
  awaiting_quiet (hp.mono fun _ => Working.inner)

theorem awaiting_locks : Locks awaiting Await.holds where
  unlock _ hmay := hmay
  released _ _ hnext := hnext
  kept m r a hmay hlock hunlock hnext := by
    cases r with
    | lock => exact absurd rfl hlock
    | unlock => exact absurd rfl hunlock
    | setDataReady v =>
        obtain ⟨rfl, -⟩ := hmay
        trivial
    | getDataReady =>
        obtain rfl : m = .cleared := hmay
        trivial
    | _ => exact hnext

/-! ### Each operation keeps to it -/

theorem awaiting_cmdExchange (cmd0 cmd1 : Nat) (payload : Buffer 256) (n : Nat) :
    wp awaiting (cmdExchange cmd0 cmd1 payload n) .before fun _ _ => True := by
  apply wp_perform_bind rfl
  intro _ _
  refine ⟨⟨rfl, rfl⟩, ?_⟩
  intro _ _
  apply wp_quiet_bind (awaiting_working (working_gxfpSend _ _ _ _ _))
  intro ret
  by_cases hret : ret = 0
  · rw [if_pos hret]
    have hrest (m : Await) (hm : m.holds) :
        wp awaiting (gxfpRecv >>= fun _ => mutexUnlock >>= fun _ => pure ret) m fun _ _ => True := by
      apply wp_quiet_bind (awaiting_working working_gxfpRecv)
      intro _
      exact wp_perform_bind hm fun _ _ => trivial
    apply wp_bind (Q := fun m _ => m.holds)
    · apply wp_perform_bind rfl
      intro ready _
      cases ready with
      | true => trivial
      | false => exact ⟨rfl, fun _ _ => trivial⟩
    · intro m _ hm
      exact hrest m hm
  · rw [if_neg hret]
    exact wp_perform_bind trivial fun _ _ => trivial

theorem awaiting_gxfpCmdWrite (u : UserBuf) : wp awaiting (gxfpCmdWrite u) .before fun _ _ => True := by
  rw [gxfpCmdWrite]
  split
  · trivial
  · split
    · trivial
    · split
      · trivial
      · apply wp_quiet_bind (awaiting_working (working_cmdPayload _ _ _))
        intro parsed
        split
        · trivial
        · exact wp_bind (awaiting_cmdExchange _ _ _ _) fun _ _ _ => trivial

theorem awaiting_rawTransfer (n : Nat) : wp awaiting (rawTransfer n) .before fun _ _ => True :=
  ⟨rfl, fun _ _ => ⟨trivial, fun _ _ => ⟨trivial, fun _ _ => ⟨trivial, fun _ _ =>
    ⟨trivial, fun _ _ => ⟨trivial, fun _ _ => trivial⟩⟩⟩⟩⟩⟩

theorem awaiting_gxfpRawWrite (u : UserBuf) : wp awaiting (gxfpRawWrite u) .before fun _ _ => True := by
  rw [gxfpRawWrite]
  split
  · trivial
  · split
    · trivial
    · apply wp_quiet_bind (awaiting_quiet (inner_rawTokens _ _))
      intro parsed
      split
      · trivial
      · trivial
      · exact wp_bind (awaiting_rawTransfer _) fun _ _ _ => trivial

theorem awaiting_gxfpRawRead (len off : Nat) : wp awaiting (gxfpRawRead len off) .before fun _ _ => True := by
  apply wp_perform_bind rfl
  intro _ _
  apply wp_perform_bind trivial
  intro n _
  apply wp_perform_bind trivial
  intro ok _
  split
  · exact ⟨trivial, fun _ _ => trivial⟩
  · apply wp_quiet_bind (awaiting_working (Prog.Only.fold working_printByte _ _))
    intro _
    apply wp_quiet_bind (awaiting_working (working_store _ _ _ _))
    intro _
    apply wp_perform_bind trivial
    intro _ _
    exact wp_quiet_bind (awaiting_working (working_load _ _ _ _)) fun _ => trivial

theorem awaiting_gxfpReplayShow (P : Setup) : wp awaiting (gxfpReplayShow P) .before fun _ _ => True := by
  apply wp_perform_bind trivial
  intro _ _
  apply wp_perform_bind rfl
  intro _ _
  apply wp_quiet_bind (awaiting_working (Prog.Only.fold (fun _ c => working_replayStep c) replaySeq ()))
  intro _
  exact ⟨trivial, fun _ _ => trivial⟩

theorem awaiting_prog (P : Setup) (op : DebugOp) : wp awaiting (op.prog P) .before fun _ _ => True := by
  cases op with
  | cmdWrite u => exact awaiting_gxfpCmdWrite u
  | rawWrite u => exact awaiting_gxfpRawWrite u
  | rawRead len off => exact awaiting_gxfpRawRead len off
  | replay => exact awaiting_gxfpReplayShow P
  | dsm h => exact wp_of_quiet (awaiting_quiet ((peeks_gxfpDsmShow h).mono fun _ => Peeks.inner)) fun _ => trivial
  | ctlregs => exact wp_of_quiet (awaiting_quiet ((peeks_gxfpCtlregsShow P).mono fun _ => Peeks.inner)) fun _ => trivial
  | cstest => exact wp_of_quiet (awaiting_quiet (inner_gxfpCstestShow P)) fun _ => trivial
  | padprobe => exact wp_of_quiet (quiet_of_only awaiting_ignores (ofPadprobe_gxfpPadprobeShow P)) fun _ => trivial
  | irqlevelGet => exact wp_of_quiet (awaiting_quiet (inner_gxfpIrqlevelGet P)) fun _ => trivial
  | enableGet | irqcountGet => exact ⟨trivial, fun _ _ => trivial⟩
  | enableSet val => exact ⟨trivial, fun _ _ => trivial⟩
  | resetSet val =>
      refine ⟨trivial, fun _ _ => ⟨trivial, fun _ _ => ⟨trivial, fun _ _ => ⟨trivial, fun _ _ => ?_⟩⟩⟩⟩
      exact wp_quiet_bind (awaiting_quiet (inner_of_external (external_printReset P _))) fun _ => trivial

/-- A request that does not put the caller to sleep until an interrupt. -/
def Awake : Req → Prop
  | .sleepOnWq _ => False
  | _ => True

theorem only_awake {α : Type} {p : DriverM α} {m : Await} (hm : m = .tested true ∨ m = .released) {Q : Await → α → Prop}
    (hp : wp awaiting p m Q) : Prog.Only Awake p := by
  induction p generalizing m with
  | ret a => trivial
  | ask r next ih =>
      obtain ⟨hmay, hnext⟩ := hp
      have hrest : Awake r ∧ ∀ a, awaiting.next m r a = .tested true ∨ awaiting.next m r a = .released := by
        cases r with
        | lock => rcases hm with rfl | rfl <;> exact absurd hmay (by simp [awaiting])
        | setDataReady v => rcases hm with rfl | rfl <;> exact absurd hmay (by simp [awaiting])
        | getDataReady => rcases hm with rfl | rfl <;> exact absurd hmay (by simp [awaiting])
        | sleepOnWq ms => rcases hm with rfl | rfl <;> exact absurd hmay (by simp [awaiting])
        | unlock => exact ⟨trivial, fun _ => Or.inr rfl⟩
        | _ => exact ⟨trivial, fun _ => hm⟩
      exact ⟨hrest.1, fun a => ih a (hrest.2 a) (hnext a trivial)⟩

/-! ### Operations running at once, and interrupts -/

/-- Every operation keeps to the contract, and only the holder of the mutex is past taking it. -/
structure Awaiting (mode : Nat → Await) (s : Threads Req Ans OpResult (World ε)) : Prop where
  obeys : Obeys awaiting (fun _ _ => True) mode s
  lock : ∀ i, (mode i).holds → s.shared.g.lock = some i

/-- Moreover operation `i` has cleared the flag. -/
structure Cleared (i : Nat) (mode : Nat → Await) (s : Threads Req Ans OpResult (World ε)) : Prop
    extends Awaiting mode s where
  past : (mode i).past

/-- And the flag is up again for as long as operation `i` holds the mutex. -/
structure Woken (i : Nat) (mode : Nat → Await) (s : Threads Req Ans OpResult (World ε)) : Prop
    extends Cleared i mode s where
  ready : (mode i).holds → s.shared.g.dataReady = true

section Step

variable {E : Env ε} {s : Threads Req Ans OpResult (World ε)} {mode : Nat → Await} {i j : Nat} {r : Req}
  {next : Ans r → DriverM OpResult}

theorem Awaiting.reply (h : Awaiting mode s) (hj : s.progs[j]? = some (.ask r next)) (hready : enabled r s.shared = true) :
    Awaiting (Function.update mode j (awaiting.next (mode j) r (handle E j r s.shared).1))
      ((kernel E).reply j r next s) :=
  ⟨h.obeys.reply (kernel E) hj trivial, awaiting_locks.reply h.lock (h.obeys.may hj) hready _⟩

theorem Awaiting.interrupt (h : Awaiting mode s) : Awaiting mode (interrupt E s) := by
  refine ⟨?_, ?_⟩
  · intro i p hi
    rw [interrupt_progs] at hi
    exact h.obeys i p hi
  · intro i hi
    rw [interrupt_lock]
    exact h.lock i hi

theorem past_next {m : Await} {a : Ans r} (hm : m.past) (hmay : awaiting.may m r) : (awaiting.next m r a).past := by
  cases r with
  | lock =>
      obtain rfl : m = .before := hmay
      exact absurd hm id
  | unlock | setDataReady v | getDataReady => trivial
  | _ => exact hm

theorem update_dataReady (tid : Nat) (a : Ans r) (g : Gxfp) (hr : ∀ v, r ≠ .setDataReady v) :
    (update tid r a g).dataReady = g.dataReady := by
  cases r with
  | setDataReady v => exact absurd rfl (hr v)
  | spi x =>
      rw [update]
      split <;> rfl
  | _ => rfl

theorem Cleared.reply (h : Cleared i mode s) (hj : s.progs[j]? = some (.ask r next)) (hready : enabled r s.shared = true) :
    Cleared i (Function.update mode j (awaiting.next (mode j) r (handle E j r s.shared).1))
      ((kernel E).reply j r next s) := by
  refine ⟨h.toAwaiting.reply hj hready, ?_⟩
  by_cases hij : i = j
  · subst hij
    rw [Function.update_self]
    exact past_next h.past (h.obeys.may hj)
  · rw [Function.update_of_ne hij]
    exact h.past

theorem Cleared.interrupt (h : Cleared i mode s) : Cleared i mode (interrupt E s) :=
  ⟨h.toAwaiting.interrupt, h.past⟩

/-- **One request.** Operation `i` does not clear the flag again, and another one would have to hold the mutex to. -/
theorem Woken.reply (h : Woken i mode s) (hj : s.progs[j]? = some (.ask r next)) (hready : enabled r s.shared = true) :
    Woken i (Function.update mode j (awaiting.next (mode j) r (handle E j r s.shared).1))
      ((kernel E).reply j r next s) := by
  have hmay : awaiting.may (mode j) r := h.obeys.may hj
  refine ⟨h.toCleared.reply hj hready, ?_⟩
  intro hholds
  have hbefore : (mode i).holds := by
    by_cases hij : i = j
    · subst hij
      rw [Function.update_self] at hholds
      by_cases hlock : r = .lock
      · subst hlock
        have hmode : mode i = .before := hmay
        exact absurd h.past (by rw [hmode]; exact id)
      · by_cases hunlock : r = .unlock
        · subst hunlock
          exact absurd hholds id
        · exact awaiting_locks.kept _ r _ hmay hlock hunlock hholds
    · rwa [Function.update_of_ne hij] at hholds
  have hkept : ∀ v, r ≠ .setDataReady v := by
    rintro v rfl
    obtain ⟨hmode, -⟩ : mode j = .held ∧ v = false := hmay
    have hlock : s.shared.g.lock = some j := h.lock j (by rw [hmode]; trivial)
    obtain rfl : i = j := Option.some.inj ((h.lock i hbefore).symm.trans hlock)
    exact absurd h.past (by rw [hmode]; exact id)
  change (update j r (handle E j r s.shared).1 s.shared.g).dataReady = true
  rw [update_dataReady j _ _ hkept]
  exact h.ready hbefore

theorem Woken.interrupt (h : Woken i mode s) : Woken i mode (interrupt E s) := by
  refine ⟨h.toCleared.interrupt, ?_⟩
  intro hholds
  rw [interrupt_dataReady, h.ready hholds, Bool.or_true]

/-- An interrupt that is delivered after the flag was cleared raises it. -/
theorem Cleared.woken (h : Cleared i mode s) (henabled : s.shared.g.irqEnabled = true) :
    Woken i mode (Kernel.interrupt E s) := by
  refine ⟨h.interrupt, ?_⟩
  intro _
  rw [interrupt_dataReady, henabled, Bool.true_or]

end Step

theorem awaiting_start (P : Setup) (ops : List DebugOp) (e : ε) : Awaiting (fun _ => .before) (start P ops e) := by
  refine ⟨?_, fun _ hholds => absurd hholds id⟩
  intro i p hi
  rw [start, List.getElem?_map] at hi
  obtain ⟨op, -, rfl⟩ := Option.map_eq_some_iff.mp hi
  exact awaiting_prog P op

/-! ### The theorem -/

def Clears (i : Nat) (s : Threads Req Ans OpResult (World ε)) : Prop :=
  ∃ next, s.progs[i]? = some (.ask (.setDataReady false) next)

/-- Operation `i` sleeps on the queue, and tests the flag when it wakes up. -/
def Asleep (i : Nat) (s : Threads Req Ans OpResult (World ε)) : Prop :=
  ∃ ms next, s.progs[i]? = some (.ask (.sleepOnWq ms) next)

/-- **No wake-up is lost.** In every run, if the handler runs after operation `i` cleared the flag, then the flag is up when the operation comes to test it, and it goes on without sleeping; and if it sleeps by then, the flag is up for the test that follows. -/
theorem no_lost_wakeup (E : Env ε) (P : Setup) (ops : List DebugOp) (e : ε) (i : Nat) (before between after : List Act)
    (hclear : Clears i (drive E before (start P ops e)))
    (hruns : (drive E (before ++ .turn i :: between) (start P ops e)).shared.g.irqEnabled = true) :
    let s := drive E (before ++ .turn i :: (between ++ .isr :: after)) (start P ops e)
    (∀ next, s.progs[i]? = some (.ask .getDataReady next) →
      s.shared.g.dataReady = true ∧ Prog.Only Awake (next true)) ∧
    (Asleep i s → s.shared.g.dataReady = true) := by
  intro s
  obtain ⟨mode₀, h₀⟩ := drive_keeps (E := E) (C := awaiting) (J := Awaiting)
    (fun _ _ _ _ _ h hj hready => h.reply hj hready) (fun _ _ h => h.interrupt) before (awaiting_start P ops e)
  obtain ⟨next₀, hi⟩ := hclear
  -- The clearing itself, after which the mode of the operation never goes back.
  have hturn : (kernel E).step i (drive E before (start P ops e)) = _ := Shared.step_eq hi rfl
  have hcleared : ∃ mode, Cleared i mode ((kernel E).step i (drive E before (start P ops e))) := by
    rw [hturn]
    refine ⟨_, h₀.reply hi rfl, ?_⟩
    rw [Function.update_self]
    trivial
  obtain ⟨mode₁, h₁⟩ := hcleared
  obtain ⟨mode₂, h₂⟩ := drive_keeps (E := E) (C := awaiting) (J := Cleared i)
    (fun _ _ _ _ _ h hj hready => h.reply hj hready) (fun _ _ h => h.interrupt) between h₁
  rw [drive_append] at hruns
  obtain ⟨mode₃, h₃⟩ := drive_keeps (E := E) (C := awaiting) (J := Woken i)
    (fun _ _ _ _ _ h hj hready => h.reply hj hready) (fun _ _ h => h.interrupt) after (h₂.woken hruns)
  have hs : s = drive E after (interrupt E (drive E between ((kernel E).step i (drive E before (start P ops e))))) := by
    change drive E (before ++ .turn i :: (between ++ .isr :: after)) (start P ops e) = _
    rw [drive_append, drive, drive_append]
    rfl
  rw [← hs] at h₃
  refine ⟨?_, ?_⟩
  · intro next htest
    have hmode : mode₃ i = .cleared := h₃.obeys.may htest
    have hrest : wp awaiting (next true) (.tested true) fun _ _ => True := (h₃.obeys i _ htest).2 true trivial
    exact ⟨h₃.ready (by rw [hmode]; trivial), only_awake (Or.inl rfl) hrest⟩
  · rintro ⟨ms, next, hsleep⟩
    have hmode : mode₃ i = .tested false := h₃.obeys.may hsleep
    exact h₃.ready (by rw [hmode]; trivial)

/-- Two commands at once: the first clears the flag, the second has to wait for the mutex, and the interrupt comes before the first has sent its frame. -/
theorem no_lost_wakeup_liveness :
    let s := drive Env.idle ([.turn 0] ++ .turn 0 :: ([.turn 1] ++ .isr :: List.replicate 12 (.turn 0)))
      (start {} [.cmdWrite liveness, .cmdWrite liveness] ())
    (∃ next, s.progs[0]? = some (.ask .getDataReady next)) ∧ s.shared.g.dataReady = true := by
  intro s
  obtain ⟨next, htest⟩ : ∃ next, s.progs[0]? = some (.ask .getDataReady next) := ⟨_, rfl⟩
  have hwoken := no_lost_wakeup Env.idle {} [.cmdWrite liveness, .cmdWrite liveness] () 0 [.turn 0] [.turn 1]
    (List.replicate 12 (.turn 0)) ⟨_, rfl⟩ rfl
  exact ⟨⟨next, htest⟩, (hwoken.1 next htest).1⟩

end GoodixSpi.Kernel
