import GoodixSpi.Proof.Exchange
import GoodixSpi.Proof.Footprint

/-!
# When the interrupt is masked

`gxfp_isr` counts every interrupt since probe and masks the line at the 200th, to stop an unserviced level interrupt from running free. Nothing resets the counter, so a sensor whose every interrupt was serviced is masked at the 200th as well. A run here is any interleaving of operations, request by request, with interrupts in between.
-/

namespace GoodixSpi.Kernel

open Wire Interaction

/-- What happens next: a turn of an operation, or an interrupt. -/
inductive Act where
  | turn (i : Nat)
  | isr
  deriving DecidableEq, Repr

variable {ε α : Type}

/-- An interrupt runs the handler while the line is enabled. The handler is threaded and one-shot, so it does not overlap itself. -/
def interrupt (E : Env ε) (s : Threads Req Ans α (World ε)) : Threads Req Ans α (World ε) :=
  if s.shared.g.irqEnabled then { s with shared := (gxfpIsr.run (handle E s.progs.length) s.shared).2 } else s

def Act.perform (E : Env ε) : Act → Threads Req Ans α (World ε) → Threads Req Ans α (World ε)
  | .turn i, s => (kernel E).step i s
  | .isr, s => interrupt E s

def drive (E : Env ε) : List Act → Threads Req Ans α (World ε) → Threads Req Ans α (World ε)
  | [], s => s
  | act :: acts, s => drive E acts (act.perform E s)

theorem drive_append (E : Env ε) (pre post : List Act) (s : Threads Req Ans α (World ε)) :
    drive E (pre ++ post) s = drive E post (drive E pre s) := by
  induction pre generalizing s with
  | nil => rfl
  | cons act pre ih => exact ih _

/-- What every reply and every interrupt keep, with the modes of a contract moving along, holds at the end of a run. -/
theorem drive_keeps {M : Type} {E : Env ε} {C : Contract Req Ans M}
    {J : (Nat → M) → Threads Req Ans α (World ε) → Prop}
    (hreply : ∀ mode s j r next, J mode s → s.progs[j]? = some (.ask r next) → enabled r s.shared = true →
      J (Function.update mode j (C.next (mode j) r (handle E j r s.shared).1)) ((kernel E).reply j r next s))
    (hisr : ∀ mode s, J mode s → J mode (interrupt E s)) (acts : List Act) {mode : Nat → M}
    {s : Threads Req Ans α (World ε)} (h : J mode s) : ∃ mode', J mode' (drive E acts s) := by
  induction acts generalizing mode s with
  | nil => exact ⟨mode, h⟩
  | cons act acts ih =>
      cases act with
      | isr => exact ih (hisr mode s h)
      | turn j =>
          rcases (kernel E).step_cases j s with hskip | ⟨r, next, hj, hready, hstep⟩
          · rw [drive, Act.perform, hskip]
            exact ih h
          · rw [drive, Act.perform, hstep]
            exact ih (hreply mode s j r next h hj hready)

def start (P : Setup) (ops : List DebugOp) (e : ε) : Threads Req Ans OpResult (World ε) :=
  ⟨probed e, ops.map (·.prog P)⟩

/-- The interrupt line is enabled, and the driver has not masked it. -/
def Unmasked (g : Gxfp) : Prop := g.irqMasked = false ∧ g.irqEnabled = true

instance (g : Gxfp) : Decidable (Unmasked g) := inferInstanceAs (Decidable (_ ∧ _))

/-- A call of `gxfp_recv` got as far as a whole body, after which it cannot fail. -/
def Entry.isReceive (e : Entry) : Bool :=
  match e.event with
  | .bus .recvBody _ _ ret _ => ret = 0
  | _ => false

def receives (log : List Entry) : Nat := log.countP Entry.isReceive

/-- Between any two interrupts a receive succeeds; `ok` says that the last interrupt, if there was one, was serviced. -/
def Serviced (E : Env ε) : Bool → List Act → Threads Req Ans OpResult (World ε) → Prop
  | _, [], _ => True
  | ok, .isr :: acts, s => ok = true ∧ Serviced E false acts (Act.isr.perform E s)
  | ok, .turn i :: acts, s =>
      let s' := (Act.turn i).perform E s
      Serviced E (ok || decide (receives s.shared.log < receives s'.shared.log)) acts s'

/-! ### The counter -/

/-- The state of the line after `k` interrupts. -/
def LineAfter (k : Nat) (g : Gxfp) : Prop :=
  if k < 200 then g.irqCount.toNat = k ∧ Unmasked g else g.irqMasked = true ∧ g.irqEnabled = false

theorem LineAfter.unmasked_iff {k : Nat} {g : Gxfp} (h : LineAfter k g) : Unmasked g ↔ k < 200 := by
  rw [LineAfter] at h
  by_cases hk : k < 200
  · rw [if_pos hk] at h
    exact iff_of_true h.2 hk
  · rw [if_neg hk] at h
    refine iff_of_false ?_ hk
    intro hg
    rw [hg.2] at h
    exact absurd h.2 (by simp)

theorem run_gxfpIsr_g (E : Env ε) (tid : Nat) (w : World ε) :
    (gxfpIsr.run (handle E tid) w).2.g =
      if w.g.irqCount + 1 = GXFP_IRQ_STORM ∧ w.g.irqMasked = false then
        { w.g with irqCount := w.g.irqCount + 1, dataReady := true, irqMasked := true, irqEnabled := false }
      else { w.g with irqCount := w.g.irqCount + 1, dataReady := true } := by
  simp only [gxfpIsr, issue, Prog.perform_bind, Prog.run_ask]
  split
  · next hstorm =>
      have hstorm' : w.g.irqCount + 1 = GXFP_IRQ_STORM ∧ w.g.irqMasked = false := hstorm
      rw [if_pos hstorm']
      rfl
  · next hstorm =>
      have hstorm' : ¬ (w.g.irqCount + 1 = GXFP_IRQ_STORM ∧ w.g.irqMasked = false) := hstorm
      rw [if_neg hstorm']
      rfl

@[simp] theorem interrupt_progs (E : Env ε) (s : Threads Req Ans α (World ε)) :
    (interrupt E s).progs = s.progs := by
  rw [interrupt]
  split <;> rfl

@[simp] theorem interrupt_lock (E : Env ε) (s : Threads Req Ans α (World ε)) :
    (interrupt E s).shared.g.lock = s.shared.g.lock := by
  rw [interrupt]
  split
  · rw [run_gxfpIsr_g]
    split <;> rfl
  · rfl

theorem interrupt_dataReady (E : Env ε) (s : Threads Req Ans α (World ε)) :
    (interrupt E s).shared.g.dataReady = (s.shared.g.irqEnabled || s.shared.g.dataReady) := by
  rw [interrupt]
  by_cases henabled : s.shared.g.irqEnabled = true
  · rw [if_pos henabled, henabled, run_gxfpIsr_g]
    split <;> rfl
  · rw [if_neg henabled, eq_false_of_ne_true henabled, Bool.false_or]

theorem LineAfter.interrupted {k : Nat} {E : Env ε} {s : Threads Req Ans OpResult (World ε)}
    (h : LineAfter k s.shared.g) : LineAfter (k + 1) (interrupt E s).shared.g := by
  rw [LineAfter] at h ⊢
  by_cases hk : k < 200
  · rw [if_pos hk] at h
    obtain ⟨hcount, hmasked, henabled⟩ := h
    have hnext : (s.shared.g.irqCount + 1).toNat = k + 1 := by
      have hone : (1 : UInt32).toNat = 1 := rfl
      rw [UInt32.toNat_add, hcount, hone]
      exact Nat.mod_eq_of_lt (by omega)
    have hstorm : s.shared.g.irqCount + 1 = GXFP_IRQ_STORM ↔ k + 1 = 200 := by
      rw [← UInt32.toNat_inj, hnext]
      rfl
    have hrun : (interrupt E s).shared = (gxfpIsr.run (handle E s.progs.length) s.shared).2 := by
      rw [interrupt, if_pos henabled]
    rw [hrun, run_gxfpIsr_g]
    by_cases hlast : k + 1 = 200
    · rw [if_neg (show ¬ k + 1 < 200 by omega), if_pos ⟨hstorm.mpr hlast, hmasked⟩]
      exact ⟨rfl, rfl⟩
    · rw [if_pos (show k + 1 < 200 by omega), if_neg fun hand => hlast (hstorm.mp hand.1)]
      exact ⟨hnext, hmasked, henabled⟩
  · rw [if_neg hk] at h
    have hrun : interrupt E s = s := by
      rw [interrupt, h.2, if_neg Bool.false_ne_true]
    rw [hrun, if_neg (by omega)]
    exact h

theorem LineAfter.answered {k : Nat} {E : Env ε} {tid : Nat} {r : Req} {w : World ε} (hr : OutsideIsr r)
    (h : LineAfter k w.g) : LineAfter k (handle E tid r w).2.g := by
  cases r with
  | incIrqCount | getIrqMasked | setIrqMasked v | disableIrq => exact absurd hr id
  | spi x =>
      rw [handle_g, update]
      split <;> exact h
  | _ => exact h

/-- **One step.** Only an interrupt changes the state of the line. -/
theorem LineAfter.performed {k : Nat} {E : Env ε} {s : Threads Req Ans OpResult (World ε)} (act : Act)
    (hops : AllOnly OutsideIsr s) (h : LineAfter k s.shared.g) :
    LineAfter (k + [act].count .isr) (act.perform E s).shared.g ∧ AllOnly OutsideIsr (act.perform E s) := by
  cases act with
  | turn i =>
      exact ⟨hops.step_keeps (S := kernel E) (I := fun w => LineAfter k w.g) (fun _ _ _ hr hw => hw.answered hr) i h,
        hops.step (kernel E) i⟩
  | isr =>
      refine ⟨h.interrupted, ?_⟩
      intro i p hi
      rw [Act.perform, interrupt_progs] at hi
      exact hops i p hi

/-- **Every run.** The state of the line is a function of the number of interrupts. -/
theorem lineAfter_drive (E : Env ε) {k : Nat} {s : Threads Req Ans OpResult (World ε)} (acts : List Act)
    (hops : AllOnly OutsideIsr s) (h : LineAfter k s.shared.g) :
    LineAfter (k + acts.count .isr) (drive E acts s).shared.g := by
  induction acts generalizing k s with
  | nil => exact h
  | cons act acts ih =>
      obtain ⟨hline, hops'⟩ := h.performed (E := E) act hops
      have hcount : (act :: acts).count .isr = [act].count .isr + acts.count .isr := by
        rw [← List.count_append]
        rfl
      rw [hcount, ← Nat.add_assoc]
      exact ih hops' hline

theorem lineAfter_start (E : Env ε) (P : Setup) (ops : List DebugOp) (e : ε) (acts : List Act) :
    LineAfter (acts.count .isr) (drive E acts (start P ops e)).shared.g := by
  have hops : AllOnly OutsideIsr (start P ops e) := by
    intro i p hi
    rw [start, List.getElem?_map] at hi
    obtain ⟨op, -, rfl⟩ := Option.map_eq_some_iff.mp hi
    exact outsideIsr_prog P op
  have h := lineAfter_drive E (k := 0) acts hops ⟨rfl, rfl, rfl⟩
  rwa [Nat.zero_add] at h

/-- **The interrupt stays unmasked exactly in the runs with fewer than 200 interrupts**, whatever the operations do in between: serviced or not makes no difference. -/
theorem drive_unmasked_iff (E : Env ε) (P : Setup) (ops : List DebugOp) (e : ε) (acts : List Act) :
    (∀ pre, pre <+: acts → Unmasked (drive E pre (start P ops e)).shared.g) ↔ acts.count .isr < 200 := by
  constructor
  · intro h
    exact (lineAfter_start E P ops e acts).unmasked_iff.mp (h acts (List.prefix_refl acts))
  · intro hfew pre hpre
    have hle : pre.count .isr ≤ acts.count .isr := hpre.sublist.count_le .isr
    exact (lineAfter_start E P ops e pre).unmasked_iff.mpr (by omega)

/-! ### A sensor that is always serviced -/

def padTo (n : Nat) (xs : Bytes) : Bytes := (xs ++ List.replicate n 0).take n

theorem padTo_length (n : Nat) (xs : Bytes) : (padTo n xs).length = n := by
  simp [padTo]

/-- A machine on which everything succeeds and every header read announces one byte. -/
def Env.answering : Env Unit :=
  { Env.idle with
    xfer := fun x _ e =>
      let data := padTo x.len (if x.site = .recvHdr then [0xA0, 1, 0, 0xA1] else [])
      (⟨0, data, Nat.le_of_eq (padTo_length _ _), fun _ _ => padTo_length _ _, by simp⟩, e) }

/-- Whether an operation holds the mutex, and whether it has received a body. -/
structure Progress where
  held : Bool
  got : Bool
  deriving DecidableEq

/-- The contract of an operation that such a sensor answers. -/
def served : Contract Req Ans Progress where
  may m r := match r with
    | .lock => m.held = false
    | _ => True
  rely _ r a := match r, a with
    | .kmalloc _, ok => ok = true
    | .spi x, a => a.ret = 0 ∧ (x.site = .recvHdr → x.len = 4 → gxfpCheckSpiHdr a.data = 1)
    | _, _ => True
  next m r _ := match r with
    | .lock => { m with held := true }
    | .unlock => { m with held := false }
    | .spi x => if x.site = .recvBody then { m with got := true } else m
    | _ => m

theorem served_ignoresPlain : IgnoresPlain served := by
  intro m r hr
  cases r with
  | lock | unlock | getRxlen | setRxlen n | txStore off new | rxLoad off len | spi x => exact absurd hr id
  | _ => exact ⟨trivial, fun _ => rfl⟩

theorem served_send {m : Progress} {Q : Progress → Int → Prop} (hQ : Q m 0) : SendSpec served m Q where
  refused _ hok := absurd hok Bool.false_ne_true
  hdr _ _ := trivial
  failed _ _ ha hret := absurd ha.1 hret
  body _ _ _ _ _ := ⟨trivial, fun _ hb => hb.1 ▸ hQ⟩

theorem served_recv {m : Progress} {Q : Progress → Int → Prop} (hQ : ∀ ret, Q { m with got := true } ret) :
    RecvSpec served m Q where
  hdr := trivial
  stopped a ret hstop ha := by
    have hlen := ha.2 rfl rfl
    refine absurd ⟨ha.1, ?_, ?_⟩ hstop
    · rw [hlen]
      decide
    · rw [hlen]
      decide
  body a n _ _ _ _ _ := ⟨trivial, fun _ _ => ⟨fun _ => hQ _, fun _ => ⟨trivial, trivial, fun _ => hQ _⟩⟩⟩

theorem served_gxfpCmdWrite {u : UserBuf} (hu : u.accepted = true) :
    wp served (gxfpCmdWrite u) ⟨false, false⟩ fun m _ => m = ⟨false, true⟩ := by
  apply wp_gxfpCmdWrite served_ignoresPlain
  · intro hreject
    rw [hu] at hreject
    exact absurd hreject (by simp)
  · rfl
  · intro _
    apply served_send
    refine ⟨fun hret => absurd rfl hret, fun _ => served_recv fun _ => ⟨trivial, rfl⟩⟩

theorem receives_le_handle (E : Env ε) (tid : Nat) (r : Req) (w : World ε) :
    receives w.log ≤ receives (handle E tid r w).2.log := by
  rw [handle_log, receives, receives, List.countP_append]
  omega

theorem receives_le_step (E : Env ε) (i : Nat) (s : Threads Req Ans OpResult (World ε)) :
    receives s.shared.log ≤ receives ((kernel E).step i s).shared.log := by
  rcases (kernel E).step_cases i s with hskip | ⟨r, next, -, -, hreply⟩
  · rw [hskip]
  · rw [hreply]
    exact receives_le_handle E i r s.shared

theorem receives_le_run (E : Env ε) (schedule : List Nat) (s : Threads Req Ans OpResult (World ε)) :
    receives s.shared.log ≤ receives ((kernel E).run schedule s).shared.log := by
  induction schedule generalizing s with
  | nil => exact Nat.le_refl _
  | cons i schedule ih => exact Nat.le_trans (receives_le_step E i s) (ih _)

theorem receives_lt_recvBody {E : Env ε} (tid : Nat) {x : Xfer} {w : World ε} (hsite : x.site = .recvBody)
    (hret : (handle E tid (.spi x) w).1.ret = 0) :
    receives w.log < receives (handle E tid (.spi x) w).2.log := by
  obtain ⟨site, tx, rx, len, speedHz, async⟩ := x
  obtain rfl : site = .recvBody := hsite
  rw [handle_log, receives, receives, List.countP_append]
  have hbus : Entry.mk tid (.bus .recvBody rx _ _ _) ∈
      (events (.spi ⟨.recvBody, tx, rx, len, speedHz, async⟩) (handle E tid _ w).1 w.g).map (Entry.mk tid) :=
    List.mem_map_of_mem (List.mem_append_left _ List.mem_cons_self)
  have hpos := List.countP_pos_iff (p := Entry.isReceive) |>.mpr ⟨_, hbus, decide_eq_true hret⟩
  exact Nat.lt_add_of_pos_left hpos

theorem serviced_turns {E : Env ε} {ok : Bool} {i n : Nat} {acts : List Act} {s : Threads Req Ans OpResult (World ε)}
    (h : Serviced E (ok || decide (receives s.shared.log <
      receives ((kernel E).run (List.replicate n i) s).shared.log)) acts ((kernel E).run (List.replicate n i) s)) :
    Serviced E ok (List.replicate n (.turn i) ++ acts) s := by
  induction n generalizing ok s with
  | zero => simpa [Shared.run] using h
  | succ n ih =>
      rw [List.replicate_succ] at h ⊢
      apply ih
      have hstep := receives_le_step E i s
      have hrest := receives_le_run E (List.replicate n i) ((kernel E).step i s)
      have hflag {a b c : Nat} (hab : a ≤ b) (hbc : b ≤ c) :
          (ok || decide (a < c)) = (ok || decide (a < b) || decide (b < c)) := by
        rw [Bool.or_assoc, ← Bool.decide_or]
        congr 2
        apply propext
        omega
      rw [Shared.run, hflag hstep hrest] at h
      exact h

/-- What `served` says of a world: who holds the mutex, and whether anything was received since `before` was logged. -/
def Progress.Of (before : Nat) (m : Progress) (w : World ε) : Prop :=
  (m.held = false → w.g.lock = none) ∧ before ≤ receives w.log ∧ (m.got = true → before < receives w.log)

theorem answering_rely (tid : Nat) (m : Progress) (r : Req) (w : World Unit) :
    served.rely m r (handle Env.answering tid r w).1 := by
  cases r with
  | kmalloc size => rfl
  | spi x =>
      refine ⟨rfl, ?_⟩
      intro hsite hlen
      have hdata : (handle Env.answering tid (.spi x) w).1.data =
          padTo x.len (if x.site = .recvHdr then [0xA0, 1, 0, 0xA1] else []) := rfl
      rw [hdata, if_pos hsite, hlen]
      decide
  | _ => trivial

theorem Progress.Of.answered {before tid : Nat} {m : Progress} {w : World Unit} (h : m.Of before w) (r : Req) :
    (served.next m r (handle Env.answering tid r w).1).Of before (handle Env.answering tid r w).2 := by
  obtain ⟨hlock, hle, hgot⟩ := h
  have hmono := receives_le_handle Env.answering tid r w
  have hgot' (hm : m.got = true) : before < receives (handle Env.answering tid r w).2.log :=
    Nat.lt_of_lt_of_le (hgot hm) hmono
  cases r with
  | lock => exact ⟨fun hm => absurd hm (by simp [served]), by omega, hgot'⟩
  | unlock => exact ⟨fun _ => rfl, by omega, hgot'⟩
  | spi x =>
      have hfree (hm : m.held = false) : (handle Env.answering tid (.spi x) w).2.g.lock = none := by
        rw [handle_g, update]
        split <;> exact hlock hm
      by_cases hsite : x.site = .recvBody
      · have hnext : served.next m (.spi x) (handle Env.answering tid (.spi x) w).1 = { m with got := true } := if_pos hsite
        rw [hnext]
        have hlt := receives_lt_recvBody (E := Env.answering) tid (w := w) hsite rfl
        exact ⟨hfree, by omega, fun _ => by omega⟩
      · have hnext : served.next m (.spi x) (handle Env.answering tid (.spi x) w).1 = m := if_neg hsite
        rw [hnext]
        exact ⟨hfree, by omega, hgot'⟩
  | _ => exact ⟨hlock, by omega, hgot'⟩

theorem exists_turns_served {u : UserBuf} (hu : u.accepted = true) {i : Nat} {s : Threads Req Ans OpResult (World Unit)}
    (hlock : s.shared.g.lock = none) (hi : s.progs[i]? = some (gxfpCmdWrite u)) :
    ∃ n, ((kernel Env.answering).run (List.replicate n i) s).shared.g.lock = none ∧
      receives s.shared.log < receives ((kernel Env.answering).run (List.replicate n i) s).shared.log ∧
      ∀ j, j ≠ i → ((kernel Env.answering).run (List.replicate n i) s).progs[j]? = s.progs[j]? := by
  have hstart : (⟨false, false⟩ : Progress).Of (receives s.shared.log) s.shared :=
    ⟨fun _ => hlock, Nat.le_refl _, fun hgot => absurd hgot Bool.false_ne_true⟩
  have hstep : ∀ m w r, Progress.Of (receives s.shared.log) m w → served.may m r →
      (kernel Env.answering).enabled r w = true ∧ served.rely m r ((kernel Env.answering).handle i r w).1 ∧
        Progress.Of (receives s.shared.log) (served.next m r ((kernel Env.answering).handle i r w).1)
          ((kernel Env.answering).handle i r w).2 := by
    intro m w r hm hmay
    refine ⟨?_, answering_rely i m r w, hm.answered r⟩
    cases r with
    | lock =>
        have hnone : w.g.lock = none := hm.1 hmay
        change w.g.lock.isNone = true
        rw [hnone]
        rfl
    | _ => rfl
  obtain ⟨n, hn⟩ := Shared.run_thread hstep (served_gxfpCmdWrite hu) hstart hi
  obtain ⟨m, hend, hm⟩ := wp_run (h := handle Env.answering i)
    (fun m w r hm hmay => (hstep m w r hm hmay).2) (served_gxfpCmdWrite hu) hstart
  subst hm
  refine ⟨n, ?_, ?_, ?_⟩
  · rw [hn]
    exact hend.1 rfl
  · rw [hn]
    exact hend.2.2 rfl
  · intro j hj
    rw [hn]
    exact List.getElem?_set_ne (Ne.symm hj)

/-- A sensor whose every interrupt is answered with a command can be interrupted any number of times. -/
theorem exists_serviced {u : UserBuf} (hu : u.accepted = true) (k i : Nat) {s : Threads Req Ans OpResult (World Unit)}
    (hlock : s.shared.g.lock = none) (hops : ∀ j, i ≤ j → j < i + k → s.progs[j]? = some (gxfpCmdWrite u)) :
    ∃ acts, Serviced Env.answering true acts s ∧ acts.count .isr = k := by
  induction k generalizing i s with
  | zero => exact ⟨[], trivial, rfl⟩
  | succ k ih =>
      have hi : (interrupt Env.answering s).progs[i]? = some (gxfpCmdWrite u) := by
        rw [interrupt_progs]
        exact hops i (Nat.le_refl i) (by omega)
      obtain ⟨n, hfree, hgot, hothers⟩ := exists_turns_served hu ((interrupt_lock _ s).trans hlock) hi
      obtain ⟨acts, hserviced, hcount⟩ := ih (i + 1) hfree fun j hij hj => by
        rw [hothers j (by omega), interrupt_progs]
        exact hops j (by omega) (by omega)
      have hturn : (Act.turn i == Act.isr) = false := by simp
      refine ⟨.isr :: (List.replicate n (.turn i) ++ acts), ⟨rfl, serviced_turns (s := interrupt Env.answering s) ?_⟩, ?_⟩
      · rw [decide_eq_true hgot]
        exact hserviced
      · rw [List.count_cons_self, List.count_append, List.count_replicate, hcount, hturn, if_neg Bool.false_ne_true,
          Nat.zero_add]

/-- 200 interrupts, each followed by a command (`"0 0"`, a NOP) whose reply `gxfp_recv` receives: the line is masked. -/
theorem serviced_interrupts_mask :
    ¬ ∀ (ε : Type) (E : Env ε) (P : Setup) (ops : List DebugOp) (e : ε) (acts : List Act),
      Serviced E true acts (start P ops e) → ∀ pre, pre <+: acts → Unmasked (drive E pre (start P ops e)).shared.g := by
  intro h
  have hnop : (UserBuf.text [48, 32, 48]).accepted = true := by decide
  let ops : List DebugOp := List.replicate 200 (.cmdWrite (UserBuf.text [48, 32, 48]))
  obtain ⟨acts, hserviced, hcount⟩ := exists_serviced hnop 200 0 (s := start {} ops ()) rfl fun j _ hj => by
    rw [start, List.getElem?_map, List.getElem?_replicate, if_pos (by omega)]
    rfl
  have hunmasked := h Unit Env.answering {} ops () acts hserviced acts (List.prefix_refl acts)
  rw [(lineAfter_start Env.answering {} ops () acts).unmasked_iff, hcount] at hunmasked
  exact absurd hunmasked (by decide)

end GoodixSpi.Kernel
