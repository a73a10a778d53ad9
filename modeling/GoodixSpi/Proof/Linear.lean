import GoodixSpi.Lib.Fairness
import GoodixSpi.Lib.Serial
import GoodixSpi.Proof.Interrupts

/-!
# `cmd`, `rxbuf` and `replay` one at a time

These three operations do all that matters under the mutex: what they ask outside of it goes to local buffers and to the log. So whatever the turns and whenever the interrupt fires, they return what they return when they run one after the other in the order in which they take the mutex, and leave the driver and the sensor as that leaves them. The one thing an interrupt decides is whether `gxfp_cmd_write` sleeps, and the environment is one that does not tell whether it did.
-/

namespace GoodixSpi.Kernel

open Wire Interaction

variable {ε : Type}

/-- States in `Same` answer alike, and half a second of waiting for the interrupt leads to such a state. -/
structure Timeless (E : Env ε) (Same : ε → ε → Prop) : Prop where
  equiv : Equivalence Same
  kmalloc : ∀ n e e', Same e e' → (E.kmalloc n e).1 = (E.kmalloc n e').1 ∧ Same (E.kmalloc n e).2 (E.kmalloc n e').2
  sleep : ∀ us e e', Same e e' → Same (E.sleep us e) (E.sleep us e')
  xfer : ∀ x b e e', Same e e' → (E.xfer x b e).1 = (E.xfer x b e').1 ∧ Same (E.xfer x b e).2 (E.xfer x b e').2
  wait : ∀ e, Same (E.sleep 500000 e) e

/-- Worlds that differ in the log, in what the interrupt handler keeps, and in who holds the mutex. -/
structure Alike (Same : ε → ε → Prop) (v w : World ε) : Prop where
  env : Same v.env w.env
  enable : v.g.enable = w.g.enable
  lock : v.g.lock.isNone = w.g.lock.isNone
  txbuf : v.g.txbuf = w.g.txbuf
  rxbuf : v.g.rxbuf = w.g.rxbuf
  rxlen : v.g.rxlen = w.g.rxlen

/-- Requests that leave a world that looks like the one before. -/
def Silent : Req → Prop
  | .touch _ _ _ _ | .print _ _ _ | .getDataReady | .setDataReady _ => True
  | .sleepOnWq ms => ms = 500
  | _ => False

/-- Requests that worlds alike answer alike. -/
def Steady : Req → Prop
  | .lock | .unlock | .touch _ _ _ _ | .print _ _ _ | .setDataReady _ | .kmalloc _ | .sleep _ | .getRxlen | .setRxlen _
  | .rxLoad _ _ | .spi _ => True
  | _ => False

def takesLock : Req → Bool
  | .lock => true
  | _ => false

def givesLock : Req → Bool
  | .unlock => true
  | _ => false

/-- Requests made under the mutex. -/
def Locked (r : Req) : Prop := Steady r ∧ takesLock r = false ∧ givesLock r = false

section Instances

variable {E : Env ε} {Same : ε → ε → Prop}

theorem Timeless.alike (hE : Timeless E Same) : Equivalence (Alike Same) where
  refl w := ⟨hE.equiv.refl w.env, rfl, rfl, rfl, rfl, rfl⟩
  symm h := ⟨hE.equiv.symm h.env, h.enable.symm, h.lock.symm, h.txbuf.symm, h.rxbuf.symm, h.rxlen.symm⟩
  trans h h' :=
    ⟨hE.equiv.trans h.env h'.env, h.enable.trans h'.enable, h.lock.trans h'.lock, h.txbuf.trans h'.txbuf,
      h.rxbuf.trans h'.rxbuf, h.rxlen.trans h'.rxlen⟩

theorem Alike.mosi {v w : World ε} (h : Alike Same v w) (x : Xfer) : mosi v.g x = mosi w.g x := by
  rw [Kernel.mosi, Kernel.mosi, h.txbuf]

theorem Timeless.silent (hE : Timeless E Same) (tid : Nat) {r : Req} (hr : Silent r) (w : World ε) :
    Alike Same (handle E tid r w).2 w := by
  cases r with
  | touch b size off len | print ch fmt args | getDataReady | setDataReady v =>
      exact ⟨hE.equiv.refl w.env, rfl, rfl, rfl, rfl, rfl⟩
  | sleepOnWq ms =>
      obtain rfl : ms = 500 := hr
      refine ⟨?_, rfl, rfl, rfl, rfl, rfl⟩
      show Same (if w.g.dataReady then w.env else E.sleep 500000 w.env) w.env
      split
      · exact hE.equiv.refl w.env
      · exact hE.wait w.env
  | _ => exact absurd hr id

theorem Timeless.steady (hE : Timeless E Same) (i j : Nat) {r : Req} (hr : Steady r) {v w : World ε}
    (h : Alike Same v w) :
    (handle E i r v).1 = (handle E j r w).1 ∧ Alike Same (handle E i r v).2 (handle E j r w).2 := by
  cases r with
  | lock | unlock => exact ⟨rfl, h.env, h.enable, rfl, h.txbuf, h.rxbuf, h.rxlen⟩
  | touch b size off len | print ch fmt args | setDataReady b =>
      exact ⟨rfl, h.env, h.enable, h.lock, h.txbuf, h.rxbuf, h.rxlen⟩
  | kmalloc n =>
      obtain ⟨hans, henv⟩ := hE.kmalloc n v.env w.env h.env
      exact ⟨hans, henv, h.enable, h.lock, h.txbuf, h.rxbuf, h.rxlen⟩
  | sleep us => exact ⟨rfl, hE.sleep us v.env w.env h.env, h.enable, h.lock, h.txbuf, h.rxbuf, h.rxlen⟩
  | getRxlen => exact ⟨h.rxlen, h.env, h.enable, h.lock, h.txbuf, h.rxbuf, h.rxlen⟩
  | setRxlen n => exact ⟨rfl, h.env, h.enable, h.lock, h.txbuf, h.rxbuf, rfl⟩
  | rxLoad off len =>
      exact ⟨congrArg (·.load off len) h.rxbuf, h.env, h.enable, h.lock, h.txbuf, h.rxbuf, h.rxlen⟩
  | spi x =>
      obtain ⟨hans, henv⟩ := hE.xfer x (mosi v.g x) v.env w.env h.env
      rw [h.mosi x] at hans henv
      have hanswer : (answer E (.spi x) v.g v.env).1 = (answer E (.spi x) w.g w.env).1 := by
        rw [answer, answer, h.mosi x]
        exact hans
      refine ⟨hanswer, ?_⟩
      have hstate : Alike Same ⟨v.g, (E.xfer x (mosi v.g x) v.env).2, v.log⟩
          ⟨w.g, (E.xfer x (mosi w.g x) w.env).2, w.log⟩ := by
        rw [h.mosi x]
        exact ⟨henv, h.enable, h.lock, h.txbuf, h.rxbuf, h.rxlen⟩
      rw [handle, handle]
      dsimp only
      rw [hanswer]
      by_cases hrx : x.rx = .rxbuf
      · simp only [update, if_pos hrx]
        exact ⟨hstate.env, h.enable, h.lock, h.txbuf, by rw [h.rxbuf], h.rxlen⟩
      · simp only [update, if_neg hrx]
        exact ⟨hstate.env, h.enable, h.lock, h.txbuf, h.rxbuf, h.rxlen⟩
  | _ => exact absurd hr id

theorem Timeless.unseen (hE : Timeless E Same) : Unseen (kernel E) Silent Steady (Alike Same) where
  equiv := hE.alike
  quiet i r w hr := hE.silent i hr w
  kept i j r v w hr h := hE.steady i j hr h
  enabled r v w h := by
    cases r with
    | lock => exact h.lock
    | _ => rfl

theorem kernel_mutex (E : Env ε) : Mutex (kernel E) takesLock givesLock fun w => w.g.lock.isSome where
  enabled r w hready hr := by
    cases r with
    | lock =>
        have hnone : w.g.lock.isNone = true := hready
        rw [Option.isNone_iff_eq_none.mp hnone, Option.isSome_none]
    | _ => exact absurd hr Bool.false_ne_true
  take i r w hr := by
    cases r with
    | lock => rfl
    | _ => exact absurd hr Bool.false_ne_true
  give i r w _ hr := by
    cases r with
    | unlock => rfl
    | _ => exact absurd hr Bool.false_ne_true
  keep i r w hlock hunlock := by
    have hkeeps : (update i r (answer E r w.g w.env).1 w.g).lock = w.g.lock := by
      apply update_lock
      · rintro rfl
        exact absurd hlock (by simp [takesLock])
      · rintro rfl
        exact absurd hunlock (by simp [givesLock])
    exact congrArg Option.isSome hkeeps

theorem Timeless.interrupt {α : Type} (hE : Timeless E Same) (s : Threads Req Ans α (World ε)) :
    Alike Same (interrupt E s).shared s.shared := by
  have henv : (Kernel.interrupt E s).shared.env = s.shared.env := by
    rw [Kernel.interrupt]
    split
    · simp only [gxfpIsr, issue, Prog.perform_bind, Prog.run_ask]
      split <;> rfl
    · rfl
  refine ⟨henv ▸ hE.equiv.refl _, ?_, by rw [interrupt_lock], ?_, ?_, ?_⟩
  all_goals
    rw [Kernel.interrupt]
    split
    · rw [run_gxfpIsr_g]
      split <;> rfl
    · rfl

end Instances

theorem locked_of_working {α : Type} {p : DriverM α} (hp : Prog.Only Working p) : Prog.Only Locked p := by
  apply hp.mono
  intro r hr
  cases r with
  | touch b size off len | kmalloc size | print ch fmt args | sleep us | spi x | setRxlen n | rxLoad off len =>
      exact ⟨trivial, rfl, rfl⟩
  | _ => exact absurd hr id

/-! ### The operations as sections -/

/-- The text is kept outside the mutex as well, so it is part of what is returned. -/
abbrev UnderMutex {α : Type} (text : List (String × List Arg)) (phase : Phase) (p : DriverM α) : Prop :=
  Sectioned Silent Steady takesLock givesLock phase (Prog.noting seqText text p)

section UnderMutex

variable {α β : Type} {text : List (String × List Arg)} {phase : Phase} {r : Req}

theorem underMutex_pure (a : α) (hphase : phase ≠ .inside) : UnderMutex text phase (pure a : DriverM α) :=
  .of_erased (.ret (a, text)) hphase

theorem UnderMutex.acquire_bind {f : Ans r → DriverM β} (hr : Steady r) (hlock : takesLock r = true)
    (hf : ∀ a, UnderMutex (text ++ seqText r) .inside (f a)) : UnderMutex text .before (Prog.perform r >>= f) :=
  Sectioned.acquire_bind (f := fun a => Prog.noting seqText (text ++ seqText r) (f a)) hr hlock hf

theorem UnderMutex.release_bind {f : Ans r → DriverM β} (hr : Steady r) (hlock : takesLock r = false)
    (hunlock : givesLock r = true) (hf : ∀ a, UnderMutex (text ++ seqText r) .after (f a)) :
    UnderMutex text .inside (Prog.perform r >>= f) :=
  Sectioned.release_bind (f := fun a => Prog.noting seqText (text ++ seqText r) (f a)) hr hlock hunlock hf

theorem UnderMutex.only_bind {p : DriverM α} {f : α → DriverM β} (hp : Prog.Only Locked p)
    (hf : ∀ a text', UnderMutex text' .inside (f a)) : UnderMutex text .inside (p >>= f) := by
  rw [UnderMutex, Prog.noting_bind]
  exact Sectioned.only_bind (hp.noting seqText text) fun x => hf x.1 x.2

theorem UnderMutex.erased_bind {p : DriverM α} {a : α} {text' : List (String × List Arg)} {f : α → DriverM β}
    (hp : Erases Silent Steady (Prog.noting seqText text p) (.ret (a, text')))
    (hf : UnderMutex text' phase (f a)) : UnderMutex text phase (p >>= f) := by
  rw [UnderMutex, Prog.noting_bind]
  exact Sectioned.erased_bind hp hf

theorem erases_skip {next : Ans r → DriverM α} {q : DriverM (α × List (String × List Arg))} (hr : Silent r)
    (hshows : seqText r = []) (h : ∀ a, Erases Silent Steady (Prog.noting seqText text (next a)) q) :
    Erases Silent Steady (Prog.noting seqText text (.ask r next)) q := by
  refine .skip hr fun a => ?_
  rw [hshows, List.append_nil]
  exact h a

end UnderMutex

theorem erases_cmdPayload (p : List Bytes) (payload : Buffer 256) (n : Nat) (text : List (String × List Arg)) :
    ∃ v, Erases Silent Steady (Prog.noting seqText text (cmdPayload p payload n)) (.ret (v, text)) := by
  induction p generalizing payload n with
  | nil => exact ⟨_, .ret _⟩
  | cons tok p ih =>
      rw [cmdPayload]
      split
      · split
        · exact ih payload n
        · split
          · exact ⟨_, .ret _⟩
          · next v _ =>
              obtain ⟨parsed, h⟩ := ih (payload.store n [UInt8.ofNat (v &&& 0xFF)]) (n + 1)
              exact ⟨parsed, erases_skip trivial rfl fun _ => h⟩
      · exact ⟨_, .ret _⟩

/-- Whether the wait sleeps depends on an interrupt, and is not seen. -/
theorem erases_waitDataReady (text : List (String × List Arg)) :
    Erases Silent Steady (Prog.noting seqText text (waitDataReady 500)) (.ret ((), text)) := by
  refine erases_skip trivial rfl fun ready => ?_
  cases ready with
  | true => exact .ret _
  | false => exact erases_skip rfl rfl fun _ => .ret _

theorem underMutex_cmdExchange (cmd0 cmd1 : Nat) (payload : Buffer 256) (n : Nat) (u : UserBuf)
    (text : List (String × List Arg)) :
    UnderMutex text .before (cmdExchange cmd0 cmd1 payload n >>= fun ret =>
      pure { ret := if ret ≠ 0 then ret else u.len : OpResult }) := by
  simp only [cmdExchange, Prog.bind_assoc]
  refine UnderMutex.acquire_bind trivial rfl fun _ => ?_
  refine UnderMutex.only_bind (p := Prog.perform (Req.setDataReady false)) (.perform ⟨trivial, rfl, rfl⟩) fun _ _ => ?_
  refine UnderMutex.only_bind (locked_of_working (working_gxfpSend _ _ _ _ _)) fun ret _ => ?_
  split
  · simp only [Prog.bind_assoc]
    apply UnderMutex.erased_bind (erases_waitDataReady _)
    refine UnderMutex.only_bind (locked_of_working working_gxfpRecv) fun _ _ => ?_
    exact UnderMutex.release_bind trivial rfl rfl fun _ => underMutex_pure _ (by simp)
  · exact UnderMutex.release_bind trivial rfl rfl fun _ => underMutex_pure _ (by simp)

theorem underMutex_gxfpCmdWrite (u : UserBuf) (text : List (String × List Arg)) :
    UnderMutex text .before (gxfpCmdWrite u) := by
  have hreturn (res : OpResult) : UnderMutex text .before (pure res : DriverM OpResult) := underMutex_pure res (by simp)
  rw [gxfpCmdWrite]
  split
  · exact hreturn _
  · split
    · exact hreturn _
    · split
      · exact hreturn _
      · next cmd0 cmd1 p _ =>
          obtain ⟨parsed, h⟩ := erases_cmdPayload p (Buffer.zeros 256) 0 text
          apply UnderMutex.erased_bind h
          cases parsed with
          | none => exact hreturn _
          | some parsed => exact underMutex_cmdExchange cmd0 cmd1 parsed.1 parsed.2 u text

theorem underMutex_gxfpRawRead (len off : Nat) (text : List (String × List Arg)) :
    UnderMutex text .before (gxfpRawRead len off) := by
  refine UnderMutex.acquire_bind trivial rfl fun _ => ?_
  refine UnderMutex.only_bind (p := Prog.perform Req.getRxlen) (.perform ⟨trivial, rfl, rfl⟩) fun n _ => ?_
  refine UnderMutex.only_bind (p := kmalloc (n * 3 + 2)) (.perform ⟨trivial, rfl, rfl⟩) fun ok _ => ?_
  split
  · exact UnderMutex.release_bind trivial rfl rfl fun _ => underMutex_pure _ (by simp)
  · refine UnderMutex.only_bind (.fold (fun out i => locked_of_working (working_printByte out i)) _ _) fun out _ => ?_
    refine UnderMutex.only_bind (locked_of_working (working_store _ _ _ _)) fun out _ => ?_
    refine UnderMutex.release_bind trivial rfl rfl fun _ => ?_
    exact .of_erased (.skip trivial fun _ => .ret _) (by simp)

/-- The first line is shown before the mutex is taken. -/
theorem underMutex_gxfpReplayShow (P : Setup) (text : List (String × List Arg)) :
    UnderMutex text .before (gxfpReplayShow P) := by
  have hfirst (fmt : String) (args : List Arg) :
      Erases Silent Steady (Prog.noting seqText text (print .seq fmt args)) (.ret ((), text ++ [(fmt, args)])) :=
    .skip trivial fun _ => .ret _
  apply UnderMutex.erased_bind (hfirst _ _)
  refine UnderMutex.acquire_bind trivial rfl fun _ => ?_
  refine UnderMutex.only_bind (.fold (fun _ c => locked_of_working (working_replayStep c)) _ _) fun _ _ => ?_
  exact UnderMutex.release_bind trivial rfl rfl fun _ => underMutex_pure _ (by simp)

/-- The operations that do everything under the mutex. -/
def DebugOp.Locking : DebugOp → Prop
  | .cmdWrite _ | .rawRead _ _ | .replay => True
  | _ => False

theorem underMutex_prog (P : Setup) {op : DebugOp} (hop : op.Locking) : UnderMutex [] .before (op.prog P) := by
  cases op with
  | cmdWrite u => exact underMutex_gxfpCmdWrite u []
  | rawRead len off => exact underMutex_gxfpRawRead len off []
  | replay => exact underMutex_gxfpReplayShow P []
  | _ => exact absurd hop id

/-! ### Runs -/

section Runs

variable {α : Type} {E : Env ε} {Same : ε → ε → Prop} {P : Setup} {ops : List DebugOp} {qs : List (DriverM α)} {u : World ε}

theorem drive_length (E : Env ε) (acts : List Act) (s : Threads Req Ans α (World ε)) :
    (drive E acts s).progs.length = s.progs.length := by
  induction acts generalizing s with
  | nil => rfl
  | cons act acts ih =>
      rw [drive, ih]
      cases act with
      | isr => rw [Act.perform, interrupt_progs]
      | turn i => exact (kernel E).length_step i s

/-- A run of operations that return their texts is a run of the operations. -/
theorem drive_shown (E : Env ε) (P : Setup) (ops : List DebugOp) (w : World ε) (acts : List Act) :
    drive E acts ⟨w, ops.map (·.prog P)⟩ = (drive E acts ⟨w, ops.map (·.shown P)⟩).map Prod.fst := by
  have hstart : (⟨w, ops.map (·.prog P)⟩ : Threads Req Ans OpResult (World ε)) =
      (⟨w, ops.map (·.shown P)⟩ : Threads Req Ans (OpResult × List (String × List Arg)) (World ε)).map Prod.fst := by
    rw [Threads.map, List.map_map]
    congr 2
    funext op
    exact Prog.noting_fst.symm
  rw [hstart]
  generalize (⟨w, ops.map (·.shown P)⟩ : Threads Req Ans (OpResult × List (String × List Arg)) (World ε)) = s
  induction acts generalizing s with
  | nil => rfl
  | cons act acts ih =>
      have hact : act.perform E (s.map Prod.fst) = (act.perform E s).map Prod.fst := by
        cases act with
        | turn i => exact (kernel E).step_map Prod.fst i s
        | isr =>
            rw [Act.perform, Act.perform, interrupt, interrupt]
            have hlength : (s.map Prod.fst).progs.length = s.progs.length := List.length_map _
            rw [hlength]
            show (if s.shared.g.irqEnabled then _ else _) = _
            split <;> rfl
      rw [drive, drive, hact]
      exact ih _

theorem linear_drive (hE : Timeless E Same) (acts : List Act) {s : Threads Req Ans α (World ε)}
    (h : Linear (kernel E) Silent Steady (Alike Same) takesLock givesLock (fun w => w.g.lock.isSome) qs u s) :
    Linear (kernel E) Silent Steady (Alike Same) takesLock givesLock (fun w => w.g.lock.isSome) qs u
      (drive E acts s) := by
  induction acts generalizing s with
  | nil => exact h
  | cons act acts ih =>
      cases act with
      | turn i => exact ih (h.step hE.unseen (kernel_mutex E) i)
      | isr => exact ih (h.unseen hE.unseen (interrupt_progs E s) (hE.interrupt s))

theorem showOps_serial {qs : List (DriverM (OpResult × List (String × List Arg)))} (hE : Timeless E Same)
    (hqs : ∀ (i : Nat) (p : DriverM (OpResult × List (String × List Arg))), (ops.map (·.shown P))[i]? = some p →
      ∃ q, qs[i]? = some q ∧ Erases Silent Steady p q)
    {order : List Nat} (horder : ∀ i ∈ order, i < ops.length) {v w : World ε} (h : Alike Same v w) :
    (showOps E P (order.filterMap (ops[·]?)) v).1 = ((kernel E).serial qs order w).1 ∧
      Alike Same (showOps E P (order.filterMap (ops[·]?)) v).2 ((kernel E).serial qs order w).2 := by
  induction order generalizing v w with
  | nil => exact ⟨rfl, h⟩
  | cons i order ih =>
      have hlt : i < ops.length := horder i List.mem_cons_self
      have hop : ops[i]? = some ops[i] := List.getElem?_eq_getElem hlt
      obtain ⟨q, hq, herases⟩ := hqs i (ops[i].shown P) (by rw [List.getElem?_map, hop]; rfl)
      obtain ⟨hresult, hworld⟩ := herases.run hE.unseen 0 i h
      obtain ⟨hresults, hlast⟩ := ih (fun j hj => horder j (List.mem_cons_of_mem i hj)) hworld
      rw [List.filterMap_cons_some hop, showOps, Shared.serial, hq]
      exact ⟨congrArg₂ List.cons hresult hresults, hlast⟩

/-- In the state `s` every operation has returned and shown what it returns and shows when they run to completion one after the other, from `w` and in some order, and the driver and its environment are as that leaves them. -/
def OneAtATime (E : Env ε) (Same : ε → ε → Prop) (P : Setup) (ops : List DebugOp) (w : World ε)
    (s : Threads Req Ans (OpResult × List (String × List Arg)) (World ε)) : Prop :=
  ∃ order : List Nat, order.Perm (List.range ops.length) ∧
    Alike Same s.shared (showOps E P (order.filterMap (ops[·]?)) w).2 ∧
    ∀ k i : Nat, order[k]? = some i → ∃ res, s.progs[i]? = some (.ret res) ∧
      (showOps E P (order.filterMap (ops[·]?)) w).1[k]? = some res

/-- **One at a time.** Any number of writes to `cmd`, reads of `rxbuf` and reads of `replay`, with interrupts in between, in any order of turns that finishes them, do what they do one after the other in some order. -/
theorem locking_operations_serializable (hE : Timeless E Same) (P : Setup) {ops : List DebugOp}
    (hops : ∀ op ∈ ops, op.Locking) {w : World ε} (hfree : w.g.lock = none) {acts : List Act}
    (hdone : ∀ p ∈ (drive E acts ⟨w, ops.map (·.prog P)⟩).progs, ∃ res, p = Prog.ret res) :
    OneAtATime E Same P ops w (drive E acts ⟨w, ops.map (·.shown P)⟩) := by
  have hsections : ∀ p ∈ ops.map (·.shown P), Sectioned Silent Steady takesLock givesLock .before p := by
    intro p hp
    obtain ⟨op, hop, rfl⟩ := List.mem_map.mp hp
    exact underMutex_prog P (hops op hop)
  obtain ⟨qs, hlength, hcritical, hqs⟩ := exists_erased hsections
  have hstart : Linear (kernel E) Silent Steady (Alike Same) takesLock givesLock (fun w => w.g.lock.isSome) qs w
      ⟨w, ops.map (·.shown P)⟩ :=
    Linear.init hE.unseen hqs hcritical (by rw [hfree]; rfl)
  have hlinear := linear_drive hE acts hstart
  have hprogs : (drive E acts ⟨w, ops.map (·.shown P)⟩).progs.length = qs.length := by
    rw [drive_length, hlength]
  have hreturned : ∀ p ∈ (drive E acts ⟨w, ops.map (·.shown P)⟩).progs, ∃ res, p = Prog.ret res := by
    intro p hp
    rw [drive_shown] at hdone
    obtain ⟨res, hres⟩ := hdone _ (List.mem_map_of_mem hp)
    cases p with
    | ret a => exact ⟨a, rfl⟩
    | ask r next => exact absurd hres (by simp)
  obtain ⟨order, hperm, halike, hresults⟩ := hlinear.complete hprogs fun i p hi => hreturned p (List.mem_of_getElem? hi)
  rw [hlength, List.length_map] at hperm
  have horder : ∀ i ∈ order, i < ops.length := fun i hi => List.mem_range.mp (hperm.mem_iff.mp hi)
  obtain ⟨hsame, hlast⟩ := showOps_serial (P := P) hE hqs horder (hE.alike.refl w)
  refine ⟨order, hperm, hE.alike.trans halike (hE.alike.symm hlast), ?_⟩
  intro k i hk
  rw [hsame]
  exact hresults k i hk

end Runs

theorem timeless_idle : Timeless Env.idle (· = ·) where
  equiv := eq_equivalence
  kmalloc _ _ _ _ := ⟨rfl, rfl⟩
  sleep _ _ _ _ := rfl
  xfer _ _ _ _ _ := ⟨rfl, rfl⟩
  wait _ := rfl

/-- A command, a read of what it received, and the replay. -/
def eachOnce : List DebugOp := [.cmdWrite liveness, .rawRead 64 0, .replay]

/-- Three operations turn by turn, with an interrupt after every third turn. -/
def alternating (n : Nat) : List Act :=
  (List.range n).map fun i => if i % 4 = 3 then .isr else .turn (i % 4)

theorem locking_operations_serializable_alternating :
    OneAtATime Env.idle (· = ·) {} eachOnce (probed ())
      (drive Env.idle (alternating 600) ⟨probed (), eachOnce.map (·.shown {})⟩) := by
  have hdone : ((drive Env.idle (alternating 600) ⟨probed (), eachOnce.map (·.prog {})⟩).progs.all fun p =>
      match p with
      | .ret _ => true
      | .ask _ _ => false) = true := by
    decide +kernel
  apply locking_operations_serializable timeless_idle {} (by simp [eachOnce, DebugOp.Locking]) rfl
  intro p hp
  have hret := List.all_eq_true.mp hdone p hp
  cases p with
  | ret res => exact ⟨res, rfl⟩
  | ask r next => exact absurd hret Bool.false_ne_true

end GoodixSpi.Kernel
