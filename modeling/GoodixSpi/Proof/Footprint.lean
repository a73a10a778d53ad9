import GoodixSpi.Proof.Specs

/-!
# Which requests an operation makes

The contracts of the file operations take no note of the interrupt counter and of the enable GPIO. What is said here is coarser and about those: an operation leaves the interrupt handler's state to the handler, and only the writes to `enable` and `reset` drive the GPIO.
-/

namespace GoodixSpi.Kernel

open Wire Interaction

/-- A request that neither drives the enable GPIO nor belongs to the interrupt handler. -/
def Ordinary : Req → Prop
  | .incIrqCount | .getIrqMasked | .setIrqMasked _ | .disableIrq | .setEnable _ => False
  | _ => True

/-- A request that does not belong to the interrupt handler. -/
def OutsideIsr : Req → Prop
  | .incIrqCount | .getIrqMasked | .setIrqMasked _ | .disableIrq => False
  | _ => True

def ReadsOnly : Req → Prop
  | .writel _ _ => False
  | _ => True

/-- An ordinary request that writes no register either. -/
def Common (r : Req) : Prop := Ordinary r ∧ ReadsOnly r

/-- A request that moreover has no part in the mutex and in the wait for an interrupt. -/
def Inner : Req → Prop
  | .lock | .unlock | .getDataReady | .setDataReady _ | .sleepOnWq _ | .wakeUp => False
  | r => Common r

/-- The requests of the functions that are called under the mutex. -/
def Working : Req → Prop
  | .touch _ _ _ _ | .kmalloc _ | .print _ _ _ | .sleep _ | .spi _ | .setRxlen _ | .rxLoad _ _ => True
  | _ => False

theorem Ordinary.outsideIsr {r : Req} (h : Ordinary r) : OutsideIsr r := by
  cases r with
  | setEnable v => trivial
  | incIrqCount | getIrqMasked | setIrqMasked v | disableIrq => exact absurd h id
  | _ => trivial

theorem Inner.common {r : Req} (h : Inner r) : Common r := by
  cases r with
  | lock | unlock | getDataReady | setDataReady v | sleepOnWq ms | wakeUp => exact absurd h id
  | _ => exact h

theorem Working.inner {r : Req} (h : Working r) : Inner r := by
  cases r with
  | touch b size off len | kmalloc size | print ch fmt args | sleep us | spi x | setRxlen n | rxLoad off len =>
      exact ⟨trivial, trivial⟩
  | _ => exact absurd h id

theorem External.inner {r : Req} (h : External r) : Inner r := by
  cases r with
  | print ch fmt args | readl addr | sleep us | irqLevel => exact ⟨trivial, trivial⟩
  | _ => exact absurd h id

theorem Peeks.inner {r : Req} (h : Peeks r) : Inner r := by
  cases r with
  | print ch fmt args | ioremap addr | readl addr => exact ⟨trivial, trivial⟩
  | _ => exact absurd h id

theorem Poking.ordinary {r : Req} (h : Poking r) : Ordinary r := by
  cases r with
  | print ch fmt args | readl addr | writel addr v | sleep us | irqLevel => trivial
  | _ => exact absurd h id

section Functions

theorem common_of_working {α : Type} {p : DriverM α} (hp : Prog.Only Working p) : Prog.Only Common p :=
  hp.mono fun _ h => h.inner.common

theorem inner_of_external {α : Type} {p : DriverM α} (hp : Prog.Only External p) : Prog.Only Inner p :=
  hp.mono fun _ => External.inner

theorem readsOnly_of_external {α : Type} {p : DriverM α} (hp : Prog.Only External p) : Prog.Only ReadsOnly p :=
  hp.mono fun _ h => h.inner.common.2

/-! ### Functions that are called under the mutex -/

theorem working_print (ch : Channel) (fmt : String) (args : List Arg) : Prog.Only Working (print ch fmt args) :=
  .perform trivial

theorem working_load (tag : Buf) {size : Nat} (b : Buffer size) (off len : Nat) :
    Prog.Only Working (load tag b off len) :=
  ⟨trivial, fun _ => trivial⟩

theorem working_store (tag : Buf) {size : Nat} (b : Buffer size) (off : Nat) (new : Bytes) :
    Prog.Only Working (store tag b off new) :=
  ⟨trivial, fun _ => trivial⟩

theorem working_copyPayload {size k : Nat} (body : Buffer size) (payload : Buffer k) (n : Nat) :
    Prog.Only Working (copyPayload body payload n) := by
  rw [copyPayload]
  split
  · exact (working_load _ _ _ _).bind fun _ => working_store _ _ _ _
  · trivial

theorem working_fillBody (cmd lo hi : UInt8) {k : Nat} (payload : Buffer k) (n : UInt16) (checksum : Bool)
    (blen : UInt16) : Prog.Only Working (fillBody cmd lo hi payload n checksum blen) := by
  apply (working_store _ _ _ _).bind
  intro _
  apply (working_store _ _ _ _).bind
  intro _
  apply (working_store _ _ _ _).bind
  intro _
  apply (working_copyPayload _ _ _).bind
  intro _
  cases checksum with
  | true => exact (working_load _ _ _ _).bind fun _ => working_store _ _ _ _
  | false => exact working_store _ _ _ _

theorem working_writeFrame (cmd : UInt8) (hdr : Bytes) {blen : Nat} (body : Buffer blen) :
    Prog.Only Working (writeFrame cmd hdr body) := by
  apply (working_load _ _ _ _).bind
  intro _
  apply (working_print _ _ _).bind
  intro _
  apply Prog.Only.perform_bind (by trivial)
  intro _
  split
  · exact (working_print _ _ _).bind fun _ => trivial
  · apply Prog.Only.perform_bind (by trivial)
    intro _
    apply (working_load _ _ _ _).bind
    intro _
    apply Prog.Only.perform_bind (by trivial)
    intro _
    split
    · exact (working_print _ _ _).bind fun _ => trivial
    · trivial

theorem working_gxfpSend (cmd0 cmd1 : UInt8) {k : Nat} (payload : Buffer k) (n : UInt16) (checksum : Bool) :
    Prog.Only Working (gxfpSend cmd0 cmd1 payload n checksum) := by
  rw [gxfpSend]
  split
  · trivial
  · apply Prog.Only.perform_bind (by trivial)
    intro _
    split
    · trivial
    · exact (working_fillBody _ _ _ _ _ _ _).bind fun _ => working_writeFrame _ _ _

theorem working_gxfpRecv : Prog.Only Working gxfpRecv := by
  apply Prog.Only.perform_bind (by trivial)
  intro a
  split
  · trivial
  · apply (working_print _ _ _).bind
    intro _
    split
    · trivial
    · split
      · trivial
      · apply Prog.Only.perform_bind (by trivial)
        intro _
        split
        · trivial
        · exact ⟨trivial, fun _ => ⟨trivial, fun _ => (working_print _ _ _).bind fun _ => trivial⟩⟩

theorem working_printByte {size : Nat} (out : Buffer size) (i : Nat) : Prog.Only Working (printByte out i) :=
  ⟨trivial, fun _ => working_store _ _ _ _⟩

theorem working_replayBody (n : Int) : Prog.Only Working (replayBody n) := by
  apply Prog.Only.perform_bind (by trivial)
  intro b
  split
  · exact ⟨trivial, fun _ => working_print _ _ _⟩
  · trivial

theorem working_replayStep (c : ReplayCmd) : Prog.Only Working (replayStep c) := by
  apply (working_gxfpSend _ _ _ _ _).bind
  intro ret
  split
  · exact working_print _ _ _
  · apply Prog.Only.perform_bind (by trivial)
    intro _
    apply Prog.Only.perform_bind (by trivial)
    intro a
    split
    · exact working_print _ _ _
    · apply (working_print _ _ _).bind
      intro _
      split
      · exact working_replayBody _
      · trivial

theorem working_cmdPayload (p : List Bytes) (payload : Buffer 256) (n : Nat) :
    Prog.Only Working (cmdPayload p payload n) := by
  induction p generalizing payload n with
  | nil => trivial
  | cons tok p ih =>
      rw [cmdPayload]
      split
      · split
        · exact ih payload n
        · split
          · trivial
          · exact (working_store _ _ _ _).bind fun _ => ih _ _
      · trivial

/-! ### Functions that leave the mutex alone -/

theorem inner_rawTokens (p : List Bytes) (n : Nat) : Prog.Only Inner (rawTokens p n) := by
  induction p generalizing n with
  | nil => trivial
  | cons tok p ih =>
      rw [rawTokens]
      split
      · split
        · exact ih n
        · split
          · trivial
          · exact .perform_bind ⟨trivial, trivial⟩ fun _ => ih _
      · trivial

theorem inner_gxfpCstestShow (P : Setup) : Prog.Only Inner (gxfpCstestShow P) := by
  apply Prog.Only.perform_bind ⟨trivial, trivial⟩
  intro mapped
  split
  · exact (inner_of_external (external_print _ _ _)).bind fun _ => trivial
  · apply Prog.Only.perform_bind ⟨trivial, trivial⟩
    intro _
    apply Prog.Only.perform_bind ⟨trivial, trivial⟩
    intro _
    apply (inner_of_external (external_print _ _ _)).bind
    intro _
    apply Prog.Only.perform_bind ⟨trivial, trivial⟩
    intro _
    apply (inner_of_external (external_samples _)).bind
    intro _
    apply (inner_of_external (external_cstestReport _ _ _)).bind
    intro _
    apply Prog.Only.perform_bind ⟨trivial, trivial⟩
    intro _
    exact (inner_of_external (external_print _ _ _)).bind fun _ => trivial

theorem inner_gxfpIrqlevelGet (P : Setup) : Prog.Only Inner (gxfpIrqlevelGet P) := by
  rw [gxfpIrqlevelGet]
  split
  · exact .perform_bind ⟨trivial, trivial⟩ fun _ => trivial
  · trivial

/-- A request of `padprobe`: an inner one, or a write of a register. -/
def OfPadprobe : Req → Prop
  | .writel _ _ => True
  | r => Inner r

theorem Inner.ofPadprobe {r : Req} (h : Inner r) : OfPadprobe r := by
  cases r with
  | writel addr v => trivial
  | _ => exact h

theorem Poking.ofPadprobe {r : Req} (h : Poking r) : OfPadprobe r := by
  cases r with
  | print ch fmt args | readl addr | sleep us | irqLevel => exact ⟨trivial, trivial⟩
  | writel addr v => trivial
  | _ => exact absurd h id

theorem OfPadprobe.ordinary {r : Req} (h : OfPadprobe r) : Ordinary r := by
  cases r with
  | writel addr v => trivial
  | lock | unlock | getDataReady | setDataReady v | sleepOnWq ms | wakeUp => exact absurd h id
  | _ => exact h.1

theorem ofPadprobe_gxfpPadprobeShow (P : Setup) : Prog.Only OfPadprobe (gxfpPadprobeShow P) := by
  have hexternal {α : Type} {p : DriverM α} (hp : Prog.Only External p) : Prog.Only OfPadprobe p :=
    hp.mono fun _ h => h.inner.ofPadprobe
  have hrestore (orig : List UInt32) : Prog.Only OfPadprobe (restorePads P.gpioCom0 orig) :=
    (poking_restorePads _ _).mono fun _ => Poking.ofPadprobe
  apply Prog.Only.perform_bind ⟨trivial, trivial⟩
  intro mapped
  split
  · exact (hexternal (external_print _ _ _)).bind fun _ => trivial
  · apply (hexternal (external_print _ _ _)).bind
    intro _
    apply (hexternal (external_checkPads _)).bind
    intro ok
    split
    · exact (hexternal (external_print _ _ _)).bind fun _ => trivial
    · apply Prog.Only.perform_bind ⟨trivial, trivial⟩
      intro _
      apply (hexternal (external_print _ _ _)).bind
      intro _
      apply Prog.Only.perform_bind ⟨trivial, trivial⟩
      intro _
      apply (hexternal (Prog.Only.iter (external_samplePads _) _ _)).bind
      intro _
      apply ((poking_padprobeUnlock _ _).mono fun _ => Poking.ofPadprobe).bind
      intro unlocked
      split
      · apply Prog.Only.bind
        · apply Prog.Only.perform_bind ⟨trivial, trivial⟩
          intro _
          apply (hexternal (Prog.Only.iter (external_samplePads _) _ _)).bind
          intro _
          apply Prog.Only.perform_bind ⟨trivial, trivial⟩
          intro _
          exact hexternal (external_printResampled _)
        · intro _
          exact (hrestore _).bind fun _ => trivial
      · exact (hrestore _).bind fun _ => trivial

/-! ### Operations -/

theorem common_waitDataReady (ms : Nat) : Prog.Only Common (waitDataReady ms) := by
  apply Prog.Only.perform_bind ⟨trivial, trivial⟩
  intro ready
  split
  · trivial
  · exact .perform ⟨trivial, trivial⟩

theorem common_cmdExchange (cmd0 cmd1 : Nat) (payload : Buffer 256) (n : Nat) :
    Prog.Only Common (cmdExchange cmd0 cmd1 payload n) := by
  have hunlock (ret : Int) : Prog.Only Common (mutexUnlock >>= fun _ => pure ret) :=
    .perform_bind ⟨trivial, trivial⟩ fun _ => trivial
  apply Prog.Only.perform_bind ⟨trivial, trivial⟩
  intro _
  apply Prog.Only.perform_bind ⟨trivial, trivial⟩
  intro _
  apply (common_of_working (working_gxfpSend _ _ _ _ _)).bind
  intro ret
  split
  · apply (common_waitDataReady _).bind
    intro _
    exact (common_of_working working_gxfpRecv).bind fun _ => hunlock ret
  · exact hunlock ret

theorem common_gxfpCmdWrite (u : UserBuf) : Prog.Only Common (gxfpCmdWrite u) := by
  rw [gxfpCmdWrite]
  split
  · trivial
  · split
    · trivial
    · split
      · trivial
      · apply (common_of_working (working_cmdPayload _ _ _)).bind
        intro parsed
        split
        · trivial
        · exact (common_cmdExchange _ _ _ _).bind fun _ => trivial

theorem common_rawTransfer (n : Nat) : Prog.Only Common (rawTransfer n) := by
  apply Prog.Only.perform_bind ⟨trivial, trivial⟩
  intro _
  apply Prog.Only.perform_bind ⟨trivial, trivial⟩
  intro a
  apply Prog.Only.perform_bind ⟨trivial, trivial⟩
  intro _
  apply Prog.Only.perform_bind ⟨trivial, trivial⟩
  intro _
  apply Prog.Only.perform_bind ⟨trivial, trivial⟩
  intro _
  exact (common_of_working (working_print _ _ _)).bind fun _ => trivial

theorem common_gxfpRawWrite (u : UserBuf) : Prog.Only Common (gxfpRawWrite u) := by
  rw [gxfpRawWrite]
  split
  · trivial
  · split
    · trivial
    · apply ((inner_rawTokens _ _).mono fun _ => Inner.common).bind
      intro parsed
      split
      · trivial
      · trivial
      · exact (common_rawTransfer _).bind fun _ => trivial

theorem common_gxfpRawRead (len off : Nat) : Prog.Only Common (gxfpRawRead len off) := by
  apply Prog.Only.perform_bind ⟨trivial, trivial⟩
  intro _
  apply Prog.Only.perform_bind ⟨trivial, trivial⟩
  intro n
  apply Prog.Only.perform_bind ⟨trivial, trivial⟩
  intro ok
  split
  · exact .perform_bind ⟨trivial, trivial⟩ fun _ => trivial
  · apply (common_of_working (Prog.Only.fold working_printByte _ _)).bind
    intro _
    apply (common_of_working (working_store _ _ _ _)).bind
    intro _
    apply Prog.Only.perform_bind ⟨trivial, trivial⟩
    intro _
    exact (common_of_working (working_load _ _ _ _)).bind fun _ => trivial

theorem common_gxfpReplayShow (P : Setup) : Prog.Only Common (gxfpReplayShow P) := by
  apply (common_of_working (working_print _ _ _)).bind
  intro _
  apply Prog.Only.perform_bind ⟨trivial, trivial⟩
  intro _
  apply (common_of_working (Prog.Only.fold (fun _ c => working_replayStep c) replaySeq ())).bind
  intro _
  exact .perform_bind ⟨trivial, trivial⟩ fun _ => trivial

end Functions

/-- **Each operation** but `padprobe` and the writes to `enable` and `reset` leaves the interrupt handler's state, the enable GPIO and the registers alone. -/
theorem common_prog (P : Setup) {op : DebugOp} (hop : ∀ v, op ≠ .enableSet v ∧ op ≠ .resetSet v) (hpad : op ≠ .padprobe) :
    Prog.Only Common (op.prog P) := by
  cases op with
  | cmdWrite u => exact common_gxfpCmdWrite u
  | rawWrite u => exact common_gxfpRawWrite u
  | rawRead len off => exact common_gxfpRawRead len off
  | replay => exact common_gxfpReplayShow P
  | dsm h => exact (peeks_gxfpDsmShow h).mono fun _ hr => hr.inner.common
  | ctlregs => exact (peeks_gxfpCtlregsShow P).mono fun _ hr => hr.inner.common
  | cstest => exact (inner_gxfpCstestShow P).mono fun _ => Inner.common
  | padprobe => exact absurd rfl hpad
  | irqlevelGet => exact (inner_gxfpIrqlevelGet P).mono fun _ => Inner.common
  | enableGet | irqcountGet => exact .perform_bind ⟨trivial, trivial⟩ fun _ => trivial
  | enableSet val => exact absurd rfl (hop val).1
  | resetSet val => exact absurd rfl (hop val).2

theorem ordinary_prog (P : Setup) {op : DebugOp} (hop : ∀ v, op ≠ .enableSet v ∧ op ≠ .resetSet v) :
    Prog.Only Ordinary (op.prog P) := by
  by_cases hpad : op = .padprobe
  · subst hpad
    exact (ofPadprobe_gxfpPadprobeShow P).mono fun _ => OfPadprobe.ordinary
  · exact (common_prog P hop hpad).mono fun _ => And.left

theorem external_resetSet (P : Setup) (val : UInt64) :
    Prog.Only (fun r => External r ∨ ∃ v, r = .setEnable v) (gxfpResetSet P val) := by
  refine .perform_bind (Or.inr ⟨_, rfl⟩) fun _ => .perform_bind (Or.inl trivial) fun _ => ?_
  refine .perform_bind (Or.inr ⟨_, rfl⟩) fun _ => .perform_bind (Or.inl trivial) fun _ => ?_
  exact ((external_printReset P _).mono fun _ => Or.inl).bind fun _ => trivial

/-- No operation makes the interrupt handler's requests. -/
theorem outsideIsr_prog (P : Setup) (op : DebugOp) : Prog.Only OutsideIsr (op.prog P) := by
  cases op with
  | enableSet val => exact ⟨trivial, fun _ => trivial⟩
  | resetSet val =>
      apply (external_resetSet P val).mono
      intro r h
      rcases h with hr | ⟨v, rfl⟩
      · exact hr.poking.ordinary.outsideIsr
      · trivial
  | _ => exact (ordinary_prog P (by simp)).mono fun _ => Ordinary.outsideIsr

/-- **Only `padprobe`** writes registers. -/
theorem readsOnly_prog (P : Setup) {op : DebugOp} (hop : op ≠ .padprobe) : Prog.Only ReadsOnly (op.prog P) := by
  cases op with
  | enableSet val => exact ⟨trivial, fun _ => trivial⟩
  | resetSet val =>
      apply (external_resetSet P val).mono
      intro r h
      rcases h with hr | ⟨v, rfl⟩
      · exact hr.inner.common.2
      · trivial
  | _ => exact (common_prog P (by simp) hop).mono fun _ => And.right

end GoodixSpi.Kernel
