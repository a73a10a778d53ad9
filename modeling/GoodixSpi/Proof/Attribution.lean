import GoodixSpi.Proof.Sync
import GoodixSpi.Tools.Refseq

/-!
# Which command a packet answers

The sensor answers a command frame with two packets, an acknowledgement and a reply. `gxfp_cmd_write`, `gxfp_replay_show` and `refseq.py` read one packet for each command they send, so the reply to the first command is still queued when the second is sent, and is what the second step reads.
-/

namespace GoodixSpi.Proof

open Wire Interaction

/-! ### The sensor -/

/-- What the firmware answers, given the bodies of all frames received so far, newest first. -/
structure Firmware where
  ack : List Bytes → Packet
  reply : List Bytes → Packet
  ack_body : ∀ body earlier, ∃ status, (ack (body :: earlier)).body = [0xB0, 0x03, 0x00, body.headD 0, status]

/-- The sensor: the frames received, newest first; the body length announced by a header that was just written; the output queue, each byte with the index of the command it answers; and, for each byte read so far, how many commands had been received by then and the index of the command it answers. -/
structure Device where
  received : List Bytes
  announced : Option Nat
  fifo : List (UInt8 × Nat)
  served : List (Nat × Nat)

/-- Every byte read answers the command received last. -/
def Attributed (s : Device) : Prop := ∀ x ∈ s.served, x.1 = x.2 + 1

namespace Device

def reset : Device := ⟨[], none, [], []⟩

def receive (F : Firmware) (s : Device) (body : Bytes) : Device :=
  let frames := body :: s.received
  { s with
    received := frames
    announced := none
    fifo := s.fifo ++ ((F.ack frames).wire ++ (F.reply frames).wire).map fun b => (b, s.received.length) }

def serve (s : Device) (n : Nat) : Device :=
  { s with
    fifo := s.fifo.drop n
    served := s.served ++ (s.fifo.take n).map fun x => (s.received.length, x.2) }

/-- The body length announced by a transfer that is a transport header. -/
def announces (mosi : Bytes) : Option Nat := if mosi.length = 4 then Tools.checkHeader mosi else none

/-- One transfer: the body of an announced frame, a header, or else a read. -/
def clock (F : Firmware) (s : Device) (mosi : Bytes) : Device :=
  match s.announced with
  | some n => if mosi.length = n then s.receive F mosi else { s with announced := none }
  | none =>
      match announces mosi with
      | some n => { s with announced := some n }
      | none => s.serve mosi.length

/-- What the sensor has to say in that transfer. -/
def miso (s : Device) (mosi : Bytes) : Bytes :=
  if s.announced = none ∧ announces mosi = none then s.fifo.map Prod.fst else []

/-- The two transfers of a framed command. -/
def command (F : Firmware) (s : Device) (body : Bytes) : Device :=
  (s.clock F (Tools.spiHeader body.length)).clock F body

end Device

/-- The sensor under the driver; nothing fails. -/
def deviceEnv (F : Firmware) : Kernel.Env Device where
  kmalloc _ s := (true, s)
  ioremap _ s := (true, s)
  readl _ s := (0, s)
  writel _ _ s := s
  sleep _ s := s
  irqLevel s := (true, s)
  xfer x mosi s :=
    (⟨0, readQueue (s.miso mosi) x.len, by rw [readQueue_length], fun _ _ => readQueue_length _ _,
      fun _ h => absurd rfl h⟩, s.clock F mosi)

/-- The sensor under the tools, with any interrupt line and any clock. -/
def deviceHost (F : Firmware) (irq : Device → Bool) (ms : Device → Nat) : Tools.Host Device where
  irqGet s := (irq s, s)
  duplex tx s := (⟨readQueue (s.miso tx) tx.length, readQueue_length _ _⟩, s.clock F tx)
  sleep _ s := s
  clockMs s := (ms s, s)

/-! ### Its transfers -/

namespace Device

variable {F : Firmware} {s : Device}

theorem announces_spiHeader (n : Nat) : announces (Tools.spiHeader n) = some (n % 65536) := by
  rw [announces, if_pos (show (Tools.spiHeader n).length = 4 from rfl)]
  exact Tools.checkHeader_spiHeader n _ _ (Or.inl rfl)

theorem announces_zeros (n : Nat) : announces (List.replicate n 0) = none := by
  rw [announces, List.length_replicate]
  by_cases hn : n = 4
  · subst hn
    rfl
  · rw [if_neg hn]

theorem clock_zeros (hs : s.announced = none) (n : Nat) : s.clock F (List.replicate n 0) = s.serve n := by
  rw [clock, hs]
  dsimp only
  rw [announces_zeros, List.length_replicate]

theorem miso_zeros (hs : s.announced = none) (n : Nat) : s.miso (List.replicate n 0) = s.fifo.map Prod.fst :=
  if_pos ⟨hs, announces_zeros n⟩

theorem command_eq (hs : s.announced = none) {body : Bytes} (hbody : body.length ≤ Kernel.GXFP_BUF_MAX) :
    s.command F body = s.receive F body := by
  have hlen : body.length % 65536 = body.length := by
    rw [Kernel.GXFP_BUF_MAX] at hbody
    omega
  have hhdr : s.clock F (Tools.spiHeader body.length) = { s with announced := some body.length } := by
    rw [clock, hs]
    dsimp only
    rw [announces_spiHeader, hlen]
  rw [command, hhdr, clock]
  dsimp only
  rw [if_pos rfl]
  rfl

theorem serve_wrong {x : UInt8 × Nat} {n : Nat} (hx : x ∈ s.fifo.take n) (htag : s.received.length ≠ x.2 + 1) :
    ¬ Attributed (s.serve n) := by
  intro hall
  apply htag
  exact hall (s.received.length, x.2) (List.mem_append_right _ (List.mem_map.mpr ⟨x, hx, rfl⟩))

theorem clock_wrong (hs : ¬ Attributed s) (mosi : Bytes) : ¬ Attributed (s.clock F mosi) := by
  have hmore (more : List (Nat × Nat)) : ¬ ∀ x ∈ s.served ++ more, x.1 = x.2 + 1 := by
    intro hall
    exact hs fun x hx => hall x (List.mem_append_left more hx)
  rw [clock]
  split
  · split
    · exact hs
    · exact hs
  · split
    · exact hs
    · exact hmore _

theorem serve_right (hs : Attributed s) (htag : ∀ x ∈ s.fifo, s.received.length = x.2 + 1) (n : Nat) :
    Attributed (s.serve n) := by
  intro x hx
  rcases List.mem_append.mp hx with hx | hx
  · exact hs x hx
  · obtain ⟨y, hy, rfl⟩ := List.mem_map.mp hx
    exact htag y (List.mem_of_mem_take hy)

end Device

/-! ### One command and one read -/

/-- After one command and one packet read: the second packet is still queued. -/
structure ReplyQueued (s : Device) : Prop where
  received : s.received.length = 1
  announced : s.announced = none
  queued : s.fifo ≠ []
  tag : ∀ x ∈ s.fifo, x.2 = 0
  served : Attributed s

/-- The sensor after `n` commands, each with its read. -/
def Phase : Nat → Device → Prop
  | 0, s => s = Device.reset
  | 1, s => ReplyQueued s
  | _ + 2, s => ¬ Attributed s

theorem Phase.attributed_iff {n : Nat} {s : Device} (h : Phase n s) : Attributed s ↔ n ≤ 1 := by
  match n, h with
  | 0, h =>
      rw [show s = Device.reset from h]
      exact iff_of_true (fun x hx => absurd hx List.not_mem_nil) (by omega)
  | 1, h => exact iff_of_true h.served (Nat.le_refl 1)
  | n + 2, h => exact iff_of_false h (by omega)

section Read

variable {F : Firmware}

theorem ReplyQueued.serve {s : Device} (hreceived : s.received.length = 1) (hannounced : s.announced = none)
    (htag : ∀ x ∈ s.fifo, x.2 = 0) (hserved : Attributed s) {n : Nat} (hn : n < s.fifo.length) :
    ReplyQueued (s.serve n) := by
  refine ⟨hreceived, hannounced, ?_, fun x hx => htag x (List.mem_of_mem_drop hx), ?_⟩
  · intro hnil
    have hlen := congrArg List.length hnil
    rw [Device.serve, List.length_drop, List.length_nil] at hlen
    omega
  · apply Device.serve_right hserved
    intro x hx
    rw [htag x hx, hreceived]

/-- Whatever is read after the second command begins with a byte of the first one's reply. -/
theorem ReplyQueued.serve_receive {s : Device} (h : ReplyQueued s) (body : Bytes) {n : Nat} (hn : 0 < n) :
    ¬ Attributed ((s.receive F body).serve n) := by
  obtain ⟨x, rest, hfifo⟩ := List.exists_cons_of_ne_nil h.queued
  obtain ⟨n, rfl⟩ : ∃ k, n = k + 1 := ⟨n - 1, by omega⟩
  apply Device.serve_wrong (x := x)
  · rw [Device.receive, hfifo]
    exact List.mem_cons_self
  · rw [h.tag x (hfifo ▸ List.mem_cons_self), Device.receive, List.length_cons, h.received]
    decide

section First

variable (F) (body : Bytes)

theorem fifo_first : (Device.reset.receive F body).fifo.map Prod.fst = (F.ack [body]).wire ++ (F.reply [body]).wire := by
  rw [Device.receive, Device.reset]
  dsimp only
  rw [List.nil_append, List.map_map]
  exact List.map_id _

theorem tag_first : ∀ x ∈ (Device.reset.receive F body).fifo, x.2 = 0 := by
  intro x hx
  obtain ⟨b, -, rfl⟩ := List.mem_map.mp hx
  rfl

theorem length_first : 13 ≤ (Device.reset.receive F body).fifo.length := by
  obtain ⟨status, hack⟩ := F.ack_body body []
  rw [← List.length_map Prod.fst, fifo_first]
  simp only [Packet.wire, Packet.header, hack, List.length_append, List.length_cons, List.length_nil]
  omega

theorem checkSpiHdr_first :
    Kernel.gxfpCheckSpiHdr (readQueue ((Device.reset.receive F body).miso (List.replicate 4 0)) 4) = (5 : Nat) := by
  obtain ⟨status, hack⟩ := F.ack_body body []
  rw [Device.miso_zeros rfl, readQueue_of_le]
  · rw [fifo_first, Packet.take_wire, Packet.gxfpCheckSpiHdr_header, hack]
    rfl
  · rw [List.length_map]
    have hlen := length_first F body
    omega

end First

/-- **One step.** A command and the read of one header, and of the body it announces. -/
theorem Phase.step {n : Nat} {s : Device} (h : Phase n s) {body : Bytes} (hbody : body.length ≤ Kernel.GXFP_BUF_MAX) :
    Phase (n + 1) ((s.command F body).clock F (List.replicate 4 0)) ∧
    ∀ k : Nat, Kernel.gxfpCheckSpiHdr (readQueue ((s.command F body).miso (List.replicate 4 0)) 4) = k →
      Phase (n + 1) (((s.command F body).clock F (List.replicate 4 0)).clock F (List.replicate k 0)) := by
  match n, h with
  | 0, h =>
      obtain rfl : s = Device.reset := h
      have hcmd : Device.reset.command F body = Device.reset.receive F body := Device.command_eq rfl hbody
      have hlen := length_first F body
      have hserved : Attributed (Device.reset.receive F body) := fun x hx => absurd hx List.not_mem_nil
      have hfirst := ReplyQueued.serve rfl rfl (tag_first F body) hserved (n := 4) (by omega)
      rw [hcmd, Device.clock_zeros rfl]
      refine ⟨hfirst, ?_⟩
      intro k hk
      obtain rfl : 5 = k := Int.ofNat_inj.mp ((checkSpiHdr_first F body).symm.trans hk)
      rw [Device.clock_zeros hfirst.announced]
      apply ReplyQueued.serve rfl hfirst.announced hfirst.tag hfirst.served
      rw [Device.serve, List.length_drop]
      omega
  | 1, h =>
      have hcmd : s.command F body = s.receive F body := Device.command_eq h.announced hbody
      have hwrong := h.serve_receive (F := F) body (n := 4) (by decide)
      rw [hcmd, Device.clock_zeros rfl]
      exact ⟨hwrong, fun k _ => Device.clock_wrong hwrong _⟩
  | n + 2, h =>
      have hwrong : ¬ Attributed ((s.command F body).clock F (List.replicate 4 0)) :=
        Device.clock_wrong (Device.clock_wrong (Device.clock_wrong h _) _) _
      exact ⟨hwrong, fun k _ => Device.clock_wrong hwrong _⟩

end Read

/-! ### The driver -/

section Driver

open Kernel

/-- The bytes a transfer clocks out, when they are not the shared buffer's. -/
def clocksOut (x : Xfer) : Bytes :=
  match x.tx with
  | .bytes b => b
  | .zeros => List.replicate x.len 0
  | .txbuf => []

/-- The contract of code that talks to the sensor; the mode is the sensor. -/
def sensing (F : Firmware) : Contract Req Ans Device where
  may _ r := match r with | .spi x => x.tx ≠ .txbuf | _ => True
  rely s r a := match r, a with
    | .kmalloc _, ok => ok = true
    | .spi x, a => a.ret = 0 ∧ a.data = readQueue (s.miso (clocksOut x)) x.len
    | _, _ => True
  next s r _ := match r with | .spi x => s.clock F (clocksOut x) | _ => s

variable {F : Firmware}

theorem sensing_ignoresPlain : IgnoresPlain (sensing F) := by
  intro s r hr
  cases r with
  | spi x => exact absurd hr id
  | _ => exact ⟨trivial, fun _ => rfl⟩

theorem sensing_send {s : Device} {Q : Device → Int → Prop}
    (hQ : ∀ body : Bytes, body.length ≤ GXFP_BUF_MAX → Q (s.command F body) 0) : SendSpec (sensing F) s Q where
  refused _ hfail := absurd hfail Bool.false_ne_true
  hdr _ _ := by simp [sensing, frameHdrXfer]
  failed _ _ ha hret := absurd ha.1 hret
  body body a hbody _ _ := by
    refine ⟨by simp [sensing, frameBodyXfer], ?_⟩
    intro b hb
    rw [hb.1]
    exact hQ body hbody

theorem sensing_recv {n : Nat} {s : Device} (h : Phase n s) {body : Bytes} (hbody : body.length ≤ GXFP_BUF_MAX)
    {Q : Device → Int → Prop} (hQ : ∀ s' ret, Phase (n + 1) s' → Q s' ret) :
    RecvSpec (sensing F) (s.command F body) Q := by
  obtain ⟨hstop, hread⟩ := h.step (F := F) hbody
  refine ⟨by simp [sensing, recvHdrXfer], fun _ ret _ _ => hQ _ ret hstop, ?_⟩
  intro a k _ _ hk ha _
  refine ⟨by simp [sensing, recvBodyXfer], ?_⟩
  intro b _
  have hphase := hread k (ha.2 ▸ hk)
  exact ⟨fun _ => hQ _ _ hphase, fun _ => ⟨trivial, trivial, fun _ => hQ _ _ hphase⟩⟩

theorem sensing_replay {n : Nat} {s : Device} (h : Phase n s) {body : Bytes} (hbody : body.length ≤ GXFP_BUF_MAX) :
    ReplaySpec (sensing F) (s.command F body) (Phase (n + 1)) := by
  obtain ⟨hstop, hread⟩ := h.step (F := F) hbody
  refine ⟨by simp [sensing, replayHdrXfer], fun _ _ _ => hstop, ?_⟩
  intro a k _ _ hk ha _
  refine ⟨by simp [sensing, replayBodyXfer], ?_⟩
  intro b _
  have hbody := hread k (ha.2 ▸ hk)
  exact ⟨fun _ => hbody, fun _ => ⟨trivial, fun _ => hbody⟩⟩

theorem sensing_cmdWrite {n : Nat} {s : Device} (h : Phase n s) (u : UserBuf) :
    wp (sensing F) (gxfpCmdWrite u) s fun s' _ => Phase (n + u.accepted.toNat) s' := by
  apply wp_gxfpCmdWrite sensing_ignoresPlain (Q := fun s' => Phase (n + u.accepted.toNat) s') _ trivial
  · intro haccepted
    rw [haccepted]
    apply sensing_send
    intro body hbody
    refine ⟨fun hret => absurd rfl hret, fun _ => ?_⟩
    exact sensing_recv h hbody fun _ _ h' => ⟨trivial, h'⟩
  · intro hrejected
    rw [hrejected]
    exact h

theorem sensing_replaySteps (cs : List ReplayCmd) (hcs : ∀ c ∈ cs, c.n.toNat ≤ 8) {n : Nat} {s : Device}
    (h : Phase n s) :
    wp (sensing F) (Prog.fold (fun _ c => replayStep c) () cs) s fun s' _ => Phase (n + cs.length) s' := by
  induction cs generalizing n s with
  | nil => exact h
  | cons c cs ih =>
      have hstep : wp (sensing F) (replayStep c) s fun s' _ => Phase (n + 1) s' := by
        apply wp_replayStep sensing_ignoresPlain (hcs c List.mem_cons_self)
        apply sensing_send
        intro body hbody
        exact ⟨fun hret => absurd rfl hret, fun _ => sensing_replay h hbody⟩
      apply wp_bind hstep
      intro s' _ h'
      rw [List.length_cons, ← Nat.add_assoc, Nat.add_right_comm]
      exact ih (fun c' hc' => hcs c' (List.mem_cons_of_mem c hc')) h'

theorem sensing_replayShow (P : Setup) {n : Nat} {s : Device} (h : Phase n s) :
    wp (sensing F) (gxfpReplayShow P) s fun s' _ => Phase (n + replaySeq.length) s' := by
  apply wp_plain_bind sensing_ignoresPlain (by trivial)
  intro _
  apply wp_perform_bind trivial
  intro _ _
  apply wp_bind (sensing_replaySteps replaySeq (by decide) h)
  intro s' _ h'
  exact wp_perform_bind trivial fun _ _ => h'

theorem run_sensing {α : Type} {p : DriverM α} {w : World Device} {Q : Device → α → Prop}
    (hp : wp (sensing F) p w.env Q) :
    Q (p.run (handle (deviceEnv F) 0) w).2.env (p.run (handle (deviceEnv F) 0) w).1 := by
  have hrun := wp_run (h := handle (deviceEnv F) 0) (I := fun s (w : World Device) => w.env = s) ?_ hp rfl
  · obtain ⟨s, hs, hQ⟩ := hrun
    rw [hs]
    exact hQ
  · intro s w r hs hmay
    subst hs
    cases r with
    | spi x =>
        have hout : mosi w.g x = clocksOut x := by
          rw [mosi, clocksOut]
          cases htx : x.tx with
          | txbuf => exact absurd htx hmay
          | _ => rfl
        refine ⟨⟨rfl, ?_⟩, ?_⟩
        · show readQueue (w.env.miso (mosi w.g x)) x.len = _
          rw [hout]
        · show w.env.clock F (mosi w.g x) = _
          rw [hout]
          rfl
    | kmalloc size => exact ⟨rfl, rfl⟩
    | sleepOnWq ms => exact ⟨trivial, ite_self _⟩
    | _ => exact ⟨trivial, rfl⟩

/-- What issues commands under the driver: a write to `cmd`, or a pass of `replay`. -/
inductive Issue where
  | cmd (u : UserBuf)
  | replay

def Issue.op : Issue → DebugOp
  | cmd u => .cmdWrite u
  | replay => .replay

def Issue.commands : Issue → Nat
  | cmd u => u.accepted.toNat
  | replay => replaySeq.length

/-- **Every run.** A session keeps count of the commands it issues. -/
theorem runOps_phase (P : Setup) (steps : List Issue) {n : Nat} {w : World Device} (h : Phase n w.env) :
    Phase (n + (steps.map Issue.commands).sum) (runOps (deviceEnv F) P (steps.map Issue.op) w).2.env := by
  induction steps generalizing n w with
  | nil => exact h
  | cons step steps ih =>
      have hstep : Phase (n + step.commands) (runOp (deviceEnv F) P step.op w).2.env := by
        cases step with
        | cmd u => exact run_sensing (sensing_cmdWrite h u)
        | replay => exact run_sensing (sensing_replayShow P h)
      rw [List.map_cons, List.sum_cons, ← Nat.add_assoc]
      exact ih hstep

end Driver

/-! ### `refseq.py` -/

section Tool

open Tools

variable (F : Firmware) (irq : Device → Bool) (ms : Device → Nat)

theorem makeHeader_eq (n : Nat) : Refseq.makeHeader 0xA0 n = spiHeader n := by
  have hhead : ((PKT_MSG <<< 4) &&& 0xF0) ||| (0 &&& 0x0F) = 0xA0 := by decide
  have hnat : UInt8.toNat 0xA0 = 0xA0 := rfl
  simp only [Refseq.makeHeader, spiHeader, hhead, and_ff, shiftRight_8, total_cons, total_nil, toNat_ofNat_mod, hnat,
    List.cons_append, List.nil_append, List.cons.injEq, and_true, true_and]
  exact ⟨rfl, ofNat_congr (by omega)⟩

theorem run_write (payload : Bytes) (tag : String) (s : Session Device) :
    ((Refseq.write payload tag).run (handleHost (deviceHost F irq ms)) s).2.host = s.host.command F payload := by
  rw [Refseq.write, makeHeader_eq]
  rfl

theorem run_waitIrq (level : Bool) (polls : Nat) (s : Session Device) :
    ((waitIrq level polls).run (handleHost (deviceHost F irq ms)) s).2.host = s.host := by
  induction polls generalizing s with
  | zero => rfl
  | succ polls ih =>
      show (Prog.run _ (if irq s.host = level then pure true else _) s).2.host = s.host
      by_cases hlevel : irq s.host = level
      · rw [if_pos hlevel]
        rfl
      · rw [if_neg hlevel]
        exact ih _

variable {F irq ms}

theorem run_wrong {α : Type} (p : HostM α) {s : Session Device} (hs : ¬ Attributed s.host) :
    ¬ Attributed (p.run (handleHost (deviceHost F irq ms)) s).2.host := by
  apply Prog.run_keeps (I := fun s : Session Device => ¬ Attributed s.host) _ p hs
  intro r s hs
  cases r with
  | duplex tx => exact Device.clock_wrong hs tx
  | _ => exact hs

theorem run_query (body : Bytes) (tag readTag : String) (polls : Nat) {s : Session Device}
    (hs : ¬ Attributed ((s.host.command F body).clock F (List.replicate 4 0))) :
    ¬ Attributed ((Refseq.query body tag readTag polls).run (handleHost (deviceHost F irq ms)) s).2.host := by
  have hwrite := run_write F irq ms body tag s
  rw [Refseq.query, Prog.run_bind, Prog.run_bind]
  generalize ((Refseq.write body tag).run (handleHost (deviceHost F irq ms)) s).2 = s' at hwrite ⊢
  have hwait := run_waitIrq F irq ms true polls s'
  rw [Refseq.read, Prog.run_bind]
  generalize (waitIrq true polls).run (handleHost (deviceHost F irq ms)) s' = woken at hwait ⊢
  apply run_wrong
  show ¬ Attributed (Prog.run _ _ (handleHost (deviceHost F irq ms) (.duplex (zeroBytes 4)) woken.2).2).2.host
  apply run_wrong
  show ¬ Attributed (woken.2.host.clock F (List.replicate 4 0))
  rw [hwait, hwrite]
  exact hs

theorem three_wrong {first second third : Bytes} (hfirst : first.length ≤ Kernel.GXFP_BUF_MAX)
    (hsecond : second.length ≤ Kernel.GXFP_BUF_MAX) (hthird : third.length ≤ Kernel.GXFP_BUF_MAX) :
    ¬ Attributed ((((Device.reset.command F first).command F second).command F third).clock F (List.replicate 4 0)) := by
  rw [Device.command_eq rfl hfirst, Device.command_eq rfl hsecond, Device.command_eq rfl hthird, Device.clock_zeros rfl]
  apply Device.serve_wrong (x := ((F.ack [first]).h0, 0))
  · exact List.mem_cons_self
  · show (3 : Nat) ≠ 0 + 1
    decide

theorem run_probe (polls : Nat) (printed : List (String × List Shown)) :
    ¬ Attributed ((Refseq.probe polls).run (handleHost (deviceHost F irq ms)) ⟨Device.reset, printed⟩).2.host := by
  rw [Refseq.probe, Prog.run_bind]
  have hfirst := run_write F irq ms Refseq.unlockTls "unlockTLS" ⟨Device.reset, printed⟩
  generalize ((Refseq.write Refseq.unlockTls "unlockTLS").run (handleHost (deviceHost F irq ms))
    ⟨Device.reset, printed⟩).2 = s at hfirst ⊢
  show ¬ Attributed (Prog.run _ (Refseq.write Refseq.mcuConfig "mcuConfig" >>= _) s).2.host
  rw [Prog.run_bind]
  have hsecond := run_write F irq ms Refseq.mcuConfig "mcuConfig" s
  generalize ((Refseq.write Refseq.mcuConfig "mcuConfig").run (handleHost (deviceHost F irq ms)) s).2 = s' at hsecond ⊢
  show ¬ Attributed (Prog.run _ (Refseq.query Refseq.getEvkVersion "getEvkVersion" "evkVersion" polls >>= _) s').2.host
  rw [Prog.run_bind]
  apply run_wrong
  apply run_query
  rw [hsecond, hfirst]
  exact three_wrong (by decide) (by decide) (by decide)

end Tool

/-! ### Sessions -/

/-- **Attribution of replies.** From a sensor with nothing queued, every byte read in a session of `cmd` writes and `replay` passes answers the command sent last if and only if the session issues at most one command; `refseq.py`'s probe reads bytes that answer earlier ones, whatever the interrupt line does. -/
theorem replies_attributed_iff (F : Firmware) (P : Kernel.Setup) (g : Kernel.Gxfp) (log : List Kernel.Entry)
    (steps : List Issue) (irq : Device → Bool) (ms : Device → Nat) (polls : Nat)
    (printed : List (String × List Tools.Shown)) :
    (Attributed (Kernel.runOps (deviceEnv F) P (steps.map Issue.op) ⟨g, Device.reset, log⟩).2.env ↔
        (steps.map Issue.commands).sum ≤ 1) ∧
      ¬ Attributed ((Tools.Refseq.probe polls).run (Tools.handleHost (deviceHost F irq ms))
        ⟨Device.reset, printed⟩).2.host := by
  refine ⟨?_, run_probe polls printed⟩
  have hphase := runOps_phase (F := F) P steps (n := 0) (w := ⟨g, Device.reset, log⟩) rfl
  rw [Nat.zero_add] at hphase
  exact hphase.attributed_iff

def terse : Firmware where
  ack frames := .message [0xB0, 0x03, 0x00, (frames.headD []).headD 0, 0x01] (by simp)
  reply _ := .message [42] (by decide)
  ack_body _ _ := ⟨0x01, rfl⟩

/-- `a 4` and `8 1` written to `cmd`. -/
def evkVersion : Kernel.UserBuf := .text [0x61, 0x20, 0x34]

def chipRegRead : Kernel.UserBuf := .text [0x38, 0x20, 0x31]

/-- The second command reads the five bytes of the first one's reply. -/
theorem second_command_reads_first_reply :
    (Kernel.runOps (deviceEnv terse) {} [.cmdWrite evkVersion, .cmdWrite chipRegRead]
        (Kernel.probed Device.reset)).2.env.served = List.replicate 9 (1, 0) ++ List.replicate 5 (2, 0) ∧
      ¬ Attributed (Kernel.runOps (deviceEnv terse) {} [.cmdWrite evkVersion, .cmdWrite chipRegRead]
        (Kernel.probed Device.reset)).2.env := by
  have hserved : (Kernel.runOps (deviceEnv terse) {} [.cmdWrite evkVersion, .cmdWrite chipRegRead]
      (Kernel.probed Device.reset)).2.env.served = List.replicate 9 (1, 0) ++ List.replicate 5 (2, 0) := by
    decide +kernel
  refine ⟨hserved, ?_⟩
  intro hall
  rw [Attributed, hserved] at hall
  exact absurd (hall (2, 0) (by decide)) (by decide)

end GoodixSpi.Proof
