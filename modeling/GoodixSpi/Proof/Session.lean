import GoodixSpi.Proof.CmdText
import GoodixSpi.Proof.Interrupts
import GoodixSpi.Proof.RawRead
import GoodixSpi.Proof.Receivers

/-!
# A session over the driver and a session over spidev

Two ways lead to the same device: texts written to `cmd`, and `gxfp.py` calling `Sensor.send` and `Sensor.read_packet`. A `Peripheral` is what both reach, a machine that answers transfers and drives the interrupt line. `exchange` is the conversation it sees, and each side is shown to hold it, so that a whole session leaves the device in the same state and the last body the tool was given is what `raw` shows.
-/

namespace GoodixSpi.Proof

open Wire Interaction Tools

/-- A device behind a chip-select: the level of its interrupt line and what it clocks out for a transfer. -/
structure Peripheral (σ : Type) where
  line : σ → Bool
  clock : (tx : Bytes) → σ → { rx : Bytes // rx.length = tx.length } × σ

variable {σ : Type} (D : Peripheral σ)

/-- The driver's environment with the device on its bus; nothing else in it fails. -/
def Peripheral.env : Kernel.Env σ where
  kmalloc _ s := (true, s)
  ioremap _ s := (true, s)
  readl _ s := (0, s)
  writel _ _ s := s
  sleep _ s := s
  irqLevel s := (D.line s, s)
  xfer x mosi s :=
    let r := D.clock (Kernel.padTo x.len mosi) s
    have hlen : r.1.1.length = x.len := r.1.2.trans (Kernel.padTo_length _ _)
    (⟨0, r.1.1, Nat.le_of_eq hlen, fun _ _ => hlen, fun _ h => absurd rfl h⟩, r.2)

/-- The tools' host with the device on its bus. -/
def Peripheral.host : Host σ where
  irqGet s := (D.line s, s)
  duplex := D.clock
  sleep _ s := s
  clockMs s := (0, s)

/-! ### One exchange -/

structure Command where
  cmd0 : Nat
  cmd1 : Nat
  payload : Bytes

def Command.body (c : Command) : Bytes := message c.cmd0 c.cmd1 c.payload

def Peripheral.frame (c : Command) (s : σ) : σ :=
  (D.clock c.body (D.clock (spiHeader c.body.length) s).2).2

/-- A read of a packet: the body if the header announces one that fits. -/
def Peripheral.reply (s : σ) : Option Bytes × σ :=
  let h := D.clock (zeroBytes 4) s
  match checkHeader h.1.1 with
  | none => (none, h.2)
  | some n =>
      if n = 0 ∨ n > 4096 then (none, h.2)
      else
        let b := D.clock (zeroBytes n) h.2
        (some b.1.1, b.2)

def exchange (c : Command) (s : σ) : Option Bytes × σ := D.reply (D.frame c s)

/-- A session: every command's reply, and the device after the last. -/
def exchanges : List Command → σ → List (Option Bytes) × σ
  | [], s => ([], s)
  | c :: cs, s =>
      let first := exchange D c s
      let rest := exchanges cs first.2
      (first.1 :: rest.1, rest.2)

/-- The device raises its line after every command of the session. -/
def Attentive : List Command → σ → Prop
  | [], _ => True
  | c :: cs, s => D.line (D.frame c s) = true ∧ Attentive cs (exchange D c s).2

theorem attentive_of_line (hline : ∀ s, D.line s = true) (cmds : List Command) (s : σ) : Attentive D cmds s := by
  induction cmds generalizing s with
  | nil => trivial
  | cons c cmds ih => exact ⟨hline _, ih _⟩

/-! ### The tool's side -/

/-- A command and the wait for its reply. -/
def ask (polls : Nat) (c : Command) : HostM (Option (Bytes × Bytes)) := do
  Sensor.send c.cmd0 c.cmd1 c.payload
  Sensor.readPacket polls

def converse (polls : Nat) : List Command → HostM (List (Option (Bytes × Bytes)))
  | [] => pure []
  | c :: cs => do
      let r ← ask polls c
      let rs ← converse polls cs
      pure (r :: rs)

theorem run_send (c : Command) (s : Session σ) :
    ((Sensor.send c.cmd0 c.cmd1 c.payload).run (handleHost D.host) s).2.host = D.frame c s.host := rfl

theorem run_waitIrq_ready {polls : Nat} (hpolls : 0 < polls) {s : Session σ} (hline : D.line s.host = true) :
    (waitIrq true polls).run (handleHost D.host) s = (true, s) := by
  obtain ⟨polls, rfl⟩ := Nat.exists_eq_succ_of_ne_zero (Nat.ne_of_gt hpolls)
  have hirq : handleHost D.host .irqGet s = (true, s) := Prod.ext hline rfl
  simp only [waitIrq, irqGet, issue, Prog.perform_bind, Prog.run_ask, hirq, if_true]
  rfl

theorem run_readPacket {polls : Nat} (hpolls : 0 < polls) {s : Session σ} (hline : D.line s.host = true) :
    ((Sensor.readPacket polls).run (handleHost D.host) s).1.map Prod.snd = (D.reply s.host).1 ∧
      ((Sensor.readPacket polls).run (handleHost D.host) s).2.host = (D.reply s.host).2 := by
  rw [Sensor.readPacket, Prog.run_bind, run_waitIrq_ready D hpolls hline, if_neg Bool.noConfusion, Peripheral.reply]
  simp only [duplex, Sensor.readBody, print, issue, Prog.perform_bind, Prog.run_ask, handleHost, Peripheral.host]
  cases checkHeader (D.clock (zeroBytes 4) s.host).1.1 with
  | none => exact ⟨rfl, rfl⟩
  | some n =>
      dsimp only
      by_cases hn : n = 0 ∨ n > 4096
      · rw [if_pos hn, if_pos hn]
        exact ⟨rfl, rfl⟩
      · rw [if_neg hn, if_neg hn]
        exact ⟨rfl, rfl⟩

theorem run_ask {polls : Nat} (hpolls : 0 < polls) {c : Command} {s : Session σ}
    (hline : D.line (D.frame c s.host) = true) :
    ((ask polls c).run (handleHost D.host) s).1.map Prod.snd = (exchange D c s.host).1 ∧
      ((ask polls c).run (handleHost D.host) s).2.host = (exchange D c s.host).2 := by
  rw [ask, Prog.run_bind, exchange, ← run_send]
  exact run_readPacket D hpolls hline

/-- The tool holds the conversation, as long as the device raises its line. -/
theorem run_converse {polls : Nat} (hpolls : 0 < polls) {cmds : List Command} {s : Session σ}
    (hline : Attentive D cmds s.host) :
    ((converse polls cmds).run (handleHost D.host) s).1.map (Option.map Prod.snd) = (exchanges D cmds s.host).1 ∧
      ((converse polls cmds).run (handleHost D.host) s).2.host = (exchanges D cmds s.host).2 := by
  induction cmds generalizing s with
  | nil => exact ⟨rfl, rfl⟩
  | cons c cmds ih =>
      obtain ⟨hreply, hhost⟩ := run_ask D hpolls hline.1
      have hrest := hline.2
      rw [← hhost] at hrest
      obtain ⟨hreplies, hlast⟩ := ih hrest
      rw [converse, Prog.run_bind, Prog.run_bind, exchanges, ← hhost, ← hreply, ← hreplies, ← hlast]
      exact ⟨rfl, rfl⟩

/-! ### The driver's side -/

section Driver

open Kernel

/-- The command a text stands for, if `gxfp_cmd_write` takes it. -/
def commandOf (text : Bytes) : Option Command :=
  if text.length > 1024 then none
  else
    match cmdNumbers (fields (strim (cString text))) with
    | none => none
    | some (cmd0, cmd1, p) =>
        if (values 256 p).2 then some ⟨cmd0 &&& 0xF, cmd1 &&& 7, (values 256 p).1⟩ else none

/-- The driver's state after a reply: a body replaces the front of the receive buffer. -/
def received (r : Option Bytes) (g : Gxfp) : Gxfp :=
  match r with
  | none => g
  | some body => { g with rxbuf := g.rxbuf.store 0 body, rxlen := body.length }

variable (tid : Nat)

theorem padTo_self {n : Nat} {xs : Bytes} (h : xs.length = n) : padTo n xs = xs := by
  rw [padTo, List.take_left' h]

theorem env_xfer {x : Xfer} {b : Bytes} (hlen : b.length = x.len) (s : σ) :
    (D.env.xfer x b s).1.ret = 0 ∧ (D.env.xfer x b s).1.data = (D.clock b s).1.1 ∧
      (D.env.xfer x b s).2 = (D.clock b s).2 := by
  have hpad : (D.env.xfer x b s).1.data = (D.clock (padTo x.len b) s).1.1 ∧
      (D.env.xfer x b s).2 = (D.clock (padTo x.len b) s).2 := ⟨rfl, rfl⟩
  rw [padTo_self hlen] at hpad
  exact ⟨rfl, hpad⟩

theorem frameWrites_env {hdr : Bytes} (hhdr : hdr.length = 4) (body : Bytes) (s : σ) :
    frameWrites D.env hdr body s = (0, (D.clock body (D.clock hdr s).2).2, [hdr, body]) := by
  obtain ⟨hret, -, hnext⟩ := env_xfer D (x := frameHdrXfer hdr) hhdr s
  obtain ⟨hret', -, hnext'⟩ := env_xfer D (x := frameBodyXfer body body.length) (b := body) rfl (D.clock hdr s).2
  have hsleep : D.env.sleep 2000 (D.clock hdr s).2 = (D.clock hdr s).2 := rfl
  rw [frameWrites, if_neg (not_not.mpr hret), hnext, hsleep]
  exact Prod.ext hret' (Prod.ext hnext' rfl)

theorem framedSend_env (c : Command) (s : σ) :
    framedSend D.env (spiHeader c.body.length) c.body s = (0, D.frame c s, [spiHeader c.body.length, c.body]) :=
  frameWrites_env D rfl c.body s

theorem gxfpCheckSpiHdr_eq (x : Nat → UInt8) :
    (checkHeader (firstBytes 4 x) = none ∧ gxfpCheckSpiHdr (firstBytes 4 x) < 0) ∨
      ∃ n : Nat, checkHeader (firstBytes 4 x) = some n ∧ gxfpCheckSpiHdr (firstBytes 4 x) = n := by
  have hnibble : (x 0 >>> 4).toNat = (x 0).toNat >>> 4 := UInt8.toNat_shiftRight _ _
  have htype : (x 0 >>> 4 ≠ GXFP_PKT_MSG ∧ x 0 >>> 4 ≠ GXFP_PKT_TLS) ↔ ¬ Typed x := by
    rw [Typed, not_or, ← hnibble, ne_eq, ne_eq, ← UInt8.toNat_inj, ← UInt8.toNat_inj]
    rfl
  have hsum : x 3 ≠ UInt8.ofNat ((x 0).toNat + (x 2).toNat + (x 1).toNat) ↔ ¬ Summed x := by
    rw [Summed, ne_eq, eq_comm, ofNat_eq_iff, eq_comm, Nat.add_right_comm]
  rw [checkHeader_eq, firstBytes_four]
  simp only [gxfpCheckSpiHdr, List.getD_cons_zero, List.getD_cons_succ]
  by_cases htyped : Typed x
  · rw [if_neg fun h => htype.mp h htyped]
    by_cases hsummed : Summed x
    · rw [if_neg fun h => hsum.mp h hsummed, if_pos ⟨hsummed, htyped⟩, or_shiftLeft_8]
      exact Or.inr ⟨_, rfl, rfl⟩
    · rw [if_pos (hsum.mpr hsummed), if_neg fun h => hsummed h.1]
      exact Or.inl ⟨rfl, by decide⟩
  · rw [if_pos (htype.mpr htyped), if_neg fun h => htyped h.2]
    exact Or.inl ⟨rfl, by decide⟩

theorem firstBytes_getD {bs : Bytes} {n : Nat} (hlen : bs.length = n) : firstBytes n (fun i => bs.getD i 0) = bs := by
  apply List.ext_getElem
  · rw [firstBytes_length, hlen]
  · intro i _ hi
    simp only [firstBytes, List.getElem_map, List.getElem_range, List.getD_eq_getElem _ _ hi]

theorem handleView_clock (v : View σ) {x : Xfer} {b : Bytes} (hmosi : mosi v.g x = b) (hlen : b.length = x.len) :
    ∃ a : XferAns x, handleView D.env tid (.spi x) v =
        (a, ⟨if x.rx = .rxbuf then { v.g with rxbuf := v.g.rxbuf.store 0 (D.clock b v.env).1.1 } else v.g,
          (D.clock b v.env).2, v.sent ++ [b]⟩) ∧
      a.ret = 0 ∧ a.data = (D.clock b v.env).1.1 := by
  subst hmosi
  obtain ⟨hret, hdata, hnext⟩ := env_xfer D hlen v.env
  refine ⟨(D.env.xfer x (mosi v.g x) v.env).1, ?_, hret, hdata⟩
  rw [← hdata, ← hnext]
  rfl

theorem run_gxfpRecv (v : View σ) :
    ∃ ret sent, gxfpRecv.run (handleView D.env tid) v =
      (ret, ⟨received (D.reply v.env).1 v.g, (D.reply v.env).2, sent⟩) := by
  obtain ⟨a, hhdr, hret, hdata⟩ := handleView_clock D tid v (x := recvHdrXfer) (b := zeroBytes 4) rfl rfl
  rw [if_neg (by decide)] at hhdr
  have hfour : (D.clock (zeroBytes 4) v.env).1.1.length = 4 := (D.clock (zeroBytes 4) v.env).1.2
  have hcheck := gxfpCheckSpiHdr_eq fun i => (D.clock (zeroBytes 4) v.env).1.1.getD i 0
  rw [firstBytes_getD hfour] at hcheck
  rw [gxfpRecv, spi, Prog.perform_bind, Prog.run_ask, hhdr]
  dsimp only
  rw [if_neg (not_not.mpr hret), hdata, Kernel.print, Prog.perform_bind, Prog.run_ask, handleView_print, Peripheral.reply]
  dsimp only
  rcases hcheck with ⟨hnone, hneg⟩ | ⟨n, hsome, hn⟩
  · rw [if_pos hneg, hnone]
    exact ⟨_, _, rfl⟩
  · rw [hsome, hn, if_neg (by omega)]
    dsimp only
    by_cases hskip : n = 0 ∨ n > 4096
    · rw [if_pos hskip, if_pos (by rw [GXFP_BUF_MAX]; omega)]
      exact ⟨_, _, rfl⟩
    · rw [if_neg hskip, if_neg (by rw [GXFP_BUF_MAX]; omega), Int.toNat_natCast]
      generalize (D.clock (zeroBytes 4) v.env).2 = s
      obtain ⟨b, hbody, hret', -⟩ := handleView_clock D tid ⟨v.g, s, v.sent ++ [zeroBytes 4]⟩ (x := recvBodyXfer n)
        (b := zeroBytes n) rfl List.length_replicate
      rw [if_pos (show (recvBodyXfer n).rx = .rxbuf from rfl)] at hbody
      have hlen : (D.clock (zeroBytes n) s).1.1.length = n := (D.clock (zeroBytes n) s).1.2.trans List.length_replicate
      rw [spi, Prog.perform_bind, Prog.run_ask, hbody]
      dsimp only
      rw [if_neg (not_not.mpr hret'), received, hlen]
      exact ⟨_, _, rfl⟩

theorem waitDataReady_env (ms : Nat) (v : View σ) :
    (waitDataReady ms).run (handleView D.env tid) v = ((), v) := by
  have hready : handleView D.env tid .getDataReady v = (v.g.dataReady, v) := by
    simp only [handleView, answer, update, clocked, List.append_nil]
  have hsleep : handleView D.env tid (.sleepOnWq ms) v = ((), v) := by
    simp only [handleView, answer, update, clocked, List.append_nil]
    rw [show (if v.g.dataReady then v.env else D.env.sleep (1000 * ms) v.env) = v.env from ite_self _]
  rw [waitDataReady, Prog.perform_bind, Prog.run_ask, hready]
  cases v.g.dataReady with
  | true => rfl
  | false => exact congrArg (Prod.mk ()) (congrArg Prod.snd hsleep)

/-- The driver's state after a command: the mutex is free, the flag is down, and a reply's body has replaced the last one. -/
def answered (r : Option Bytes) (g : Gxfp) : Gxfp :=
  received r { g with lock := none, dataReady := false }

theorem run_gxfpSend_env (v : View σ) (cmd0 cmd1 : Nat) {payload : Buffer 256} {n : Nat} (hn : n ≤ 256) :
    let c : Command := ⟨cmd0 &&& 0xF, cmd1 &&& 7, payload.load 0 n⟩
    (gxfpSend (UInt8.ofNat (cmd0 &&& 0xF)) (UInt8.ofNat (cmd1 &&& 7)) payload (UInt16.ofNat n) true).run
        (handleView D.env tid) v =
      (0, ⟨v.g, D.frame c v.env, v.sent ++ [spiHeader c.body.length, c.body]⟩) := by
  intro c
  have hn16 : (UInt16.ofNat n).toNat = n := by
    rw [UInt16.toNat_ofNat']
    omega
  have h0 : (UInt8.ofNat (cmd0 &&& 0xF)).toNat = cmd0 &&& 0xF := by
    rw [toNat_ofNat_mod, and_0f]
    omega
  have h1 : (UInt8.ofNat (cmd1 &&& 7)).toNat = cmd1 &&& 7 := by
    rw [toNat_ofNat_mod, and_07]
    omega
  have hsend := run_gxfpSend_view D.env tid v (UInt8.ofNat (cmd0 &&& 0xF)) (UInt8.ofNat (cmd1 &&& 7)) payload
    (UInt16.ofNat n) true (by omega) (by omega)
  rw [hn16, h0, h1] at hsend
  have hframed := framedSend_env D c v.env
  rw [Command.body] at hframed
  dsimp only at hsend
  rw [hsend, hframed, Command.body]

theorem run_cmdExchange_env (v : View σ) (cmd0 cmd1 : Nat) (payload : Buffer 256) {n : Nat} (hn : n ≤ 256) :
    let c : Command := ⟨cmd0 &&& 0xF, cmd1 &&& 7, payload.load 0 n⟩
    ∃ sent, (cmdExchange cmd0 cmd1 payload n).run (handleView D.env tid) v =
      (0, ⟨answered (exchange D c v.env).1 v.g, (exchange D c v.env).2, sent⟩) := by
  intro c
  have hlock : (handleView D.env tid (.setDataReady false) (handleView D.env tid .lock v).2).2 =
      { v with g := { v.g with lock := some tid, dataReady := false } } := by
    simp only [handleView, answer, update, clocked, List.append_nil]
  have hunlock (v : View σ) : handleView D.env tid .unlock v = ((), { v with g := { v.g with lock := none } }) := by
    simp only [handleView, answer, update, clocked, List.append_nil]
  have hcleared (r : Option Bytes) :
      { received r { v.g with lock := some tid, dataReady := false } with lock := none } = answered r v.g := by
    cases r <;> rfl
  simp only [cmdExchange, mutexLock, mutexUnlock, Kernel.issue, Prog.perform_bind, Prog.run_ask, Prog.run_bind]
  rw [hlock, run_gxfpSend_env D tid _ cmd0 cmd1 hn]
  dsimp only
  rw [if_pos rfl, Prog.run_bind, waitDataReady_env, Prog.run_bind]
  obtain ⟨ret, sent, hrecv⟩ := run_gxfpRecv D tid
    ⟨{ v.g with lock := some tid, dataReady := false }, D.frame c v.env, v.sent ++ [spiHeader c.body.length, c.body]⟩
  rw [hrecv, Prog.run_ask, hunlock, Prog.pure_eq, Prog.run_ret]
  dsimp only
  rw [hcleared]
  exact ⟨_, rfl⟩

/-- A write to `cmd` is refused and changes nothing, or is an exchange. -/
theorem run_cmdWrite_env (v : View σ) (text : Bytes) :
    match commandOf text with
    | none => (gxfpCmdWrite (.text text)).run (handleView D.env tid) v = ({ ret := -EINVAL }, v)
    | some c =>
        ∃ sent, (gxfpCmdWrite (.text text)).run (handleView D.env tid) v =
          ({ ret := text.length }, ⟨answered (exchange D c v.env).1 v.g, (exchange D c v.env).2, sent⟩) := by
  rw [commandOf, gxfpCmdWrite]
  by_cases hlen : text.length > 1024
  · rw [if_pos hlen, if_pos (show (UserBuf.text text).len > 1024 from hlen)]
    rfl
  · rw [if_neg hlen, if_neg (show ¬ (UserBuf.text text).len > 1024 from hlen)]
    dsimp only [UserBuf.text]
    cases cmdNumbers (fields (strim (cString text))) with
    | none => rfl
    | some numbers =>
        obtain ⟨cmd0, cmd1, p⟩ := numbers
        obtain ⟨r, hrun, hbad, hgood⟩ := run_cmdPayload D.env tid v p
        dsimp only
        rw [Prog.run_bind, hrun]
        cases hvalues : (values 256 p).2 with
        | false =>
            rw [hbad hvalues]
            rfl
        | true =>
            obtain ⟨payload, n, rfl, hn, hload⟩ := hgood hvalues
            obtain ⟨sent, hexchange⟩ := run_cmdExchange_env D tid v cmd0 cmd1 payload hn
            rw [hload] at hexchange
            dsimp only
            rw [Prog.run_bind, hexchange, if_pos rfl]
            exact ⟨sent, rfl⟩

/-! ### Sessions -/

def lastBody (replies : List (Option Bytes)) : Option Bytes := replies.foldr (fun r last => last.or r) none

def Holds (g : Gxfp) (last : Option Bytes) (g' : Gxfp) : Prop :=
  match last with
  | none => g'.rxbuf = g.rxbuf ∧ g'.rxlen = g.rxlen
  | some body => g'.rxlen = body.length ∧ g'.rxbuf.load 0 body.length = body

theorem holds_answered {r : Option Bytes} (hr : ∀ body ∈ r, body.length ≤ GXFP_BUF_MAX) (g : Gxfp) :
    Holds g r (answered r g) := by
  cases r with
  | none => exact ⟨rfl, rfl⟩
  | some body => exact ⟨rfl, Buffer.load_store (by rw [Nat.zero_add]; exact hr body rfl)⟩

theorem Holds.step {g g' g'' : Gxfp} {r last : Option Bytes} (hr : Holds g r g') (hlast : Holds g' last g'') :
    Holds g (last.or r) g'' := by
  cases last with
  | some body => exact hlast
  | none =>
      cases r with
      | none => exact ⟨hlast.1.trans hr.1, hlast.2.trans hr.2⟩
      | some body => exact ⟨hlast.2.trans hr.1, (congrArg (fun b => b.load 0 body.length) hlast.1).trans hr.2⟩

theorem reply_length {s : σ} : ∀ body ∈ (D.reply s).1, body.length ≤ GXFP_BUF_MAX := by
  intro body hbody
  rw [Peripheral.reply] at hbody
  cases hhdr : checkHeader (D.clock (zeroBytes 4) s).1.1 with
  | none =>
      rw [hhdr] at hbody
      exact absurd hbody (by simp)
  | some n =>
      rw [hhdr] at hbody
      dsimp only at hbody
      by_cases hn : n = 0 ∨ n > 4096
      · rw [if_pos hn] at hbody
        exact absurd hbody (by simp)
      · rw [if_neg hn] at hbody
        have hlen := (D.clock (zeroBytes n) (D.clock (zeroBytes 4) s).2).1.2
        rw [Option.mem_some.mp hbody, zeroBytes, List.length_replicate] at hlen
        rw [hlen, GXFP_BUF_MAX]
        omega

def writes (texts : List Bytes) : List DebugOp := texts.map fun text => .cmdWrite (.text text)

def written (text : Bytes) : OpResult := { ret := if (commandOf text).isSome then text.length else -EINVAL }

theorem runOp_write (P : Setup) (text : Bytes) (w : World σ) :
    let out := runOp D.env P (.cmdWrite (.text text)) w
    out.1 = written text ∧
      match commandOf text with
      | none => out.2.env = w.env ∧ Holds w.g none out.2.g
      | some c => out.2.env = (exchange D c w.env).2 ∧ Holds w.g (exchange D c w.env).1 out.2.g := by
  intro out
  have hwrite := run_cmdWrite_env D 0 w.view text
  rw [run_handleView] at hwrite
  rw [written]
  cases hc : commandOf text with
  | none =>
      rw [hc] at hwrite
      have hg : out.2.g = w.g := congrArg (fun r => r.2.g) hwrite
      rw [hg]
      exact ⟨congrArg Prod.fst hwrite, congrArg (fun r => r.2.env) hwrite, rfl, rfl⟩
  | some c =>
      rw [hc] at hwrite
      obtain ⟨sent, hwrite⟩ := hwrite
      have hg : out.2.g = answered (exchange D c w.env).1 w.g := congrArg (fun r => r.2.g) hwrite
      rw [hg]
      exact ⟨congrArg Prod.fst hwrite, congrArg (fun r => r.2.env) hwrite, holds_answered (reply_length D) w.g⟩

theorem runOps_writes (P : Setup) (texts : List Bytes) (w : World σ) :
    let conversation := exchanges D (texts.filterMap commandOf) w.env
    let out := runOps D.env P (writes texts) w
    out.1 = texts.map written ∧ out.2.env = conversation.2 ∧ Holds w.g (lastBody conversation.1) out.2.g := by
  induction texts generalizing w with
  | nil => exact ⟨rfl, rfl, rfl, rfl⟩
  | cons text texts ih =>
      intro conversation out
      obtain ⟨hresults, henv, hholds⟩ := ih (runOp D.env P (.cmdWrite (.text text)) w).2
      obtain ⟨hret, hfirst⟩ := runOp_write D P text w
      refine ⟨congrArg₂ List.cons hret hresults, ?_⟩
      change out.2.env = (exchanges D ((text :: texts).filterMap commandOf) w.env).2 ∧
        Holds w.g (lastBody (exchanges D ((text :: texts).filterMap commandOf) w.env).1) out.2.g
      cases hc : commandOf text with
      | none =>
          rw [hc] at hfirst
          rw [List.filterMap_cons_none hc, ← hfirst.1, ← Option.or_none (o := lastBody _)]
          exact ⟨henv, hfirst.2.step hholds⟩
      | some c =>
          rw [hc] at hfirst
          rw [List.filterMap_cons_some hc, exchanges, ← hfirst.1]
          exact ⟨henv, hfirst.2.step hholds⟩

theorem Holds.shows {g : Gxfp} {w : World σ} {body : Bytes} (h : Holds g (some body) w.g) (P : Setup) :
    (runOp D.env P (.rawRead (3 * body.length + 1) 0) w).1 =
      { ret := (3 * body.length + 1 : Nat), out := hexDump body } := by
  obtain ⟨hlen, hload⟩ := h
  have hmax : body.length ≤ GXFP_BUF_MAX := by
    have hbuf := w.g.rxbuf.length_eq
    have htake := congrArg List.length hload
    rw [Buffer.load_zero, List.length_take, hbuf] at htake
    omega
  have htext : (hexDump body).length = 3 * body.length + 1 := by
    rw [hexDump, List.length_append, flatMap_hexItem_length, List.length_singleton]
  obtain ⟨hread, -⟩ := runOp_rawRead D.env P w (3 * body.length + 1) 0 (by omega)
  rw [hlen, hload, Nat.zero_add, ← htext, slice, List.drop_zero, List.take_length] at hread
  rcases hread with ⟨⟨size, e, hfail⟩, -⟩ | hread
  · exact absurd hfail (by simp [Peripheral.env])
  · rw [← htext, hread]

end Driver

/-! ### Both -/

/-- **Two ways, one conversation.** Any texts written to `cmd` one after the other, and a tool that sends the commands of those that are taken and reads a packet after each, leave the device in the same state. Every text that is taken returns its length and every other `-EINVAL`, and then `raw` shows the last body the tool was given, if there was any. -/
theorem sessions_agree (P : Kernel.Setup) {polls : Nat} (hpolls : 0 < polls) (texts : List Bytes) (w : Kernel.World σ)
    (s : Session σ) (hsame : w.env = s.host) (hline : Attentive D (texts.filterMap commandOf) s.host) :
    let tool := (converse polls (texts.filterMap commandOf)).run (handleHost D.host) s
    let driver := Kernel.runOps D.env P (writes texts) w
    let last := lastBody (tool.1.map (Option.map Prod.snd))
    driver.1 = texts.map written ∧ driver.2.env = tool.2.host ∧ Holds w.g last driver.2.g ∧
      ∀ body ∈ last, (Kernel.runOp D.env P (.rawRead (3 * body.length + 1) 0) driver.2).1 =
        { ret := (3 * body.length + 1 : Nat), out := Kernel.hexDump body } := by
  intro tool driver last
  obtain ⟨hreplies, hhost⟩ := run_converse D hpolls hline
  obtain ⟨hresults, henv, hholds⟩ := runOps_writes D P texts w
  rw [hsame, ← hreplies] at hholds
  rw [hsame, ← hhost] at henv
  refine ⟨hresults, henv, hholds, ?_⟩
  intro body hbody
  rw [show lastBody _ = some body from hbody] at hholds
  exact hholds.shows D P

/-- A device that is written a frame of two transfers, then clocks out a header that announces one byte and the byte. Its state counts the transfers. -/
def oneByte : Peripheral Nat where
  line _ := true
  clock tx n := (⟨Kernel.padTo tx.length ([[], [], [0xA0, 1, 0, 0xA1], [0x42]].getD (n % 4) []), Kernel.padTo_length _ _⟩, n + 1)

/-- A command, a text that is refused, and another command. -/
theorem sessions_agree_oneByte :
    let texts : List Bytes := [[48, 32, 48], [48], [49, 32, 48]]
    let driver := Kernel.runOps oneByte.env {} (writes texts) (Kernel.probed 0)
    driver.1.map Kernel.OpResult.ret = [3, -22, 3] ∧ driver.2.env = 8 ∧
      (Kernel.runOp oneByte.env {} (.rawRead 4 0) driver.2).1 = { ret := 4, out := [52, 50, 32, 10] } := by
  intro texts driver
  obtain ⟨hret, henv, -, hraw⟩ := sessions_agree oneByte {} Nat.one_pos texts (Kernel.probed 0) ⟨0, []⟩ rfl
    (attentive_of_line _ (fun _ => rfl) _ _)
  exact ⟨(congrArg (List.map Kernel.OpResult.ret) hret).trans (by decide), henv.trans (by decide),
    hraw [0x42] (by decide)⟩

end GoodixSpi.Proof
