import GoodixSpi.Proof.Interrupts
import GoodixSpi.Proof.RawPhases
import GoodixSpi.Proof.RawRead

/-!
# What `raw` shows after a command without a reply

A command that gets no reply leaves `rxlen` as it was, so `raw` shows the reply of an earlier operation again. A raw write whose transfer fails sets `rxlen` to zero instead. The contract `unreplied` says that a command sets `rxlen` only after a body was read.
-/

namespace GoodixSpi.Kernel

open Wire Interaction

variable {ε : Type}

/-- What was read of `raw` shows no byte, at most the newline. -/
def OpResult.Blank (r : OpResult) : Prop := ∀ c ∈ r.out, c = 10

/-- Whatever the machine does from here, every read of `raw` right after an accepted command that received no body shows no byte. -/
def NoStaleReply (g : Gxfp) : Prop :=
  ∀ (ε : Type) (E : Env ε) (P : Setup) (e : ε) (log : List Entry) (u : UserBuf), u.accepted = true →
    let after := (runOp E P (.cmdWrite u) ⟨g, e, log⟩).2
    receives after.log = receives log → ∀ len off, (runOp E P (.rawRead len off) after).1.Blank

/-! ### Commands that receive nothing -/

/-- The mode is whether a body was read; `rxlen` is set only then. -/
def unreplied : Contract Req Ans Bool where
  may m r := match r with
    | .setRxlen _ => m = true
    | _ => True
  rely _ _ _ := True
  next m r a := match r, a with
    | .spi x, a => m || (x.site = .recvBody && a.ret = 0)
    | _, _ => m

theorem unreplied_ignoresPlain : IgnoresPlain unreplied := by
  intro m r hr
  cases r with
  | spi x => exact absurd hr id
  | setRxlen n => exact absurd hr id
  | _ => exact ⟨trivial, fun _ => rfl⟩

theorem unreplied_spi {m : Bool} {x : Xfer} (hx : x.site ≠ .recvBody) : IgnoredAt unreplied m (.spi x) := by
  refine ⟨trivial, fun a => ?_⟩
  change (m || (x.site = .recvBody && a.ret = 0)) = m
  rw [decide_eq_false hx, Bool.false_and, Bool.or_false]

theorem unreplied_send {m : Bool} {Q : Bool → Int → Prop} (hQ : ∀ ret, Q m ret) : SendSpec unreplied m Q := by
  have hhdr (hdr : Bytes) : IgnoredAt unreplied m (.spi (frameHdrXfer hdr)) := unreplied_spi (by simp [frameHdrXfer])
  have hbody (body : Bytes) (n : Nat) : IgnoredAt unreplied m (.spi (frameBodyXfer body n)) :=
    unreplied_spi (by simp [frameBodyXfer])
  refine ⟨fun _ _ => hQ _, fun _ _ => trivial, ?_, ?_⟩
  · intro n a _ _
    rw [(hhdr _).2 a]
    exact hQ _
  · intro body a _ _ _
    dsimp only
    rw [(hhdr _).2 a]
    refine ⟨trivial, fun b _ => ?_⟩
    rw [(hbody _ _).2 b]
    exact hQ _

theorem unreplied_recv {m : Bool} {Q : Bool → Int → Prop} (hQ : ∀ m ret, Q m ret) : RecvSpec unreplied m Q where
  hdr := trivial
  stopped _ _ _ _ := hQ _ _
  body a n _ _ _ _ _ := by
    refine ⟨trivial, fun b _ => ⟨fun _ => hQ _ _, fun hret => ⟨?_, trivial, fun _ => hQ _ _⟩⟩⟩
    change (_ || (decide (Site.recvBody = .recvBody) && decide (b.ret = 0))) = true
    rw [decide_eq_true hret, decide_eq_true rfl, Bool.and_true, Bool.or_true]

theorem unreplied_gxfpCmdWrite (u : UserBuf) : wp unreplied (gxfpCmdWrite u) false fun _ _ => True := by
  apply wp_gxfpCmdWrite unreplied_ignoresPlain (fun _ => trivial) trivial
  intro _
  apply unreplied_send
  intro ret
  exact ⟨fun _ => ⟨trivial, trivial⟩, fun _ => unreplied_recv fun _ _ => ⟨trivial, trivial⟩⟩

/-- What `unreplied` says of a world reached from one with `before` receives and a length of `n`. -/
def RepliedSince (before n : Nat) (m : Bool) (w : World ε) : Prop :=
  before ≤ receives w.log ∧ (m = true → before < receives w.log) ∧ (m = false → w.g.rxlen = n)

theorem RepliedSince.answered {before n : Nat} {m : Bool} {w : World ε} (h : RepliedSince before n m w) (E : Env ε)
    (tid : Nat) {r : Req} (hmay : unreplied.may m r) :
    RepliedSince before n (unreplied.next m r (handle E tid r w).1) (handle E tid r w).2 := by
  obtain ⟨hle, hreceived, hkept⟩ := h
  have hmono := receives_le_handle E tid r w
  cases r with
  | setRxlen k =>
      obtain rfl : m = true := hmay
      exact ⟨by omega, fun _ => Nat.lt_of_lt_of_le (hreceived rfl) hmono, fun hm => absurd hm.symm Bool.false_ne_true⟩
  | spi x =>
      have hrxlen : (handle E tid (.spi x) w).2.g.rxlen = w.g.rxlen := by
        rw [handle_g, update]
        split <;> rfl
      refine ⟨by omega, ?_, ?_⟩
      · intro hnext
        rcases Bool.or_eq_true_iff.mp hnext with hm | hbody
        · exact Nat.lt_of_lt_of_le (hreceived hm) hmono
        · obtain ⟨hsite, hret⟩ := Bool.and_eq_true_iff.mp hbody
          exact Nat.lt_of_le_of_lt hle (receives_lt_recvBody tid (of_decide_eq_true hsite) (of_decide_eq_true hret))
      · intro hnext
        rw [hrxlen]
        exact hkept (Bool.or_eq_false_iff.mp hnext).1
  | _ => exact ⟨by omega, fun hm => Nat.lt_of_lt_of_le (hreceived hm) hmono, hkept⟩

theorem rxlen_cmdWrite (E : Env ε) (P : Setup) (u : UserBuf) (w : World ε)
    (hno : receives (runOp E P (.cmdWrite u) w).2.log = receives w.log) :
    (runOp E P (.cmdWrite u) w).2.g.rxlen = w.g.rxlen := by
  have hstart : RepliedSince (receives w.log) w.g.rxlen false w :=
    ⟨Nat.le_refl _, fun hm => absurd hm Bool.false_ne_true, fun _ => rfl⟩
  obtain ⟨m, ⟨-, hreceived, hkept⟩, -⟩ :=
    wp_run (fun _ _ _ h hmay => ⟨trivial, h.answered E 0 hmay⟩) (unreplied_gxfpCmdWrite u) hstart
  cases m with
  | true => exact absurd hno (Nat.ne_of_gt (hreceived rfl))
  | false => exact hkept rfl

theorem rxlen_rawWrite (E : Env ε) (P : Setup) {u : UserBuf} {n : Nat} (hparsed : u.outcome = .ok n) (w : World ε) :
    (runOp E P (.rawWrite u) w).2.g.rxlen = if (E.xfer (rawXfer n) u.parsed w.env).1.ret ≠ 0 then 0 else n := by
  obtain ⟨new, -, hrun⟩ := runOp_rawWrite_eq E P u w
  rw [hrun, hparsed]
  change (if (E.xfer (rawXfer n) ((w.g.txbuf.store 0 u.parsed).load 0 n) w.env).1.ret ≠ 0 then 0 else n) = _
  rw [load_parsed hparsed]

/-! ### The state before the command decides -/

theorem blank_of_rxlen_eq_zero (E : Env ε) (P : Setup) {w : World ε} (h : w.g.rxlen = 0) (len off : Nat) :
    (runOp E P (.rawRead len off) w).1.Blank := by
  obtain ⟨hread, -⟩ := runOp_rawRead E P w len off (by omega)
  rw [h] at hread
  intro c hc
  rcases hread with ⟨-, hread⟩ | hread
  · rw [hread] at hc
    exact absurd hc List.not_mem_nil
  · rw [hread] at hc
    have htext : c ∈ hexDump (w.g.rxbuf.load 0 0) := List.mem_of_mem_take (List.mem_of_mem_drop hc)
    rw [Buffer.load_zero_len] at htext
    exact List.mem_singleton.mp htext

theorem blank_of_failed_rawWrite (E : Env ε) (P : Setup) {u : UserBuf} {n : Nat} (hparsed : u.outcome = .ok n)
    {w : World ε} (hfail : (E.xfer (rawXfer n) u.parsed w.env).1.ret ≠ 0) (len off : Nat) :
    (runOp E P (.rawRead len off) (runOp E P (.rawWrite u) w).2).1.Blank := by
  apply blank_of_rxlen_eq_zero
  rw [rxlen_rawWrite E P hparsed w, if_pos hfail]

theorem noStaleReply_of_rxlen {g : Gxfp} (h : g.rxlen = 0) : NoStaleReply g := by
  intro ε E P e log u _ after hno len off
  exact blank_of_rxlen_eq_zero E P ((rxlen_cmdWrite E P u ⟨g, e, log⟩ hno).trans h) len off

/-- A machine on which every transfer fails. -/
def Env.unwired : Env Unit :=
  { Env.idle with xfer := fun _ _ e => (⟨-5, [], by simp, by simp, by simp⟩, e) }

theorem receives_unwired (tid : Nat) (r : Req) (w : World Unit) :
    receives (handle Env.unwired tid r w).2.log = receives w.log := by
  have hnone : receives ((events r (handle Env.unwired tid r w).1 w.g).map (Entry.mk tid)) = 0 := by
    rw [receives, List.countP_eq_zero]
    intro entry hentry
    obtain ⟨ev, hev, rfl⟩ := List.mem_map.mp hentry
    rw [events, List.mem_append] at hev
    rcases hev with hrecord | htouch
    · cases r with
      | spi x =>
          obtain rfl := List.mem_singleton.mp hrecord
          cases hsite : x.site <;> simp [Entry.isReceive, Env.unwired, handle, answer]
      | _ => simp_all [record, Entry.isReceive]
    · obtain ⟨acc, -, rfl⟩ := List.mem_map.mp htouch
      simp [Entry.isReceive]
  rw [handle_log, receives, List.countP_append]
  exact (congrArg (· + receives w.log) hnone).trans (Nat.zero_add _)

theorem receives_run_unwired {α : Type} (tid : Nat) (p : DriverM α) (w : World Unit) :
    receives (p.run (handle Env.unwired tid) w).2.log = receives w.log :=
  p.run_keeps (I := fun w' => receives w'.log = receives w.log)
    (fun r w' h => (receives_unwired tid r w').trans h) rfl

theorem not_blank_of_rxlen {E : Env ε} (hmem : ∀ size e, (E.kmalloc size e).1 = true) {P : Setup} {w : World ε}
    (hlen : w.g.rxlen ≤ GXFP_BUF_MAX) (h : w.g.rxlen ≠ 0) : ¬ (runOp E P (.rawRead 1 0) w).1.Blank := by
  obtain ⟨hread, -⟩ := runOp_rawRead E P w 1 0 hlen
  have hread := hread.resolve_left fun ⟨⟨size, e, hfail⟩, _⟩ => absurd (hfail.symm.trans (hmem size e)) Bool.false_ne_true
  have hload : (w.g.rxbuf.load 0 w.g.rxlen).length = w.g.rxlen := Buffer.load_length (by omega)
  cases hbytes : w.g.rxbuf.load 0 w.g.rxlen with
  | nil =>
      rw [hbytes] at hload
      exact absurd hload.symm h
  | cons b bs =>
      rw [hbytes] at hread
      intro hblank
      have hdigit : hexDigit (b.toNat / 16) = 10 := hblank _ (by rw [hread]; exact List.mem_cons_self)
      have hspace := isspace_hexDigit (b.toNat / 16) (by have := b.toNat_lt; omega)
      rw [hdigit] at hspace
      exact absurd hspace (by decide)

/-- A command that receives nothing leaves an old reply to be shown, on every machine with memory. -/
theorem stale_reply_shown {E : Env ε} (hmem : ∀ size e, (E.kmalloc size e).1 = true) {P : Setup} {u : UserBuf}
    {w : World ε} (hlen : w.g.rxlen ≤ GXFP_BUF_MAX) (h : w.g.rxlen ≠ 0)
    (hno : receives (runOp E P (.cmdWrite u) w).2.log = receives w.log) :
    ¬ (runOp E P (.rawRead 1 0) (runOp E P (.cmdWrite u) w).2).1.Blank := by
  have hkept := rxlen_cmdWrite E P u w hno
  exact not_blank_of_rxlen hmem (hkept ▸ hlen) (hkept ▸ h)

theorem rxlen_of_noStaleReply {g : Gxfp} (hlen : g.rxlen ≤ GXFP_BUF_MAX) (h : NoStaleReply g) : g.rxlen = 0 := by
  by_contra hne
  have hno := receives_run_unwired 0 (gxfpCmdWrite liveness) ⟨g, (), []⟩
  exact stale_reply_shown (P := {}) (fun _ _ => rfl) hlen hne hno
    (h Unit Env.unwired {} () [] liveness (by decide) hno 1 0)

/-! ### Every reachable state -/

theorem plain_gxfpIsr : Prog.Only Plain gxfpIsr := by
  apply Prog.Only.perform_bind (by trivial)
  intro n
  refine ⟨trivial, fun _ => ⟨trivial, fun _ => ⟨trivial, fun masked => ?_⟩⟩⟩
  change Prog.Only Plain (if n = GXFP_IRQ_STORM ∧ masked = false then _ else _)
  split
  · exact ⟨trivial, fun _ => ⟨trivial, fun _ => ⟨trivial, fun _ => trivial⟩⟩⟩
  · trivial

/-- Every thread keeps to its buffers, and no index is beyond them. -/
def Safe (mode : Nat → Unit) (s : Threads Req Ans OpResult (World ε)) : Prop :=
  Obeys bounded (fun _ _ => True) mode s ∧ IndexSafe s.shared

theorem Safe.interrupt {mode : Nat → Unit} (E : Env ε) {s : Threads Req Ans OpResult (World ε)} (h : Safe mode s) :
    Safe mode (interrupt E s) := by
  refine ⟨fun i p hi => h.1 i p (by rwa [interrupt_progs] at hi), ?_⟩
  rw [Kernel.interrupt]
  split
  · have hmay (r : Req) (hr : Plain r) : bounded.may () r := (bounded_ignoresPlain () r hr).1
    exact (plain_gxfpIsr.mono hmay).run_keeps (fun r w hr hw => hw.handle E _ hr) h.2
  · exact h.2

theorem Safe.reply {mode : Nat → Unit} (E : Env ε) {s : Threads Req Ans OpResult (World ε)} {i : Nat} {r : Req}
    {next : Ans r → Prog Req Ans OpResult} (h : Safe mode s) (hi : s.progs[i]? = some (.ask r next)) :
    Safe (Function.update mode i (bounded.next (mode i) r (handle E i r s.shared).1)) ((kernel E).reply i r next s) := by
  have hrely : bounded.rely (mode i) r (handle E i r s.shared).1 := by
    cases r with
    | getRxlen => exact h.2.rxlen
    | _ => trivial
  exact ⟨h.1.reply (kernel E) hi hrely, h.2.handle E i (h.1.may hi)⟩

theorem indexSafe_drive (E : Env ε) (acts : List Act) {s : Threads Req Ans OpResult (World ε)}
    (h : Safe (fun _ => ()) s) : IndexSafe (drive E acts s).shared := by
  obtain ⟨mode, hend⟩ := drive_keeps (E := E) (C := bounded) (J := Safe) (fun mode s i r next h hi _ => h.reply E hi)
    (fun mode s h => h.interrupt E) acts h
  exact hend.2

theorem start_obeys (P : Setup) (ops : List DebugOp) (e : ε) :
    Obeys bounded (fun _ (_ : OpResult) => True) (fun _ => ()) (start P ops e) := by
  intro i p hi
  rw [start, List.getElem?_map] at hi
  obtain ⟨op, -, rfl⟩ := Option.map_eq_some_iff.mp hi
  exact bounded_prog P op

/-- **A command without a reply shows no old one exactly when there is none**: in every state that operations in any interleaving, with interrupts at any time, can reach. -/
theorem noStaleReply_iff (E : Env ε) (P : Setup) (ops : List DebugOp) (e : ε) (acts : List Act) :
    let g := (drive E acts (start P ops e)).shared.g
    NoStaleReply g ↔ g.rxlen = 0 :=
  ⟨rxlen_of_noStaleReply (indexSafe_drive E acts ⟨start_obeys P ops e, indexSafe_probed e⟩).rxlen,
    noStaleReply_of_rxlen⟩

/-- A machine whose first transfer reads bytes of `ee`, and on which every later one fails. -/
def Env.dropping : Env Nat where
  kmalloc _ n := (true, n)
  ioremap _ n := (true, n)
  readl _ n := (0, n)
  writel _ _ n := n
  sleep _ n := n
  irqLevel n := (false, n)
  xfer x _ n :=
    if n = 0 then (⟨0, List.replicate x.len 0xEE, by simp, by simp, by simp⟩, 1)
    else (⟨-5, [], by simp, by simp, by simp⟩, n + 1)

/-- A raw write of one byte, a command that fails, and a read of `raw`: the byte is shown as if it were the reply. -/
theorem failed_command_shows_old_reply :
    let w := (drive Env.dropping (List.replicate 7 (.turn 0)) (start {} [.rawWrite rawZero] 0)).shared
    let after := (runOp Env.dropping {} (.cmdWrite liveness) w).2
    liveness.accepted = true ∧ receives after.log = receives w.log ∧
      (runOp Env.dropping {} (.rawRead 4 0) after).1.out = [0x65, 0x65, 0x20, 0x0A] ∧ ¬ NoStaleReply w.g := by
  intro w after
  have hrxlen : w.g.rxlen = 1 := by decide +kernel
  refine ⟨by decide, by decide +kernel, by decide +kernel, ?_⟩
  intro h
  have hzero := rxlen_of_noStaleReply (by rw [hrxlen]; decide) h
  omega

end GoodixSpi.Kernel
