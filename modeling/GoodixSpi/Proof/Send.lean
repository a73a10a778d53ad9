import GoodixSpi.Proof.Specs
import GoodixSpi.Tools.Dialects

/-!
# What `gxfp_send` puts on the bus

The C encoder truncates at every assignment and adds the checksum up byte by byte; the Python encoders mask once and sum the whole body. All four build the same `frame`. `wp_fillBody` says so of the C body buffer under any contract that does not look at local buffers, and `run_gxfpSend` says what a call does to the world: two writes, the second only if the first succeeded.
-/

namespace GoodixSpi.Kernel

open Wire Interaction Tools

/-! ### The bytes on the bus -/

/-- The bytes an event clocked out, if it is a transfer. -/
def Event.mosi? : Event → Option Bytes
  | .bus _ _ b _ _ => some b
  | _ => none

/-- What the transfers in a log clocked out, in the order of the transfers. -/
def sent (log : List Entry) : List Bytes := (log.filterMap fun e => e.event.mosi?).reverse

def clocked (r : Req) (g : Gxfp) : List Bytes :=
  match r with
  | .spi x => [mosi g x]
  | _ => []

theorem sent_append (new log : List Entry) : sent (new ++ log) = sent log ++ sent new := by
  rw [sent, List.filterMap_append, List.reverse_append, sent, sent]

theorem sent_events (tid : Nat) (r : Req) (a : Ans r) (g : Gxfp) :
    sent ((events r a g).map (Entry.mk tid)) = clocked r g := by
  rw [sent, filterMap_events fun _ _ _ _ _ => rfl]
  cases r <;> rfl

structure View (ε : Type) where
  g : Gxfp
  env : ε
  sent : List Bytes

def World.view {ε : Type} (w : World ε) : View ε := ⟨w.g, w.env, Kernel.sent w.log⟩

def handleView {ε : Type} (E : Env ε) (tid : Nat) (r : Req) (v : View ε) : Ans r × View ε :=
  let a := answer E r v.g v.env
  (a.1, ⟨update tid r a.1 v.g, a.2, v.sent ++ clocked r v.g⟩)

theorem run_handleView {ε α : Type} (E : Env ε) (tid : Nat) (p : DriverM α) (w : World ε) :
    p.run (handleView E tid) w.view =
      ((p.run (handle E tid) w).1, (p.run (handle E tid) w).2.view) := by
  apply Prog.run_view
  intro r w
  simp only [handleView, World.view, handle, sent_append, sent_events]

section Steps

variable {ε : Type} (E : Env ε) (tid : Nat) (v : View ε)

@[simp] theorem handleView_touch (b : Buf) (size off len : Nat) :
    handleView E tid (.touch b size off len) v = ((), v) := by
  simp only [handleView, answer, update, clocked, List.append_nil]

@[simp] theorem handleView_print (ch : Channel) (fmt : String) (args : List Arg) :
    handleView E tid (.print ch fmt args) v = ((), v) := by
  simp only [handleView, answer, update, clocked, List.append_nil]

@[simp] theorem handleView_sleep (us : Nat) :
    handleView E tid (.sleep us) v = ((), { v with env := E.sleep us v.env }) := by
  simp only [handleView, answer, update, clocked, List.append_nil]

@[simp] theorem handleView_kmalloc (size : Nat) :
    handleView E tid (.kmalloc size) v =
      ((E.kmalloc size v.env).1, { v with env := (E.kmalloc size v.env).2 }) := by
  simp only [handleView, answer, update, clocked, List.append_nil]

theorem handleView_spi (x : Xfer) (hrx : x.rx ≠ .rxbuf) :
    handleView E tid (.spi x) v =
      ((E.xfer x (mosi v.g x) v.env).1, ⟨v.g, (E.xfer x (mosi v.g x) v.env).2, v.sent ++ [mosi v.g x]⟩) := by
  simp only [handleView, answer, update, clocked, if_neg hrx]

end Steps

/-! ### A call to `gxfp_send` -/

section Run

variable {ε : Type}

/-- The contract of code that only looks at local buffers. -/
def localOnly : Contract Req Ans Unit where
  may _ r := match r with | .touch _ _ _ _ => True | _ => False
  rely _ _ _ := True
  next _ _ _ := ()

theorem localOnly_ignoresTouch : IgnoresTouch localOnly := by
  intro _ _ _ _ _ _
  exact ⟨trivial, fun _ => rfl⟩

theorem run_localOnly {α : Type} {p : DriverM α} {Q : α → Prop} (hp : wp localOnly p () fun _ a => Q a) (E : Env ε)
    (tid : Nat) (v : View ε) : ∃ a, p.run (handleView E tid) v = (a, v) ∧ Q a := by
  have hrun := wp_run (h := handleView E tid) (I := fun _ v' => v' = v) ?_ hp rfl
  · obtain ⟨_, hv, hQ⟩ := hrun
    exact ⟨_, Prod.ext rfl hv, hQ⟩
  · rintro _ v' r rfl hmay
    refine ⟨trivial, ?_⟩
    cases r with
    | touch b size off len => simp only [handleView, answer, update, clocked, List.append_nil]
    | _ => exact absurd hmay id

theorem run_fillBody (E : Env ε) (tid : Nat) (v : View ε) (c : UInt8) {k : Nat} (payload : Buffer k) {n blen : UInt16}
    (checksum : Bool) (hn : n.toNat ≤ k) (hblen : blen.toNat = n.toNat + 4) :
    ∃ body : Buffer blen.toNat,
      (fillBody c (UInt8.ofNat ((n.toNat + 1) % 256)) (UInt8.ofNat ((n.toNat + 1) / 256 % 256)) payload n checksum
        blen).run (handleView E tid) v = (body, v) ∧
      body.bytes = frame c (payload.load 0 n.toNat)
        (if checksum then checkByte c (payload.load 0 n.toNat) else NO_CHECKSUM) :=
  run_localOnly (wp_fillBody localOnly_ignoresTouch hn hblen rfl rfl fun _ hbody => hbody) E tid v

/-- The two writes of a frame as the environment sees them: the return value, the environment after them and the buffers written. -/
def frameWrites (E : Env ε) (hdr body : Bytes) (e : ε) : Int × ε × List Bytes :=
  let x := E.xfer (frameHdrXfer hdr) hdr e
  if x.1.ret ≠ 0 then (x.1.ret, x.2, [hdr])
  else
    let y := E.xfer (frameBodyXfer body body.length) body (E.sleep 2000 x.2)
    (y.1.ret, y.2, [hdr, body])

/-- A framed send: nothing is written when the body cannot be allocated. -/
def framedSend (E : Env ε) (hdr body : Bytes) (e : ε) : Int × ε × List Bytes :=
  let a := E.kmalloc body.length e
  if a.1 = false then (-ENOMEM, a.2, []) else frameWrites E hdr body a.2

theorem run_writeFrame (E : Env ε) (tid : Nat) (v : View ε) (cmd : UInt8) (hdr : Bytes) {blen : Nat}
    (body : Buffer blen) :
    (writeFrame cmd hdr body).run (handleView E tid) v =
      ((frameWrites E hdr body.bytes v.env).1,
        ⟨v.g, (frameWrites E hdr body.bytes v.env).2.1, v.sent ++ (frameWrites E hdr body.bytes v.env).2.2⟩) := by
  obtain ⟨bytes, rfl⟩ := body
  have hhdr (v : View ε) : handleView E tid (.spi (frameHdrXfer hdr)) v =
      ((E.xfer (frameHdrXfer hdr) hdr v.env).1,
        ⟨v.g, (E.xfer (frameHdrXfer hdr) hdr v.env).2, v.sent ++ [hdr]⟩) :=
    handleView_spi E tid v (frameHdrXfer hdr) (by simp [frameHdrXfer])
  have hbody (v : View ε) : handleView E tid (.spi (frameBodyXfer bytes bytes.length)) v =
      ((E.xfer (frameBodyXfer bytes bytes.length) bytes v.env).1,
        ⟨v.g, (E.xfer (frameBodyXfer bytes bytes.length) bytes v.env).2, v.sent ++ [bytes]⟩) :=
    handleView_spi E tid v (frameBodyXfer bytes bytes.length) (by simp [frameBodyXfer])
  simp only [writeFrame, load, print, spi, sleep, issue, Prog.perform_bind, Prog.ask_bind, Prog.pure_eq, Prog.ret_bind,
    Prog.run_ask, Buffer.load_all, handleView_touch, handleView_print, hhdr, frameWrites]
  by_cases hret : (E.xfer (frameHdrXfer hdr) hdr v.env).1.ret = 0
  · rw [if_neg (not_not.mpr hret), if_neg (not_not.mpr hret)]
    simp only [Prog.run_ask, handleView_sleep, handleView_touch, hbody]
    by_cases hret' : (E.xfer (frameBodyXfer bytes bytes.length) bytes
        (E.sleep 2000 (E.xfer (frameHdrXfer hdr) hdr v.env).2)).1.ret = 0
    · rw [if_neg (not_not.mpr hret'), Prog.run_ret, hret', List.append_assoc]
      rfl
    · rw [if_pos hret', Prog.run_ask, handleView_print, Prog.run_ret, List.append_assoc]
      rfl
  · rw [if_pos hret, if_pos hret, Prog.run_ask, handleView_print]
    rfl

theorem run_gxfpSend_view (E : Env ε) (tid : Nat) (v : View ε) (cmd0 cmd1 : UInt8) {k : Nat} (payload : Buffer k)
    (n : UInt16) (checksum : Bool) (hn : n.toNat ≤ 4092) (hk : n.toNat ≤ k) :
    let body := message cmd0.toNat cmd1.toNat (payload.load 0 n.toNat) checksum
    let out := framedSend E (spiHeader body.length) body v.env
    (gxfpSend cmd0 cmd1 payload n checksum).run (handleView E tid) v = (out.1, ⟨v.g, out.2.1, v.sent ++ out.2.2⟩) := by
  intro body out
  have hps : (payload.load 0 n.toNat).length = n.toNat := Buffer.load_length (by omega)
  have hcmd : UInt8.ofNat ((cmd0.toNat <<< 4) ||| (cmd1.toNat <<< 1)) = packCmd cmd0.toNat cmd1.toNat :=
    ofNat_congr (by rw [and_ff, Nat.mod_mod])
  simp only [gxfpSend, and_ff, shiftRight_8, hcmd]
  generalize hofNat : UInt16.ofNat (n.toNat + 4) = blen
  have hblen : blen.toNat = n.toNat + 4 := by
    rw [← hofNat, UInt16.toNat_ofNat']
    omega
  have hlen : body.length = blen.toNat := by
    rw [show body = _ from message_eq_frame _ _ _ _, frame_length, hps, hblen]
  have hsize : ¬ blen.toNat > GXFP_BUF_MAX := by
    rw [hblen, GXFP_BUF_MAX]
    omega
  simp only [gxfpMakeSpiHdr_eq blen blen.toNat rfl, if_neg hsize, kmalloc, issue, Prog.perform_bind, Prog.run_ask,
    handleView_kmalloc]
  rw [show out = framedSend E (spiHeader body.length) body v.env from rfl, framedSend, hlen]
  by_cases hok : (E.kmalloc blen.toNat v.env).1 = false
  · rw [if_pos hok, if_pos hok, List.append_nil]
    rfl
  · rw [if_neg hok, if_neg hok, Prog.run_bind]
    obtain ⟨filled, hrun, hbytes⟩ := run_fillBody E tid { v with env := (E.kmalloc blen.toNat v.env).2 }
      (packCmd cmd0.toNat cmd1.toNat) payload checksum hk hblen
    rw [hrun, run_writeFrame, hbytes, ← message_eq_frame]

/-- **One call.** For a payload that fits, `gxfp_send` writes what `framedSend` says and leaves `struct gxfp` alone. -/
theorem run_gxfpSend (E : Env ε) (tid : Nat) (w : World ε) (cmd0 cmd1 : UInt8) {k : Nat} (payload : Buffer k)
    (n : UInt16) (checksum : Bool) (hn : n.toNat ≤ 4092) (hk : n.toNat ≤ k) :
    let body := message cmd0.toNat cmd1.toNat (payload.load 0 n.toNat) checksum
    let spec := framedSend E (spiHeader body.length) body w.env
    let out := (gxfpSend cmd0 cmd1 payload n checksum).run (handle E tid) w
    out.1 = spec.1 ∧ out.2.g = w.g ∧ out.2.env = spec.2.1 ∧ sent out.2.log = sent w.log ++ spec.2.2 := by
  intro body spec out
  have hrun := run_gxfpSend_view E tid w.view cmd0 cmd1 payload n checksum hn hk
  rw [run_handleView] at hrun
  have hview := congrArg Prod.snd hrun
  exact ⟨congrArg Prod.fst hrun, congrArg View.g hview, congrArg View.env hview, congrArg View.sent hview⟩

end Run

/-! ### The Python copies of the encoder -/

theorem dialects_milan_eq (cmd0 cmd1 : Nat) (payload : Bytes) :
    Dialects.milan cmd0 cmd1 payload = message cmd0 cmd1 payload := by
  have hcmd : UInt8.ofNat (((cmd0 <<< 4) ||| (cmd1 <<< 1)) % 256) = packCmd cmd0 cmd1 := by rw [packCmd, and_ff]
  rw [message_eq_frame, if_pos rfl, frame, checkByte]
  simp only [Dialects.milan, hcmd, and_ff, shiftRight_8, List.cons_append, List.nil_append, List.cons.injEq,
    List.append_cancel_left_eq, and_true, true_and, total_cons, toNat_ofNat_mod]
  apply low8_congr
  omega

theorem dialects_hdr_eq (n : Nat) : Dialects.hdr n = spiHeader n := by
  have hhead : ((PKT_MSG <<< 4) &&& 0xF0) ||| (0 &&& 0x0F) = 0xA0 := by decide
  have hnat : UInt8.toNat 0xA0 = 0xA0 := rfl
  simp only [Dialects.hdr, spiHeader, hhead, and_ff, shiftRight_8, total_cons, total_nil, toNat_ofNat_mod, hnat,
    List.cons_append, List.nil_append, List.cons.injEq, and_true, true_and]
  exact ⟨rfl, ofNat_congr (by omega)⟩

theorem pyBytes_of_lt {xs : List Nat} (h : ∀ x ∈ xs, x < 256) : pyBytes xs = some (xs.map UInt8.ofNat) := by
  rw [pyBytes, if_pos]
  rw [List.all_eq_true]
  intro x hx
  exact decide_eq_true (h x hx)

/-- `sweep_low.milan` does not mask the high length byte, so it stops at 65535 body bytes. -/
theorem sweepLow_milan_eq (cmd0 cmd1 : Nat) (payload : Bytes) (hfits : payload.length ≤ 65531) :
    SweepLow.milan cmd0 cmd1 payload =
      some (spiHeader (message cmd0 cmd1 payload).length ++ message cmd0 cmd1 payload) := by
  have hbody : SweepLow.milan cmd0 cmd1 payload =
      (pyBytes [0xA0, (Dialects.milan cmd0 cmd1 payload).length &&& 0xFF,
        (Dialects.milan cmd0 cmd1 payload).length >>> 8]).map fun hdr =>
          hdr ++ [UInt8.ofNat (total hdr &&& 0xFF)] ++ Dialects.milan cmd0 cmd1 payload := rfl
  have hlen : (message cmd0 cmd1 payload).length = payload.length + 4 := by
    rw [message_eq_frame, frame_length]
  rw [hbody, dialects_milan_eq, ← dialects_hdr_eq, hlen, and_ff, shiftRight_8, pyBytes_of_lt]
  · simp only [Option.map_some, Dialects.hdr, and_ff, shiftRight_8, List.map_cons, List.map_nil]
    rw [Nat.mod_eq_of_lt (show (payload.length + 4) / 256 < 256 by omega)]
    rfl
  · intro x hx
    simp only [List.mem_cons, List.not_mem_nil, or_false] at hx
    omega

/-- **Four encoders, one frame.** What `gxfp_send` hands to `spi_write` is `gxfp.py`'s header and message, for every payload that fits; with a checksum, `sweep_low.py` and `dialects.py` build the concatenation of the two. -/
theorem encoders_agree {ε : Type} (E : Env ε) (tid : Nat) (w : World ε) (cmd0 cmd1 : UInt8) {k : Nat}
    (payload : Buffer k) (n : UInt16) (checksum : Bool) (hn : n.toNat ≤ 4092) (hk : n.toNat ≤ k) :
    let ps := payload.load 0 n.toNat
    let body := message cmd0.toNat cmd1.toNat ps checksum
    let hdr := spiHeader body.length
    sent ((gxfpSend cmd0 cmd1 payload n checksum).run (handle E tid) w).2.log =
        sent w.log ++ (framedSend E hdr body w.env).2.2 ∧
      (checksum = true →
        SweepLow.milan cmd0.toNat cmd1.toNat ps = some (hdr ++ body) ∧
        Dialects.hdr (Dialects.milan cmd0.toNat cmd1.toNat ps).length ++ Dialects.milan cmd0.toNat cmd1.toNat ps =
          hdr ++ body) := by
  intro ps body hdr
  have hps : ps.length = n.toNat := Buffer.load_length (by omega)
  refine ⟨(run_gxfpSend E tid w cmd0 cmd1 payload n checksum hn hk).2.2.2, ?_⟩
  rintro rfl
  refine ⟨sweepLow_milan_eq _ _ _ (by omega), ?_⟩
  rw [dialects_milan_eq, dialects_hdr_eq]

/-- `GetEvkVersion` with its two zero bytes of payload. -/
theorem encoders_agree_evkVersion :
    (2 : UInt16).toNat ≤ 4092 ∧ (2 : UInt16).toNat ≤ 8 ∧
      sent ((gxfpSend 0xA 4 (Buffer.zeros 8) 2 true).run (handle Env.idle 0) (probed ())).2.log =
        [[0xA0, 0x06, 0x00, 0xA6], [0xA8, 0x03, 0x00, 0x00, 0x00, 0xFF]] :=
  ⟨by decide, by decide,
    (encoders_agree Env.idle 0 (probed ()) 0xA 4 (Buffer.zeros 8) 2 true (by decide) (by decide)).1.trans (by decide)⟩

end GoodixSpi.Kernel
