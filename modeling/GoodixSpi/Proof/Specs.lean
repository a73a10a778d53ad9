import GoodixSpi.Kernel.Debugfs
import GoodixSpi.Proof.Codec

/-!
# What each function of the driver asks

One lemma for each function, against any contract that takes no note of the requests that only print, wait, read registers or index a local buffer. Such requests are `Plain`; what is left of a function is its transfers, the mutex, and its accesses to the shared buffers and to `rxlen`. The later arguments differ in what they make of those.
-/

namespace GoodixSpi.Kernel

open Wire Interaction Tools

/-- Requests that leave the bus, the mutex, the shared buffers and `rxlen` alone, and index inside their buffer. -/
def Plain : Req → Prop
  | .touch _ size off len => InRange size off len
  | .lock | .unlock | .getRxlen | .setRxlen _ | .txStore _ _ | .rxLoad _ _ | .spi _ => False
  | _ => True

/-- Requests that neither change `struct gxfp` nor index a buffer nor use the bus. -/
def Passive : Req → Prop
  | .print _ _ _ | .readl _ | .writel _ _ | .sleep _ | .irqLevel | .getDataReady | .sleepOnWq _ => True
  | _ => False

theorem Passive.plain {r : Req} (hr : Passive r) : Plain r := by
  cases r with
  | print ch fmt args | readl addr | writel addr v | sleep us | irqLevel | getDataReady | sleepOnWq ms => trivial
  | _ => exact absurd hr id

/-- Requests to the log and to the clock, and reads of registers and of the interrupt line. -/
def External : Req → Prop
  | .print _ _ _ | .readl _ | .sleep _ | .irqLevel => True
  | _ => False

/-- These, and writes of registers. -/
def Poking : Req → Prop
  | .writel _ _ => True
  | r => External r

theorem External.poking {r : Req} (hr : External r) : Poking r := by
  cases r with
  | print ch fmt args | readl addr | sleep us | irqLevel => trivial
  | _ => exact absurd hr id

theorem Poking.passive {r : Req} (hr : Poking r) : Passive r := by
  cases r with
  | print ch fmt args | readl addr | writel addr v | sleep us | irqLevel => trivial
  | _ => exact absurd hr id

section Contracts

variable {M : Type} {C : Contract Req Ans M}

/-- In mode `m` the contract admits a request and takes no note of it. -/
def IgnoredAt (C : Contract Req Ans M) (m : M) (r : Req) : Prop := C.may m r ∧ ∀ a, C.next m r a = m

def IgnoresTouch (C : Contract Req Ans M) : Prop :=
  ∀ m b size off len, InRange size off len → IgnoredAt C m (.touch b size off len)

def IgnoresPlain (C : Contract Req Ans M) : Prop := ∀ m r, Plain r → IgnoredAt C m r

theorem IgnoresPlain.touch (hC : IgnoresPlain C) : IgnoresTouch C := by
  intro m b size off len hin
  exact hC m _ hin

theorem IgnoresPlain.quiet (hC : IgnoresPlain C) {α : Type} {p : DriverM α} (hp : Prog.Only Plain p) : Quiet C p :=
  quiet_of_only hC hp

theorem IgnoresPlain.quiet_passive (hC : IgnoresPlain C) {α : Type} {p : DriverM α} (hp : Prog.Only Passive p) :
    Quiet C p :=
  hC.quiet (hp.mono fun _ => Passive.plain)

theorem IgnoresPlain.quiet_poking (hC : IgnoresPlain C) {α : Type} {p : DriverM α} (hp : Prog.Only Poking p) :
    Quiet C p :=
  hC.quiet_passive (hp.mono fun _ => Poking.passive)

theorem IgnoresPlain.quiet_external (hC : IgnoresPlain C) {α : Type} {p : DriverM α} (hp : Prog.Only External p) :
    Quiet C p :=
  hC.quiet_poking (hp.mono fun _ => External.poking)

theorem wp_plain_bind (hC : IgnoresPlain C) {r : Req} {α : Type} {f : Ans r → DriverM α} {m : M} {Q : M → α → Prop}
    (hr : Plain r) (h : ∀ a, wp C (f a) m Q) : wp C (issue r >>= f) m Q := by
  obtain ⟨hmay, hnext⟩ := hC m r hr
  apply wp_perform_bind hmay
  intro a _
  rw [hnext a]
  exact h a

/-! ### Filling the body buffer -/

theorem wp_load_bind (hC : IgnoresTouch C) {tag : Buf} {size off len : Nat} {b : Buffer size} {α : Type}
    {f : Bytes → DriverM α} {m : M} {Q : M → α → Prop} (hin : InRange size off len)
    (h : wp C (f (b.load off len)) m Q) : wp C (load tag b off len >>= f) m Q := by
  obtain ⟨hmay, hnext⟩ := hC m tag size off len hin
  refine ⟨hmay, ?_⟩
  intro a _
  rw [hnext a]
  exact h

theorem wp_store (hC : IgnoresTouch C) {tag : Buf} {size off : Nat} {b : Buffer size} {new : Bytes} {m : M}
    {Q : M → Buffer size → Prop} (hin : off + new.length ≤ size) (hQ : Q m (b.store off new)) :
    wp C (store tag b off new) m Q := by
  obtain ⟨hmay, hnext⟩ := hC m tag size off new.length (inRange_of_le hin)
  refine ⟨hmay, ?_⟩
  intro a _
  rw [hnext a]
  exact hQ

theorem wp_store_bind (hC : IgnoresTouch C) {tag : Buf} {size off : Nat} {b : Buffer size} {new : Bytes} {α : Type}
    {f : Buffer size → DriverM α} {m : M} {Q : M → α → Prop} (hin : off + new.length ≤ size)
    (h : wp C (f (b.store off new)) m Q) : wp C (store tag b off new >>= f) m Q :=
  wp_bind_iff.mpr (wp_store hC hin h)

theorem foldl_add_toNat (ps : Bytes) (s : UInt8) :
    (ps.foldl (fun s x => s + x) s).toNat = (s.toNat + total ps) % 256 := by
  induction ps generalizing s with
  | nil => simp [Nat.mod_eq_of_lt s.toNat_lt]
  | cons p ps ih =>
      rw [List.foldl_cons, ih, UInt8.toNat_add, total_cons]
      omega

/-- The C check byte is the one the formula asks for. -/
theorem sub_foldl_eq_checkByte {c lo hi : UInt8} {ps : Bytes} (hlo : lo.toNat = (ps.length + 1) % 256)
    (hhi : hi.toNat = (ps.length + 1) / 256 % 256) :
    0xAA - ps.foldl (fun s x => s + x) (c + lo + hi) = checkByte c ps := by
  apply UInt8.toNat_inj.mp
  rw [UInt8.toNat_sub, foldl_add_toNat, UInt8.toNat_add, UInt8.toNat_add, checkByte, toNat_low8, hlo, hhi]
  have hconst : (0xAA : UInt8).toNat = 170 := rfl
  omega

theorem wp_copyPayload (hC : IgnoresTouch C) {size k n : Nat} {body : Buffer size} {payload : Buffer k} {front : Bytes}
    {m : M} {Q : M → Buffer size → Prop} (hn : n ≤ k) (hfits : 3 + n ≤ size) (hbody : body.Filled front)
    (hfront : front.length = 3) (hQ : ∀ b : Buffer size, b.Filled (front ++ payload.load 0 n) → Q m b) :
    wp C (copyPayload body payload n) m Q := by
  have hps : (payload.load 0 n).length = n := Buffer.load_length (by omega)
  rw [copyPayload]
  by_cases hzero : n = 0
  · rw [if_neg (not_not.mpr hzero)]
    apply hQ
    rwa [hzero, Buffer.load_zero_len, List.append_nil]
  · rw [if_pos hzero]
    apply wp_load_bind hC (inRange_of_le (by omega))
    apply wp_store hC (by omega)
    exact hQ _ (hbody.store hfront (by omega))

/-- The body buffer ends up holding a frame. -/
theorem wp_fillBody (hC : IgnoresTouch C) {c lo hi : UInt8} {k : Nat} {payload : Buffer k} {n blen : UInt16}
    {checksum : Bool} {m : M} {Q : M → Buffer blen.toNat → Prop} (hn : n.toNat ≤ k)
    (hblen : blen.toNat = n.toNat + 4) (hlo : lo = UInt8.ofNat ((n.toNat + 1) % 256))
    (hhi : hi = UInt8.ofNat ((n.toNat + 1) / 256 % 256))
    (hQ : ∀ body : Buffer blen.toNat,
      body.bytes = frame c (payload.load 0 n.toNat)
        (if checksum then checkByte c (payload.load 0 n.toNat) else NO_CHECKSUM) → Q m body) :
    wp C (fillBody c lo hi payload n checksum blen) m Q := by
  have hps : (payload.load 0 n.toNat).length = n.toNat := Buffer.load_length (by omega)
  set ps := payload.load 0 n.toNat
  have hloNat : lo.toNat = (ps.length + 1) % 256 := by
    rw [hlo, hps, toNat_ofNat_mod, Nat.mod_mod]
  have hhiNat : hi.toNat = (ps.length + 1) / 256 % 256 := by
    rw [hhi, hps, toNat_ofNat_mod, Nat.mod_mod]
  have hlast (body : Buffer blen.toNat) (ck : UInt8) (hbody : body.Filled ([c, lo, hi] ++ ps))
      (hck : ck = if checksum then checkByte c ps else NO_CHECKSUM) :
      wp C (store .body body (3 + n.toNat) [ck]) m Q := by
    apply wp_store hC (by simp only [List.length_singleton]; omega)
    apply hQ
    rw [(hbody.store (by simp [hps]; omega) (by simp only [List.length_singleton]; omega)).bytes_eq
      (by simp [hps]; omega), hck, frame, hps, ← hlo, ← hhi]
    rfl
  -- the three leading stores, then the copy of the payload when there is one
  have h1 : ((Buffer.zeros blen.toNat).store 0 [c]).Filled [c] :=
    Buffer.filled_zeros.store rfl (by simp only [List.length_singleton]; omega)
  have h2 : (((Buffer.zeros blen.toNat).store 0 [c]).store 1 [lo]).Filled [c, lo] :=
    h1.store rfl (by simp only [List.length_singleton]; omega)
  have h3 : ((((Buffer.zeros blen.toNat).store 0 [c]).store 1 [lo]).store 2 [hi]).Filled [c, lo, hi] :=
    h2.store rfl (by simp only [List.length_singleton]; omega)
  apply wp_store_bind hC (by simp only [List.length_singleton]; omega)
  apply wp_store_bind hC (by simp only [List.length_singleton]; omega)
  apply wp_store_bind hC (by simp only [List.length_singleton]; omega)
  refine wp_bind_iff.mpr (wp_copyPayload hC hn (by omega) h3 rfl ?_)
  intro body hbody
  cases checksum with
  | false => exact hlast body NO_CHECKSUM hbody rfl
  | true =>
      apply wp_load_bind hC (inRange_of_le (by omega))
      exact hlast body _ hbody (sub_foldl_eq_checkByte hloNat hhiNat)

/-! ### `gxfp_send` and `gxfp_recv` -/

theorem wp_writeFrame (hC : IgnoresPlain C) {cmd : UInt8} {hdr : Bytes} {blen : Nat} {body : Buffer blen} {m : M}
    {Q : M → Int → Prop} (hhdr : C.may m (.spi (frameHdrXfer hdr)))
    (hfail : ∀ a, C.rely m (.spi (frameHdrXfer hdr)) a → a.ret ≠ 0 → Q (C.next m _ a) a.ret)
    (hbody : ∀ a, C.rely m (.spi (frameHdrXfer hdr)) a → a.ret = 0 →
      C.may (C.next m _ a) (.spi (frameBodyXfer body.bytes blen)) ∧
      ∀ b, C.rely (C.next m _ a) (.spi (frameBodyXfer body.bytes blen)) b → Q (C.next (C.next m _ a) _ b) b.ret) :
    wp C (writeFrame cmd hdr body) m Q := by
  apply wp_load_bind hC.touch (inRange_of_le (by omega))
  apply wp_plain_bind hC (by trivial)
  intro _
  apply wp_perform_bind hhdr
  intro a ha
  by_cases hret : a.ret = 0
  · rw [if_neg (not_not.mpr hret)]
    apply wp_plain_bind hC (by trivial)
    intro _
    apply wp_load_bind hC.touch (inRange_of_le (by omega))
    rw [Buffer.load_all]
    obtain ⟨hmay, hQ⟩ := hbody a ha hret
    apply wp_perform_bind hmay
    intro b hb
    by_cases hret' : b.ret = 0
    · rw [if_neg (not_not.mpr hret')]
      exact hret' ▸ hQ b hb
    · rw [if_pos hret']
      apply wp_plain_bind hC (by trivial)
      intro _
      exact hQ b hb
  · rw [if_pos hret]
    apply wp_plain_bind hC (by trivial)
    intro _
    exact hfail a ha hret

theorem gxfpMakeSpiHdr_eq (blen : UInt16) (n : Nat) (hblen : blen.toNat = n) :
    gxfpMakeSpiHdr blen GXFP_PKT_MSG = spiHeader n := by
  subst hblen
  have hhead : UInt8.ofNat ((GXFP_PKT_MSG.toNat <<< 4) &&& 0xF0) = 0xA0 := by decide
  have hhead' : ((PKT_MSG <<< 4) &&& 0xF0) ||| (0 &&& 0x0F) = 0xA0 := by decide
  have hnat : UInt8.toNat 0xA0 = 0xA0 := rfl
  simp only [gxfpMakeSpiHdr, spiHeader, hhead, hhead', and_ff, shiftRight_8, toNat_ofNat_mod, Nat.mod_mod, hnat,
    List.cons.injEq, and_true, true_and]
  exact ⟨rfl, ofNat_congr (by omega)⟩

/-- What a contract has to provide for a framed send: the header that announces the body, then, unless that failed, the body. -/
structure SendSpec (C : Contract Req Ans M) (m : M) (Q : M → Int → Prop) : Prop where
  refused : ∀ size, C.rely m (.kmalloc size) false → Q m (-ENOMEM)
  hdr : ∀ n ≤ GXFP_BUF_MAX, C.may m (.spi (frameHdrXfer (spiHeader n)))
  failed : ∀ n a, C.rely m (.spi (frameHdrXfer (spiHeader n))) a → a.ret ≠ 0 →
    Q (C.next m (.spi (frameHdrXfer (spiHeader n))) a) a.ret
  body : ∀ (body : Bytes) a, body.length ≤ GXFP_BUF_MAX → C.rely m (.spi (frameHdrXfer (spiHeader body.length))) a →
    a.ret = 0 →
    let m' := C.next m (.spi (frameHdrXfer (spiHeader body.length))) a
    C.may m' (.spi (frameBodyXfer body body.length)) ∧
    ∀ b, C.rely m' (.spi (frameBodyXfer body body.length)) b →
      Q (C.next m' (.spi (frameBodyXfer body body.length)) b) b.ret

/-- The bound on `n` is where the body would not fit. -/
theorem wp_gxfpSend (hC : IgnoresPlain C) {cmd0 cmd1 : UInt8} {k : Nat} {payload : Buffer k} {n : UInt16}
    {checksum : Bool} {m : M} {Q : M → Int → Prop} (hn : n.toNat ≤ 4092) (hk : n.toNat ≤ k) (hQ : SendSpec C m Q) :
    wp C (gxfpSend cmd0 cmd1 payload n checksum) m Q := by
  simp only [gxfpSend, and_ff, shiftRight_8]
  generalize hofNat : UInt16.ofNat (n.toNat + 4) = blen
  have hblen : blen.toNat = n.toNat + 4 := by
    rw [← hofNat, UInt16.toNat_ofNat']
    omega
  have hmax : blen.toNat ≤ GXFP_BUF_MAX := by
    rw [hblen, GXFP_BUF_MAX]
    omega
  rw [if_neg (Nat.not_lt.mpr hmax)]
  obtain ⟨hmay, hnext⟩ := hC m (.kmalloc blen.toNat) (by trivial)
  apply wp_perform_bind hmay
  intro ok halloc
  rw [hnext ok]
  by_cases hok : ok = false
  · rw [if_pos hok]
    exact hQ.refused blen.toNat (hok ▸ halloc)
  · rw [if_neg hok]
    apply wp_bind_iff.mpr
    apply wp_fillBody hC.touch hk hblen rfl rfl
    intro body _
    obtain ⟨bytes, hbytes⟩ := body
    rw [gxfpMakeSpiHdr_eq blen blen.toNat rfl]
    have hbody (a : XferAns (frameHdrXfer (spiHeader blen.toNat))) := hQ.body bytes
    rw [hbytes] at hbody
    exact wp_writeFrame hC (hQ.hdr _ hmax) (hQ.failed _) fun a ha hret => hbody a a hmax ha hret

/-- A contract that takes no note of transfers outside the shared buffers takes none of a send. -/
theorem sendSpec_of_ignored {m : M} {Q : M → Int → Prop}
    (hspi : ∀ x : Xfer, x.tx ≠ .txbuf → x.rx ≠ .rxbuf → IgnoredAt C m (.spi x)) (hQ : ∀ ret, Q m ret) :
    SendSpec C m Q := by
  have hhdr (hdr : Bytes) : IgnoredAt C m (.spi (frameHdrXfer hdr)) := hspi _ (by simp [frameHdrXfer]) (by simp [frameHdrXfer])
  have hbody (body : Bytes) : IgnoredAt C m (.spi (frameBodyXfer body body.length)) :=
    hspi _ (by simp [frameBodyXfer]) (by simp [frameBodyXfer])
  refine ⟨fun _ _ => hQ _, fun n _ => (hhdr _).1, ?_, ?_⟩
  · intro n a _ _
    rw [(hhdr _).2 a]
    exact hQ a.ret
  · intro body a _ _ _
    dsimp only
    rw [(hhdr _).2 a]
    refine ⟨(hbody body).1, ?_⟩
    intro b _
    rw [(hbody body).2 b]
    exact hQ b.ret

/-- A header read succeeded and announces a body that fits the receive buffer. -/
def AnnouncesBody (ret : Int) (hdr : Bytes) : Prop := ret = 0 ∧ 0 < gxfpCheckSpiHdr hdr ∧ gxfpCheckSpiHdr hdr ≤ GXFP_BUF_MAX

instance (ret : Int) (hdr : Bytes) : Decidable (AnnouncesBody ret hdr) := inferInstanceAs (Decidable (_ ∧ _ ∧ _))

/-- What a contract has to provide for a receive: the header, then, if it announces a body that fits, the body, and the new `rxlen` if that succeeded. -/
structure RecvSpec (C : Contract Req Ans M) (m : M) (Q : M → Int → Prop) : Prop where
  hdr : C.may m (.spi recvHdrXfer)
  stopped : ∀ a ret, ¬ AnnouncesBody a.ret a.data → C.rely m (.spi recvHdrXfer) a →
    Q (C.next m (.spi recvHdrXfer) a) ret
  body : ∀ a (n : Nat), 0 < n → n ≤ GXFP_BUF_MAX → gxfpCheckSpiHdr a.data = n →
    C.rely m (.spi recvHdrXfer) a → a.ret = 0 →
    C.may (C.next m (.spi recvHdrXfer) a) (.spi (recvBodyXfer n)) ∧
    ∀ b, C.rely (C.next m (.spi recvHdrXfer) a) (.spi (recvBodyXfer n)) b →
      let m' := C.next (C.next m (.spi recvHdrXfer) a) (.spi (recvBodyXfer n)) b
      (b.ret ≠ 0 → Q m' b.ret) ∧
      (b.ret = 0 → C.may m' (.setRxlen n) ∧
        (C.may (C.next m' (.setRxlen n) ()) (.rxLoad 0 (min n 32)) ∧
          ∀ bs, Q (C.next (C.next m' (.setRxlen n) ()) (.rxLoad 0 (min n 32)) bs) n))

theorem wp_gxfpRecv (hC : IgnoresPlain C) {m : M} {Q : M → Int → Prop} (hQ : RecvSpec C m Q) : wp C gxfpRecv m Q := by
  apply wp_perform_bind hQ.hdr
  intro a ha
  by_cases hret : a.ret = 0
  · rw [if_neg (not_not.mpr hret)]
    apply wp_plain_bind hC (by trivial)
    intro _
    generalize hlen : gxfpCheckSpiHdr a.data = n
    have hstop (hn : n ≤ 0 ∨ n > GXFP_BUF_MAX) (ret : Int) : Q (C.next m (.spi recvHdrXfer) a) ret := by
      apply hQ.stopped a ret _ ha
      intro hbody
      rw [AnnouncesBody, hlen] at hbody
      omega
    by_cases hneg : n < 0
    · rw [if_pos hneg]
      exact hstop (by omega) n
    · rw [if_neg hneg]
      by_cases hsize : n = 0 ∨ n > GXFP_BUF_MAX
      · rw [if_pos hsize]
        exact hstop (by omega) _
      · rw [if_neg hsize]
        obtain ⟨len, rfl⟩ : ∃ len : Nat, n = len := ⟨n.toNat, by omega⟩
        obtain ⟨hmay, hbody⟩ := hQ.body a len (by omega) (by omega) hlen ha hret
        apply wp_perform_bind hmay
        intro b hb
        obtain ⟨hfail, hdone⟩ := hbody b hb
        by_cases hret' : b.ret = 0
        · rw [if_neg (not_not.mpr hret')]
          obtain ⟨hset, hload, hend⟩ := hdone hret'
          apply wp_perform_bind hset
          intro _ _
          apply wp_perform_bind hload
          intro bs _
          apply wp_plain_bind hC (by trivial)
          intro _
          exact hend bs
        · rw [if_pos hret']
          exact hfail hret'
  · rw [if_pos hret]
    exact hQ.stopped a _ (fun hbody => hret hbody.1) ha

/-- A contract that takes no note of what a receive does to the receive buffer takes none of the receive. -/
theorem recvSpec_of_ignored {m : M} {Q : M → Int → Prop} (hhdr : IgnoredAt C m (.spi recvHdrXfer))
    (hbody : ∀ n ≤ GXFP_BUF_MAX, IgnoredAt C m (.spi (recvBodyXfer n)))
    (hset : ∀ n ≤ GXFP_BUF_MAX, IgnoredAt C m (.setRxlen n)) (hload : ∀ n ≤ 32, IgnoredAt C m (.rxLoad 0 n))
    (hQ : ∀ ret, Q m ret) : RecvSpec C m Q := by
  refine ⟨hhdr.1, ?_, ?_⟩
  · intro a ret _ _
    rw [hhdr.2 a]
    exact hQ ret
  · intro a n _ hn _ _ _
    rw [hhdr.2 a]
    refine ⟨(hbody n hn).1, ?_⟩
    intro b _
    have hmin : min n 32 ≤ 32 := by omega
    simp only [(hbody n hn).2 b, (hset n hn).2 (), (hload _ hmin).2]
    exact ⟨fun _ => hQ _, fun _ => ⟨(hset n hn).1, (hload _ hmin).1, fun _ => hQ _⟩⟩

/-! ### `cmd` -/

theorem external_print (ch : Channel) (fmt : String) (args : List Arg) : Prog.Only External (print ch fmt args) :=
  ⟨trivial, fun _ => trivial⟩

theorem passive_waitDataReady (ms : Nat) : Prog.Only Passive (waitDataReady ms) := by
  refine ⟨trivial, ?_⟩
  intro ready
  cases ready with
  | true => trivial
  | false => exact ⟨trivial, fun _ => trivial⟩

/-- A token loop that has taken `n` of at most `cap` values meets a bad token. -/
def rejectsFrom (cap : Nat) : List Bytes → Nat → Bool
  | [], _ => false
  | tok :: p, n =>
      if n < cap then
        if tok = [] then rejectsFrom cap p n
        else
          match kstrtouint tok with
          | .error _ => true
          | .ok _ => rejectsFrom cap p (n + 1)
      else false

theorem wp_cmdPayload (hC : IgnoresTouch C) (p : List Bytes) {payload : Buffer 256} {n : Nat} {m : M}
    {Q : M → Option (Buffer 256 × Nat) → Prop} (hn : n ≤ 256) (hnone : rejectsFrom 256 p n = true → Q m none)
    (hsome : rejectsFrom 256 p n = false → ∀ payload n, n ≤ 256 → Q m (some (payload, n))) :
    wp C (cmdPayload p payload n) m Q := by
  induction p generalizing payload n with
  | nil => exact hsome rfl payload n hn
  | cons tok p ih =>
      rw [rejectsFrom] at hnone hsome
      rw [cmdPayload]
      by_cases hlt : n < 256
      · rw [if_pos hlt] at hnone hsome ⊢
        by_cases hempty : tok = []
        · rw [if_pos hempty] at hnone hsome ⊢
          exact ih hn hnone hsome
        · rw [if_neg hempty] at hnone hsome ⊢
          cases hval : kstrtouint tok with
          | error e =>
              rw [hval] at hnone
              exact hnone rfl
          | ok v =>
              rw [hval] at hnone hsome
              apply wp_store_bind hC (by simp only [List.length_singleton]; omega)
              exact ih (by omega) hnone hsome
      · rw [if_neg hlt] at hsome ⊢
        exact hsome rfl payload n hn

/-- The inputs that reach the mutex in `gxfp_cmd_write`. -/
def UserBuf.accepted (u : UserBuf) : Bool :=
  u.len ≤ 1024 &&
    match u.dup with
    | .error _ => false
    | .ok buf =>
        match cmdNumbers (fields (strim (cString buf))) with
        | none => false
        | some (_, _, p) => !rejectsFrom 256 p 0

theorem wp_cmdExchange (hC : IgnoresPlain C) {cmd0 cmd1 n : Nat} {payload : Buffer 256} {m : M} {Q : M → Prop}
    (hn : n ≤ 256) (hlock : C.may m .lock)
    (hsend : SendSpec C (C.next m .lock ()) fun m' ret =>
      (ret ≠ 0 → C.may m' .unlock ∧ Q (C.next m' .unlock ())) ∧
      (ret = 0 → RecvSpec C m' fun m'' _ => C.may m'' .unlock ∧ Q (C.next m'' .unlock ()))) :
    wp C (cmdExchange cmd0 cmd1 payload n) m fun m' _ => Q m' := by
  have hn16 : (UInt16.ofNat n).toNat = n := by
    rw [UInt16.toNat_ofNat']
    omega
  apply wp_perform_bind hlock
  intro _ _
  apply wp_plain_bind hC (by trivial)
  intro _
  apply wp_bind (wp_gxfpSend hC (by omega) (by omega) hsend)
  intro m' ret hsent
  obtain ⟨hfail, hok⟩ := hsent
  by_cases hret : ret = 0
  · rw [if_pos hret]
    apply wp_quiet_bind (hC.quiet_passive (passive_waitDataReady 500))
    intro _
    apply wp_bind (wp_gxfpRecv hC (hok hret))
    intro m'' _ hreceived
    obtain ⟨hunlock, hQ⟩ := hreceived
    exact wp_perform_bind hunlock fun _ _ => hQ
  · rw [if_neg hret]
    obtain ⟨hunlock, hQ⟩ := hfail hret
    exact wp_perform_bind hunlock fun _ _ => hQ

/-- A command either ends before it asks for anything, or locks, sends, perhaps receives, and unlocks. -/
theorem wp_gxfpCmdWrite (hC : IgnoresPlain C) {u : UserBuf} {m : M} {Q : M → Prop} (hreject : u.accepted = false → Q m)
    (hlock : C.may m .lock)
    (hsend : u.accepted = true → SendSpec C (C.next m .lock ()) fun m' ret =>
      (ret ≠ 0 → C.may m' .unlock ∧ Q (C.next m' .unlock ())) ∧
      (ret = 0 → RecvSpec C m' fun m'' _ => C.may m'' .unlock ∧ Q (C.next m'' .unlock ()))) :
    wp C (gxfpCmdWrite u) m fun m' _ => Q m' := by
  rw [UserBuf.accepted] at hreject hsend
  rw [gxfpCmdWrite]
  by_cases hlen : u.len > 1024
  · rw [if_pos hlen]
    rw [decide_eq_false (Nat.not_le.mpr hlen)] at hreject
    exact hreject rfl
  · rw [if_neg hlen]
    rw [decide_eq_true (Nat.not_lt.mp hlen), Bool.true_and] at hreject hsend
    cases hdup : u.dup with
    | error e =>
        rw [hdup] at hreject
        exact hreject rfl
    | ok buf =>
        rw [hdup] at hreject hsend
        dsimp only at hreject hsend ⊢
        cases hnum : cmdNumbers (fields (strim (cString buf))) with
        | none =>
            rw [hnum] at hreject
            exact hreject rfl
        | some numbers =>
            obtain ⟨cmd0, cmd1, p⟩ := numbers
            rw [hnum] at hreject hsend
            dsimp only at hreject hsend
            apply wp_bind_iff.mpr
            apply wp_cmdPayload hC.touch p (Nat.zero_le 256)
            · intro hbad
              exact hreject (by rw [hbad]; rfl)
            · intro hgood payload n hn
              exact wp_bind_iff.mpr (wp_cmdExchange hC hn hlock (hsend (by rw [hgood]; rfl)))

/-! ### `raw` -/

theorem wp_rawTokens {I : M → Nat → Prop}
    (hstep : ∀ m n b, I m n → n < GXFP_BUF_MAX →
      C.may m (.txStore n [b]) ∧ I (C.next m (.txStore n [b]) ()) (n + 1))
    (p : List Bytes) {n : Nat} {m : M} (hI : I m n) :
    wp C (rawTokens p n) m fun m' r => ∃ k, I m' k ∧ (r = none ∨ r = some k) := by
  induction p generalizing n m with
  | nil => exact ⟨n, hI, Or.inr rfl⟩
  | cons tok p ih =>
      rw [rawTokens]
      by_cases hlt : n < GXFP_BUF_MAX
      · rw [if_pos hlt]
        by_cases hempty : tok = []
        · rw [if_pos hempty]
          exact ih hI
        · rw [if_neg hempty]
          cases kstrtouint tok with
          | error e => exact ⟨n, hI, Or.inl rfl⟩
          | ok v =>
              obtain ⟨hmay, hI'⟩ := hstep m n (UInt8.ofNat (v &&& 0xFF)) hI hlt
              exact wp_perform_bind hmay fun _ _ => ih hI'
      · rw [if_neg hlt]
        exact ⟨n, hI, Or.inr rfl⟩

theorem wp_gxfpRawWrite {I : M → Nat → Prop} {u : UserBuf} {m : M} {Q : M → Prop}
    (hstep : ∀ m n b, I m n → n < GXFP_BUF_MAX →
      C.may m (.txStore n [b]) ∧ I (C.next m (.txStore n [b]) ()) (n + 1))
    (hI : I m 0) (hreject : ∀ m n, I m n → Q m)
    (htransfer : ∀ m n, I m n → 0 < n → wp C (rawTransfer n) m fun m' _ => Q m') :
    wp C (gxfpRawWrite u) m fun m' _ => Q m' := by
  rw [gxfpRawWrite]
  by_cases hlen : u.len > 4096
  · rw [if_pos hlen]
    exact hreject m 0 hI
  · rw [if_neg hlen]
    cases u.dup with
    | error e => exact hreject m 0 hI
    | ok buf =>
        apply wp_bind (wp_rawTokens hstep _ hI)
        intro m' r hparsed
        obtain ⟨k, hI', rfl | rfl⟩ := hparsed
        · exact hreject m' k hI'
        · cases k with
          | zero => exact hreject m' 0 hI'
          | succ k => exact wp_bind (htransfer m' (k + 1) hI' (by omega)) fun _ _ hQ => hQ

theorem wp_rawTransfer (hC : IgnoresPlain C) {n : Nat} {m : M} {Q : M → Prop} (hlock : C.may m .lock)
    (hspi : C.may (C.next m .lock ()) (.spi (rawXfer n)))
    (hset : ∀ a, C.rely (C.next m .lock ()) (.spi (rawXfer n)) a →
      let m' := C.next (C.next m .lock ()) (.spi (rawXfer n)) a
      let k := if a.ret ≠ 0 then 0 else n
      C.may m' (.setRxlen k) ∧
        let m'' := C.next (C.next m' (.setRxlen k) ()) .unlock ()
        C.may (C.next m' (.setRxlen k) ()) .unlock ∧ C.may m'' (.rxLoad 0 (min n 32)) ∧
          ∀ bs, Q (C.next m'' (.rxLoad 0 (min n 32)) bs)) :
    wp C (rawTransfer n) m fun m' _ => Q m' := by
  apply wp_perform_bind hlock
  intro _ _
  apply wp_perform_bind hspi
  intro a ha
  obtain ⟨hmay, hunlock, hload, hQ⟩ := hset a ha
  apply wp_perform_bind hmay
  intro _ _
  apply wp_perform_bind hunlock
  intro _ _
  apply wp_perform_bind hload
  intro bs _
  apply wp_plain_bind hC (by trivial)
  intro _
  exact hQ bs

/-- The output buffer of `3n + 2` bytes holds `n` items of three characters, the last one's NUL, and the newline over it. -/
theorem wp_gxfpRawRead (hC : IgnoresPlain C) {len off : Nat} {m : M} {Q : M → Prop} (hlock : C.may m .lock)
    (hlen : C.may (C.next m .lock ()) .getRxlen)
    (hread : ∀ n, C.rely (C.next m .lock ()) .getRxlen n →
      let m' := C.next (C.next m .lock ()) .getRxlen n
      (∀ i < n, C.may m' (.rxLoad i 1) ∧ ∀ bs, C.next m' (.rxLoad i 1) bs = m') ∧
      C.may m' .unlock ∧ Q (C.next m' .unlock ())) :
    wp C (gxfpRawRead len off) m fun m' _ => Q m' := by
  apply wp_perform_bind hlock
  intro _ _
  apply wp_perform_bind hlen
  intro n hn
  obtain ⟨hload, hunlock, hQ⟩ := hread n hn
  apply wp_plain_bind hC (by trivial)
  intro ok
  by_cases hok : ok = false
  · rw [if_pos hok]
    exact wp_perform_bind hunlock fun _ _ => hQ
  · rw [if_neg hok]
    have hfold := wp_fold (C := C) (f := printByte) (I := fun m' _ => m' = C.next (C.next m .lock ()) .getRxlen n)
      (List.range n) ?_ (g := Buffer.zeros (n * 3 + 2)) rfl
    · apply wp_bind hfold
      intro m' out hm'
      subst hm'
      apply wp_store_bind hC.touch (by simp only [List.length_singleton]; omega)
      apply wp_perform_bind hunlock
      intro _ _
      apply wp_load_bind hC.touch
      · intro i hi
        omega
      · exact hQ
    · intro m' out i hi hm'
      subst hm'
      obtain ⟨hmay, hnext⟩ := hload i (List.mem_range.mp hi)
      have hi' := List.mem_range.mp hi
      apply wp_perform_bind hmay
      intro bs _
      rw [hnext bs]
      exact wp_store hC.touch (by simp only [hex2, List.length_append, List.length_cons, List.length_nil]; omega) rfl

/-! ### `replay` -/

/-- What a contract has to provide for the reply of one replayed command: the header and, if it announces a body that fits, the body. -/
structure ReplaySpec (C : Contract Req Ans M) (m : M) (Q : M → Prop) : Prop where
  hdr : C.may m (.spi replayHdrXfer)
  stopped : ∀ a, ¬ AnnouncesBody a.ret a.data → C.rely m (.spi replayHdrXfer) a → Q (C.next m (.spi replayHdrXfer) a)
  body : ∀ a (n : Nat), 0 < n → n ≤ GXFP_BUF_MAX → gxfpCheckSpiHdr a.data = n →
    C.rely m (.spi replayHdrXfer) a → a.ret = 0 →
    C.may (C.next m (.spi replayHdrXfer) a) (.spi (replayBodyXfer n)) ∧
    ∀ b, C.rely (C.next m (.spi replayHdrXfer) a) (.spi (replayBodyXfer n)) b →
      let m' := C.next (C.next m (.spi replayHdrXfer) a) (.spi (replayBodyXfer n)) b
      (b.ret ≠ 0 → Q m') ∧
      (b.ret = 0 → C.may m' (.rxLoad 0 (min n 32)) ∧ ∀ bs, Q (C.next m' (.rxLoad 0 (min n 32)) bs))

theorem replaySpec_of_ignored {m : M} {Q : M → Prop} (hhdr : IgnoredAt C m (.spi replayHdrXfer))
    (hbody : ∀ n ≤ GXFP_BUF_MAX, IgnoredAt C m (.spi (replayBodyXfer n)))
    (hload : ∀ n ≤ 32, IgnoredAt C m (.rxLoad 0 n)) (hQ : Q m) : ReplaySpec C m Q := by
  refine ⟨hhdr.1, ?_, ?_⟩
  · intro a _ _
    rw [hhdr.2 a]
    exact hQ
  · intro a n _ hn _ _ _
    rw [hhdr.2 a]
    refine ⟨(hbody n hn).1, ?_⟩
    intro b _
    have hmin : min n 32 ≤ 32 := by omega
    simp only [(hbody n hn).2 b, (hload _ hmin).2]
    exact ⟨fun _ => hQ, fun _ => ⟨(hload _ hmin).1, fun _ => hQ⟩⟩

theorem wp_replayBody (hC : IgnoresPlain C) {n : Nat} {m : M} {Q : M → Prop} (hmay : C.may m (.spi (replayBodyXfer n)))
    (hbody : ∀ b, C.rely m (.spi (replayBodyXfer n)) b →
      let m' := C.next m (.spi (replayBodyXfer n)) b
      (b.ret ≠ 0 → Q m') ∧
      (b.ret = 0 → C.may m' (.rxLoad 0 (min n 32)) ∧ ∀ bs, Q (C.next m' (.rxLoad 0 (min n 32)) bs))) :
    wp C (replayBody n) m fun m' _ => Q m' := by
  apply wp_perform_bind hmay
  intro b hb
  obtain ⟨hfailed, hdone⟩ := hbody b hb
  by_cases hret : b.ret = 0
  · rw [if_pos hret]
    obtain ⟨hload, hQ⟩ := hdone hret
    apply wp_perform_bind hload
    intro bs _
    exact wp_of_quiet (hC.quiet_external (external_print _ _ _)) fun _ => hQ bs
  · rw [if_neg hret]
    exact hfailed hret

theorem wp_replayStep (hC : IgnoresPlain C) {c : ReplayCmd} {m : M} {Q : M → Prop} (hn : c.n.toNat ≤ 8)
    (hsend : SendSpec C m fun m' ret => (ret ≠ 0 → Q m') ∧ (ret = 0 → ReplaySpec C m' Q)) :
    wp C (replayStep c) m fun m' _ => Q m' := by
  have hn16 : (UInt16.ofNat c.n.toNat).toNat = c.n.toNat := by
    rw [UInt16.toNat_ofNat']
    omega
  apply wp_bind (wp_gxfpSend hC (by omega) (by omega) hsend)
  intro m' ret hsent
  obtain ⟨hfail, hok⟩ := hsent
  by_cases hret : ret = 0
  · rw [if_neg (not_not.mpr hret)]
    have hreply := hok hret
    apply wp_plain_bind hC (by trivial)
    intro _
    apply wp_perform_bind hreply.hdr
    intro a ha
    by_cases hret' : a.ret = 0
    · rw [if_neg (not_not.mpr hret')]
      apply wp_plain_bind hC (by trivial)
      intro _
      generalize hlen : gxfpCheckSpiHdr a.data = n
      by_cases hsize : n > 0 ∧ n ≤ GXFP_BUF_MAX
      · rw [if_pos hsize]
        obtain ⟨len, rfl⟩ : ∃ len : Nat, n = len := ⟨n.toNat, by omega⟩
        obtain ⟨hmay, hbody⟩ := hreply.body a len (by omega) (by omega) hlen ha hret'
        exact wp_replayBody hC hmay hbody
      · rw [if_neg hsize]
        apply hreply.stopped a _ ha
        intro hbody
        rw [AnnouncesBody, hlen] at hbody
        exact hsize hbody.2
    · rw [if_pos hret']
      exact wp_of_quiet (hC.quiet_external (external_print _ _ _)) fun _ => hreply.stopped a (fun hbody => hret' hbody.1) ha
  · rw [if_pos hret]
    exact wp_of_quiet (hC.quiet_external (external_print _ _ _)) fun _ => hfail hret

theorem wp_gxfpReplayShow (hC : IgnoresPlain C) {P : Setup} {m : M} {I : M → Prop} {Q : M → Prop}
    (hlock : C.may m .lock) (hI : I (C.next m .lock ()))
    (hstep : ∀ m, I m → SendSpec C m fun m' ret => (ret ≠ 0 → I m') ∧ (ret = 0 → ReplaySpec C m' I))
    (hunlock : ∀ m, I m → C.may m .unlock ∧ Q (C.next m .unlock ())) :
    wp C (gxfpReplayShow P) m fun m' _ => Q m' := by
  have hsizes : ∀ c ∈ replaySeq, c.n.toNat ≤ 8 := by decide
  apply wp_plain_bind hC (by trivial)
  intro _
  apply wp_perform_bind hlock
  intro _ _
  apply wp_bind (wp_fold (I := fun m' _ => I m') replaySeq
    (fun m' _ c hc hI' => wp_replayStep hC (hsizes c hc) (hstep m' hI')) hI)
  intro m' _ hI'
  obtain ⟨hmay, hQ⟩ := hunlock m' hI'
  exact wp_perform_bind hmay fun _ _ => hQ

/-! ### `cstest` and `padprobe` -/

theorem external_takeSample (base : Nat) : Prog.Only External (takeSample base) :=
  ⟨trivial, fun _ => ⟨trivial, fun _ => ⟨trivial, fun _ => ⟨trivial, fun _ => ⟨trivial, fun _ => trivial⟩⟩⟩⟩⟩

theorem external_samples (base : Nat) :
    Prog.Only External (Prog.fold (fun xs _ => takeSample base >>= fun x => pure (xs ++ [x])) [] (List.range 24)) := by
  apply Prog.Only.fold
  intro xs _
  exact (external_takeSample base).bind fun _ => trivial

theorem external_printLive (xs : List CsSample) (i : Nat) : Prog.Only External (printLive xs i) := by
  induction xs generalizing i with
  | nil => trivial
  | cons x xs ih =>
      rw [printLive]
      by_cases hoff : x.s0 &&& 0x80 = 0
      · rw [if_pos hoff]
        exact ih (i + 1)
      · rw [if_neg hoff]
        exact ⟨trivial, fun _ => ⟨trivial, fun _ => ⟨trivial, fun _ => trivial⟩⟩⟩

theorem external_cstestReport (base : Nat) (ret : Int) (samples : List CsSample) :
    Prog.Only External (cstestReport base ret samples) := by
  apply Prog.Only.perform_bind (by trivial)
  intro _
  apply Prog.Only.perform_bind (by trivial)
  intro _
  apply Prog.Only.bind (Prog.Only.fold (fun _ _ => external_print _ _ _) samples ())
  intro _
  apply Prog.Only.perform_bind (by trivial)
  intro _
  apply Prog.Only.bind (external_printLive samples 0)
  intro _
  exact ⟨trivial, fun _ => ⟨trivial, fun _ => ⟨trivial, fun _ => trivial⟩⟩⟩

theorem wp_gxfpCstestShow (hC : IgnoresPlain C) {P : Setup} {m : M} {Q : M → Prop} (habsent : Q m)
    (hclear : C.may m (.txStore 0 (List.replicate 2048 0)))
    (hspi : let m' := C.next m (.txStore 0 (List.replicate 2048 0)) ()
      C.may m' (.spi cstestXfer) ∧ ∀ a, C.rely m' (.spi cstestXfer) a →
        C.may (C.next m' (.spi cstestXfer) a) (.rxLoad 0 16) ∧
        ∀ bs, Q (C.next (C.next m' (.spi cstestXfer) a) (.rxLoad 0 16) bs)) :
    wp C (gxfpCstestShow P) m fun m' _ => Q m' := by
  obtain ⟨hmay, hdone⟩ := hspi
  apply wp_plain_bind hC (by trivial)
  intro mapped
  by_cases hmapped : mapped = false
  · rw [if_pos hmapped]
    exact wp_quiet_bind (hC.quiet_external (external_print _ _ _)) fun _ => habsent
  · rw [if_neg hmapped]
    apply wp_perform_bind hclear
    intro _ _
    apply wp_plain_bind hC (by trivial)
    intro _
    apply wp_plain_bind hC (by trivial)
    intro _
    apply wp_perform_bind hmay
    intro a ha
    obtain ⟨hload, hQ⟩ := hdone a ha
    apply wp_quiet_bind (hC.quiet_external (external_samples _))
    intro samples
    apply wp_quiet_bind (hC.quiet_external (external_cstestReport _ _ _))
    intro _
    apply wp_perform_bind hload
    intro bs _
    exact wp_quiet_bind (hC.quiet_external (external_print _ _ _)) fun _ => hQ bs

theorem external_checkPads (com : Nat) : Prog.Only External (checkPads com) := by
  apply Prog.Only.fold
  intro _ _
  exact ⟨trivial, fun _ => ⟨trivial, fun _ => trivial⟩⟩

theorem external_samplePads (com : Nat) (seen : List (UInt32 × UInt32)) : Prog.Only External (samplePads com seen) := by
  apply Prog.Only.fold
  intro _ _
  exact ⟨trivial, fun _ => trivial⟩

theorem external_printChanged (seen : List (UInt32 × UInt32)) : Prog.Only External (printChanged seen) := by
  apply Prog.Only.fold
  intro _ x
  apply Prog.Only.perform_bind (by trivial)
  intro _
  by_cases hrx : x.2.1 &&& x.2.2 &&& 2 ≠ 0
  · rw [if_pos hrx]
    exact ⟨trivial, fun _ => ⟨trivial, fun _ => trivial⟩⟩
  · rw [if_neg hrx]
    exact ⟨trivial, fun _ => trivial⟩

theorem poking_unlockPads (com : Nat) : Prog.Only Poking (unlockPads com) := by
  apply Prog.Only.fold
  intro _ _
  exact ⟨trivial, fun _ => ⟨trivial, fun _ => ⟨trivial, fun _ => ⟨trivial, fun _ => trivial⟩⟩⟩⟩

theorem poking_padprobeUnlock (com : Nat) (seen : List (UInt32 × UInt32)) :
    Prog.Only Poking (padprobeUnlock com seen) := by
  apply Prog.Only.perform_bind (by trivial)
  intro _
  apply Prog.Only.perform_bind (by trivial)
  intro _
  apply Prog.Only.bind ((external_printChanged seen).mono fun _ => External.poking)
  intro _
  exact Prog.Only.perform_bind (by trivial) fun _ => poking_unlockPads com

theorem external_printResampled (seen : List (UInt32 × UInt32)) : Prog.Only External (printResampled seen) :=
  Prog.Only.perform_bind (by trivial) fun _ => Prog.Only.fold (fun _ _ => external_print _ _ _) _ _

theorem poking_restorePads (com : Nat) (orig : List UInt32) : Prog.Only Poking (restorePads com orig) := by
  have hwrite : Prog.Only Poking (Prog.fold (fun _ x => writel (com + x.1.off) x.2) () (pads.zip orig)) := by
    apply Prog.Only.fold
    intro _ _
    exact ⟨trivial, fun _ => trivial⟩
  apply hwrite.bind
  intro _
  exact ⟨trivial, fun _ => trivial⟩

/-- The pads are sampled 400000 times around the transfer, which is submitted a second time when a pad could be unlocked. -/
theorem wp_gxfpPadprobeShow (hC : IgnoresPlain C) {P : Setup} {m : M} {Q : M → Prop} {I : M → Prop} (habsent : Q m)
    (hclear : C.may m (.txStore 0 (List.replicate 2048 0)))
    (hI : I (C.next m (.txStore 0 (List.replicate 2048 0)) ()))
    (hspi : ∀ m, I m → C.may m (.spi padprobeXfer) ∧
      ∀ a, C.rely m (.spi padprobeXfer) a → I (C.next m (.spi padprobeXfer) a) ∧ Q (C.next m (.spi padprobeXfer) a)) :
    wp C (gxfpPadprobeShow P) m fun m' _ => Q m' := by
  apply wp_plain_bind hC (by trivial)
  intro mapped
  by_cases hmapped : mapped = false
  · rw [if_pos hmapped]
    exact wp_quiet_bind (hC.quiet_external (external_print _ _ _)) fun _ => habsent
  · rw [if_neg hmapped]
    apply wp_plain_bind hC (by trivial)
    intro _
    apply wp_quiet_bind (hC.quiet_external (external_checkPads _))
    intro ok
    by_cases hok : ok = false
    · rw [if_pos hok]
      exact wp_quiet_bind (hC.quiet_external (external_print _ _ _)) fun _ => habsent
    · rw [if_neg hok]
      apply wp_perform_bind hclear
      intro _ _
      apply wp_plain_bind hC (by trivial)
      intro _
      obtain ⟨hmay, hdone⟩ := hspi _ hI
      apply wp_perform_bind hmay
      intro a ha
      obtain ⟨hI', hQ⟩ := hdone a ha
      apply wp_quiet_bind (hC.quiet_external (Prog.Only.iter (external_samplePads _) _ _))
      intro seen
      apply wp_quiet_bind (hC.quiet_poking (poking_padprobeUnlock _ _))
      intro unlocked
      by_cases htook : unlocked.2 = true
      · rw [if_pos htook]
        obtain ⟨hmay', hdone'⟩ := hspi _ hI'
        apply wp_bind_iff.mpr
        apply wp_perform_bind hmay'
        intro b hb
        apply wp_quiet_bind (hC.quiet_external (Prog.Only.iter (external_samplePads _) _ _))
        intro seen'
        apply wp_plain_bind hC (by trivial)
        intro _
        apply wp_of_quiet (hC.quiet_external (external_printResampled _))
        intro _
        exact wp_quiet_bind (hC.quiet_poking (poking_restorePads _ _)) fun _ => (hdone' b hb).2
      · rw [if_neg htook]
        exact wp_quiet_bind (hC.quiet_poking (poking_restorePads _ _)) fun _ => hQ

/-! ### `dsm`, `ctlregs` and the attribute files -/

/-- Requests that print into the file that is read, and map and read registers. -/
def Peeks : Req → Prop
  | .print .seq _ _ | .ioremap _ | .readl _ => True
  | _ => False

theorem Peeks.plain {r : Req} (hr : Peeks r) : Plain r := by
  cases r with
  | print ch fmt args | ioremap addr | readl addr => trivial
  | _ => exact absurd hr id

theorem peeks_print (fmt : String) (args : List Arg) : Prog.Only Peeks (print .seq fmt args) := .perform trivial

theorem peeks_dsmRows (pointer : Bytes) (nz : Nat) (js : List Nat) : Prog.Only Peeks (dsmRows pointer nz js) := by
  induction js with
  | nil => trivial
  | cons j js ih =>
      apply (peeks_print _ _).bind
      intro _
      split
      · trivial
      · exact ih

theorem peeks_gxfpDsmShow (h : Option (Nat → Option AcpiObj)) : Prog.Only Peeks (gxfpDsmShow h) := by
  cases h with
  | none => exact (peeks_print _ _).bind fun _ => trivial
  | some evaluate =>
      refine (Prog.Only.fold (fun _ i => (peeks_print _ _).bind fun _ => ?_) _ _).bind fun _ => trivial
      cases evaluate i with
      | none => exact peeks_print _ _
      | some obj =>
          cases obj with
          | other type => exact peeks_print _ _
          | buffer pointer => exact (peeks_print _ _).bind fun _ => peeks_dsmRows _ _ _

theorem peeks_gxfpCtlregsShow (P : Setup) : Prog.Only Peeks (gxfpCtlregsShow P) := by
  refine Prog.Only.perform_bind trivial fun mapped => ?_
  split
  · exact (peeks_print _ _).bind fun _ => trivial
  · have hread (addr : Nat) : Prog.Only Peeks (readl addr) := .perform trivial
    refine (hread _).bind fun _ => (hread _).bind fun _ => (hread _).bind fun _ => (hread _).bind fun _ =>
      (hread _).bind fun _ => (hread _).bind fun _ => ?_
    refine (peeks_print _ _).bind fun _ => (peeks_print _ _).bind fun _ => (peeks_print _ _).bind fun _ => ?_
    refine (peeks_print _ _).bind fun _ => (peeks_print _ _).bind fun _ => (peeks_print _ _).bind fun _ => ?_
    exact (peeks_print _ _).bind fun _ => trivial

/-- The operations that have no part in the bus, the mutex and the buffers. -/
def DebugOp.Aside : DebugOp → Prop
  | .dsm _ | .ctlregs | .enableGet | .enableSet _ | .irqcountGet | .irqlevelGet | .resetSet _ => True
  | _ => False

theorem external_printReset (P : Setup) (keep : UInt32) : Prog.Only External (printReset P keep) := by
  rw [printReset]
  by_cases hgpio : P.irqGpio = true
  · rw [if_pos hgpio]
    exact ⟨trivial, fun _ => external_print _ _ _⟩
  · rw [if_neg hgpio]
    exact external_print _ _ _

theorem plain_aside (P : Setup) {op : DebugOp} (hop : op.Aside) : Prog.Only Plain (op.prog P) := by
  cases op with
  | dsm h => exact (peeks_gxfpDsmShow h).mono fun _ => Peeks.plain
  | ctlregs => exact (peeks_gxfpCtlregsShow P).mono fun _ => Peeks.plain
  | enableGet => exact ⟨trivial, fun _ => trivial⟩
  | enableSet val => exact ⟨trivial, fun _ => trivial⟩
  | irqcountGet => exact ⟨trivial, fun _ => trivial⟩
  | irqlevelGet =>
      change Prog.Only Plain (gxfpIrqlevelGet P)
      rw [gxfpIrqlevelGet]
      by_cases hgpio : P.irqGpio = true
      · rw [if_pos hgpio]
        exact ⟨trivial, fun _ => trivial⟩
      · rw [if_neg hgpio]
        trivial
  | resetSet val =>
      apply Prog.Only.perform_bind (by trivial)
      intro _
      apply Prog.Only.perform_bind (by trivial)
      intro _
      apply Prog.Only.perform_bind (by trivial)
      intro _
      apply Prog.Only.perform_bind (by trivial)
      intro _
      exact ((external_printReset P _).mono fun _ h => h.poking.passive.plain).bind fun _ => trivial
  | _ => exact absurd hop id

end Contracts

end GoodixSpi.Kernel
