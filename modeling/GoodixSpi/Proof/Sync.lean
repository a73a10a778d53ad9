import GoodixSpi.Lib.Stream
import GoodixSpi.Proof.Specs
import GoodixSpi.Tools.Host

/-!
# Packet boundaries on the receive path

The sensor presents its packets as one stream of bytes, and a receiver that has read a header must read the whole body to stay at a packet boundary. `gxfp_recv` and `Sensor.read_packet` stop after the header when the body is longer than their 4096-byte limit, and the next call takes the body for a header.
-/

namespace GoodixSpi.Proof

open Wire Interaction

/-- A well-formed transport packet: a message or TLS type in the upper nibble of the first byte, any lower nibble, and a body of any 16-bit length. -/
structure Packet where
  h0 : UInt8
  body : Bytes
  type_ok : h0 >>> 4 = 0xA ∨ h0 >>> 4 = 0xB
  fits : body.length < 65536

namespace Packet

def message (body : Bytes) (fits : body.length < 65536) : Packet := ⟨0xA0, body, Or.inl rfl, fits⟩

def lo (p : Packet) : UInt8 := UInt8.ofNat (p.body.length % 256)

def hi (p : Packet) : UInt8 := UInt8.ofNat (p.body.length / 256 % 256)

/-- The transport header: type, length and the sum of the three bytes before it. -/
def header (p : Packet) : Bytes := [p.h0, p.lo, p.hi, UInt8.ofNat (p.h0.toNat + p.hi.toNat + p.lo.toNat)]

def wire (p : Packet) : Bytes := p.header ++ p.body

theorem le16_length (p : Packet) : le16 p.lo p.hi = p.body.length := by
  have := p.fits
  rw [lo, hi, le16_split, Nat.mod_eq_of_lt this]

theorem take_wire (p : Packet) (rest : Bytes) : (p.wire ++ rest).take 4 = p.header := rfl

theorem drop_wire (p : Packet) (rest : Bytes) : (p.wire ++ rest).drop 4 = p.body ++ rest := rfl

theorem gxfpCheckSpiHdr_header (p : Packet) : Kernel.gxfpCheckSpiHdr p.header = p.body.length := by
  have htype : ¬ (p.h0 >>> 4 ≠ Kernel.GXFP_PKT_MSG ∧ p.h0 >>> 4 ≠ Kernel.GXFP_PKT_TLS) := by
    rintro ⟨hmsg, htls⟩
    rcases p.type_ok with h | h
    · exact hmsg h
    · exact htls h
  simp only [Kernel.gxfpCheckSpiHdr, header, List.getD_cons_zero, List.getD_cons_succ, if_neg htype]
  rw [if_neg (not_not.mpr rfl), or_shiftLeft_8, le16_length]

theorem checkHeader_header (p : Packet) : Tools.checkHeader p.header = some p.body.length := by
  have htype : p.h0.toNat >>> 4 = Tools.PKT_MSG ∨ p.h0.toNat >>> 4 = Tools.PKT_TLS := by
    have hnat : (p.h0 >>> 4).toNat = p.h0.toNat >>> 4 := UInt8.toNat_shiftRight _ _
    rcases p.type_ok with h | h
    · left
      rw [← hnat, h]
      rfl
    · right
      rw [← hnat, h]
      rfl
  have hsum : (UInt8.ofNat (p.h0.toNat + p.hi.toNat + p.lo.toNat)).toNat =
      (p.h0.toNat + p.hi.toNat + p.lo.toNat) &&& 0xFF := by
    rw [toNat_ofNat_mod, and_ff]
  rw [header, Tools.checkHeader, if_neg (not_not.mpr htype), if_neg (not_not.mpr hsum), or_shiftLeft_8, le16_length]

end Packet

/-! ### One call of `gxfp_recv` -/

section Driver

open Kernel

/-- A sensor that presents `queue` as a byte FIFO to reads, which never fail: a read of `len` bytes consumes the next `len`. -/
structure Fifo {ε : Type} (E : Env ε) (queue : ε → Bytes) : Prop where
  ret : ∀ x b e, x.tx = .zeros → (E.xfer x b e).1.ret = 0
  data : ∀ x b e, x.tx = .zeros → x.len ≤ (queue e).length → (E.xfer x b e).1.data = (queue e).take x.len
  rest : ∀ x b e, x.tx = .zeros → queue (E.xfer x b e).2 = (queue e).drop x.len

/-- The contract of a reader of such a sensor; the mode is the queue. -/
def fifoReads : Contract Req Ans Bytes where
  may _ r := match r with
    | .spi x => x.tx = .zeros
    | .print _ _ _ | .setRxlen _ | .rxLoad _ _ => True
    | _ => False
  rely queue r a := match r, a with
    | .spi x, a => a.ret = 0 ∧ (x.len ≤ queue.length → a.data = queue.take x.len)
    | _, _ => True
  next queue r _ := match r with
    | .spi x => queue.drop x.len
    | _ => queue

theorem fifoReads_gxfpRecv {queue : Bytes} {Q : Bytes → Prop}
    (hQ : ∀ hdr : Bytes, (4 ≤ queue.length → hdr = queue.take 4) →
      Q (if 0 < gxfpCheckSpiHdr hdr ∧ gxfpCheckSpiHdr hdr ≤ GXFP_BUF_MAX then
        (queue.drop 4).drop (gxfpCheckSpiHdr hdr).toNat else queue.drop 4)) :
    wp fifoReads gxfpRecv queue fun queue' _ => Q queue' := by
  apply wp_perform_bind rfl
  intro a ha
  obtain ⟨hret, hdata⟩ := ha
  have hQ' := hQ a.data hdata
  rw [if_neg (not_not.mpr hret)]
  apply wp_perform_bind trivial
  intro _ _
  generalize gxfpCheckSpiHdr a.data = n at hQ' ⊢
  by_cases hneg : n < 0
  · rw [if_neg (by omega)] at hQ'
    rw [if_pos hneg]
    exact hQ'
  · rw [if_neg hneg]
    by_cases hsize : n = 0 ∨ n > GXFP_BUF_MAX
    · rw [if_neg (by omega)] at hQ'
      rw [if_pos hsize]
      exact hQ'
    · rw [if_pos (by omega)] at hQ'
      rw [if_neg hsize]
      apply wp_perform_bind rfl
      intro b hb
      rw [if_neg (not_not.mpr hb.1)]
      apply wp_perform_bind trivial
      intro _ _
      apply wp_perform_bind trivial
      intro _ _
      exact wp_perform_bind trivial fun _ _ => hQ'

variable {ε : Type}

theorem run_gxfpRecv_queue {E : Env ε} {queue : ε → Bytes} (hE : Fifo E queue) (tid : Nat) (w : World ε) :
    ∃ hdr : Bytes, (4 ≤ (queue w.env).length → hdr = (queue w.env).take 4) ∧
      queue (gxfpRecv.run (handle E tid) w).2.env =
        if 0 < gxfpCheckSpiHdr hdr ∧ gxfpCheckSpiHdr hdr ≤ GXFP_BUF_MAX then
          ((queue w.env).drop 4).drop (gxfpCheckSpiHdr hdr).toNat else (queue w.env).drop 4 := by
  have hstep : ∀ q (w : World ε) r, queue w.env = q → fifoReads.may q r →
      fifoReads.rely q r (handle E tid r w).1 ∧ queue (handle E tid r w).2.env = fifoReads.next q r (handle E tid r w).1 := by
    rintro q w r rfl hmay
    cases r with
    | spi x => exact ⟨⟨hE.ret x _ _ hmay, hE.data x _ _ hmay⟩, hE.rest x _ _ hmay⟩
    | print ch fmt args => exact ⟨trivial, rfl⟩
    | setRxlen n => exact ⟨trivial, rfl⟩
    | rxLoad off len => exact ⟨trivial, rfl⟩
    | _ => exact absurd hmay id
  have hwp : wp fifoReads gxfpRecv (queue w.env) fun q _ => ∃ hdr : Bytes,
      (4 ≤ (queue w.env).length → hdr = (queue w.env).take 4) ∧
        q = if 0 < gxfpCheckSpiHdr hdr ∧ gxfpCheckSpiHdr hdr ≤ GXFP_BUF_MAX then
          ((queue w.env).drop 4).drop (gxfpCheckSpiHdr hdr).toNat else (queue w.env).drop 4 :=
    fifoReads_gxfpRecv fun hdr hhdr => ⟨hdr, hhdr, rfl⟩
  obtain ⟨q, hq, hdr, hhdr, heq⟩ := wp_run (I := fun q (w : World ε) => queue w.env = q) hstep hwp rfl
  exact ⟨hdr, hhdr, hq.trans heq⟩

/-- A packet at the head of the queue is consumed whole if its body fits, and up to its body otherwise. -/
theorem gxfpRecv_packet {E : Env ε} {queue : ε → Bytes} (hE : Fifo E queue) (tid : Nat) (w : World ε) (p : Packet)
    (rest : Bytes) (hw : queue w.env = p.wire ++ rest) :
    queue (gxfpRecv.run (handle E tid) w).2.env = if p.body.length ≤ GXFP_BUF_MAX then rest else p.body ++ rest := by
  obtain ⟨hdr, hhdr, hrest⟩ := run_gxfpRecv_queue hE tid w
  have hlen : 4 ≤ (queue w.env).length := by
    rw [hw]
    simp only [Packet.wire, Packet.header, List.length_append, List.length_cons]
    omega
  have hdr_eq : hdr = p.header := by rw [hhdr hlen, hw, Packet.take_wire]
  rw [hrest, hdr_eq, Packet.gxfpCheckSpiHdr_header, hw, Packet.drop_wire, Int.toNat_natCast]
  by_cases hfits : p.body.length ≤ GXFP_BUF_MAX
  · rw [if_pos hfits]
    by_cases hempty : p.body.length = 0
    · rw [if_neg (by omega), List.eq_nil_of_length_eq_zero hempty, List.nil_append]
    · rw [if_pos (by omega), List.drop_left]
  · rw [if_neg (by omega), if_neg hfits]

theorem gxfpRecv_nil {E : Env ε} {queue : ε → Bytes} (hE : Fifo E queue) (tid : Nat) (w : World ε)
    (hw : queue w.env = []) : queue (gxfpRecv.run (handle E tid) w).2.env = [] := by
  obtain ⟨hdr, -, hrest⟩ := run_gxfpRecv_queue hE tid w
  rw [hrest, hw]
  split <;> simp

end Driver

/-! ### One call of `Sensor.read_packet` -/

section Host

open Tools

/-- The same sensor seen from the host, with the interrupt line high. -/
structure HostFifo {σ : Type} (H : Host σ) (queue : σ → Bytes) : Prop where
  irq : ∀ s, (H.irqGet s).1 = true
  irq_rest : ∀ s, queue (H.irqGet s).2 = queue s
  data : ∀ tx s, tx = zeroBytes tx.length → tx.length ≤ (queue s).length →
    (H.duplex tx s).1.1 = (queue s).take tx.length
  rest : ∀ tx s, tx = zeroBytes tx.length → queue (H.duplex tx s).2 = (queue s).drop tx.length

def hostReads : Contract HostReq HostAns Bytes where
  may _ r := match r with
    | .duplex tx => tx = zeroBytes tx.length
    | .irqGet | .print _ _ => True
    | _ => False
  rely queue r a := match r, a with
    | .irqGet, v => v = true
    | .duplex tx, rx => tx.length ≤ queue.length → rx.1 = queue.take tx.length
    | _, _ => True
  next queue r _ := match r with
    | .duplex tx => queue.drop tx.length
    | _ => queue

theorem zeroBytes_length (n : Nat) : (zeroBytes n).length = n := List.length_replicate

theorem hostReads_may_duplex (queue : Bytes) (n : Nat) : hostReads.may queue (.duplex (zeroBytes n)) := by
  show zeroBytes n = zeroBytes (zeroBytes n).length
  rw [zeroBytes_length]

/-- The queue a packet read leaves, given the length its header check returned. -/
def afterHeader (queue : Bytes) (n : Option Nat) : Bytes :=
  match n with
  | none => queue.drop 4
  | some n => if n = 0 ∨ n > 4096 then queue.drop 4 else (queue.drop 4).drop n

theorem hostReads_readPacket {queue : Bytes} {polls : Nat} {Q : Bytes → Prop} (hpolls : 0 < polls)
    (hQ : ∀ hdr : Bytes, (4 ≤ queue.length → hdr = queue.take 4) → Q (afterHeader queue (checkHeader hdr))) :
    wp hostReads (Sensor.readPacket polls) queue fun queue' _ => Q queue' := by
  obtain ⟨polls, rfl⟩ : ∃ k, polls = k + 1 := ⟨polls - 1, by omega⟩
  apply wp_bind_iff.mpr
  rw [waitIrq]
  apply wp_perform_bind trivial
  intro v hv
  rw [if_pos (show v = true from hv)]
  apply wp_perform_bind (hostReads_may_duplex queue 4)
  intro hdr hhdr
  have hQ' := hQ hdr.1 hhdr
  apply wp_perform_bind trivial
  intro _ _
  show wp hostReads _ (queue.drop 4) _
  generalize checkHeader hdr.1 = n at hQ' ⊢
  cases n with
  | none => exact hQ'
  | some n =>
      dsimp only
      rw [afterHeader] at hQ'
      by_cases hsize : n = 0 ∨ n > 4096
      · rw [if_pos hsize] at hQ' ⊢
        exact hQ'
      · rw [if_neg hsize] at hQ' ⊢
        apply wp_perform_bind (hostReads_may_duplex _ n)
        intro body _
        apply wp_perform_bind trivial
        intro _ _
        show Q ((queue.drop 4).drop (zeroBytes n).length)
        rw [zeroBytes_length]
        exact hQ'

variable {σ : Type}

theorem run_readPacket_queue {H : Host σ} {queue : σ → Bytes} (hH : HostFifo H queue) {polls : Nat}
    (hpolls : 0 < polls) (s : Session σ) :
    ∃ hdr : Bytes, (4 ≤ (queue s.host).length → hdr = (queue s.host).take 4) ∧
      queue ((Sensor.readPacket polls).run (handleHost H) s).2.host = afterHeader (queue s.host) (checkHeader hdr) := by
  have hstep : ∀ q (s : Session σ) r, queue s.host = q → hostReads.may q r →
      hostReads.rely q r (handleHost H r s).1 ∧
        queue (handleHost H r s).2.host = hostReads.next q r (handleHost H r s).1 := by
    rintro q s r rfl hmay
    cases r with
    | irqGet => exact ⟨hH.irq s.host, hH.irq_rest s.host⟩
    | duplex tx => exact ⟨hH.data tx s.host hmay, hH.rest tx s.host hmay⟩
    | print fmt args => exact ⟨trivial, rfl⟩
    | _ => exact absurd hmay id
  have hwp : wp hostReads (Sensor.readPacket polls) (queue s.host) fun q _ => ∃ hdr : Bytes,
      (4 ≤ (queue s.host).length → hdr = (queue s.host).take 4) ∧ q = afterHeader (queue s.host) (checkHeader hdr) :=
    hostReads_readPacket hpolls fun hdr hhdr => ⟨hdr, hhdr, rfl⟩
  obtain ⟨q, hq, hdr, hhdr, heq⟩ := wp_run (I := fun q (s : Session σ) => queue s.host = q) hstep hwp rfl
  exact ⟨hdr, hhdr, hq.trans heq⟩

theorem readPacket_packet {H : Host σ} {queue : σ → Bytes} (hH : HostFifo H queue) {polls : Nat} (hpolls : 0 < polls)
    (s : Session σ) (p : Packet) (rest : Bytes) (hs : queue s.host = p.wire ++ rest) :
    queue ((Sensor.readPacket polls).run (handleHost H) s).2.host =
      if p.body.length ≤ 4096 then rest else p.body ++ rest := by
  obtain ⟨hdr, hhdr, hrest⟩ := run_readPacket_queue hH hpolls s
  have hlen : 4 ≤ (queue s.host).length := by
    rw [hs]
    simp only [Packet.wire, Packet.header, List.length_append, List.length_cons]
    omega
  have hdr_eq : hdr = p.header := by rw [hhdr hlen, hs, Packet.take_wire]
  rw [hrest, hdr_eq, Packet.checkHeader_header, hs, afterHeader, Packet.drop_wire]
  by_cases hfits : p.body.length ≤ 4096
  · rw [if_pos hfits]
    by_cases hempty : p.body.length = 0
    · rw [if_pos (Or.inl hempty), List.eq_nil_of_length_eq_zero hempty, List.nil_append]
    · rw [if_neg (by omega), List.drop_left]
  · rw [if_pos (by omega), if_neg hfits]

theorem readPacket_nil {H : Host σ} {queue : σ → Bytes} (hH : HostFifo H queue) {polls : Nat} (hpolls : 0 < polls)
    (s : Session σ) (hs : queue s.host = []) :
    queue ((Sensor.readPacket polls).run (handleHost H) s).2.host = [] := by
  obtain ⟨hdr, -, hrest⟩ := run_readPacket_queue hH hpolls s
  rw [hrest, hs]
  cases checkHeader hdr with
  | none => rfl
  | some n =>
      rw [afterHeader]
      split <;> simp

end Host

/-! ### Streams of packets -/

/-- **Packet-boundary synchronisation.** On a queue of well-formed packets, `k` calls of `gxfp_recv` consume exactly the first `k` packets, for every `k`, if and only if no body is longer than 4096 bytes; and the same of `Sensor.read_packet` with the interrupt line high. -/
theorem receive_sync_iff {ε σ : Type} {E : Kernel.Env ε} {queue : ε → Bytes} (hE : Fifo E queue) (tid : Nat)
    {H : Tools.Host σ} {queue' : σ → Bytes} (hH : HostFifo H queue') {polls : Nat} (hpolls : 0 < polls)
    (ps : List Packet) (w : Kernel.World ε) (hw : queue w.env = ps.flatMap Packet.wire) (s : Tools.Session σ)
    (hs : queue' s.host = ps.flatMap Packet.wire) :
    ((∀ k, queue ((fun w => (Kernel.gxfpRecv.run (Kernel.handle E tid) w).2)^[k] w).env =
        (ps.drop k).flatMap Packet.wire) ↔ ∀ p ∈ ps, p.body.length ≤ 4096) ∧
    ((∀ k, queue' ((fun s => ((Tools.Sensor.readPacket polls).run (Tools.handleHost H) s).2)^[k] s).host =
        (ps.drop k).flatMap Packet.wire) ↔ ∀ p ∈ ps, p.body.length ≤ 4096) := by
  have hleave (p : Packet) (rest : Bytes) (hp : ¬ p.body.length ≤ 4096) : p.body ++ rest ≠ rest := by
    intro heq
    have hlen := congrArg List.length heq
    rw [List.length_append] at hlen
    omega
  constructor
  · apply iterate_queue_iff (fun w : Kernel.World ε => queue w.env) (gxfpRecv_nil hE tid) _ _ hw
    · intro w p rest hp hw'
      exact (gxfpRecv_packet hE tid w p rest hw').trans (if_pos hp)
    · intro w p rest hp hw' heq
      exact hleave p rest hp (((gxfpRecv_packet hE tid w p rest hw').trans (if_neg hp)).symm.trans heq)
  · apply iterate_queue_iff (fun s : Tools.Session σ => queue' s.host) (readPacket_nil hH hpolls) _ _ hs
    · intro s p rest hp hs'
      exact (readPacket_packet hH hpolls s p rest hs').trans (if_pos hp)
    · intro s p rest hp hs' heq
      exact hleave p rest hp (((readPacket_packet hH hpolls s p rest hs').trans (if_neg hp)).symm.trans heq)

/-! ### A queue as a sensor -/

def readQueue (queue : Bytes) (n : Nat) : Bytes := queue.take n ++ List.replicate (n - queue.length) 0xFF

theorem readQueue_length (queue : Bytes) (n : Nat) : (readQueue queue n).length = n := by
  rw [readQueue, List.length_append, List.length_take, List.length_replicate]
  omega

theorem readQueue_of_le {queue : Bytes} {n : Nat} (h : n ≤ queue.length) : readQueue queue n = queue.take n := by
  rw [readQueue, Nat.sub_eq_zero_of_le h, List.replicate_zero, List.append_nil]

/-- A sensor that is a queue: reads take from it, writes are ignored. -/
def queueEnv : Kernel.Env Bytes where
  kmalloc _ e := (true, e)
  ioremap _ e := (true, e)
  readl _ e := (0, e)
  writel _ _ e := e
  sleep _ e := e
  irqLevel e := (true, e)
  xfer x _ e :=
    (⟨0, readQueue e x.len, by rw [readQueue_length], fun _ _ => readQueue_length e x.len, fun _ h => absurd rfl h⟩,
      if x.tx = .zeros then e.drop x.len else e)

def queueHost : Tools.Host Bytes where
  irqGet s := (true, s)
  duplex tx s := (⟨readQueue s tx.length, readQueue_length s tx.length⟩, s.drop tx.length)
  sleep _ s := s
  clockMs s := (0, s)

theorem queueEnv_fifo : Fifo queueEnv id where
  ret _ _ _ _ := rfl
  data _ _ _ _ h := readQueue_of_le h
  rest _ _ _ h := if_pos h

theorem queueHost_fifo : HostFifo queueHost id where
  irq _ := rfl
  irq_rest _ := rfl
  data _ _ _ h := readQueue_of_le h
  rest _ _ _ := rfl

def shortPackets : List Packet := [.message [] (by decide), ⟨0xB5, [7], by decide, by decide⟩]

theorem receive_sync_shortPackets :
    (∀ k, ((fun w => (Kernel.gxfpRecv.run (Kernel.handle queueEnv 0) w).2)^[k]
        (Kernel.probed (shortPackets.flatMap Packet.wire))).env = (shortPackets.drop k).flatMap Packet.wire) ↔
      ∀ p ∈ shortPackets, p.body.length ≤ 4096 :=
  (receive_sync_iff queueEnv_fifo 0 queueHost_fifo Nat.one_pos shortPackets
    (Kernel.probed (shortPackets.flatMap Packet.wire)) rfl ⟨shortPackets.flatMap Packet.wire, []⟩ rfl).1

/-- A TLS record one byte over the limit. -/
def longRecord : Packet := ⟨0xB0, List.replicate 4097 0xB0, by decide, by rw [List.length_replicate]; decide⟩

/-- One call leaves the whole body of the record in the queue, where the next call looks for a header. -/
theorem longRecord_desynchronises :
    (Kernel.gxfpRecv.run (Kernel.handle queueEnv 0) (Kernel.probed longRecord.wire)).2.env = longRecord.body ∧
      ((Tools.Sensor.readPacket 1).run (Tools.handleHost queueHost) ⟨longRecord.wire, []⟩).2.host = longRecord.body ∧
      ¬ ∀ k, ((fun w => (Kernel.gxfpRecv.run (Kernel.handle queueEnv 0) w).2)^[k]
        (Kernel.probed longRecord.wire)).env = ([longRecord].drop k).flatMap Packet.wire := by
  have hlong : ¬ longRecord.body.length ≤ 4096 := by
    rw [longRecord, List.length_replicate]
    decide
  have hrecv := gxfpRecv_packet queueEnv_fifo 0 (Kernel.probed longRecord.wire) longRecord [] (List.append_nil _).symm
  rw [if_neg (show ¬ longRecord.body.length ≤ Kernel.GXFP_BUF_MAX from hlong), List.append_nil] at hrecv
  have hread := readPacket_packet queueHost_fifo Nat.one_pos ⟨longRecord.wire, []⟩ longRecord [] (List.append_nil _).symm
  rw [if_neg hlong, List.append_nil] at hread
  refine ⟨hrecv, hread, ?_⟩
  intro hsync
  have hone := hsync 1
  rw [Function.iterate_one, List.drop_one, List.tail_cons, List.flatMap_nil] at hone
  have hlen := congrArg List.length (hrecv.symm.trans hone)
  rw [longRecord, List.length_replicate] at hlen
  exact absurd hlen (by decide)

end GoodixSpi.Proof
