import GoodixSpi.Kernel.Driver
import GoodixSpi.Tools.Framing
import GoodixSpi.Tools.Refseq

/-!
# Which packets the receivers recognise

Four copies of the header check. `gxfp_check_spi_hdr`, `check_header` and `Link.read` ask for a type nibble of a message or a TLS packet and for the right sum; `Ref.read` asks for the sum only, and so takes noise with a right sum for a packet.
-/

namespace GoodixSpi.Proof

open Wire Interaction Tools

/-! ### A stream on the bus -/

def firstBytes (n : Nat) (x : Nat → UInt8) : Bytes := (List.range n).map x

def afterBytes (n : Nat) (x : Nat → UInt8) : Nat → UInt8 := fun i => x (n + i)

/-- A host whose interrupt line is high and whose bus clocks in a stream, whatever is clocked out. -/
structure Clocks {σ : Type} (H : Host σ) (stream : σ → Nat → UInt8) : Prop where
  irq : ∀ s, (H.irqGet s).1 = true
  irq_rest : ∀ s, stream (H.irqGet s).2 = stream s
  sleep_rest : ∀ us s, stream (H.sleep us s) = stream s
  data : ∀ tx s, (H.duplex tx s).1.1 = firstBytes tx.length (stream s)
  rest : ∀ tx s, stream (H.duplex tx s).2 = afterBytes tx.length (stream s)

/-- The contract of a program on such a host; the mode is what is still to be clocked in. -/
def clocking : Contract HostReq HostAns (Nat → UInt8) where
  may _ r := match r with
    | .clockMs => False
    | _ => True
  rely x r a := match r, a with
    | .irqGet, v => v = true
    | .duplex tx, rx => rx.1 = firstBytes tx.length x
    | _, _ => True
  next x r _ := match r with
    | .duplex tx => afterBytes tx.length x
    | _ => x

/-- On every host that clocks in the stream, the program returns this. -/
def Returns {α : Type} (p : HostM α) (x : Nat → UInt8) (r : α) : Prop :=
  ∀ (σ : Type) (H : Host σ) (stream : σ → Nat → UInt8), Clocks H stream → ∀ s : Session σ, stream s.host = x →
    (p.run (handleHost H) s).1 = r

theorem returns_of_wp {α : Type} {p : HostM α} {x : Nat → UInt8} {r : α} (hp : wp clocking p x fun _ a => a = r) :
    Returns p x r := by
  intro σ H stream hH s hs
  have hstep : ∀ x (s : Session σ) r, stream s.host = x → clocking.may x r →
      clocking.rely x r (handleHost H r s).1 ∧ stream (handleHost H r s).2.host = clocking.next x r (handleHost H r s).1 := by
    rintro x s r rfl hmay
    cases r with
    | irqGet => exact ⟨hH.irq s.host, hH.irq_rest s.host⟩
    | duplex tx => exact ⟨hH.data tx s.host, hH.rest tx s.host⟩
    | sleep us => exact ⟨trivial, hH.sleep_rest us s.host⟩
    | clockMs => exact absurd hmay id
    | print fmt args => exact ⟨trivial, rfl⟩
  obtain ⟨_, -, hr⟩ := wp_run (I := fun x (s : Session σ) => stream s.host = x) hstep hp hs
  exact hr

theorem firstBytes_length (n : Nat) (x : Nat → UInt8) : (firstBytes n x).length = n := by
  rw [firstBytes, List.length_map, List.length_range]

/-- The host that does nothing but clock in a stream. -/
def streamHost : Host (Nat → UInt8) where
  irqGet x := (true, x)
  duplex tx x := (⟨firstBytes tx.length x, firstBytes_length _ _⟩, afterBytes tx.length x)
  sleep _ x := x
  clockMs x := (0, x)

theorem clocks_streamHost : Clocks streamHost id :=
  ⟨fun _ => rfl, fun _ => rfl, fun _ _ => rfl, fun _ _ => rfl, fun _ _ => rfl⟩

theorem Returns.unique {α : Type} {p : HostM α} {x : Nat → UInt8} {r r' : α} (h : Returns p x r) (h' : Returns p x r') :
    r = r' :=
  (h _ streamHost id clocks_streamHost ⟨x, []⟩ rfl).symm.trans (h' _ streamHost id clocks_streamHost ⟨x, []⟩ rfl)

/-! ### The header checks -/

/-- The type nibble of a message or a TLS packet. -/
def Typed (x : Nat → UInt8) : Prop := (x 0).toNat >>> 4 = 0xA ∨ (x 0).toNat >>> 4 = 0xB

/-- The fourth byte is the sum of the three before it. -/
def Summed (x : Nat → UInt8) : Prop := (x 3).toNat = ((x 0).toNat + (x 1).toNat + (x 2).toNat) % 256

/-- The announced length is one that the receivers read. -/
def Sized (x : Nat → UInt8) : Prop := 0 < le16 (x 1) (x 2) ∧ le16 (x 1) (x 2) ≤ 4096

instance (x : Nat → UInt8) : Decidable (Typed x) := inferInstanceAs (Decidable (_ ∨ _))
instance (x : Nat → UInt8) : Decidable (Summed x) := inferInstanceAs (Decidable (_ = _))
instance (x : Nat → UInt8) : Decidable (Sized x) := inferInstanceAs (Decidable (_ ∧ _))

theorem firstBytes_four (x : Nat → UInt8) : firstBytes 4 x = [x 0, x 1, x 2, x 3] := rfl

theorem summed_iff (x : Nat → UInt8) :
    Summed x ↔ x 3 = UInt8.ofNat (total [x 0, x 1, x 2] &&& 0xFF) := by
  rw [Summed, eq_comm (a := x 3), ofNat_eq_iff, and_ff, Nat.mod_mod, total_cons, total_cons, total_cons, total_nil,
    Nat.add_zero, Nat.add_assoc, eq_comm]

theorem refseq_headerOk_iff (x : Nat → UInt8) : Refseq.headerOk (firstBytes 4 x) = true ↔ Summed x := by
  rw [summed_iff, firstBytes_four, Refseq.headerOk, Bool.and_eq_true_iff]
  simp

theorem framing_headerOk_iff (x : Nat → UInt8) :
    Framing.Link.headerOk (firstBytes 4 x) = true ↔ Summed x ∧ Typed x := by
  rw [summed_iff, Typed, firstBytes_four, Framing.Link.headerOk, Bool.and_eq_true_iff, Bool.and_eq_true_iff]
  simp

theorem checkHeader_eq (x : Nat → UInt8) :
    checkHeader (firstBytes 4 x) = if Summed x ∧ Typed x then some (le16 (x 1) (x 2)) else none := by
  have hsum : (x 3).toNat = ((x 0).toNat + (x 2).toNat + (x 1).toNat) &&& 0xFF ↔ Summed x := by
    rw [Summed, and_ff, Nat.add_right_comm]
  have htype : ((x 0).toNat >>> 4 = PKT_MSG ∨ (x 0).toNat >>> 4 = PKT_TLS) ↔ Typed x := Iff.rfl
  rw [firstBytes_four, checkHeader]
  by_cases htyped : Typed x
  · rw [if_neg (not_not.mpr (htype.mpr htyped))]
    by_cases hsummed : Summed x
    · rw [if_neg (not_not.mpr (hsum.mpr hsummed)), if_pos ⟨hsummed, htyped⟩, or_shiftLeft_8]
    · rw [if_pos (fun h => hsummed (hsum.mp h)), if_neg fun h => hsummed h.1]
  · rw [if_pos (fun h => htyped (htype.mp h)), if_neg fun h => htyped h.2]

theorem gxfpCheckSpiHdr_iff (x : Nat → UInt8) :
    (1 ≤ Kernel.gxfpCheckSpiHdr (firstBytes 4 x) ∧ Kernel.gxfpCheckSpiHdr (firstBytes 4 x) ≤ 4096) ↔
      Summed x ∧ Typed x ∧ Sized x := by
  have hnibble : (x 0 >>> 4).toNat = (x 0).toNat >>> 4 := UInt8.toNat_shiftRight _ _
  have htype : (x 0 >>> 4 ≠ Kernel.GXFP_PKT_MSG ∧ x 0 >>> 4 ≠ Kernel.GXFP_PKT_TLS) ↔ ¬ Typed x := by
    rw [Typed, not_or, ← hnibble, ne_eq, ne_eq, ← UInt8.toNat_inj, ← UInt8.toNat_inj]
    rfl
  have hsum : x 3 ≠ UInt8.ofNat ((x 0).toNat + (x 2).toNat + (x 1).toNat) ↔ ¬ Summed x := by
    rw [Summed, ne_eq, eq_comm, ofNat_eq_iff, eq_comm, Nat.add_right_comm]
  rw [firstBytes_four]
  simp only [Kernel.gxfpCheckSpiHdr, List.getD_cons_zero, List.getD_cons_succ]
  by_cases htyped : Typed x
  · rw [if_neg fun h => htype.mp h htyped]
    by_cases hsummed : Summed x
    · rw [if_neg fun h => hsum.mp h hsummed, or_shiftLeft_8]
      constructor
      · rintro ⟨hpos, hmax⟩
        exact ⟨hsummed, htyped, by omega, by omega⟩
      · rintro ⟨-, -, hpos, hmax⟩
        omega
    · rw [if_pos (hsum.mpr hsummed)]
      exact iff_of_false (by decide) fun h => hsummed h.1
  · rw [if_pos (htype.mpr htyped)]
    exact iff_of_false (by decide) fun h => htyped h.2.1

/-! ### The receivers -/

def bodyBytes (x : Nat → UInt8) : Bytes := firstBytes (le16 (x 1) (x 2)) (afterBytes 4 x)

theorem clocking_waitIrq {x : Nat → UInt8} {polls : Nat} :
    wp clocking (waitIrq true (polls + 1)) x fun x' v => x' = x ∧ v = true := by
  rw [waitIrq]
  apply wp_perform_bind trivial
  intro v hv
  rw [if_pos (show v = true from hv)]
  exact ⟨rfl, rfl⟩

theorem clocking_duplex_bind {x : Nat → UInt8} {n : Nat} {α : Type}
    {f : { rx : Bytes // rx.length = (zeroBytes n).length } → HostM α} {Q : (Nat → UInt8) → α → Prop}
    (h : ∀ rx, rx.1 = firstBytes n x → wp clocking (f rx) (afterBytes n x) Q) :
    wp clocking (duplex (zeroBytes n) >>= f) x Q := by
  have hlen : (zeroBytes n).length = n := List.length_replicate
  have hread : firstBytes (zeroBytes n).length x = firstBytes n x := by rw [hlen]
  have hrest : afterBytes (zeroBytes n).length x = afterBytes n x := by rw [hlen]
  apply wp_perform_bind trivial
  intro rx hrx
  change wp clocking (f rx) (afterBytes (zeroBytes n).length x) Q
  rw [hrest]
  exact h rx (hrx.trans hread)

theorem length_field (x : Nat → UInt8) :
    ((firstBytes 4 x).getD 1 0).toNat ||| (((firstBytes 4 x).getD 2 0).toNat <<< 8) = le16 (x 1) (x 2) :=
  or_shiftLeft_8 _ _

theorem not_packet_iff {x : Nat → UInt8} {C : Prop} [Decidable C] {ok : Bool} (hok : ok = true ↔ C) :
    (ok = false ∨ le16 (x 1) (x 2) = 0 ∨ le16 (x 1) (x 2) > 4096) ↔ ¬ (C ∧ Sized x) := by
  rw [Sized, ← hok]
  cases ok with
  | false => simp
  | true =>
      simp only [Bool.true_eq_false, false_or, true_and]
      omega

theorem returns_refseq_read (x : Nat → UInt8) (tag : String) (polls : Nat) :
    Returns (Refseq.read tag (polls + 1)) x (if Summed x ∧ Sized x then some (bodyBytes x) else none) := by
  apply returns_of_wp
  apply wp_bind clocking_waitIrq
  intro x' v hwait
  rw [hwait.1]
  apply clocking_duplex_bind
  intro hdr hhdr
  have hn := length_field x
  have hok := refseq_headerOk_iff x
  rw [← hhdr] at hn hok
  rw [hn]
  apply wp_perform_bind trivial
  intro _ _
  change wp clocking _ (afterBytes 4 x) _
  by_cases hpacket : Summed x ∧ Sized x
  · rw [if_neg fun h => (not_packet_iff hok).mp h hpacket, if_pos hpacket]
    apply clocking_duplex_bind
    intro body hbody
    apply wp_perform_bind trivial
    intro _ _
    apply wp_perform_bind trivial
    intro _ _
    exact congrArg some hbody
  · rw [if_pos ((not_packet_iff hok).mpr hpacket), if_neg hpacket]
    rfl

theorem returns_framing_read (x : Nat → UInt8) (tag : String) :
    Returns (Framing.Link.read tag) x (if (Summed x ∧ Typed x) ∧ Sized x then some (bodyBytes x) else none) := by
  apply returns_of_wp
  apply clocking_duplex_bind
  intro hdr hhdr
  have hn := length_field x
  have hok := framing_headerOk_iff x
  rw [← hhdr] at hn hok
  rw [hn]
  apply wp_perform_bind trivial
  intro irq _
  apply wp_perform_bind trivial
  intro _ _
  change wp clocking _ (afterBytes 4 x) _
  by_cases hpacket : (Summed x ∧ Typed x) ∧ Sized x
  · rw [if_neg fun h => (not_packet_iff hok).mp h hpacket, if_pos hpacket]
    apply wp_perform_bind trivial
    intro _ _
    apply clocking_duplex_bind
    intro body hbody
    apply wp_perform_bind trivial
    intro _ _
    exact congrArg some hbody
  · rw [if_pos ((not_packet_iff hok).mpr hpacket), if_neg hpacket]
    rfl

theorem returns_readPacket (x : Nat → UInt8) (polls : Nat) :
    Returns (Sensor.readPacket (polls + 1)) x
      (if (Summed x ∧ Typed x) ∧ Sized x then some (firstBytes 4 x, bodyBytes x) else none) := by
  apply returns_of_wp
  apply wp_bind clocking_waitIrq
  intro x' v hwait
  rw [hwait.1, hwait.2, if_neg Bool.noConfusion]
  apply clocking_duplex_bind
  intro hdr hhdr
  rw [hhdr, Sensor.readBody, checkHeader_eq]
  apply wp_perform_bind trivial
  intro _ _
  change wp clocking _ (afterBytes 4 x) _
  by_cases hheader : Summed x ∧ Typed x
  · rw [if_pos hheader]
    dsimp only
    by_cases hsized : Sized x
    · have hread : ¬ (le16 (x 1) (x 2) = 0 ∨ le16 (x 1) (x 2) > 4096) := by
        have := hsized.1
        have := hsized.2
        omega
      rw [if_neg hread, if_pos ⟨hheader, hsized⟩]
      apply clocking_duplex_bind
      intro body hbody
      apply wp_perform_bind trivial
      intro _ _
      exact congrArg (fun b => some (firstBytes 4 x, b)) hbody
    · have hskip : le16 (x 1) (x 2) = 0 ∨ le16 (x 1) (x 2) > 4096 := by
        rw [Sized] at hsized
        omega
      rw [if_pos hskip, if_neg fun h => hsized h.2]
      rfl
  · rw [if_neg hheader, if_neg fun h => hheader h.1]
    rfl

/-! ### Agreement -/

/-- All three return nothing or all return the same body, and they return one exactly when the driver's check gives a length that fits. -/
def Agree (x : Nat → UInt8) : Prop :=
  ∀ tag polls, ∃ r : Option Bytes,
    Returns (Refseq.read tag (polls + 1)) x r ∧ Returns (Framing.Link.read tag) x r ∧
      (∃ packet, Returns (Sensor.readPacket (polls + 1)) x packet ∧ packet.map Prod.snd = r) ∧
      (r.isSome = true ↔ 1 ≤ Kernel.gxfpCheckSpiHdr (firstBytes 4 x) ∧ Kernel.gxfpCheckSpiHdr (firstBytes 4 x) ≤ 4096)

/-- **The receivers agree on every stream but those that start with a header of another type**, with the right sum and a length that fits. -/
theorem agree_iff (x : Nat → UInt8) : Agree x ↔ ¬ (Summed x ∧ Sized x ∧ ¬ Typed x) := by
  constructor
  · intro hagree hnoise
    obtain ⟨hsummed, hsized, huntyped⟩ := hnoise
    obtain ⟨r, href, hlink, -⟩ := hagree "" 0
    have hsome := href.unique (returns_refseq_read x "" 0)
    have hnone := hlink.unique (returns_framing_read x "")
    rw [if_pos ⟨hsummed, hsized⟩] at hsome
    rw [if_neg fun h => huntyped h.1.2] at hnone
    exact absurd (hsome.symm.trans hnone) (by simp)
  · intro hquiet tag polls
    have hsame : (Summed x ∧ Sized x) ↔ ((Summed x ∧ Typed x) ∧ Sized x) := by
      constructor
      · rintro ⟨hsummed, hsized⟩
        have htyped : Typed x := not_not.mp fun h => hquiet ⟨hsummed, hsized, h⟩
        exact ⟨⟨hsummed, htyped⟩, hsized⟩
      · rintro ⟨⟨hsummed, -⟩, hsized⟩
        exact ⟨hsummed, hsized⟩
    have href := returns_refseq_read x tag polls
    have hlink := returns_framing_read x tag
    have hpacket := returns_readPacket x polls
    rw [gxfpCheckSpiHdr_iff, ← and_assoc]
    by_cases hvalid : (Summed x ∧ Typed x) ∧ Sized x
    · rw [if_pos (hsame.mpr hvalid)] at href
      rw [if_pos hvalid] at hlink hpacket
      exact ⟨_, href, hlink, ⟨_, hpacket, rfl⟩, iff_of_true rfl hvalid⟩
    · rw [if_neg fun h => hvalid (hsame.mp h)] at href
      rw [if_neg hvalid] at hlink hpacket
      exact ⟨_, href, hlink, ⟨_, hpacket, rfl⟩, iff_of_false Bool.false_ne_true hvalid⟩

/-- The bytes `01 01 00 02 55`, and zeros. -/
def noise : Nat → UInt8 := fun i => [0x01, 0x01, 0x00, 0x02, 0x55].getD i 0

/-- `Ref.read` returns a body for them, and the others return nothing. -/
theorem noise_taken_for_packet :
    Returns (Refseq.read "evkVersion" 1) noise (some [0x55]) ∧ Returns (Framing.Link.read "evkVersion") noise none ∧
      Returns (Sensor.readPacket 1) noise none ∧ ¬ Agree noise := by
  have href := returns_refseq_read noise "evkVersion" 0
  have hlink := returns_framing_read noise "evkVersion"
  have hpacket := returns_readPacket noise 0
  rw [if_pos (by decide)] at href
  rw [if_neg (by decide)] at hlink hpacket
  refine ⟨href, hlink, hpacket, ?_⟩
  intro hagree
  obtain ⟨r, href', hlink', -⟩ := hagree "evkVersion" 0
  exact absurd ((href'.unique href).symm.trans (hlink'.unique hlink)) (by simp)

end GoodixSpi.Proof
