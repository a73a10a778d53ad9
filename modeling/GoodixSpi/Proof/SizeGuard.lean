import GoodixSpi.Proof.IndexSafety
import GoodixSpi.Proof.Send

/-!
# The size guard of `gxfp_send`

The body length `n + 4` is kept in a `u16`, and it is this wrapped value that the guard looks at, that is allocated and that the header announces. For the four largest lengths it wraps to less than four bytes, passes the guard, and the payload is copied past the end of the allocation.
-/

namespace GoodixSpi.Kernel

open Wire Interaction Tools

def announced (hdr : Bytes) : Nat := le16 (hdr.getD 1 0) (hdr.getD 2 0)

def AllInRange (new : List Entry) : Prop :=
  ∀ e ∈ new, ∀ b size off len, e.event = .touch b size off len → InRange size off len

/-- A call with a payload of `n` bytes either returns `-EINVAL` before it asks for anything, or every index it uses is in range and the header, the first thing it writes, announces `n + 4` bytes. -/
def SizeGuarded (n : UInt16) : Prop :=
  ∀ (ε : Type) (E : Env ε) (tid : Nat) (w : World ε) (cmd0 cmd1 : UInt8) (k : Nat) (payload : Buffer k)
    (checksum : Bool), n.toNat ≤ k →
    let out := (gxfpSend cmd0 cmd1 payload n checksum).run (handle E tid) w
    out = (-EINVAL, w) ∨
      (∃ new, out.2.log = new ++ w.log ∧ AllInRange new) ∧
        ∃ writes, sent out.2.log = sent w.log ++ writes ∧ ∀ hdr, writes.head? = some hdr → announced hdr = n.toNat + 4

variable {ε : Type}

/-! ### Lengths that fit -/

theorem announced_spiHeader {n : Nat} (hn : n < 65536) : announced (spiHeader n) = n := by
  simp only [announced, spiHeader, and_ff, shiftRight_8, List.getD_cons_zero, List.getD_cons_succ]
  rw [le16_split, Nat.mod_eq_of_lt hn]

/-- The contract of code that stays inside its buffers. -/
def inside : Contract Req Ans Unit where
  may _ r := InBounds r
  rely _ _ _ := True
  next _ _ _ := ()

theorem inside_ignoresPlain : IgnoresPlain inside := fun _ r hr => ⟨(bounded_ignoresPlain () r hr).1.1, fun _ => rfl⟩

theorem inside_send : SendSpec inside () fun _ _ => True := by
  apply sendSpec_of_ignored
  · intro x htx hrx
    exact ⟨(bounded_may_spi fun h => absurd h (not_or.mpr ⟨htx, hrx⟩)).1, fun _ => rfl⟩
  · intro _
    trivial

theorem AllInRange.handle {new : List Entry} {w w' : World ε} (h : AllInRange new) (hlog : w'.log = new ++ w.log)
    (E : Env ε) (tid : Nat) {r : Req} (hmay : InBounds r) :
    ∃ new', (handle E tid r w').2.log = new' ++ w.log ∧ AllInRange new' := by
  refine ⟨(events r (answer E r w'.g w'.env).1 w'.g).map (Entry.mk tid) ++ new, ?_, ?_⟩
  · rw [handle_log, hlog, List.append_assoc]
  · intro e he b size off len htouch
    rcases List.mem_append.mp he with hnew | hold
    · obtain ⟨ev, hev, rfl⟩ := List.mem_map.mp hnew
      obtain rfl : ev = .touch b size off len := htouch
      exact hmay _ (touch_mem_events hev)
    · exact h e hold b size off len htouch

theorem sizeGuarded_of_fits {n : UInt16} (hn : n.toNat ≤ 4092) : SizeGuarded n := by
  intro ε E tid w cmd0 cmd1 k payload checksum hk out
  right
  constructor
  · have hstart : ∃ new, w.log = new ++ w.log ∧ AllInRange new := ⟨[], rfl, fun _ he => absurd he List.not_mem_nil⟩
    have hstep : ∀ (_ : Unit) (w' : World ε) r, (∃ new, w'.log = new ++ w.log ∧ AllInRange new) → inside.may () r →
        inside.rely () r (handle E tid r w').1 ∧ ∃ new, (handle E tid r w').2.log = new ++ w.log ∧ AllInRange new := by
      rintro _ w' r ⟨new, hlog, hnew⟩ hmay
      exact ⟨trivial, hnew.handle hlog E tid hmay⟩
    obtain ⟨_, hnew, -⟩ := wp_run hstep (wp_gxfpSend inside_ignoresPlain hn hk inside_send) hstart
    exact hnew
  · obtain ⟨-, -, -, hsent⟩ := run_gxfpSend E tid w cmd0 cmd1 payload n checksum hn hk
    refine ⟨_, hsent, ?_⟩
    have hps : (payload.load 0 n.toNat).length = n.toNat := Buffer.load_length (by omega)
    have hlen : (message cmd0.toNat cmd1.toNat (payload.load 0 n.toNat) checksum).length = n.toNat + 4 := by
      rw [message_eq_frame, frame_length, hps]
    rw [hlen]
    intro hdr hhead
    have hfirst : hdr = spiHeader (n.toNat + 4) := by
      rw [framedSend] at hhead
      split at hhead
      · exact absurd hhead (by simp)
      · rw [frameWrites] at hhead
        split at hhead <;> simpa using hhead.symm
    rw [hfirst, announced_spiHeader (by omega)]

/-! ### Lengths that are refused -/

theorem sizeGuarded_of_refused {n : UInt16} (hlow : 4092 < n.toNat) (hhigh : n.toNat ≤ 65531) : SizeGuarded n := by
  intro ε E tid w cmd0 cmd1 k payload checksum _ out
  left
  have hblen : (UInt16.ofNat (n.toNat + 4)).toNat = n.toNat + 4 := by
    rw [UInt16.toNat_ofNat']
    omega
  have hbig : (UInt16.ofNat (n.toNat + 4)).toNat > GXFP_BUF_MAX := by
    rw [hblen, GXFP_BUF_MAX]
    omega
  change (gxfpSend cmd0 cmd1 payload n checksum).run (handle E tid) w = _
  rw [gxfpSend, if_pos hbig]
  rfl

/-! ### Lengths that wrap -/

theorem mem_log_run {α : Type} {entry : Entry} (E : Env ε) (tid : Nat) (p : DriverM α) {w : World ε}
    (h : entry ∈ w.log) : entry ∈ (p.run (handle E tid) w).2.log := by
  apply p.run_keeps (I := fun w' : World ε => entry ∈ w'.log) _ h
  intro r w' hw'
  rw [handle_log]
  exact List.mem_append_right _ hw'

theorem mem_log_store (E : Env ε) (tid : Nat) (tag : Buf) {size : Nat} (b : Buffer size) (off : Nat) (new : Bytes)
    (w : World ε) :
    ⟨tid, .touch tag size off new.length⟩ ∈ ((store tag b off new).run (handle E tid) w).2.log :=
  List.mem_cons_self

theorem mem_log_fillBody (E : Env ε) (tid : Nat) (cmd lo hi : UInt8) {k : Nat} (payload : Buffer k) {n : UInt16}
    (checksum : Bool) (blen : UInt16) (hk : n.toNat ≤ k) (hn : n.toNat ≠ 0) (w : World ε) :
    ⟨tid, .touch .body blen.toNat 3 n.toNat⟩ ∈
      ((fillBody cmd lo hi payload n checksum blen).run (handle E tid) w).2.log := by
  have hps : (payload.load 0 n.toNat).length = n.toNat := Buffer.load_length (by omega)
  have hcopied (b : Buffer blen.toNat) (w' : World ε) : ⟨tid, .touch .body blen.toNat 3 n.toNat⟩ ∈
      ((store .body b 3 (payload.load 0 n.toNat)).run (handle E tid) w').2.log := by
    have hstored := mem_log_store E tid .body b 3 (payload.load 0 n.toNat) w'
    rwa [hps] at hstored
  simp only [fillBody, Prog.run_bind]
  apply mem_log_run
  rw [copyPayload, if_pos hn, Prog.run_bind]
  exact hcopied _ _

theorem not_sizeGuarded_of_wraps {n : UInt16} (hn : 65532 ≤ n.toNat) : ¬ SizeGuarded n := by
  intro hguarded
  have hlt := n.toNat_lt
  have hblen : (UInt16.ofNat (n.toNat + 4)).toNat = n.toNat + 4 - 65536 := by
    rw [UInt16.toNat_ofNat']
    omega
  have hsmall : ¬ (UInt16.ofNat (n.toNat + 4)).toNat > GXFP_BUF_MAX := by
    rw [hblen, GXFP_BUF_MAX]
    omega
  have hcopied : ⟨0, .touch .body (UInt16.ofNat (n.toNat + 4)).toNat 3 n.toNat⟩ ∈
      ((gxfpSend 0 0 (Buffer.zeros n.toNat) n false).run (handle Env.idle 0) (probed ())).2.log := by
    rw [gxfpSend, if_neg hsmall]
    simp only [kmalloc, issue, Prog.perform_bind, Prog.run_ask]
    rw [if_neg (show ¬ (handle Env.idle 0 (.kmalloc _) (probed ())).1 = false from Bool.noConfusion), Prog.run_bind]
    apply mem_log_run
    exact mem_log_fillBody Env.idle 0 _ _ _ _ _ _ (Nat.le_refl _) (by omega) _
  rcases hguarded Unit Env.idle 0 (probed ()) 0 0 n.toNat (Buffer.zeros n.toNat) false (Nat.le_refl _) with
    hrefused | ⟨⟨new, hlog, hrange⟩, -⟩
  · rw [hrefused] at hcopied
    exact absurd hcopied List.not_mem_nil
  · rw [hlog] at hcopied
    have hin := hrange _ (by simpa [probed] using hcopied) _ _ _ _ rfl 0 (by omega)
    omega

/-- **The guard is sound exactly up to the length where `n + 4` wraps.** -/
theorem sizeGuarded_iff (n : UInt16) : SizeGuarded n ↔ n.toNat ≤ 65531 := by
  constructor
  · intro hguarded
    by_contra hn
    exact not_sizeGuarded_of_wraps (by omega) hguarded
  · intro hn
    by_cases hfits : n.toNat ≤ 4092
    · exact sizeGuarded_of_fits hfits
    · exact sizeGuarded_of_refused (by omega) hn

/-- 65532 bytes: the allocation is of zero bytes. -/
theorem wrapped_length_passes_guard : ¬ SizeGuarded 65532 := not_sizeGuarded_of_wraps (by decide)

end GoodixSpi.Kernel
