import GoodixSpi.Proof.Specs

/-!
# Every index is inside its buffer

Each access of the driver or the controller to a buffer is logged with the size of the allocation. The contract `bounded` admits a request only if its accesses are in range and only if it keeps `rxlen` within the receive buffer, and may rely on that same bound when it reads `rxlen`: that is what connects the receiver, which sets `rxlen` from a length the sensor sent, to the renderer, which sizes its output by it.
-/

namespace GoodixSpi.Kernel

open Wire Interaction

/-- Every range a request makes the driver or the controller index is inside the buffer. -/
def InBounds (r : Req) : Prop := ∀ acc ∈ accesses r, InRange acc.2.1 acc.2.2.1 acc.2.2.2

def bounded : Contract Req Ans Unit where
  may _ r := InBounds r ∧ ∀ n, r = .setRxlen n → n ≤ GXFP_BUF_MAX
  rely _ r a := match r, a with
    | .getRxlen, n => n ≤ GXFP_BUF_MAX
    | _, _ => True
  next _ _ _ := ()

theorem inBounds_of_accesses_eq_nil {r : Req} (h : accesses r = []) : InBounds r := by
  intro acc hacc
  rw [h] at hacc
  exact absurd hacc (List.not_mem_nil)

theorem inBounds_of_accesses_eq_singleton {r : Req} {b : Buf} {size off len : Nat}
    (h : accesses r = [(b, size, off, len)]) (hin : off + len ≤ size) : InBounds r := by
  intro acc hacc
  rw [h, List.mem_singleton] at hacc
  rw [hacc]
  exact inRange_of_le hin

theorem bounded_ignoresPlain : IgnoresPlain bounded := by
  intro _ r hr
  refine ⟨⟨?_, ?_⟩, fun _ => rfl⟩
  · intro acc hacc
    cases r with
    | touch b size off len =>
        rw [accesses, List.mem_singleton] at hacc
        rw [hacc]
        exact hr
    | txStore off new => exact absurd hr id
    | rxLoad off len => exact absurd hr id
    | spi x => exact absurd hr id
    | _ => exact absurd hacc (List.not_mem_nil)
  · intro n hn
    rw [hn] at hr
    exact absurd hr id

/-- A request that neither sets `rxlen` nor touches a buffer. -/
theorem bounded_may_of_nil {r : Req} (h : accesses r = []) (hr : ∀ n, r ≠ .setRxlen n) : bounded.may () r :=
  ⟨inBounds_of_accesses_eq_nil h, fun n hn => absurd hn (hr n)⟩

theorem bounded_may_rxLoad {off len : Nat} (h : off + len ≤ GXFP_BUF_MAX) : bounded.may () (.rxLoad off len) :=
  ⟨inBounds_of_accesses_eq_singleton rfl h, nofun⟩

theorem bounded_may_txStore {off : Nat} {new : Bytes} (h : off + new.length ≤ GXFP_BUF_MAX) :
    bounded.may () (.txStore off new) :=
  ⟨inBounds_of_accesses_eq_singleton rfl h, nofun⟩

/-- `memset(g->txbuf, 0x00, 2048)`. -/
theorem bounded_may_clear : bounded.may () (.txStore 0 (List.replicate 2048 0)) := by
  apply bounded_may_txStore
  rw [List.length_replicate, GXFP_BUF_MAX]
  omega

theorem bounded_may_spi {x : Xfer} (h : x.tx = .txbuf ∨ x.rx = .rxbuf → x.len ≤ GXFP_BUF_MAX) :
    bounded.may () (.spi x) := by
  refine ⟨?_, nofun⟩
  intro acc hacc
  rw [accesses, List.mem_append] at hacc
  rcases hacc with hacc | hacc
  · by_cases htx : x.tx = .txbuf
    · rw [if_pos htx, List.mem_singleton] at hacc
      rw [hacc]
      exact inRange_of_le ((Nat.zero_add x.len).symm ▸ h (Or.inl htx))
    · rw [if_neg htx] at hacc
      exact absurd hacc (List.not_mem_nil)
  · by_cases hrx : x.rx = .rxbuf
    · rw [if_pos hrx, List.mem_singleton] at hacc
      rw [hacc]
      exact inRange_of_le ((Nat.zero_add x.len).symm ▸ h (Or.inr hrx))
    · rw [if_neg hrx] at hacc
      exact absurd hacc (List.not_mem_nil)

theorem bounded_may_lock : bounded.may () .lock := bounded_may_of_nil rfl nofun

theorem bounded_may_unlock : bounded.may () .unlock := bounded_may_of_nil rfl nofun

theorem bounded_may_setRxlen {n : Nat} (h : n ≤ GXFP_BUF_MAX) : bounded.may () (.setRxlen n) :=
  ⟨inBounds_of_accesses_eq_nil rfl, fun k hk => by cases hk; exact h⟩

theorem bounded_send {Q : Unit → Int → Prop} (hQ : ∀ ret, Q () ret) : SendSpec bounded () Q := by
  apply sendSpec_of_ignored
  · intro x htx hrx
    exact ⟨bounded_may_spi fun h => absurd h (not_or.mpr ⟨htx, hrx⟩), fun _ => rfl⟩
  · exact hQ

theorem bounded_may_shown {n : Nat} (hn : n ≤ 32) : bounded.may () (.rxLoad 0 n) := by
  apply bounded_may_rxLoad
  simp only [GXFP_BUF_MAX]
  omega

theorem bounded_recv {Q : Unit → Int → Prop} (hQ : ∀ ret, Q () ret) : RecvSpec bounded () Q :=
  recvSpec_of_ignored ⟨bounded_may_spi (by simp [recvHdrXfer]), fun _ => rfl⟩
    (fun _ hn => ⟨bounded_may_spi fun _ => hn, fun _ => rfl⟩) (fun _ hn => ⟨bounded_may_setRxlen hn, fun _ => rfl⟩)
    (fun _ hn => ⟨bounded_may_shown hn, fun _ => rfl⟩) hQ

theorem bounded_replay {Q : Unit → Prop} (hQ : Q ()) : ReplaySpec bounded () Q :=
  replaySpec_of_ignored ⟨bounded_may_spi (by simp [replayHdrXfer]), fun _ => rfl⟩
    (fun _ hn => ⟨bounded_may_spi fun _ => hn, fun _ => rfl⟩) (fun _ hn => ⟨bounded_may_shown hn, fun _ => rfl⟩) hQ

theorem bounded_rawTransfer {n : Nat} (hn : n ≤ GXFP_BUF_MAX) : wp bounded (rawTransfer n) () fun _ _ => True := by
  apply wp_rawTransfer bounded_ignoresPlain bounded_may_lock (bounded_may_spi fun _ => hn)
  intro a _
  refine ⟨bounded_may_setRxlen ?_, bounded_may_unlock, bounded_may_rxLoad ?_, fun _ => trivial⟩
  · split <;> omega
  · omega

/-- **Each operation** indexes inside its buffers, whatever the input and the answers, if `rxlen` is within the receive buffer when it starts. -/
theorem bounded_prog (P : Setup) (op : DebugOp) : wp bounded (op.prog P) () fun _ _ => True := by
  cases op with
  | cmdWrite u =>
      apply wp_gxfpCmdWrite bounded_ignoresPlain (fun _ => trivial) bounded_may_lock
      intro _
      apply bounded_send
      intro ret
      exact ⟨fun _ => ⟨bounded_may_unlock, trivial⟩, fun _ => bounded_recv fun _ => ⟨bounded_may_unlock, trivial⟩⟩
  | rawWrite u =>
      apply wp_gxfpRawWrite (I := fun _ n => n ≤ GXFP_BUF_MAX)
      · intro _ n b _ hn
        exact ⟨bounded_may_txStore hn, hn⟩
      · exact Nat.zero_le _
      · intro _ _ _
        trivial
      · intro _ n hn _
        exact bounded_rawTransfer hn
  | rawRead len off =>
      apply wp_gxfpRawRead bounded_ignoresPlain bounded_may_lock (bounded_may_of_nil rfl nofun)
      intro n hn
      refine ⟨?_, bounded_may_unlock, trivial⟩
      intro i hi
      exact ⟨bounded_may_rxLoad (Nat.le_trans hi hn), fun _ => rfl⟩
  | replay =>
      apply wp_gxfpReplayShow bounded_ignoresPlain (I := fun _ => True) bounded_may_lock trivial
      · intro _ _
        exact bounded_send fun _ => ⟨fun _ => trivial, fun _ => bounded_replay trivial⟩
      · intro _ _
        exact ⟨bounded_may_unlock, trivial⟩
  | cstest =>
      apply wp_gxfpCstestShow bounded_ignoresPlain trivial bounded_may_clear
      exact ⟨bounded_may_spi fun _ => by decide, fun _ _ => ⟨bounded_may_rxLoad (by decide), fun _ => trivial⟩⟩
  | padprobe =>
      apply wp_gxfpPadprobeShow bounded_ignoresPlain (I := fun _ => True) trivial bounded_may_clear trivial
      intro _ _
      exact ⟨bounded_may_spi fun _ => by decide, fun _ _ => ⟨trivial, trivial⟩⟩
  | _ => exact wp_of_quiet (bounded_ignoresPlain.quiet (plain_aside P (by trivial))) fun _ => trivial

/-! ### Runs -/

variable {ε : Type}

/-- `rxlen` is within the receive buffer, now and at every assignment so far, and every access so far was in range. -/
structure IndexSafe (w : World ε) : Prop where
  rxlen : w.g.rxlen ≤ GXFP_BUF_MAX
  assigned : ∀ e ∈ w.log, ∀ n, e.event = .rxlen n → n ≤ GXFP_BUF_MAX
  accessed : ∀ e ∈ w.log, ∀ b size off len, e.event = .touch b size off len → InRange size off len

theorem rxlen_mem_events {r : Req} {a : Ans r} {g : Gxfp} {n : Nat} (h : .rxlen n ∈ events r a g) : r = .setRxlen n := by
  rw [events, List.mem_append] at h
  rcases h with h | h
  · cases r <;> simp_all [record]
  · simp at h

theorem touch_mem_events {r : Req} {a : Ans r} {g : Gxfp} {b : Buf} {size off len : Nat}
    (h : .touch b size off len ∈ events r a g) : (b, size, off, len) ∈ accesses r := by
  rw [events, List.mem_append] at h
  rcases h with h | h
  · cases r <;> simp_all [record]
  · obtain ⟨acc, hacc, heq⟩ := List.mem_map.mp h
    cases heq
    exact hacc

theorem update_rxlen_le {tid : Nat} {r : Req} {a : Ans r} {g : Gxfp} (hmay : bounded.may () r)
    (hg : g.rxlen ≤ GXFP_BUF_MAX) : (update tid r a g).rxlen ≤ GXFP_BUF_MAX := by
  cases r with
  | setRxlen n => exact hmay.2 n rfl
  | spi x =>
      rw [update]
      split <;> exact hg
  | _ => exact hg

/-- One admitted request keeps a world index-safe. -/
theorem IndexSafe.handle {w : World ε} (h : IndexSafe w) (E : Env ε) (tid : Nat) {r : Req} (hmay : bounded.may () r) :
    IndexSafe (handle E tid r w).2 := by
  have hmem : ∀ e ∈ (Kernel.handle E tid r w).2.log,
      e.event ∈ events r (answer E r w.g w.env).1 w.g ∨ e ∈ w.log := by
    intro e he
    rw [handle_log, List.mem_append, List.mem_map] at he
    rcases he with ⟨ev, hev, rfl⟩ | he
    · exact Or.inl hev
    · exact Or.inr he
  refine ⟨update_rxlen_le hmay h.rxlen, ?_, ?_⟩
  · intro e he n hn
    rcases hmem e he with hnew | hold
    · rw [hn] at hnew
      exact hmay.2 n (rxlen_mem_events hnew)
    · exact h.assigned e hold n hn
  · intro e he b size off len htouch
    rcases hmem e he with hnew | hold
    · rw [htouch] at hnew
      exact hmay.1 _ (touch_mem_events hnew)
    · exact h.accessed e hold b size off len htouch

theorem IndexSafe.runOp {w : World ε} (h : IndexSafe w) (E : Env ε) (P : Setup) (op : DebugOp) :
    IndexSafe (runOp E P op w).2 := by
  have hrun := wp_run (h := Kernel.handle E 0) (I := fun _ w => IndexSafe w) ?_ (bounded_prog P op) h
  · obtain ⟨_, hsafe, -⟩ := hrun
    exact hsafe
  · intro _ s r hs hmay
    refine ⟨?_, hs.handle E 0 hmay⟩
    cases r with
    | getRxlen => exact hs.rxlen
    | _ => trivial

theorem IndexSafe.runOps {w : World ε} (h : IndexSafe w) (E : Env ε) (P : Setup) (ops : List DebugOp) :
    IndexSafe (runOps E P ops w).2 := by
  induction ops generalizing w with
  | nil => exact h
  | cons op ops ih => exact ih (h.runOp E P op)

theorem indexSafe_probed (e : ε) : IndexSafe (probed e) :=
  ⟨Nat.zero_le _, fun _ he => absurd he (List.not_mem_nil), fun _ he => absurd he (List.not_mem_nil)⟩

/-- **Index safety.** Whatever is written to the debugfs files, whatever the sensor and the SPI core answer: `rxlen` stays within the receive buffer, and every index into the transmit and receive buffers, the payload array, the frame body and the text `raw` prints is inside its allocation. -/
theorem runOps_indexSafe (E : Env ε) (P : Setup) (e : ε) (ops : List DebugOp) :
    IndexSafe (runOps E P ops (probed e)).2 :=
  (indexSafe_probed e).runOps E P ops

end GoodixSpi.Kernel
