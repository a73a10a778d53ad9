import GoodixSpi.Proof.Send

/-!
# A rejected write leaves no trace

`gxfp_raw_write` parses straight into `g->txbuf`, so a bad token leaves the transmit buffer half overwritten. Nobody can tell: every operation that clocks out the transmit buffer has written the bytes it clocks out itself. The contract `fresh` states that of one operation. Its mode is the length of the part of the transmit buffer that the operation has written, and two runs from states that agree up to the mode, and everywhere outside the transmit buffer, log the same events and return the same results.
-/

namespace GoodixSpi.Kernel

open Wire Interaction

/-! ### Inputs that are rejected -/

/-- A leading field of a command is missing or bad, or a payload token is bad. -/
def CmdRejects (toks : List Bytes) : Prop :=
  match cmdNumbers toks with
  | none => True
  | some (_, _, p) => rejectsFrom 256 p 0 = true

/-- A token of a raw write is bad, or there is none. -/
def RawRejects (toks : List Bytes) : Prop := rejectsFrom GXFP_BUF_MAX toks 0 = true ∨ ∀ tok ∈ toks, tok = []

/-- The inputs `gxfp_cmd_write` and `gxfp_raw_write` answer with `-EINVAL`: too long, or not of the expected form. -/
def DebugOp.Rejected : DebugOp → Prop
  | .cmdWrite u => u.len > 1024 ∨ ∃ buf, u.dup = .ok buf ∧ CmdRejects (fields (strim (cString buf)))
  | .rawWrite u => u.len > 4096 ∨ ∃ buf, u.dup = .ok buf ∧ RawRejects (fields (strim (cString buf)))
  | _ => False

/-- The contract of a write that is rejected: it may fill the payload and the transmit buffer. -/
def parsing : Contract Req Ans Unit where
  may _ r := match r with | .touch _ _ _ _ | .txStore _ _ => True | _ => False
  rely _ _ _ := True
  next _ _ _ := ()

theorem parsing_cmdPayload (p : List Bytes) (payload : Buffer 256) (h : rejectsFrom 256 p 0 = true) :
    wp parsing (cmdPayload p payload 0) () fun _ r => r = none := by
  have htouch : IgnoresTouch parsing := fun _ _ _ _ _ _ => ⟨trivial, fun _ => rfl⟩
  apply wp_cmdPayload htouch p (Nat.zero_le 256) (fun _ => rfl)
  intro hgood
  rw [h] at hgood
  exact absurd hgood (by simp)

theorem parsing_rawTokens (p : List Bytes) (n : Nat) (h : rejectsFrom GXFP_BUF_MAX p n = true) :
    wp parsing (rawTokens p n) () fun _ r => r = none := by
  induction p generalizing n with
  | nil => exact absurd h (by simp [rejectsFrom])
  | cons tok p ih =>
      rw [rejectsFrom] at h
      rw [rawTokens]
      by_cases hlt : n < GXFP_BUF_MAX
      · rw [if_pos hlt] at h ⊢
        by_cases hempty : tok = []
        · rw [if_pos hempty] at h ⊢
          exact ih n h
        · rw [if_neg hempty] at h ⊢
          cases hval : kstrtouint tok with
          | error e => rfl
          | ok v =>
              rw [hval] at h
              exact ⟨trivial, fun _ _ => ih _ h⟩
      · rw [if_neg hlt] at h
        exact absurd h (by simp)

theorem rawTokens_of_empty (p : List Bytes) (h : ∀ tok ∈ p, tok = []) : rawTokens p 0 = pure (some 0) := by
  induction p with
  | nil => rfl
  | cons tok p ih =>
      rw [rawTokens, if_pos (by decide), if_pos (h tok List.mem_cons_self)]
      exact ih fun t ht => h t (List.mem_cons_of_mem tok ht)

theorem parsing_prog (P : Setup) {op : DebugOp} (hop : op.Rejected) :
    wp parsing (op.prog P) () fun _ r => r.ret = -EINVAL := by
  cases op with
  | cmdWrite u =>
      change wp parsing (gxfpCmdWrite u) () _
      rw [gxfpCmdWrite]
      by_cases hlen : u.len > 1024
      · rw [if_pos hlen]
        rfl
      · obtain ⟨buf, hdup, htoks⟩ := hop.resolve_left hlen
        rw [if_neg hlen, hdup]
        dsimp only
        rw [CmdRejects] at htoks
        cases hnum : cmdNumbers (fields (strim (cString buf))) with
        | none => rfl
        | some numbers =>
            obtain ⟨cmd0, cmd1, p⟩ := numbers
            rw [hnum] at htoks
            apply wp_bind (parsing_cmdPayload p _ htoks)
            intro _ r hr
            rw [hr]
            rfl
  | rawWrite u =>
      change wp parsing (gxfpRawWrite u) () _
      rw [gxfpRawWrite]
      by_cases hlen : u.len > 4096
      · rw [if_pos hlen]
        rfl
      · obtain ⟨buf, hdup, htoks⟩ := hop.resolve_left hlen
        rw [if_neg hlen, hdup]
        dsimp only
        rcases htoks with hbad | hempty
        · apply wp_bind (parsing_rawTokens _ 0 hbad)
          intro _ r hr
          rw [hr]
          rfl
        · rw [rawTokens_of_empty _ hempty]
          rfl
  | _ => exact absurd hop id

/-! ### What an operation sees of the transmit buffer -/

/-- The mode is how much of the transmit buffer the operation has written; it clocks out no more. -/
def fresh : Contract Req Ans Nat where
  may m r := match r with
    | .spi x => x.tx = .txbuf → x.len ≤ m
    | .txStore off _ => off ≤ m
    | _ => True
  rely _ _ _ := True
  next m r _ := match r with
    | .txStore off new => off + new.length
    | _ => m

theorem fresh_ignored {m : Nat} {r : Req} (hspi : ∀ x, r = .spi x → x.tx ≠ .txbuf) (hstore : ∀ off new, r ≠ .txStore off new) :
    IgnoredAt fresh m r := by
  cases r with
  | spi x => exact ⟨fun htx => absurd htx (hspi x rfl), fun _ => rfl⟩
  | txStore off new => exact absurd rfl (hstore off new)
  | _ => exact ⟨trivial, fun _ => rfl⟩

theorem fresh_ignoresPlain : IgnoresPlain fresh := by
  intro m r hr
  apply fresh_ignored
  · intro x hx
    rw [hx] at hr
    exact absurd hr id
  · intro off new hx
    rw [hx] at hr
    exact absurd hr id

theorem fresh_spi {m : Nat} {x : Xfer} (hx : x.tx ≠ .txbuf) : IgnoredAt fresh m (.spi x) :=
  ⟨fun htx => absurd htx hx, fun _ => rfl⟩

theorem fresh_send {m : Nat} {Q : Nat → Int → Prop} (hQ : ∀ ret, Q m ret) : SendSpec fresh m Q :=
  sendSpec_of_ignored (fun _ htx _ => fresh_spi htx) hQ

theorem fresh_recv {m : Nat} {Q : Nat → Int → Prop} (hQ : ∀ ret, Q m ret) : RecvSpec fresh m Q :=
  recvSpec_of_ignored (fresh_spi (by simp [recvHdrXfer])) (fun _ _ => fresh_spi (by simp [recvBodyXfer]))
    (fun _ _ => ⟨trivial, fun _ => rfl⟩) (fun _ _ => ⟨trivial, fun _ => rfl⟩) hQ

theorem fresh_replay {m : Nat} {Q : Nat → Prop} (hQ : Q m) : ReplaySpec fresh m Q :=
  replaySpec_of_ignored (fresh_spi (by simp [replayHdrXfer])) (fun _ _ => fresh_spi (by simp [replayBodyXfer]))
    (fun _ _ => ⟨trivial, fun _ => rfl⟩) hQ

/-- **Each operation** clocks out only what it wrote, from a transmit buffer it has written nothing of. -/
theorem fresh_prog (P : Setup) (op : DebugOp) : wp fresh (op.prog P) 0 fun _ _ => True := by
  have hclear : 2048 ≤ (fresh.next 0 (.txStore 0 (List.replicate 2048 0)) ()) := by
    change 2048 ≤ 0 + (List.replicate 2048 0).length
    rw [List.length_replicate]
  cases op with
  | cmdWrite u =>
      apply wp_gxfpCmdWrite fresh_ignoresPlain (fun _ => trivial) trivial
      intro _
      apply fresh_send
      intro ret
      exact ⟨fun _ => ⟨trivial, trivial⟩, fun _ => fresh_recv fun _ => ⟨trivial, trivial⟩⟩
  | rawWrite u =>
      apply wp_gxfpRawWrite (I := fun m n => n ≤ m)
      · intro m n b hn _
        exact ⟨hn, Nat.le_refl _⟩
      · exact Nat.le_refl _
      · intro _ _ _
        trivial
      · intro m n hn _
        apply wp_rawTransfer fresh_ignoresPlain trivial (fun _ => hn)
        intro a _
        exact ⟨trivial, trivial, trivial, fun _ => trivial⟩
  | rawRead len off =>
      apply wp_gxfpRawRead fresh_ignoresPlain trivial trivial
      intro n _
      exact ⟨fun _ _ => ⟨trivial, fun _ => rfl⟩, trivial, trivial⟩
  | replay =>
      apply wp_gxfpReplayShow fresh_ignoresPlain (I := fun _ => True) trivial trivial
      · intro _ _
        exact fresh_send fun _ => ⟨fun _ => trivial, fun _ => fresh_replay trivial⟩
      · intro _ _
        exact ⟨trivial, trivial⟩
  | cstest =>
      apply wp_gxfpCstestShow fresh_ignoresPlain trivial (Nat.le_refl 0)
      exact ⟨fun _ => hclear, fun _ _ => ⟨trivial, fun _ => trivial⟩⟩
  | padprobe =>
      apply wp_gxfpPadprobeShow fresh_ignoresPlain (I := fun m => 2048 ≤ m) trivial (Nat.le_refl 0) hclear
      intro m hm
      exact ⟨fun _ => hm, fun _ _ => ⟨hm, trivial⟩⟩
  | _ => exact wp_of_quiet (fresh_ignoresPlain.quiet (plain_aside P (by trivial))) fun _ => trivial

/-! ### Two runs -/

section TwoRuns

variable {m : Nat} {r : Req} {g : Gxfp} {b : Buffer GXFP_BUF_MAX}

theorem mosi_setTxbuf {x : Xfer} (hmay : fresh.may m (.spi x)) (hb : Buffer.AgreeTo m g.txbuf b) :
    mosi { g with txbuf := b } x = mosi g x := by
  rw [mosi, mosi]
  cases htx : x.tx with
  | txbuf => exact (hb.load_eq (hmay htx)).symm
  | _ => rfl

theorem answer_setTxbuf {ε : Type} (E : Env ε) (e : ε) (hmay : fresh.may m r) (hb : Buffer.AgreeTo m g.txbuf b) :
    answer E r { g with txbuf := b } e = answer E r g e := by
  cases r with
  | spi x =>
      rw [answer, answer, mosi_setTxbuf hmay hb]
  | _ => rfl

theorem events_setTxbuf (a : Ans r) (hmay : fresh.may m r) (hb : Buffer.AgreeTo m g.txbuf b) :
    events r a { g with txbuf := b } = events r a g := by
  cases r with
  | spi x => simp only [events, record, mosi_setTxbuf hmay hb]
  | _ => rfl

theorem update_setTxbuf (tid : Nat) (a : Ans r) (hmay : fresh.may m r) (hb : Buffer.AgreeTo m g.txbuf b) :
    ∃ b', update tid r a { g with txbuf := b } = { update tid r a g with txbuf := b' } ∧
      Buffer.AgreeTo (fresh.next m r a) (update tid r a g).txbuf b' := by
  cases r with
  | txStore off new => exact ⟨b.store off new, rfl, hb.store hmay new⟩
  | spi x =>
      refine ⟨b, ?_, ?_⟩
      · rw [update, update]
        split <;> rfl
      · rw [update]
        split <;> exact hb
  | _ => exact ⟨b, rfl, hb⟩

end TwoRuns

variable {ε : Type}

/-- The same world, up to the transmit buffer past `m` and up to how the log began. -/
def SameBut (log log' : List Entry) (m : Nat) (w w' : World ε) : Prop :=
  ∃ b new, w' = ⟨{ w.g with txbuf := b }, w.env, new ++ log'⟩ ∧ Buffer.AgreeTo m w.g.txbuf b ∧ w.log = new ++ log

theorem SameBut.handle {log log' : List Entry} {m : Nat} {w w' : World ε} (h : SameBut log log' m w w') (E : Env ε)
    (tid : Nat) {r : Req} (hmay : fresh.may m r) :
    (handle E tid r w).1 = (handle E tid r w').1 ∧
      SameBut log log' (fresh.next m r (handle E tid r w).1) (handle E tid r w).2 (handle E tid r w').2 := by
  obtain ⟨b, new, rfl, hb, hlog⟩ := h
  have hans := answer_setTxbuf E w.env hmay hb
  obtain ⟨b', hupdate, hb'⟩ := update_setTxbuf tid (answer E r w.g w.env).1 hmay hb
  refine ⟨by simp only [handle_fst, hans], b', (events r (answer E r w.g w.env).1 w.g).map (Entry.mk tid) ++ new, ?_, hb', ?_⟩
  · simp only [Kernel.handle, hans, hupdate, events_setTxbuf _ hmay hb, List.append_assoc]
  · rw [handle_log, hlog, List.append_assoc]

theorem SameBut.runOp {log log' : List Entry} {w w' : World ε} (h : SameBut log log' 0 w w') (E : Env ε) (P : Setup)
    (op : DebugOp) :
    (runOp E P op w).1 = (runOp E P op w').1 ∧ SameBut log log' 0 (runOp E P op w).2 (runOp E P op w').2 := by
  have hstep : ∀ m s t r, SameBut log log' m s t → fresh.may m r →
      (Kernel.handle E 0 r s).1 = (Kernel.handle E 0 r t).1 ∧ fresh.rely m r (Kernel.handle E 0 r s).1 ∧
        SameBut log log' (fresh.next m r (Kernel.handle E 0 r s).1) (Kernel.handle E 0 r s).2 (Kernel.handle E 0 r t).2 := by
    intro m s t r hst hmay
    obtain ⟨hans, hst'⟩ := hst.handle E 0 hmay
    exact ⟨hans, trivial, hst'⟩
  obtain ⟨hret, m', ⟨b, new, heq, hb, hlog⟩, -⟩ := wp_agree hstep (fresh_prog P op) h
  exact ⟨hret, b, new, heq, hb.mono (Nat.zero_le m'), hlog⟩

theorem SameBut.runOps {log log' : List Entry} {w w' : World ε} (h : SameBut log log' 0 w w') (E : Env ε) (P : Setup)
    (ops : List DebugOp) :
    (runOps E P ops w).1 = (runOps E P ops w').1 ∧ SameBut log log' 0 (runOps E P ops w).2 (runOps E P ops w').2 := by
  induction ops generalizing w w' with
  | nil => exact ⟨rfl, h⟩
  | cons op ops ih =>
      obtain ⟨hret, hsame⟩ := h.runOp E P op
      obtain ⟨hrets, hsame'⟩ := ih hsame
      exact ⟨by rw [Kernel.runOps, Kernel.runOps, hret, hrets], hsame'⟩

/-- A rejected write asks for nothing outside the function, and can only have changed the transmit buffer. -/
theorem runOp_rejected (E : Env ε) (P : Setup) {op : DebugOp} (hop : op.Rejected) (w : World ε) :
    (runOp E P op w).1.ret = -EINVAL ∧ (∃ b, (runOp E P op w).2.g = { w.g with txbuf := b }) ∧
      (runOp E P op w).2.env = w.env ∧ sent (runOp E P op w).2.log = sent w.log := by
  have hrun := wp_run (h := Kernel.handle E 0)
    (I := fun _ w' => (∃ b, w'.g = { w.g with txbuf := b }) ∧ w'.env = w.env ∧ sent w'.log = sent w.log) ?_
    (parsing_prog P hop) ⟨⟨w.g.txbuf, rfl⟩, rfl, rfl⟩
  · obtain ⟨_, ⟨hg, henv, hsent⟩, hret⟩ := hrun
    exact ⟨hret, hg, henv, hsent⟩
  · intro _ w' r hw' hmay
    obtain ⟨⟨b, hg⟩, henv, hsent⟩ := hw'
    refine ⟨trivial, ?_⟩
    cases r with
    | touch tag size off len =>
        refine ⟨⟨b, hg⟩, henv, ?_⟩
        rw [handle_log, sent_append, sent_events, hsent]
        exact List.append_nil _
    | txStore off new =>
        refine ⟨⟨b.store off new, ?_⟩, henv, ?_⟩
        · rw [handle_g, update, hg]
        · rw [handle_log, sent_append, sent_events, hsent]
          exact List.append_nil _
    | _ => exact absurd hmay id

/-- **A rejected write is a no-op.** From any state of the driver: it returns `-EINVAL`, issues no transfer and does not involve the sensor; and every later sequence of operations returns the same results and logs the same events, the bytes on the bus among them, as it would without the write. -/
theorem rejected_unobservable (E : Env ε) (P : Setup) {op : DebugOp} (hop : op.Rejected) (w : World ε) :
    (runOp E P op w).1.ret = -EINVAL ∧ sent (runOp E P op w).2.log = sent w.log ∧
    ∀ ops,
      (runOps E P ops (runOp E P op w).2).1 = (runOps E P ops w).1 ∧
      sent (runOps E P ops (runOp E P op w).2).2.log = sent (runOps E P ops w).2.log ∧
      ∃ new, (runOps E P ops (runOp E P op w).2).2.log = new ++ (runOp E P op w).2.log ∧
        (runOps E P ops w).2.log = new ++ w.log := by
  obtain ⟨hret, ⟨b, hg⟩, henv, hsent⟩ := runOp_rejected E P hop w
  refine ⟨hret, hsent, ?_⟩
  intro ops
  have hstart : SameBut w.log (runOp E P op w).2.log 0 w (runOp E P op w).2 := by
    refine ⟨b, [], ?_, rfl, rfl⟩
    rw [← hg, ← henv]
    rfl
  obtain ⟨hrets, b', new, heq, -, hlog⟩ := hstart.runOps E P ops
  have hlog' : (runOps E P ops (runOp E P op w).2).2.log = new ++ (runOp E P op w).2.log := by rw [heq]
  refine ⟨hrets.symm, ?_, new, hlog', hlog⟩
  rw [hlog', hlog, sent_append, sent_append, hsent]

/-- `12 zz` written to `raw`: the first byte is already in the transmit buffer when the second token fails. -/
def halfWritten : UserBuf := .text [0x31, 0x32, 0x20, 0x7A, 0x7A]

theorem halfWritten_rejected : (DebugOp.rawWrite halfWritten).Rejected := Or.inr ⟨_, rfl, Or.inl (by decide)⟩

theorem rejected_unobservable_halfWritten :
    (runOp Env.idle {} (.rawWrite halfWritten) (probed ())).1.ret = -22 ∧
      ∀ ops, (runOps Env.idle {} ops (runOp Env.idle {} (.rawWrite halfWritten) (probed ())).2).1 =
        (runOps Env.idle {} ops (probed ())).1 :=
  have h := rejected_unobservable Env.idle {} halfWritten_rejected (probed ())
  ⟨h.1, fun ops => (h.2.2 ops).1⟩

end GoodixSpi.Kernel
