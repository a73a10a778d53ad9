import GoodixSpi.Proof.Send
import GoodixSpi.Proof.Tokens

/-!
# The two phases of a raw write

`gxfp_raw_write` first parses its text into `g->txbuf`, without the mutex, and then makes the transfer under it. `rawParse` and `rawTransfer` are these phases; what each does to the driver's state and to the log is said here once.
-/

namespace GoodixSpi.Kernel

open Wire Interaction

/-! ### Parsing -/

/-- The first phase: the number of bytes to transfer, or the error the write returns. -/
def rawParse (u : UserBuf) : DriverM (Except Int Nat) :=
  if u.len > 4096 then pure (.error (-EINVAL))
  else
    match u.dup with
    | .error e => pure (.error e)
    | .ok buf => do
        let parsed ← rawTokens (fields (strim (cString buf))) 0
        match parsed with
        | none => pure (.error (-EINVAL))
        | some 0 => pure (.error (-EINVAL))
        | some n => pure (.ok n)

/-- The second phase, and what the write returns. -/
def rawFinish (u : UserBuf) : Except Int Nat → DriverM OpResult
  | .error e => pure { ret := e }
  | .ok n => do
      let ret ← rawTransfer n
      pure { ret := if ret ≠ 0 then ret else u.len }

theorem gxfpRawWrite_eq (u : UserBuf) : gxfpRawWrite u = rawParse u >>= rawFinish u := by
  rw [gxfpRawWrite, rawParse]
  by_cases hlen : u.len > 4096
  · rw [if_pos hlen, if_pos hlen]
    rfl
  · rw [if_neg hlen, if_neg hlen]
    cases u.dup with
    | error e => rfl
    | ok buf =>
        dsimp only
        rw [Prog.bind_assoc]
        congr 1
        funext parsed
        rcases parsed with _ | _ | n <;> rfl

/-- What a write's text puts into the transmit buffer, a prefix of it if the text is bad. -/
def UserBuf.parsed (u : UserBuf) : Bytes :=
  if u.len > 4096 then []
  else
    match u.dup with
    | .error _ => []
    | .ok buf => (values GXFP_BUF_MAX (fields (strim (cString buf)))).1

def UserBuf.outcome (u : UserBuf) : Except Int Nat :=
  if u.len > 4096 then .error (-EINVAL)
  else
    match u.dup with
    | .error e => .error e
    | .ok buf =>
        let vs := values GXFP_BUF_MAX (fields (strim (cString buf)))
        if vs.2 = true ∧ vs.1 ≠ [] then .ok vs.1.length else .error (-EINVAL)

theorem UserBuf.outcome_ok {u : UserBuf} {n : Nat} (h : u.outcome = .ok n) : n = u.parsed.length ∧ n ≤ GXFP_BUF_MAX := by
  rw [outcome] at h
  rw [parsed]
  by_cases hlen : u.len > 4096
  · rw [if_pos hlen] at h
    exact absurd h (by simp)
  · rw [if_neg hlen] at h ⊢
    cases hdup : u.dup with
    | error e =>
        rw [hdup] at h
        exact absurd h (by simp)
    | ok buf =>
        rw [hdup] at h
        dsimp only at h ⊢
        split at h
        · obtain rfl := Except.ok.inj h
          exact ⟨rfl, values_length_le _ _⟩
        · exact absurd h (by simp)

/-- Entries that only account for indices. -/
def OnlyTouches (new : List Entry) : Prop := ∀ e ∈ new, ∃ b size off len, e.event = .touch b size off len

theorem OnlyTouches.filterMap_eq {new : List Entry} (h : OnlyTouches new) {β : Type} {f : Entry → Option β}
    (hf : ∀ tid b size off len, f ⟨tid, .touch b size off len⟩ = none) : new.filterMap f = [] := by
  rw [List.filterMap_eq_nil_iff]
  intro e he
  obtain ⟨b, size, off, len, htouch⟩ := h e he
  obtain ⟨tid, ev⟩ := e
  obtain rfl : ev = _ := htouch
  exact hf tid b size off len

variable {ε : Type} (E : Env ε) (tid : Nat)

theorem run_rawTokens (p : List Bytes) {n : Nat} (hn : n ≤ GXFP_BUF_MAX) (w : World ε) :
    ∃ new, OnlyTouches new ∧
      (rawTokens p n).run (handle E tid) w =
        (if (values (GXFP_BUF_MAX - n) p).2 then some (n + (values (GXFP_BUF_MAX - n) p).1.length) else none,
          ⟨{ w.g with txbuf := w.g.txbuf.store n (values (GXFP_BUF_MAX - n) p).1 }, w.env, new ++ w.log⟩) := by
  have hnone : OnlyTouches [] := fun _ he => absurd he List.not_mem_nil
  induction p generalizing n w with
  | nil =>
      have hnil : values (GXFP_BUF_MAX - n) [] = ([], true) := by cases GXFP_BUF_MAX - n <;> rfl
      rw [hnil, Buffer.store_nil]
      exact ⟨[], hnone, rfl⟩
  | cons tok p ih =>
      rw [rawTokens]
      by_cases hlt : n < GXFP_BUF_MAX
      · rw [if_pos hlt]
        by_cases hempty : tok = []
        · subst hempty
          rw [if_pos rfl, values_cons_nil]
          exact ih hn w
        · obtain ⟨room, hroom⟩ : ∃ room, GXFP_BUF_MAX - n = room + 1 := ⟨GXFP_BUF_MAX - n - 1, by omega⟩
          rw [if_neg hempty, hroom, values_cons p hempty]
          cases hval : kstrtouint tok with
          | error e =>
              rw [lowByte_eq_none hval, Buffer.store_nil]
              exact ⟨[], hnone, rfl⟩
          | ok v =>
              rw [lowByte_eq_some hval]
              dsimp only
              generalize UInt8.ofNat (v &&& 0xFF) = b
              obtain ⟨new, hnew, hrun⟩ := ih hlt (handle E tid (.txStore n [b]) w).2
              have hrest : GXFP_BUF_MAX - (n + 1) = room := by omega
              have hfits : n + 1 + (values room p).1.length ≤ GXFP_BUF_MAX := by
                have := values_length_le room p
                omega
              rw [hrest] at hrun
              refine ⟨new ++ [⟨tid, .touch .txbuf GXFP_BUF_MAX n 1⟩], ?_, ?_⟩
              · intro e he
                rcases List.mem_append.mp he with he | he
                · exact hnew e he
                · exact ⟨_, _, _, _, congrArg Entry.event (List.mem_singleton.mp he)⟩
              · rw [Prog.perform_bind, Prog.run_ask, hrun, List.length_cons, Nat.add_right_comm n 1, Nat.add_assoc n,
                  List.append_assoc, ← Buffer.store_store hfits]
                rfl
      · have hfull : GXFP_BUF_MAX - n = 0 := by omega
        rw [if_neg hlt, hfull, values, Buffer.store_nil]
        exact ⟨[], hnone, rfl⟩

/-- **The first phase** stores what was parsed, and does nothing else. -/
theorem run_rawParse (u : UserBuf) (w : World ε) :
    ∃ new, OnlyTouches new ∧
      (rawParse u).run (handle E tid) w =
        (u.outcome, ⟨{ w.g with txbuf := w.g.txbuf.store 0 u.parsed }, w.env, new ++ w.log⟩) := by
  have hnone : OnlyTouches [] := fun _ he => absurd he List.not_mem_nil
  rw [rawParse, UserBuf.parsed, UserBuf.outcome]
  by_cases hlen : u.len > 4096
  · rw [if_pos hlen, if_pos hlen, if_pos hlen, Buffer.store_nil]
    exact ⟨[], hnone, rfl⟩
  · rw [if_neg hlen, if_neg hlen, if_neg hlen]
    cases u.dup with
    | error e =>
        dsimp only
        rw [Buffer.store_nil]
        exact ⟨[], hnone, rfl⟩
    | ok buf =>
        obtain ⟨new, hnew, hrun⟩ := run_rawTokens E tid (fields (strim (cString buf))) (Nat.zero_le GXFP_BUF_MAX) w
        refine ⟨new, hnew, ?_⟩
        dsimp only
        rw [Prog.run_bind, hrun, Nat.sub_zero, Nat.zero_add]
        obtain ⟨bs, good⟩ := values GXFP_BUF_MAX (fields (strim (cString buf)))
        cases good with
        | false => rfl
        | true => cases bs <;> rfl

/-! ### Transferring -/

/-- The writer and the bytes of a raw transfer. -/
def Entry.rawSend? (e : Entry) : Option (Nat × Bytes) :=
  match e.event with
  | .bus .raw _ b _ _ => some (e.tid, b)
  | _ => none

def rawSends (log : List Entry) : List (Nat × Bytes) := (log.filterMap Entry.rawSend?).reverse

theorem rawSends_touches {new : List Entry} (h : OnlyTouches new) (log : List Entry) :
    rawSends (new ++ log) = rawSends log := by
  rw [rawSends, List.filterMap_append, h.filterMap_eq fun _ _ _ _ _ => rfl]
  rfl

theorem sent_touches {new : List Entry} (h : OnlyTouches new) (log : List Entry) : sent (new ++ log) = sent log := by
  rw [sent, List.filterMap_append, h.filterMap_eq fun _ _ _ _ _ => rfl]
  rfl

/-- **The second phase** makes one transfer, of what the transmit buffer holds then. -/
theorem run_rawTransfer (n : Nat) (w : World ε) :
    let out := (rawTransfer n).run (handle E tid) w
    out.1 = (E.xfer (rawXfer n) (w.g.txbuf.load 0 n) w.env).1.ret ∧ out.2.g.txbuf = w.g.txbuf ∧
      rawSends out.2.log = rawSends w.log ++ [(tid, w.g.txbuf.load 0 n)] ∧
      sent out.2.log = sent w.log ++ [w.g.txbuf.load 0 n] := by
  refine ⟨rfl, rfl, ?_, ?_⟩
  · exact List.reverse_cons
  · exact List.reverse_cons

theorem runOp_rawWrite_eq (P : Setup) (u : UserBuf) (w : World ε) :
    ∃ new, OnlyTouches new ∧ runOp E P (.rawWrite u) w =
      (rawFinish u u.outcome).run (handle E 0)
        ⟨{ w.g with txbuf := w.g.txbuf.store 0 u.parsed }, w.env, new ++ w.log⟩ := by
  obtain ⟨new, hnew, hparse⟩ := run_rawParse E 0 u w
  refine ⟨new, hnew, ?_⟩
  change (gxfpRawWrite u).run (handle E 0) w = _
  rw [gxfpRawWrite_eq, Prog.run_bind, hparse]

theorem load_parsed {u : UserBuf} {n : Nat} (h : u.outcome = .ok n) (b : Buffer GXFP_BUF_MAX) :
    (b.store 0 u.parsed).load 0 n = u.parsed := by
  obtain ⟨rfl, hmax⟩ := UserBuf.outcome_ok h
  exact Buffer.load_store (by omega)

/-- **A raw write** returns the error of its text and sends nothing, or sends what it parsed. -/
theorem runOp_rawWrite (P : Setup) (u : UserBuf) (w : World ε) :
    let out := runOp E P (.rawWrite u) w
    match u.outcome with
    | .error e => out.1.ret = e ∧ sent out.2.log = sent w.log
    | .ok n =>
        let ret := (E.xfer (rawXfer n) u.parsed w.env).1.ret
        out.1.ret = (if ret ≠ 0 then ret else u.len) ∧ sent out.2.log = sent w.log ++ [u.parsed] := by
  intro out
  obtain ⟨new, hnew, hout⟩ : ∃ new, OnlyTouches new ∧ out = _ := runOp_rawWrite_eq E P u w
  cases houtcome : u.outcome with
  | error e =>
      rw [hout, houtcome]
      exact ⟨rfl, sent_touches hnew w.log⟩
  | ok n =>
      obtain ⟨hret, -, -, hsent⟩ := run_rawTransfer E 0 n
        ⟨{ w.g with txbuf := w.g.txbuf.store 0 u.parsed }, w.env, new ++ w.log⟩
      dsimp only at hret hsent
      rw [load_parsed houtcome] at hret hsent
      rw [sent_touches hnew] at hsent
      rw [hout, houtcome, rawFinish, Prog.run_bind]
      dsimp only
      rw [← hret]
      exact ⟨rfl, hsent⟩

end GoodixSpi.Kernel
