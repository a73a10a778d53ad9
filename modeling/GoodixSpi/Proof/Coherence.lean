import GoodixSpi.Proof.RawRead

/-!
# When `raw` shows what was received

Five operations let the controller store into `g->rxbuf`. `gxfp_recv` and `gxfp_raw_write` then set `g->rxlen`; the reply bodies of `replay` and the transfers of `cstest` and `padprobe` go into the same buffer and leave `rxlen` as it was, and so does a body read that fails part-way. `received` reads off the log which receive `rxlen` last stood for and whether the buffer was overwritten since. The contract `tracking` follows one operation: it ends with the buffer untouched, with `rxlen` accounting for the last transfer, or with an unaccounted store.
-/

namespace GoodixSpi.Kernel

open Wire Interaction

/-! ### What the log says was received -/

/-- The last value assigned to `rxlen`, the bytes received by the transfer it was assigned for, what the last transfer stored, and whether anything was stored since the assignment. -/
structure Receive where
  len : Nat
  bytes : Bytes
  stored : Bytes
  overwritten : Bool

def Receive.step (s : Receive) : Event → Receive
  | .bus _ .rxbuf _ _ miso => { s with stored := miso, overwritten := s.overwritten || miso ≠ [] }
  | .rxlen n => ⟨n, s.stored.take n, s.stored, false⟩
  | _ => s

def received (log : List Entry) : Receive := log.foldr (fun e s => s.step e.event) ⟨0, [], [], false⟩

/-- What a request adds to that. -/
def Receive.after (s : Receive) (r : Req) (a : Ans r) : Receive :=
  match r, a with
  | .spi x, a => if x.rx = .rxbuf then { s with stored := a.data, overwritten := s.overwritten || a.data ≠ [] } else s
  | .setRxlen n, _ => ⟨n, s.stored.take n, s.stored, false⟩
  | _, _ => s

theorem received_append (tid : Nat) (r : Req) (a : Ans r) (g : Gxfp) (log : List Entry) :
    received ((events r a g).map (Entry.mk tid) ++ log) = (received log).after r a := by
  have htouch (l : List (Buf × Nat × Nat × Nat)) (s : Receive) :
      ((l.map fun acc => Event.touch acc.1 acc.2.1 acc.2.2.1 acc.2.2.2).map (Entry.mk tid)).foldr
        (fun e s => s.step e.event) s = s := by
    induction l with
    | nil => rfl
    | cons acc l ih => exact ih
  rw [received, List.foldr_append, events, List.map_append, List.foldr_append, htouch]
  change List.foldr _ (received log) _ = _
  cases r with
  | spi x =>
      obtain ⟨site, tx, rx, len, speedHz, async⟩ := x
      cases rx <;> rfl
  | _ => rfl

/-! ### One operation -/

/-- The transfers after which `rxlen` is set: the one of a raw write, and a successful body read of `gxfp_recv`. -/
def accounted (site : Site) (ret : Int) : Bool := site = .raw || (site = .recvBody && ret = 0)

/-- A transfer that stored into the receive buffer on a path that leaves `rxlen` alone. -/
def Event.Unaccounted : Event → Prop
  | .bus site .rxbuf _ ret miso => accounted site ret = false ∧ miso ≠ []
  | _ => False

/-- Where an operation stands: it has stored nothing, it has to set `rxlen` for `k` bytes just stored, it has set it, or it has stored bytes it will not account for. -/
inductive RxMode where
  | clean
  | pending (k : Nat)
  | settled
  | lost
  deriving DecidableEq

def RxMode.store (m : RxMode) (site : Site) (ret : Int) (data : Bytes) : RxMode :=
  if accounted site ret then .pending data.length else if data = [] then m else .lost

def tracking : Contract Req Ans RxMode where
  may m r := match r with
    | .spi x => x.rx = .rxbuf → x.len ≤ GXFP_BUF_MAX ∧
        (m = .clean ∨ (m = .lost ∧ x.site ≠ .raw ∧ x.site ≠ .recvBody))
    | .setRxlen n => ∃ k, m = .pending k ∧ n ≤ k
    | _ => True
  rely _ _ _ := True
  next m r a := match r, a with
    | .spi x, a => if x.rx = .rxbuf then m.store x.site a.ret a.data else m
    | .setRxlen _, _ => .settled
    | _, _ => m

theorem tracking_ignoresPlain : IgnoresPlain tracking := by
  intro m r hr
  cases r with
  | spi x => exact absurd hr id
  | setRxlen n => exact absurd hr id
  | _ => exact ⟨trivial, fun _ => rfl⟩

theorem tracking_spi {m : RxMode} {x : Xfer} (hx : x.rx ≠ .rxbuf) : IgnoredAt tracking m (.spi x) :=
  ⟨fun h => absurd h hx, fun _ => if_neg hx⟩

theorem tracking_send {m : RxMode} {Q : RxMode → Int → Prop} (hQ : ∀ ret, Q m ret) : SendSpec tracking m Q :=
  sendSpec_of_ignored (fun _ _ hrx => tracking_spi hrx) hQ

theorem tracking_recv {Q : RxMode → Int → Prop} (hclean : ∀ ret, Q .clean ret) (hsettled : ∀ ret, Q .settled ret)
    (hlost : ∀ ret, Q .lost ret) : RecvSpec tracking .clean Q := by
  have hhdr : IgnoredAt tracking .clean (.spi recvHdrXfer) := tracking_spi (by simp [recvHdrXfer])
  refine ⟨hhdr.1, ?_, ?_⟩
  · intro a ret _ _
    rw [hhdr.2 a]
    exact hclean ret
  · intro a n _ hn _ _ _
    rw [hhdr.2 a]
    refine ⟨fun _ => ⟨hn, Or.inl rfl⟩, ?_⟩
    intro b _
    have hnext : tracking.next .clean (.spi (recvBodyXfer n)) b = RxMode.clean.store .recvBody b.ret b.data := rfl
    rw [hnext]
    constructor
    · intro hret
      rw [RxMode.store, if_neg (by simp [accounted, hret])]
      split
      · exact hclean _
      · exact hlost _
    · intro hret
      rw [RxMode.store, if_pos (by simp [accounted, hret]), b.full rfl hret]
      exact ⟨⟨n, rfl, Nat.le_refl n⟩, trivial, fun _ => hsettled n⟩

theorem tracking_unaccounted {m : RxMode} {x : Xfer} {a : XferAns x} (hraw : x.site ≠ .raw) (hrecv : x.site ≠ .recvBody)
    (hm : m = .clean ∨ m = .lost) :
    tracking.next m (.spi x) a = .clean ∨ tracking.next m (.spi x) a = .lost := by
  have hacc : accounted x.site a.ret = false := by simp [accounted, hraw, hrecv]
  change (if x.rx = .rxbuf then m.store x.site a.ret a.data else m) = .clean ∨
    (if x.rx = .rxbuf then m.store x.site a.ret a.data else m) = .lost
  by_cases hrx : x.rx = .rxbuf
  · rw [if_pos hrx, RxMode.store, hacc, if_neg Bool.false_ne_true]
    by_cases hdata : a.data = []
    · rw [if_pos hdata]
      exact hm
    · rw [if_neg hdata]
      exact Or.inr rfl
  · rw [if_neg hrx]
    exact hm

theorem tracking_may_unaccounted {m : RxMode} {x : Xfer} (hlen : x.len ≤ GXFP_BUF_MAX) (hraw : x.site ≠ .raw)
    (hrecv : x.site ≠ .recvBody) (hm : m = .clean ∨ m = .lost) : tracking.may m (.spi x) := by
  intro _
  exact ⟨hlen, hm.imp id fun h => ⟨h, hraw, hrecv⟩⟩

theorem tracking_replay {m : RxMode} (hm : m = .clean ∨ m = .lost) :
    ReplaySpec tracking m fun m' => m' = .clean ∨ m' = .lost := by
  have hhdr : IgnoredAt tracking m (.spi replayHdrXfer) := tracking_spi (by simp [replayHdrXfer])
  refine ⟨hhdr.1, ?_, ?_⟩
  · intro a _ _
    rw [hhdr.2 a]
    exact hm
  · intro a n _ hn _ _ _
    rw [hhdr.2 a]
    refine ⟨tracking_may_unaccounted hn (by simp [replayBodyXfer]) (by simp [replayBodyXfer]) hm, ?_⟩
    intro b _
    have hnext := tracking_unaccounted (a := b) (by simp [replayBodyXfer]) (by simp [replayBodyXfer]) hm
    exact ⟨fun _ => hnext, fun _ => ⟨trivial, fun _ => hnext⟩⟩

/-- **Each operation** accounts for the last bytes it stored, or ends having lost track. -/
theorem tracking_prog (P : Setup) (op : DebugOp) :
    wp tracking (op.prog P) .clean fun m _ => ∀ k, m ≠ .pending k := by
  have hend : ∀ m : RxMode, m = .clean ∨ m = .lost → ∀ k, m ≠ .pending k := by
    rintro m (rfl | rfl) k <;> simp
  cases op with
  | cmdWrite u =>
      apply wp_gxfpCmdWrite tracking_ignoresPlain (by simp) trivial
      intro _
      apply tracking_send
      intro ret
      refine ⟨fun _ => ⟨trivial, by simp [tracking]⟩, fun _ => ?_⟩
      apply tracking_recv <;> exact fun _ => ⟨trivial, by simp [tracking]⟩
  | rawWrite u =>
      apply wp_gxfpRawWrite (I := fun m n => m = .clean ∧ n ≤ GXFP_BUF_MAX)
      · intro m n b hm hn
        exact ⟨trivial, hm.1, hn⟩
      · exact ⟨rfl, Nat.zero_le _⟩
      · intro m _ hm
        exact hend m (Or.inl hm.1)
      · intro m n hm _
        obtain ⟨rfl, hn⟩ := hm
        apply wp_rawTransfer tracking_ignoresPlain trivial (fun _ => ⟨hn, Or.inl rfl⟩)
        intro a _
        have hnext : tracking.next .clean (.spi (rawXfer n)) a = .pending a.data.length := rfl
        refine ⟨⟨a.data.length, hnext, ?_⟩, trivial, trivial, by simp [tracking]⟩
        by_cases hret : a.ret = 0
        · rw [if_neg (not_not.mpr hret), a.full rfl hret]
          exact Nat.le_refl n
        · rw [if_pos hret]
          exact Nat.zero_le _
  | rawRead len off =>
      apply wp_gxfpRawRead tracking_ignoresPlain trivial trivial
      intro n _
      exact ⟨fun _ _ => ⟨trivial, fun _ => rfl⟩, trivial, by simp [tracking]⟩
  | replay =>
      apply wp_gxfpReplayShow tracking_ignoresPlain (I := fun m => m = .clean ∨ m = .lost) trivial (Or.inl rfl)
      · intro m hm
        exact tracking_send fun _ => ⟨fun _ => hm, fun _ => tracking_replay hm⟩
      · intro m hm
        exact ⟨trivial, hend m hm⟩
  | cstest =>
      apply wp_gxfpCstestShow tracking_ignoresPlain (by simp) trivial
      refine ⟨tracking_may_unaccounted (by simp [cstestXfer, GXFP_BUF_MAX]) (by simp [cstestXfer]) (by simp [cstestXfer])
        (Or.inl rfl), ?_⟩
      intro a _
      refine ⟨trivial, fun _ => hend _ ?_⟩
      exact tracking_unaccounted (a := a) (by simp [cstestXfer]) (by simp [cstestXfer]) (Or.inl rfl)
  | padprobe =>
      apply wp_gxfpPadprobeShow tracking_ignoresPlain (I := fun m => m = .clean ∨ m = .lost) (by simp) trivial (Or.inl rfl)
      intro m hm
      refine ⟨tracking_may_unaccounted (by simp [padprobeXfer, GXFP_BUF_MAX]) (by simp [padprobeXfer])
        (by simp [padprobeXfer]) hm, ?_⟩
      intro a _
      have hnext := tracking_unaccounted (a := a) (by simp [padprobeXfer]) (by simp [padprobeXfer]) hm
      exact ⟨hnext, hend _ hnext⟩
  | _ => exact wp_of_quiet (tracking_ignoresPlain.quiet (plain_aside P (by trivial))) fun _ => by simp

/-! ### One operation and the log -/

variable {ε : Type}

/-- `rxlen` is the last value assigned, and if nothing was stored since, the buffer begins with the bytes received then. -/
structure Known (w : World ε) : Prop where
  len : w.g.rxlen = (received w.log).len
  short : (received w.log).bytes.length ≤ (received w.log).len
  shown : (received w.log).overwritten = false → w.g.rxbuf.load 0 w.g.rxlen = (received w.log).bytes

/-- How a state reached inside an operation compares with the one it started from; `new` is what the operation logged. -/
def Tracks (start : World ε) (m : RxMode) (w : World ε) (new : List Entry) : Prop :=
  match m with
  | .clean => w.g.rxbuf = start.g.rxbuf ∧ w.g.rxlen = start.g.rxlen ∧
      (∃ stored, received w.log = { received start.log with stored := stored }) ∧ ∀ e ∈ new, ¬ e.event.Unaccounted
  | .pending k => (received w.log).stored.length = k ∧ w.g.rxbuf.load 0 k = (received w.log).stored ∧
      ∀ e ∈ new, ¬ e.event.Unaccounted
  | .settled => Known w ∧ (received w.log).overwritten = false ∧ ∀ e ∈ new, ¬ e.event.Unaccounted
  | .lost => w.g.rxlen = start.g.rxlen ∧
      (∃ stored, received w.log = { received start.log with stored := stored, overwritten := true }) ∧
      ∃ e ∈ new, e.event.Unaccounted

def TracksFrom (start : World ε) (m : RxMode) (w : World ε) : Prop :=
  ∃ new, w.log = new ++ start.log ∧ Tracks start m w new

/-- The request is a transfer that stores on a path that leaves `rxlen` alone. -/
def Unaccounts (r : Req) (a : Ans r) : Prop :=
  match r, a with
  | .spi x, a => x.rx = .rxbuf ∧ accounted x.site a.ret = false ∧ a.data ≠ []
  | _, _ => False

theorem exists_unaccounted_events {r : Req} {a : Ans r} {g : Gxfp} :
    (∃ ev ∈ events r a g, ev.Unaccounted) ↔ Unaccounts r a := by
  have htouch (l : List (Buf × Nat × Nat × Nat)) :
      ¬ ∃ ev ∈ l.map fun acc => Event.touch acc.1 acc.2.1 acc.2.2.1 acc.2.2.2, ev.Unaccounted := by
    rintro ⟨ev, hev, hun⟩
    obtain ⟨acc, -, rfl⟩ := List.mem_map.mp hev
    exact hun
  have hrecord : (∃ ev ∈ events r a g, ev.Unaccounted) ↔ ∃ ev ∈ record r a g, ev.Unaccounted := by
    simp only [events, List.mem_append, or_and_right, exists_or]
    exact or_iff_left (htouch _)
  rw [hrecord]
  cases r with
  | spi x =>
      obtain ⟨site, tx, rx, len, speedHz, async⟩ := x
      cases rx <;> simp [record, Event.Unaccounted, Unaccounts]
  | _ => simp [record, Event.Unaccounted, Unaccounts]

section Step

variable {start w : World ε} {m : RxMode} {new : List Entry} (E : Env ε) (tid : Nat)

theorem not_unaccounted_of_mem {r : Req} {a : Ans r} {g : Gxfp} (hr : ¬ Unaccounts r a) :
    ∀ e ∈ (events r a g).map (Entry.mk tid), ¬ e.event.Unaccounted := by
  intro e he hun
  obtain ⟨ev, hev, rfl⟩ := List.mem_map.mp he
  exact hr (exists_unaccounted_events.mp ⟨ev, hev, hun⟩)

theorem forall_not_unaccounted {r : Req} {a : Ans r} {g : Gxfp} (hr : ¬ Unaccounts r a)
    (hnew : ∀ e ∈ new, ¬ e.event.Unaccounted) :
    ∀ e ∈ (events r a g).map (Entry.mk tid) ++ new, ¬ e.event.Unaccounted := by
  intro e he
  rcases List.mem_append.mp he with he | he
  · exact not_unaccounted_of_mem tid hr e he
  · exact hnew e he

theorem exists_unaccounted {r : Req} {a : Ans r} {g : Gxfp} (hr : Unaccounts r a) :
    ∃ e ∈ (events r a g).map (Entry.mk tid) ++ new, e.event.Unaccounted := by
  obtain ⟨ev, hev, hun⟩ := (exists_unaccounted_events (g := g)).mpr hr
  exact ⟨⟨tid, ev⟩, List.mem_append_left _ (List.mem_map_of_mem hev), hun⟩

theorem Tracks.unchanged (h : Tracks start m w new) {w' : World ε} {more : List Entry}
    (hbuf : w'.g.rxbuf = w.g.rxbuf) (hlen : w'.g.rxlen = w.g.rxlen) (hrecv : received w'.log = received w.log)
    (hmore : ∀ e ∈ more, ¬ e.event.Unaccounted) : Tracks start m w' (more ++ new) := by
  have hall (hnew : ∀ e ∈ new, ¬ e.event.Unaccounted) : ∀ e ∈ more ++ new, ¬ e.event.Unaccounted := by
    intro e he
    rcases List.mem_append.mp he with he | he
    · exact hmore e he
    · exact hnew e he
  cases m with
  | clean =>
      obtain ⟨hbuf', hlen', hstored, hnew⟩ := h
      exact ⟨hbuf.trans hbuf', hlen.trans hlen', hrecv ▸ hstored, hall hnew⟩
  | pending k =>
      obtain ⟨hk, hload, hnew⟩ := h
      exact ⟨hrecv ▸ hk, by rw [hbuf, hrecv, hload], hall hnew⟩
  | settled =>
      obtain ⟨hknown, hover, hnew⟩ := h
      refine ⟨⟨by rw [hlen, hrecv, hknown.len], hrecv ▸ hknown.short, ?_⟩, hrecv ▸ hover, hall hnew⟩
      rw [hbuf, hlen, hrecv]
      exact hknown.shown
  | lost =>
      obtain ⟨hlen', hstored, e, he, hun⟩ := h
      exact ⟨hlen.trans hlen', hrecv ▸ hstored, e, List.mem_append_right _ he, hun⟩

theorem Tracks.store (h : Tracks start m w new) {x : Xfer} {a : XferAns x} (hrx : x.rx = .rxbuf)
    (hlen : x.len ≤ GXFP_BUF_MAX) (hm : m = .clean ∨ (m = .lost ∧ x.site ≠ .raw ∧ x.site ≠ .recvBody)) {w' : World ε}
    (hbuf' : w'.g.rxbuf = w.g.rxbuf.store 0 a.data) (hlen' : w'.g.rxlen = w.g.rxlen)
    (hrecv : received w'.log = (received w.log).after (.spi x) a) {g : Gxfp} :
    Tracks start (m.store x.site a.ret a.data) w' ((events (.spi x) a g).map (Entry.mk tid) ++ new) := by
  have hafter : received w'.log =
      { received w.log with stored := a.data, overwritten := (received w.log).overwritten || a.data ≠ [] } :=
    hrecv.trans (if_pos hrx)
  have hfits : 0 + a.data.length ≤ GXFP_BUF_MAX := by
    have := a.short
    omega
  have hquiet : accounted x.site a.ret = true ∨ a.data = [] → ¬ Unaccounts (.spi x) a := by
    rintro hor ⟨-, hacc, hdata⟩
    rcases hor with h | h
    · exact absurd (hacc.symm.trans h) Bool.false_ne_true
    · exact hdata h
  by_cases hacc : accounted x.site a.ret = true
  · rw [RxMode.store, if_pos hacc]
    rcases hm with rfl | ⟨rfl, hraw, hsite⟩
    · obtain ⟨-, -, -, hnew⟩ := h
      refine ⟨by rw [hafter], ?_, forall_not_unaccounted tid (hquiet (Or.inl hacc)) hnew⟩
      rw [hbuf', hafter]
      exact Buffer.load_store hfits
    · simp [accounted, hraw, hsite] at hacc
  · rw [RxMode.store, if_neg hacc]
    by_cases hdata : a.data = []
    · -- nothing was stored, so the transfer is as good as none
      rw [if_pos hdata]
      have hsame : w'.g.rxbuf = w.g.rxbuf := by rw [hbuf', hdata, Buffer.store_nil]
      rcases hm with rfl | ⟨rfl, -, -⟩
      · obtain ⟨hbuf, hlen₀, ⟨stored, hstored⟩, hnew⟩ := h
        refine ⟨hsame.trans hbuf, hlen'.trans hlen₀, ⟨[], ?_⟩, forall_not_unaccounted tid (hquiet (Or.inr hdata)) hnew⟩
        rw [hafter, hstored, hdata]
        simp
      · obtain ⟨hlen₀, ⟨stored, hstored⟩, e, he, hun⟩ := h
        refine ⟨hlen'.trans hlen₀, ⟨[], ?_⟩, e, List.mem_append_right _ he, hun⟩
        rw [hafter, hstored, hdata]
        simp
    · rw [if_neg hdata]
      have hun : Unaccounts (.spi x) a := ⟨hrx, Bool.eq_false_iff.mpr hacc, hdata⟩
      have hlost : w.g.rxlen = start.g.rxlen ∧ ∃ stored overwritten,
          received w.log = { received start.log with stored := stored, overwritten := overwritten } := by
        rcases hm with rfl | ⟨rfl, -, -⟩
        · obtain ⟨-, hlen₀, ⟨stored, hstored⟩, -⟩ := h
          exact ⟨hlen₀, stored, _, hstored⟩
        · obtain ⟨hlen₀, ⟨stored, hstored⟩, -⟩ := h
          exact ⟨hlen₀, stored, true, hstored⟩
      obtain ⟨hlen₀, stored, overwritten, hstored⟩ := hlost
      refine ⟨hlen'.trans hlen₀, ⟨a.data, ?_⟩, exists_unaccounted tid hun⟩
      rw [hafter, hstored]
      simp [hdata]

theorem TracksFrom.handle (h : TracksFrom start m w) {r : Req} (hmay : tracking.may m r) :
    TracksFrom start (tracking.next m r (handle E tid r w).1) (handle E tid r w).2 := by
  obtain ⟨new, hlog, htracks⟩ := h
  have hrecv := received_append tid r (answer E r w.g w.env).1 w.g w.log
  refine ⟨(events r (answer E r w.g w.env).1 w.g).map (Entry.mk tid) ++ new, ?_, ?_⟩
  · rw [handle_log, hlog, List.append_assoc]
  · cases r with
    | spi x =>
        by_cases hrx : x.rx = .rxbuf
        · obtain ⟨hlen, hm⟩ := hmay hrx
          have hnext : tracking.next m (.spi x) (answer E (.spi x) w.g w.env).1 =
              m.store x.site (answer E (.spi x) w.g w.env).1.ret (answer E (.spi x) w.g w.env).1.data := if_pos hrx
          rw [handle_fst, hnext]
          apply htracks.store tid hrx hlen hm _ _ hrecv
          · rw [handle_g, update, if_pos hrx]
          · rw [handle_g, update, if_pos hrx]
        · have hnext : tracking.next m (.spi x) (answer E (.spi x) w.g w.env).1 = m := if_neg hrx
          rw [handle_fst, hnext]
          have hun : ¬ Unaccounts (.spi x) (answer E (.spi x) w.g w.env).1 := fun hun => hrx hun.1
          apply htracks.unchanged _ _ _ (not_unaccounted_of_mem tid hun)
          · rw [handle_g, update, if_neg hrx]
          · rw [handle_g, update, if_neg hrx]
          · exact hrecv.trans (if_neg hrx)
    | setRxlen n =>
        obtain ⟨k, rfl, hn⟩ := hmay
        obtain ⟨hk, hload, hnew⟩ := htracks
        have hafter : received (Kernel.handle E tid (.setRxlen n) w).2.log =
            ⟨n, (received w.log).stored.take n, (received w.log).stored, false⟩ := hrecv
        refine ⟨⟨by rw [hafter]; rfl, ?_, ?_⟩, by rw [hafter], forall_not_unaccounted tid id hnew⟩
        · rw [hafter]
          exact List.length_take_le _ _
        · intro _
          rw [hafter]
          change w.g.rxbuf.load 0 n = (received w.log).stored.take n
          rw [← hload, Buffer.load_zero, Buffer.load_zero, List.take_take, Nat.min_eq_left hn]
    | _ => exact htracks.unchanged rfl rfl hrecv (not_unaccounted_of_mem tid id)

end Step

theorem runOp_tracks (E : Env ε) (P : Setup) (op : DebugOp) (w : World ε) :
    ∃ m, (∀ k, m ≠ .pending k) ∧ TracksFrom w m (runOp E P op w).2 := by
  have hstep : ∀ m s r, TracksFrom w m s → tracking.may m r →
      tracking.rely m r (handle E 0 r s).1 ∧ TracksFrom w (tracking.next m r (handle E 0 r s).1) (handle E 0 r s).2 :=
    fun m s r h hmay => ⟨trivial, h.handle E 0 hmay⟩
  have hstart : TracksFrom w .clean w :=
    ⟨[], rfl, rfl, rfl, ⟨_, rfl⟩, fun _ he => absurd he (List.not_mem_nil)⟩
  obtain ⟨m, htracks, hend⟩ := wp_run hstep (tracking_prog P op) hstart
  exact ⟨m, hend, htracks⟩

/-! ### Runs -/

def logged (E : Env ε) (P : Setup) (op : DebugOp) (w : World ε) : List Entry :=
  (runOp E P op w).2.log.take ((runOp E P op w).2.log.length - w.log.length)

/-- A following `raw` read prints the receive that set `rxlen`, and nothing has overwritten it. -/
structure Coherent (E : Env ε) (P : Setup) (w : World ε) : Prop where
  printed : ∀ len off, (runOp E P (.rawRead len off) w).1.ret = -ENOMEM ∨
    (runOp E P (.rawRead len off) w).1.out = slice (hexDump (received w.log).bytes) off (off + len)
  kept : w.g.rxlen ≠ 0 → (received w.log).overwritten = false

/-- `rxlen` is zero, or every transfer of the operation that stores bytes is one after which the code sets `rxlen`: no reply body read by `replay`, no transfer of `cstest` or `padprobe`, no body read that fails part-way. -/
def Accounts (E : Env ε) (P : Setup) (op : DebugOp) (w : World ε) : Prop :=
  w.g.rxlen = 0 ∨ ∀ e ∈ logged E P op w, ¬ e.event.Unaccounted

def Always (E : Env ε) (P : Setup) (C : World ε → Prop) : List DebugOp → World ε → Prop
  | [], w => C w
  | op :: ops, w => C w ∧ Always E P C ops (runOp E P op w).2

/-- A property of every step of a run and the state it starts from. -/
def EachStep (E : Env ε) (P : Setup) (S : DebugOp → World ε → Prop) : List DebugOp → World ε → Prop
  | [], _ => True
  | op :: ops, w => S op w ∧ EachStep E P S ops (runOp E P op w).2

theorem logged_eq (E : Env ε) (P : Setup) (op : DebugOp) (w : World ε) {new : List Entry}
    (h : (runOp E P op w).2.log = new ++ w.log) : logged E P op w = new := by
  rw [logged, h, List.length_append, Nat.add_sub_cancel, List.take_left]

/-- Once `rxlen` is known to stand for the last receive, the two halves of coherence are one. -/
theorem coherent_iff_kept (E : Env ε) (P : Setup) {w : World ε} (hknown : Known w) (hsafe : IndexSafe w) :
    Coherent E P w ↔ (w.g.rxlen ≠ 0 → (received w.log).overwritten = false) := by
  refine ⟨Coherent.kept, fun hkept => ⟨?_, hkept⟩⟩
  have hshown : w.g.rxbuf.load 0 w.g.rxlen = (received w.log).bytes := by
    by_cases hzero : w.g.rxlen = 0
    · have hshort := hknown.short
      rw [← hknown.len, hzero] at hshort
      rw [hzero, Buffer.load_zero_len, List.eq_nil_of_length_eq_zero (Nat.le_zero.mp hshort)]
    · exact hknown.shown (hkept hzero)
  intro len off
  rw [← hshown]
  obtain ⟨hread, -⟩ := runOp_rawRead E P w len off hsafe.rxlen
  exact hread.imp (fun h => congrArg OpResult.ret h.2) (congrArg OpResult.out)

/-- One operation keeps `rxlen` known, and keeps the buffer coherent exactly when it accounts for what it stores. -/
theorem coherent_step (E : Env ε) (P : Setup) (op : DebugOp) {w : World ε} (hknown : Known w) (hsafe : IndexSafe w)
    (hw : Coherent E P w) :
    Known (runOp E P op w).2 ∧ (Coherent E P (runOp E P op w).2 ↔ Accounts E P op w) := by
  obtain ⟨m, hend, new, hlog, htracks⟩ := runOp_tracks E P op w
  have hlogged := logged_eq E P op w hlog
  have hknown' : Known (runOp E P op w).2 := by
    cases m with
    | clean =>
        obtain ⟨hbuf, hlen, ⟨stored, hrecv⟩, -⟩ := htracks
        refine ⟨by rw [hlen, hrecv, hknown.len], by rw [hrecv]; exact hknown.short, ?_⟩
        rw [hbuf, hlen, hrecv]
        exact hknown.shown
    | pending k => exact absurd rfl (hend k)
    | settled => exact htracks.1
    | lost =>
        obtain ⟨hlen, ⟨stored, hrecv⟩, -⟩ := htracks
        refine ⟨by rw [hlen, hrecv, hknown.len], by rw [hrecv]; exact hknown.short, ?_⟩
        rw [hrecv]
        intro hover
        exact absurd hover (by simp)
  refine ⟨hknown', ?_⟩
  rw [coherent_iff_kept E P hknown' (hsafe.runOp E P op), Accounts, hlogged]
  cases m with
  | clean =>
      obtain ⟨-, hlen, ⟨stored, hrecv⟩, hnew⟩ := htracks
      refine ⟨fun _ => Or.inr hnew, fun _ => ?_⟩
      rw [hlen, hrecv]
      exact hw.kept
  | pending k => exact absurd rfl (hend k)
  | settled =>
      obtain ⟨-, hover, hnew⟩ := htracks
      exact ⟨fun _ => Or.inr hnew, fun _ _ => hover⟩
  | lost =>
      obtain ⟨hlen, ⟨stored, hrecv⟩, e, he, hun⟩ := htracks
      rw [hlen, hrecv]
      constructor
      · intro hkept
        by_contra hnot
        exact absurd (hkept fun hzero => hnot (Or.inl hzero)) (by simp)
      · rintro (hzero | hnew)
        · exact fun hne => absurd hzero hne
        · exact absurd hun (hnew e he)

theorem coherent_run (E : Env ε) (P : Setup) (ops : List DebugOp) {w : World ε} (hknown : Known w) (hsafe : IndexSafe w)
    (hw : Coherent E P w) : Always E P (Coherent E P) ops w ↔ EachStep E P (Accounts E P) ops w := by
  induction ops generalizing w with
  | nil => exact ⟨fun _ => trivial, fun _ => hw⟩
  | cons op ops ih =>
      obtain ⟨hknown', hstep⟩ := coherent_step E P op hknown hsafe hw
      have hrest (hw' : Coherent E P (runOp E P op w).2) := ih hknown' (hsafe.runOp E P op) hw'
      constructor
      · rintro ⟨-, halways⟩
        have hw' : Coherent E P (runOp E P op w).2 := by
          cases ops with
          | nil => exact halways
          | cons _ _ => exact halways.1
        exact ⟨hstep.mp hw', (hrest hw').mp halways⟩
      · rintro ⟨haccounts, heach⟩
        exact ⟨hw, (hrest (hstep.mpr haccounts)).mpr heach⟩

theorem known_probed (e : ε) : Known (probed e) := ⟨rfl, Nat.le_refl 0, fun _ => Buffer.load_zero_len _ 0⟩

/-- **Receive-buffer coherence.** Over every run from probe, whatever is written and whatever the sensor and the SPI core answer: the buffer is coherent in every state reached exactly when every step accounts for what it stores. -/
theorem receive_coherent_iff (E : Env ε) (P : Setup) (e : ε) (ops : List DebugOp) :
    Always E P (Coherent E P) ops (probed e) ↔ EachStep E P (Accounts E P) ops (probed e) := by
  apply coherent_run E P ops (known_probed e) (indexSafe_probed e)
  rw [coherent_iff_kept E P (known_probed e) (indexSafe_probed e)]
  exact fun hne => absurd rfl hne

/-- A sensor that answers a raw transfer with `55` and clocks out `aa` otherwise. -/
def chatty : Env Unit where
  kmalloc _ e := (true, e)
  ioremap _ e := (true, e)
  readl _ e := (0, e)
  writel _ _ e := e
  sleep _ e := e
  irqLevel e := (false, e)
  xfer x _ e := (⟨0, List.replicate x.len (if x.site = .raw then 0x55 else 0xAA), by simp, by simp, by simp⟩, e)

def oneByte : UserBuf := .text [0x30, 0x30]

/-- One byte is received as `55`, `cstest` overwrites it, and `raw` prints `aa`. -/
theorem cstest_overwrites_received :
    (runOps chatty {} [.rawWrite oneByte, .cstest, .rawRead 64 0] (probed ())).1.map OpResult.out =
        [[], [], [0x61, 0x61, 0x20, 0x0A]] ∧
      (received (runOps chatty {} [.rawWrite oneByte, .cstest] (probed ())).2.log).bytes = [0x55] ∧
      ¬ Always chatty {} (Coherent chatty {}) [.rawWrite oneByte, .cstest] (probed ()) := by
  refine ⟨by decide +kernel, by decide +kernel, ?_⟩
  intro halways
  exact absurd (halways.2.2.kept (by decide +kernel)) (by decide +kernel)

end GoodixSpi.Kernel
