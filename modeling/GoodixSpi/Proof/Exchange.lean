import GoodixSpi.Lib.Interleave
import GoodixSpi.Proof.Specs
import Mathlib.Data.List.Chain

/-!
# Framed exchanges on a shared bus

Every file operation that sends a frame holds `g->lock` from the frame's header to the last transfer of the answer, and `raw` holds it for its one transfer. `cstest` and `padprobe` submit theirs without it, so one of them can fall into the gap between a frame's header and its body. That is the only way: the contract `serial` states the discipline of one operation, whatever the others do, and in an interleaving of operations that keep it an exchange is torn only by an asynchronous submission in its middle.
-/

namespace GoodixSpi.Kernel

open Wire Interaction

/-! ### The bus -/

/-- The transfers that go on with a framed exchange; `frameHdr` begins one. -/
def Site.continues : Site → Bool
  | .frameBody | .recvHdr | .recvBody | .replayHdr | .replayBody => true
  | _ => false

def Site.framed (site : Site) : Bool := site = .frameHdr || site.continues

/-- A transfer on the bus: the operation that submitted it, and where. -/
structure Transfer where
  tid : Nat
  site : Site
  deriving DecidableEq, Repr

def Entry.transfer? (e : Entry) : Option Transfer :=
  match e.event with
  | .bus site _ _ _ _ => some ⟨e.tid, site⟩
  | _ => none

def transfers (log : List Entry) : List Transfer := (log.filterMap Entry.transfer?).reverse

/-- `b` belongs to the framed exchange of `a`, where `mid` is what the bus carried in between: `b` goes on with the exchange, and so does all that the same operation submitted since `a`. -/
def SameExchange (a : Transfer) (mid : List Transfer) (b : Transfer) : Prop :=
  a.site.framed = true ∧ b.tid = a.tid ∧ b.site.continues = true ∧
    ∀ x ∈ mid, x.tid = a.tid → x.site.continues = true

/-- No other operation's transfer falls between two transfers of one framed exchange. -/
def Contiguous (bus : List Transfer) : Prop :=
  ∀ pre mid post a b, bus = pre ++ a :: (mid ++ b :: post) → SameExchange a mid b → ∀ x ∈ mid, x.tid = a.tid

/-- A transfer that goes on with an exchange comes right after one of the same operation. -/
def Follows (x y : Transfer) : Prop := y.site.continues = true → x.tid = y.tid

theorem SameExchange.of_isChain {a : Transfer} {mid : List Transfer} {b : Transfer} (h : SameExchange a mid b)
    (hchain : (a :: mid ++ [b]).IsChain Follows) : ∀ x ∈ mid, x.tid = a.tid := by
  induction mid using List.reverseRecOn generalizing b with
  | nil => exact fun x hx => absurd hx List.not_mem_nil
  | append_singleton mid y ih =>
      obtain ⟨hframed, htid, hcontinues, hmid⟩ := h
      have hsplit : a :: (mid ++ [y]) ++ [b] = a :: mid ++ y :: b :: [] := by simp
      rw [hsplit, List.isChain_append_cons_cons] at hchain
      obtain ⟨hbefore, hyb, -⟩ := hchain
      have hy : y.tid = a.tid := (hyb hcontinues).trans htid
      have hsame : SameExchange a mid y := by
        refine ⟨hframed, hy, hmid y (by simp) hy, ?_⟩
        intro x hx
        exact hmid x (List.mem_append_left _ hx)
      intro x hx
      rcases List.mem_append.mp hx with hx | hx
      · exact ih hsame hbefore x hx
      · rw [List.mem_singleton.mp hx]
        exact hy

theorem contiguous_of_isChain {bus : List Transfer} (hchain : bus.IsChain Follows) : Contiguous bus := by
  intro pre mid post a b hbus hsame
  have hsplit : bus = pre ++ (a :: mid ++ [b] ++ post) := by
    rw [hbus]
    simp
  rw [hsplit] at hchain
  exact hsame.of_isChain hchain.right_of_append.left_of_append

/-- What a request of one operation puts on the bus. -/
def submitted (tid : Nat) (r : Req) : List Transfer :=
  match r with
  | .spi x => [⟨tid, x.site⟩]
  | _ => []

theorem transfers_handle {ε : Type} (E : Env ε) (tid : Nat) (r : Req) (w : World ε) :
    transfers (handle E tid r w).2.log = transfers w.log ++ submitted tid r := by
  rw [handle_log, transfers, List.filterMap_append, List.reverse_append, ← transfers,
    filterMap_events fun _ _ _ _ _ => rfl]
  cases r <;> rfl

/-! ### The discipline of one operation -/

/-- After this transfer the operation goes on with its exchange: a part of a frame that was written, or a header read that announces a body. -/
def opens (site : Site) (ret : Int) (miso : Bytes) : Bool :=
  match site with
  | .frameHdr | .frameBody => ret = 0
  | .recvHdr | .replayHdr => AnnouncesBody ret miso
  | _ => false

/-- Where an operation stands: without the mutex, with it, or with it and in the middle of an exchange. -/
inductive Turn where
  | free
  | held
  | mid
  deriving DecidableEq, Repr

/-- The contract of the operations: the mutex is taken and released in turn, and not released in the middle of an exchange; a synchronous transfer is submitted under it, and goes on with an exchange exactly when the operation is in the middle of one; an asynchronous one is no part of an exchange. -/
def serial : Contract Req Ans Turn where
  may m r := match r with
    | .lock => m = .free
    | .unlock => m = .held
    | .spi x =>
        if x.async then m = .free ∧ x.site.framed = false
        else m = if x.site.continues then .mid else .held
    | _ => True
  rely _ _ _ := True
  next m r a := match r, a with
    | .lock, _ => .held
    | .unlock, _ => .free
    | .spi x, a => if x.async then m else if opens x.site a.ret a.data then .mid else .held
    | _, _ => m

theorem serial_ignoresPlain : IgnoresPlain serial := by
  intro m r hr
  cases r with
  | lock => exact absurd hr id
  | unlock => exact absurd hr id
  | spi x => exact absurd hr id
  | _ => exact ⟨trivial, fun _ => rfl⟩

theorem serial_next_spi (m : Turn) (x : Xfer) (a : XferAns x) :
    serial.next m (.spi x) a = if x.async then m else if opens x.site a.ret a.data then .mid else .held := rfl

theorem serial_next_opens {m : Turn} {x : Xfer} {a : XferAns x} (hsync : x.async = false)
    (hopens : opens x.site a.ret a.data = true) : serial.next m (.spi x) a = .mid := by
  rw [serial_next_spi, hsync, hopens]
  rfl

theorem serial_next_closes {m : Turn} {x : Xfer} {a : XferAns x} (hsync : x.async = false)
    (hopens : opens x.site a.ret a.data = false) : serial.next m (.spi x) a = .held := by
  rw [serial_next_spi, hsync, hopens]
  rfl

theorem serial_may_spi (m : Turn) (x : Xfer) :
    serial.may m (.spi x) ↔
      if x.async then m = .free ∧ x.site.framed = false else m = if x.site.continues then .mid else .held := Iff.rfl

theorem serial_may_sync {m : Turn} {x : Xfer} (hmay : serial.may m (.spi x)) (hsync : x.async = false) :
    m = if x.site.continues then .mid else .held := by
  rwa [serial_may_spi, hsync, if_neg Bool.false_ne_true] at hmay

theorem serial_may_async {m : Turn} {x : Xfer} (hmay : serial.may m (.spi x)) (hasync : x.async = true) :
    m = .free ∧ x.site.framed = false := by
  rwa [serial_may_spi, hasync, if_pos rfl] at hmay

theorem serial_send {Q : Turn → Int → Prop} (hfailed : ∀ ret, ret ≠ 0 → Q .held ret) (hsent : Q .mid 0) :
    SendSpec serial .held Q where
  refused _ _ := hfailed _ (by decide)
  hdr _ _ := rfl
  failed n a _ hret := by
    have hnext : serial.next .held (.spi (frameHdrXfer (Tools.spiHeader n))) a = .held :=
      serial_next_closes rfl (decide_eq_false hret)
    rw [hnext]
    exact hfailed _ hret
  body body a _ _ hret := by
    have hnext : serial.next .held (.spi (frameHdrXfer (Tools.spiHeader body.length))) a = .mid :=
      serial_next_opens rfl (decide_eq_true hret)
    dsimp only
    rw [hnext]
    refine ⟨rfl, ?_⟩
    intro b _
    by_cases hret' : b.ret = 0
    · have hnext' : serial.next .mid (.spi (frameBodyXfer body body.length)) b = .mid :=
        serial_next_opens rfl (decide_eq_true hret')
      rw [hnext', hret']
      exact hsent
    · have hnext' : serial.next .mid (.spi (frameBodyXfer body body.length)) b = .held :=
        serial_next_closes rfl (decide_eq_false hret')
      rw [hnext']
      exact hfailed _ hret'

theorem serial_recv {Q : Turn → Int → Prop} (hQ : ∀ ret, Q .held ret) : RecvSpec serial .mid Q where
  hdr := rfl
  stopped a ret hstop _ := by
    have hnext : serial.next .mid (.spi recvHdrXfer) a = .held := serial_next_closes rfl (decide_eq_false hstop)
    rw [hnext]
    exact hQ ret
  body a n hpos hn hlen _ hret := by
    have hbody : AnnouncesBody a.ret a.data := ⟨hret, by omega, by omega⟩
    have hnext : serial.next .mid (.spi recvHdrXfer) a = .mid := serial_next_opens rfl (decide_eq_true hbody)
    rw [hnext]
    exact ⟨rfl, fun _ _ => ⟨fun _ => hQ _, fun _ => ⟨trivial, trivial, fun _ => hQ _⟩⟩⟩

theorem serial_replay {Q : Turn → Prop} (hQ : Q .held) : ReplaySpec serial .mid Q where
  hdr := rfl
  stopped a hstop _ := by
    have hnext : serial.next .mid (.spi replayHdrXfer) a = .held := serial_next_closes rfl (decide_eq_false hstop)
    rw [hnext]
    exact hQ
  body a n hpos hn hlen _ hret := by
    have hbody : AnnouncesBody a.ret a.data := ⟨hret, by omega, by omega⟩
    have hnext : serial.next .mid (.spi replayHdrXfer) a = .mid := serial_next_opens rfl (decide_eq_true hbody)
    rw [hnext]
    exact ⟨rfl, fun _ _ => ⟨fun _ => hQ, fun _ => ⟨trivial, fun _ => hQ⟩⟩⟩

/-- **Each operation** keeps the discipline, and ends without the mutex. -/
theorem serial_prog (P : Setup) (op : DebugOp) : wp serial (op.prog P) .free fun m _ => m = .free := by
  cases op with
  | cmdWrite u =>
      apply wp_gxfpCmdWrite serial_ignoresPlain (Q := fun m => m = .free) (fun _ => rfl) rfl
      intro _
      apply serial_send
      · intro ret hret
        exact ⟨fun _ => ⟨rfl, rfl⟩, fun hzero => absurd hzero hret⟩
      · exact ⟨fun hret => absurd rfl hret, fun _ => serial_recv fun _ => ⟨rfl, rfl⟩⟩
  | rawWrite u =>
      apply wp_gxfpRawWrite (I := fun m _ => m = .free)
      · intro m n b hm _
        exact ⟨trivial, hm⟩
      · rfl
      · intro _ _ hm
        exact hm
      · intro m n hm _
        subst hm
        apply wp_rawTransfer serial_ignoresPlain rfl rfl
        intro a _
        exact ⟨trivial, rfl, trivial, fun _ => rfl⟩
  | rawRead len off =>
      apply wp_gxfpRawRead serial_ignoresPlain rfl trivial
      intro n _
      exact ⟨fun _ _ => ⟨trivial, fun _ => rfl⟩, rfl, rfl⟩
  | replay =>
      apply wp_gxfpReplayShow serial_ignoresPlain (I := fun m => m = .held) rfl rfl
      · intro m hm
        subst hm
        apply serial_send
        · intro ret hret
          exact ⟨fun _ => rfl, fun hzero => absurd hzero hret⟩
        · exact ⟨fun hret => absurd rfl hret, fun _ => serial_replay rfl⟩
      · intro m hm
        exact ⟨hm, rfl⟩
  | cstest =>
      apply wp_gxfpCstestShow serial_ignoresPlain (Q := fun m => m = .free) rfl trivial
      exact ⟨⟨rfl, rfl⟩, fun _ _ => ⟨trivial, fun _ => rfl⟩⟩
  | padprobe =>
      apply wp_gxfpPadprobeShow serial_ignoresPlain (Q := fun m => m = .free) (I := fun m => m = .free) rfl trivial rfl
      intro m hm
      subst hm
      exact ⟨⟨rfl, rfl⟩, fun _ _ => ⟨rfl, rfl⟩⟩
  | _ => exact wp_of_quiet (serial_ignoresPlain.quiet (plain_aside P (by trivial))) fun _ => rfl

/-! ### Operations running at once -/

/-- An operation is in the middle of an exchange: its last transfer was one that opens more of it. -/
def midExchange (tid : Nat) : List Entry → Bool
  | [] => false
  | ⟨t, .bus site _ _ ret miso⟩ :: log => if t = tid then opens site ret miso else midExchange tid log
  | _ :: log => midExchange tid log

variable {ε : Type}

theorem midExchange_spi (E : Env ε) (i j : Nat) (x : Xfer) (w : World ε) :
    midExchange j (handle E i (.spi x) w).2.log =
      if i = j then opens x.site (handle E i (.spi x) w).1.ret (handle E i (.spi x) w).1.data
      else midExchange j w.log := by
  have htouch (l : List (Buf × Nat × Nat × Nat)) :
      midExchange j ((l.map fun acc => Event.touch acc.1 acc.2.1 acc.2.2.1 acc.2.2.2).map (Entry.mk i) ++ w.log) =
        midExchange j w.log := by
    induction l with
    | nil => rfl
    | cons acc l ih => exact ih
  show (if i = j then _ else midExchange j (((accesses (.spi x)).map _).map (Entry.mk i) ++ w.log)) = _
  rw [htouch]
  rfl

def kernel (E : Env ε) : Shared Req Ans (World ε) := ⟨handle E, enabled⟩

theorem update_lock (tid : Nat) {r : Req} (a : Ans r) (g : Gxfp) (hlock : r ≠ .lock) (hunlock : r ≠ .unlock) :
    (update tid r a g).lock = g.lock := by
  cases r with
  | lock => exact absurd rfl hlock
  | unlock => exact absurd rfl hunlock
  | spi x =>
      rw [update]
      split <;> rfl
  | _ => rfl

/-- The modes of a contract tell who holds the mutex: only a holder releases it, and only `lock` makes one. -/
structure Locks {M : Type} (C : Contract Req Ans M) (holds : M → Prop) : Prop where
  unlock : ∀ m, C.may m .unlock → holds m
  released : ∀ m a, ¬ holds (C.next m .unlock a)
  kept : ∀ m r a, C.may m r → r ≠ .lock → r ≠ .unlock → holds (C.next m r a) → holds m

theorem Locks.reply {M : Type} {C : Contract Req Ans M} {holds : M → Prop} (hC : Locks C holds) {mode : Nat → M}
    {w : World ε} (h : ∀ j, holds (mode j) → w.g.lock = some j) {i : Nat} {r : Req} (hmay : C.may (mode i) r)
    (hready : enabled r w = true) (a : Ans r) :
    ∀ j, holds (Function.update mode i (C.next (mode i) r a) j) → (update i r a w.g).lock = some j := by
  intro j hj
  by_cases hij : j = i
  · subst hij
    rw [Function.update_self] at hj
    by_cases hlock : r = .lock
    · subst hlock
      rfl
    · by_cases hunlock : r = .unlock
      · subst hunlock
        exact absurd hj (hC.released _ a)
      · rw [update_lock j a _ hlock hunlock]
        exact h j (hC.kept _ r a hmay hlock hunlock hj)
  · rw [Function.update_of_ne hij] at hj
    have hheld := h j hj
    by_cases hlock : r = .lock
    · subst hlock
      rw [enabled, hheld] at hready
      exact absurd hready (by simp)
    · by_cases hunlock : r = .unlock
      · subst hunlock
        have hboth := hheld.symm.trans (h i (hC.unlock _ hmay))
        exact absurd (Option.some.inj hboth) hij
      · rw [update_lock i a _ hlock hunlock]
        exact hheld

def launch (P : Setup) (ops : List DebugOp) (g : Gxfp) (e : ε) : Threads Req Ans OpResult (World ε) :=
  ⟨⟨{ g with lock := none }, e, []⟩, ops.map (·.prog P)⟩

def submitsAsync {α : Type} (i : Nat) (s : Threads Req Ans α (World ε)) : Bool :=
  match s.progs[i]? with
  | some (.ask (.spi x) _) => x.async
  | _ => false

/-- Thread `i` is not about to submit an asynchronous transfer in the middle of another operation's exchange. -/
def Undisturbed {α : Type} (i : Nat) (s : Threads Req Ans α (World ε)) : Prop :=
  submitsAsync i s = true → ∀ j, j ≠ i → midExchange j s.shared.log = false

/-- Every operation keeps the discipline, only the holder of the mutex is past `free`, and the turns tell who is in the middle of an exchange. -/
structure Disciplined {α : Type} (Q : Turn → α → Prop) (turn : Nat → Turn) (s : Threads Req Ans α (World ε)) :
    Prop where
  obeys : Obeys serial Q turn s
  running : ∀ i, turn i ≠ .free → ∃ p, s.progs[i]? = some p
  lock : ∀ i, turn i ≠ .free → s.shared.g.lock = some i
  mid : ∀ i, turn i = .mid ↔ midExchange i s.shared.log = true

/-- Moreover nothing came after the last transfer of an operation in the middle of an exchange. -/
structure Serialised {α : Type} (Q : Turn → α → Prop) (turn : Nat → Turn) (s : Threads Req Ans α (World ε)) : Prop
    extends Disciplined Q turn s where
  last : ∀ i, turn i = .mid → ∀ x ∈ (transfers s.shared.log).getLast?, x.tid = i
  chain : (transfers s.shared.log).IsChain Follows

section Step

variable {α : Type} {Q : Turn → α → Prop} {turn : Nat → Turn} {s : Threads Req Ans α (World ε)} {E : Env ε} {i : Nat}

theorem serial_free_iff {m : Turn} {r : Req} {a : Ans r} (hmay : serial.may m r) (hlock : r ≠ .lock)
    (hunlock : r ≠ .unlock) : serial.next m r a = .free ↔ m = .free := by
  cases r with
  | lock => exact absurd rfl hlock
  | unlock => exact absurd rfl hunlock
  | spi x =>
      rw [serial_next_spi]
      by_cases hasync : x.async = true
      · rw [if_pos hasync]
      · rw [if_neg hasync]
        apply iff_of_false
        · split <;> simp
        · rw [serial_may_sync hmay (Bool.not_eq_true _ ▸ hasync)]
          split <;> simp
  | _ => exact Iff.rfl

/-- Two operations are not both past `free`. -/
theorem Disciplined.alone (h : Disciplined Q turn s) {j : Nat} (hi : turn i ≠ .free) (hij : j ≠ i) :
    turn j = .free := by
  by_contra hj
  have heq := (h.lock i hi).symm.trans (h.lock j hj)
  exact hij (Option.some.inj heq).symm

theorem serial_locks : Locks serial (· ≠ .free) where
  unlock m hmay := by
    obtain rfl : m = .held := hmay
    simp
  released _ _ hnext := hnext rfl
  kept _ _ _ hmay hlock hunlock hnext := mt (serial_free_iff hmay hlock hunlock).mpr hnext

theorem Disciplined.lock_reply (h : Disciplined Q turn s) {r : Req} {next : Ans r → DriverM α}
    (hi : s.progs[i]? = some (.ask r next)) (hready : enabled r s.shared = true) (a : Ans r) :
    ∀ j, Function.update turn i (serial.next (turn i) r a) j ≠ .free → (update i r a s.shared.g).lock = some j :=
  serial_locks.reply h.lock (h.obeys.may hi) hready a

theorem opens_of_not_framed {site : Site} {ret : Int} {miso : Bytes} (hsite : site.framed = false) :
    opens site ret miso = false := by
  cases site with
  | raw | cstest | padprobe | recvBody | replayBody => rfl
  | _ => exact absurd hsite (by decide)

theorem Disciplined.mid_reply (h : Disciplined Q turn s) {r : Req} {next : Ans r → DriverM α}
    (hi : s.progs[i]? = some (.ask r next)) :
    ∀ j, Function.update turn i (serial.next (turn i) r (handle E i r s.shared).1) j = .mid ↔
      midExchange j (handle E i r s.shared).2.log = true := by
  have hmay : serial.may (turn i) r := h.obeys.may hi
  intro j
  by_cases hij : j = i
  · subst hij
    rw [Function.update_self]
    cases r with
    | spi x =>
        rw [midExchange_spi, if_pos rfl]
        cases hasync : x.async with
        | true =>
            obtain ⟨hfree, hsite⟩ := serial_may_async hmay hasync
            rw [opens_of_not_framed hsite]
            apply iff_of_false _ Bool.false_ne_true
            rw [serial_next_spi, hasync, if_pos rfl, hfree]
            simp
        | false =>
            cases hopens : opens x.site (handle E j (.spi x) s.shared).1.ret (handle E j (.spi x) s.shared).1.data with
            | true => exact iff_of_true (serial_next_opens hasync hopens) rfl
            | false =>
                rw [serial_next_closes hasync hopens]
                exact iff_of_false (by simp) Bool.false_ne_true
    | lock =>
        have hturn : turn j = .free := hmay
        have hidle := h.mid j
        rw [hturn] at hidle
        exact iff_of_false (by simp [serial]) fun hmid => absurd (hidle.mpr hmid) (by simp)
    | unlock =>
        have hturn : turn j = .held := hmay
        have hidle := h.mid j
        rw [hturn] at hidle
        exact iff_of_false (by simp [serial]) fun hmid => absurd (hidle.mpr hmid) (by simp)
    | _ => exact h.mid j
  · rw [Function.update_of_ne hij, h.mid j]
    cases r with
    | spi x => rw [midExchange_spi, if_neg (Ne.symm hij)]
    | _ => exact Iff.rfl

theorem Disciplined.reply (h : Disciplined Q turn s) {r : Req} {next : Ans r → DriverM α}
    (hi : s.progs[i]? = some (.ask r next)) (hready : enabled r s.shared = true) :
    Disciplined Q (Function.update turn i (serial.next (turn i) r (handle E i r s.shared).1))
      ((kernel E).reply i r next s) := by
  refine ⟨h.obeys.reply (kernel E) hi trivial, ?_, h.lock_reply hi hready _, h.mid_reply hi⟩
  intro j hj
  by_cases hij : j = i
  · subst hij
    exact ⟨_, Shared.progs_reply_self hi⟩
  · rw [Function.update_of_ne hij] at hj
    rw [Shared.progs_reply_ne hij]
    exact h.running j hj

theorem transfers_reply {r : Req} {next : Ans r → DriverM α} :
    transfers ((kernel E).reply i r next s).shared.log = transfers s.shared.log ++ submitted i r :=
  transfers_handle E i r s.shared

theorem Disciplined.others_idle (h : Disciplined Q turn s) (hclear : Undisturbed i s) {x : Xfer}
    {next : XferAns x → DriverM α} (hi : s.progs[i]? = some (.ask (.spi x) next)) {j : Nat} (hij : j ≠ i) :
    turn j ≠ .mid := by
  have hmay : serial.may (turn i) (.spi x) := h.obeys.may hi
  cases hasync : x.async with
  | true =>
      have hsubmits : submitsAsync i s = true := by
        rw [submitsAsync, hi]
        exact hasync
      intro hmid
      have hopen := (h.mid j).mp hmid
      rw [hclear hsubmits j hij] at hopen
      exact Bool.false_ne_true hopen
  | false =>
      have hheld : turn i ≠ .free := by
        rw [serial_may_sync hmay hasync]
        split <;> simp
      rw [h.alone hheld hij]
      simp

theorem Serialised.last_reply (h : Serialised Q turn s) (hclear : Undisturbed i s) {r : Req} {next : Ans r → DriverM α}
    (hi : s.progs[i]? = some (.ask r next)) :
    ∀ j, Function.update turn i (serial.next (turn i) r (handle E i r s.shared).1) j = .mid →
      ∀ x ∈ (transfers ((kernel E).reply i r next s).shared.log).getLast?, x.tid = j := by
  intro j hmid y hy
  rw [transfers_reply] at hy
  cases r with
  | spi x =>
      rw [submitted, List.getLast?_concat] at hy
      obtain rfl : (⟨i, x.site⟩ : Transfer) = y := Option.some.inj hy
      by_contra hij
      rw [Function.update_of_ne (Ne.symm hij)] at hmid
      exact h.others_idle hclear hi (Ne.symm hij) hmid
  | _ =>
      change y ∈ (transfers s.shared.log ++ []).getLast? at hy
      rw [List.append_nil] at hy
      have hopen := (h.mid_reply (E := E) hi j).mp hmid
      exact h.last j ((h.mid j).mpr hopen) y hy

theorem Serialised.chain_reply (h : Serialised Q turn s) {r : Req} {next : Ans r → DriverM α}
    (hi : s.progs[i]? = some (.ask r next)) :
    (transfers ((kernel E).reply i r next s).shared.log).IsChain Follows := by
  rw [transfers_reply, List.isChain_append]
  cases r with
  | spi x =>
      refine ⟨h.chain, List.isChain_singleton _, ?_⟩
      intro before hbefore y hy hcontinues
      obtain rfl : (⟨i, x.site⟩ : Transfer) = y := Option.some.inj hy
      apply h.last i _ before hbefore
      have hmay : serial.may (turn i) (.spi x) := h.obeys.may hi
      have hcontinues' : x.site.continues = true := hcontinues
      cases hasync : x.async with
      | true =>
          obtain ⟨-, hsite⟩ := serial_may_async hmay hasync
          rw [Site.framed, hcontinues', Bool.or_true] at hsite
          exact absurd hsite.symm Bool.false_ne_true
      | false => rw [serial_may_sync hmay hasync, hcontinues', if_pos rfl]
  | _ => exact ⟨h.chain, List.isChain_nil, fun _ _ y hy => absurd hy (by simp [submitted])⟩

/-- **One step** of any operation keeps the invariant. -/
theorem Serialised.step (h : Serialised Q turn s) (hclear : Undisturbed i s) :
    ∃ turn', Serialised Q turn' ((kernel E).step i s) := by
  rcases Shared.step_cases (kernel E) i s with hskip | ⟨r, next, hi, hready, hreply⟩
  · rw [hskip]
    exact ⟨turn, h⟩
  · rw [hreply]
    exact ⟨_, h.reply hi hready, h.last_reply hclear hi, h.chain_reply hi⟩

/-- An operation in the middle of an exchange never waits: it gets to the next transfer of the exchange on its own. -/
theorem Disciplined.continues_alone (h : Disciplined Q turn s) (hQ : ∀ m a, Q m a → m = .free) {j : Nat}
    {p : DriverM α} (hj : s.progs[j]? = some p) (hmid : turn j = .mid) :
    ∃ n site, site.continues = true ∧
      transfers ((kernel E).run (List.replicate n j) s).shared.log = transfers s.shared.log ++ [⟨j, site⟩] := by
  induction p generalizing s turn with
  | ret a =>
      have hend : Q (turn j) a := h.obeys j _ hj
      rw [hmid] at hend
      exact absurd (hQ _ _ hend) (by simp)
  | ask r next ih =>
      have hmay : serial.may (turn j) r := h.obeys.may hj
      rw [hmid] at hmay
      cases r with
      | lock => exact absurd hmay (by simp [serial])
      | unlock => exact absurd hmay (by simp [serial])
      | spi x =>
          have hsync : x.async = false := by
            by_contra hasync
            exact absurd (serial_may_async hmay (Bool.not_eq_false _ ▸ hasync)).1 (by simp)
          have hcontinues := serial_may_sync hmay hsync
          refine ⟨1, x.site, ?_, ?_⟩
          · by_contra hsite
            rw [if_neg hsite] at hcontinues
            exact absurd hcontinues (by simp)
          · show transfers ((kernel E).step j s).shared.log = _
            rw [Shared.step_eq hj rfl, transfers_reply]
            rfl
      | _ =>
          have hturn : Function.update turn j (turn j) j = .mid := by rw [Function.update_self, hmid]
          obtain ⟨n, site, hsite, hrun⟩ := ih _ (h.reply (E := E) hj rfl) (Shared.progs_reply_self hj) hturn
          refine ⟨n + 1, site, hsite, ?_⟩
          rw [List.replicate_succ, Shared.run, Shared.step_eq hj rfl, hrun, transfers_reply]
          exact congrArg (· ++ [_]) (List.append_nil _)

/-- The last transfer of an operation in the middle of an exchange, and what other operations submitted since. -/
theorem transfers_of_midExchange {j : Nat} {log : List Entry} (h : midExchange j log = true) :
    ∃ pre a mid, transfers log = pre ++ a :: mid ∧ a.tid = j ∧ a.site.framed = true ∧ ∀ x ∈ mid, x.tid ≠ j := by
  induction log with
  | nil => exact absurd h Bool.false_ne_true
  | cons entry log ih =>
      obtain ⟨t, event⟩ := entry
      cases event with
      | bus site rx mosi ret miso =>
          have hlog : transfers (⟨t, .bus site rx mosi ret miso⟩ :: log) = transfers log ++ [⟨t, site⟩] :=
            List.reverse_cons
          rw [hlog]
          by_cases ht : t = j
          · have hopens : opens site ret miso = true := by
              rw [midExchange, if_pos ht] at h
              exact h
            refine ⟨transfers log, ⟨t, site⟩, [], rfl, ht, ?_, fun x hx => absurd hx List.not_mem_nil⟩
            by_contra hsite
            rw [opens_of_not_framed (Bool.not_eq_true _ ▸ hsite)] at hopens
            exact Bool.false_ne_true hopens
          · rw [midExchange, if_neg ht] at h
            obtain ⟨pre, a, mid, htransfers, ha, hframed, hmid⟩ := ih h
            refine ⟨pre, a, mid ++ [⟨t, site⟩], by rw [htransfers]; simp, ha, hframed, ?_⟩
            intro x hx
            rcases List.mem_append.mp hx with hx | hx
            · exact hmid x hx
            · rw [List.mem_singleton.mp hx]
              exact ht
      | _ => exact ih h

theorem exists_of_submitsAsync (h : submitsAsync i s = true) :
    ∃ (x : Xfer) (next : XferAns x → DriverM α), s.progs[i]? = some (.ask (.spi x) next) := by
  rw [submitsAsync] at h
  split at h
  · exact ⟨_, _, by assumption⟩
  · exact absurd h Bool.false_ne_true

/-- **How an exchange is torn.** After an asynchronous transfer in the middle of another operation's exchange, that operation goes on with it. -/
theorem Disciplined.torn (h : Disciplined Q turn s) (hQ : ∀ m a, Q m a → m = .free) (hdisturbed : ¬ Undisturbed i s) :
    ∃ j n, ¬ Contiguous (transfers ((kernel E).run (i :: List.replicate n j) s).shared.log) := by
  rw [Undisturbed] at hdisturbed
  push Not at hdisturbed
  obtain ⟨hsubmits, j, hij, hopen⟩ := hdisturbed
  obtain ⟨x, next, hi⟩ := exists_of_submitsAsync hsubmits
  have hmid : turn j = .mid := (h.mid j).mpr (Bool.not_eq_false _ ▸ hopen)
  obtain ⟨p, hj⟩ := h.running j (by rw [hmid]; simp)
  have h' := h.reply (E := E) hi rfl
  obtain ⟨n, site, hsite, hrun⟩ := h'.continues_alone (E := E) hQ ((Shared.progs_reply_ne hij).trans hj)
    ((Function.update_of_ne hij _ _).trans hmid)
  obtain ⟨pre, a, mid, hbus, ha, hframed, hothers⟩ := transfers_of_midExchange ((h.mid j).mp hmid)
  refine ⟨j, n, ?_⟩
  intro hcontiguous
  rw [Shared.run, Shared.step_eq hi rfl, hrun, transfers_reply, hbus] at hcontiguous
  have hsame : SameExchange a (mid ++ [⟨i, x.site⟩]) ⟨j, site⟩ := by
    refine ⟨hframed, ha.symm, hsite, ?_⟩
    intro y hy htid
    rcases List.mem_append.mp hy with hy | hy
    · exact absurd (htid.trans ha) (hothers y hy)
    · rw [List.mem_singleton.mp hy] at htid
      exact absurd (htid.trans ha).symm hij
  have hall := hcontiguous pre (mid ++ [⟨i, x.site⟩]) [] a ⟨j, site⟩ (by simp [submitted]) hsame
  exact hij ((hall ⟨i, x.site⟩ (by simp)).trans ha).symm

end Step

theorem launch_serialised (P : Setup) (ops : List DebugOp) (g : Gxfp) (e : ε) :
    Serialised (fun m _ => m = .free) (fun _ => .free) (launch P ops g e) where
  obeys := by
    intro i p hi
    rw [launch, List.getElem?_map] at hi
    obtain ⟨op, -, rfl⟩ := Option.map_eq_some_iff.mp hi
    exact serial_prog P op
  running _ h := absurd rfl h
  lock _ h := absurd rfl h
  mid _ := iff_of_false (by simp) Bool.false_ne_true
  last _ h := absurd h (by simp)
  chain := List.isChain_nil

theorem run_serialised (E : Env ε) (P : Setup) (ops : List DebugOp) (g : Gxfp) (e : ε) {schedule : List Nat}
    (hclear : (kernel E).Along Undisturbed schedule (launch P ops g e)) {pre : List Nat} (hpre : pre <+: schedule) :
    ∃ turn, Serialised (fun m (_ : OpResult) => m = .free) turn ((kernel E).run pre (launch P ops g e)) := by
  apply Shared.run_keeps (S := kernel E)
    (J := fun s => ∃ turn, Serialised (fun m (_ : OpResult) => m = .free) turn s) _ hclear
    ⟨_, launch_serialised P ops g e⟩ hpre
  intro i s hs hi
  obtain ⟨turn, h⟩ := hs
  exact h.step hi

/-- **Exchanges on the bus.** Any number of operations, started on a driver whose mutex is free, in any interleaving. In every run in which no asynchronous transfer is submitted in the middle of another operation's exchange, the transfers of each framed exchange are contiguous on the bus in every state; and they are so in all runs only if no run has such a step. -/
theorem exchanges_contiguous_iff (E : Env ε) (P : Setup) (ops : List DebugOp) (g : Gxfp) (e : ε) :
    (∀ schedule, (kernel E).Along Undisturbed schedule (launch P ops g e) →
      ∀ pre, pre <+: schedule → Contiguous (transfers ((kernel E).run pre (launch P ops g e)).shared.log)) ∧
    ((∀ schedule, Contiguous (transfers ((kernel E).run schedule (launch P ops g e)).shared.log)) ↔
      ∀ schedule, (kernel E).Along Undisturbed schedule (launch P ops g e)) := by
  have hsafe : ∀ schedule, (kernel E).Along Undisturbed schedule (launch P ops g e) →
      ∀ pre, pre <+: schedule → Contiguous (transfers ((kernel E).run pre (launch P ops g e)).shared.log) := by
    intro schedule hclear pre hpre
    obtain ⟨turn, h⟩ := run_serialised E P ops g e hclear hpre
    exact contiguous_of_isChain h.chain
  refine ⟨hsafe, ?_, fun hclear schedule => hsafe schedule (hclear schedule) schedule List.prefix_rfl⟩
  intro hall schedule
  by_contra hdisturbed
  obtain ⟨pre, i, hpre, hi⟩ := Shared.Along.exists_first hdisturbed
  obtain ⟨turn, h⟩ := run_serialised E P ops g e hpre List.prefix_rfl
  obtain ⟨j, n, htorn⟩ := h.toDisciplined.torn (E := E) (fun _ _ hm => hm) hi
  rw [← Shared.run_append] at htorn
  exact htorn (hall _)

/-- An operation that runs alone runs as `runOp` says. -/
theorem launch_alone (E : Env ε) (P : Setup) (op : DebugOp) (g : Gxfp) (e : ε) :
    ∃ n, (kernel E).run (List.replicate n 0) (launch P [op] g e) =
      ⟨(runOp E P op ⟨{ g with lock := none }, e, []⟩).2, [.ret (runOp E P op ⟨{ g with lock := none }, e, []⟩).1]⟩ := by
  apply Shared.run_alone (I := fun m (w : World ε) => m = .free → w.g.lock = none) _ (serial_prog P op) fun _ => rfl
  intro m w r hI hmay
  refine ⟨?_, trivial, ?_⟩
  · cases r with
    | lock =>
        show w.g.lock.isNone = true
        rw [hI hmay]
        rfl
    | _ => rfl
  · intro hfree
    by_cases hlock : r = .lock
    · subst hlock
      exact absurd hfree (by simp [serial])
    · by_cases hunlock : r = .unlock
      · subst hunlock
        rfl
      · show (update 0 r (answer E r w.g w.env).1 w.g).lock = none
        rw [update_lock 0 _ _ hlock hunlock]
        exact hI ((serial_free_iff hmay hlock hunlock).mp hfree)

def liveness : UserBuf := .text [0x61, 0x20, 0x34]

def rawZero : UserBuf := .text [0x30, 0x30]

theorem exchanges_contiguous_turnByTurn :
    Contiguous (transfers ((kernel Env.idle).run ((List.range 60).map (· % 2))
      (launch {} [.cmdWrite liveness, .rawWrite rawZero] (probed ()).g ())).shared.log) := by
  have hsync : (kernel Env.idle).Along (fun i s => submitsAsync i s = false) ((List.range 60).map (· % 2))
      (launch {} [.cmdWrite liveness, .rawWrite rawZero] (probed ()).g ()) := by
    decide +kernel
  have hclear := hsync.mono (R := Undisturbed) fun i s hi hasync =>
    absurd (hi.symm.trans hasync) Bool.false_ne_true
  exact (exchanges_contiguous_iff Env.idle {} [.cmdWrite liveness, .rawWrite rawZero] (probed ()).g ()).1 _ hclear _
    List.prefix_rfl

/-- `cstest` is read in the two milliseconds between a frame's header and its body. -/
theorem cstest_tears_frame :
    transfers ((kernel Env.idle).run (List.replicate 12 0 ++ List.replicate 5 1 ++ List.replicate 2 0)
        (launch {} [.cmdWrite liveness, .cstest] (probed ()).g ())).shared.log =
      [⟨0, .frameHdr⟩, ⟨1, .cstest⟩, ⟨0, .frameBody⟩] ∧
    ¬ ∀ schedule, Contiguous (transfers ((kernel Env.idle).run schedule
        (launch {} [.cmdWrite liveness, .cstest] (probed ()).g ())).shared.log) := by
  have hbus : transfers ((kernel Env.idle).run (List.replicate 12 0 ++ List.replicate 5 1 ++ List.replicate 2 0)
        (launch {} [.cmdWrite liveness, .cstest] (probed ()).g ())).shared.log =
      [⟨0, .frameHdr⟩, ⟨1, .cstest⟩, ⟨0, .frameBody⟩] := by
    decide +kernel
  refine ⟨hbus, ?_⟩
  intro hall
  have htorn := hall (List.replicate 12 0 ++ List.replicate 5 1 ++ List.replicate 2 0)
  rw [hbus] at htorn
  have htid := htorn [] [⟨1, .cstest⟩] [] ⟨0, .frameHdr⟩ ⟨0, .frameBody⟩ rfl
    ⟨rfl, rfl, rfl, by simp⟩ ⟨1, .cstest⟩ List.mem_cons_self
  exact absurd htid (by decide)

end GoodixSpi.Kernel
