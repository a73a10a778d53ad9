import GoodixSpi.Bench.Bringup
import GoodixSpi.Bench.LowSweeps

/-!
# What the framing rows can show

`framing.py`, `reset_low.py` and `cs_timing_low.py` send the same frames in one chip-select and in two, and with other delays around them. Such rows put the same bytes on the bus. On a board that goes by the bytes alone, and sees neither the chip-select nor the time, they end alike, print the same and leave the board in the same state: a difference between two rows is one the sensor makes of the chip-select or of the timing, and of nothing else.
-/

namespace GoodixSpi.Bench

open Wire Interaction Tools

variable {σ α : Type}

/-- What a device answers to bytes that are clocked out, by what it answers to one. -/
def clockBytes (clock : UInt8 → σ → UInt8 × σ) : Bytes → σ → Bytes × σ
  | [], s => ([], s)
  | b :: bs, s =>
      let first := clock b s
      let rest := clockBytes clock bs first.2
      (first.1 :: rest.1, rest.2)

/-- `Spi.xfer` fills a segment up with zeros to the length that is wanted back, and cuts the answer to it. -/
def clockSegment (clock : UInt8 → σ → UInt8 × σ) (seg : Segment) (s : σ) : Bytes × σ :=
  let out := clockBytes clock (seg.tx ++ zeroBytes (seg.rxlen - seg.tx.length)) s
  (out.1.take seg.rxlen, out.2)

def clockSegments (clock : UInt8 → σ → UInt8 × σ) : List Segment → σ → List Bytes × σ
  | [], s => ([], s)
  | seg :: segs, s =>
      let first := clockSegment clock seg s
      let rest := clockSegments clock segs first.2
      (first.1 :: rest.1, rest.2)

/-- The board sees the bytes of a transfer one by one, and neither where a chip-select ends nor how long anything takes; no transfer fails, and the clock of the host stands still. -/
structure ByteWise (R : Rig σ) (clock : Pin → UInt8 → σ → UInt8 × σ) : Prop where
  xfer : ∀ pin speed bits wordDelay segments s, ∃ rx, rx.1 = (clockSegments (clock pin) segments s).1 ∧
    R.answer pin (.spiXfer speed bits wordDelay segments) s = (.ok rx, (clockSegments (clock pin) segments s).2)
  sleep : ∀ pin us s, (R.answer pin (.sleep us) s).2 = s

/-- What is left of a run when it is over: the board, the line, and what was printed. -/
structure Outcome (σ : Type) where
  env : σ
  pin : Pin
  said : List (String × List Shown)

def said : BenchReq → List (String × List Shown)
  | .print fmt args => [(fmt, args)]
  | _ => []

def Stand.outcome (b : Stand σ) : Outcome σ := ⟨b.env, b.pin, b.log.flatMap fun e => said e.2⟩

/-- The scripts end alike from wherever they start, and the same is left. -/
def SameOutcome (R : Rig σ) (line : Nat) (p q : BenchM α) : Prop :=
  ∀ b, (R.run line p b).1 = (R.run line q b).1 ∧ (R.run line p b).2.outcome = (R.run line q b).2.outcome

/-- `handleRig` without the record of the transfers. -/
def handleOutcome (line : Nat) (R : Rig σ) (r : BenchReq) (o : Outcome σ) : Except Exn (BenchOut r) × Outcome σ :=
  let a := calm r (R.answer o.pin r o.env).1
  (a, { env := (R.answer o.pin r o.env).2, pin := o.pin.after line r a, said := o.said ++ said r })

/-- Run a script and look only at what is left. -/
def Rig.leave (R : Rig σ) (line : Nat) (p : BenchM α) (o : Outcome σ) : Except Exn α × Outcome σ :=
  Prog.run (handleOutcome line R) p o

theorem handleOutcome_outcome (line : Nat) (R : Rig σ) (r : BenchReq) (b : Stand σ) :
    handleOutcome line R r b.outcome = ((handleRig line R r b).1, (handleRig line R r b).2.outcome) := by
  simp [handleOutcome, handleRig, Stand.outcome]

theorem sameOutcome_of_alike {R : Rig σ} {line : Nat} {p q : BenchM α} (h : Raise.Alike (handleOutcome line R) p q) :
    SameOutcome R line p q := by
  intro b
  have hp := Prog.run_view (handleOutcome_outcome line R) p b
  have hq := Prog.run_view (handleOutcome_outcome line R) q b
  have hpq : Prog.run (handleOutcome line R) p b.outcome = Prog.run (handleOutcome line R) q b.outcome :=
    congrFun h b.outcome
  rw [hp, hq] at hpq
  exact Prod.mk.inj hpq

/-! ### Transfers -/

theorem clockBytes_append (clock : UInt8 → σ → UInt8 × σ) (xs ys : Bytes) (s : σ) :
    clockBytes clock (xs ++ ys) s =
      ((clockBytes clock xs s).1 ++ (clockBytes clock ys (clockBytes clock xs s).2).1,
        (clockBytes clock ys (clockBytes clock xs s).2).2) := by
  induction xs generalizing s with
  | nil => rfl
  | cons x xs ih => simp only [List.cons_append, clockBytes, ih]

theorem clockBytes_length (clock : UInt8 → σ → UInt8 × σ) (xs : Bytes) (s : σ) :
    (clockBytes clock xs s).1.length = xs.length := by
  induction xs generalizing s with
  | nil => rfl
  | cons x xs ih => simp [clockBytes, ih]

theorem clockSegment_duplex (clock : UInt8 → σ → UInt8 × σ) (tx : Bytes) (delay : Nat) (s : σ) :
    clockSegment clock { tx := tx, rxlen := tx.length, delay := delay } s = clockBytes clock tx s := by
  have hfull : (clockBytes clock tx s).1.take tx.length = (clockBytes clock tx s).1 :=
    List.take_of_length_le (Nat.le_of_eq (clockBytes_length clock tx s))
  simp [clockSegment, zeroBytes, hfull]

def Outcome.clocked (clock : Pin → UInt8 → σ → UInt8 × σ) (o : Outcome σ) (bs : Bytes) : Outcome σ :=
  { o with env := (clockBytes (clock o.pin) bs o.env).2 }

theorem Outcome.clocked_append (clock : Pin → UInt8 → σ → UInt8 × σ) (o : Outcome σ) (xs ys : Bytes) :
    o.clocked clock (xs ++ ys) = (o.clocked clock xs).clocked clock ys := by
  simp only [Outcome.clocked, clockBytes_append]

section Transfers

variable {R : Rig σ} {clock : Pin → UInt8 → σ → UInt8 × σ} {line : Nat}

theorem run_sleep_bind (hR : ByteWise R clock) (us : Nat) (p : BenchM α) (o : Outcome σ) :
    R.leave line (sleep us >>= fun _ => p) o = R.leave line p o := by
  have hstate : (handleOutcome line R (.sleep us) o).2 = o := by
    simp [handleOutcome, hR.sleep, said, Pin.after]
  exact congrArg (R.leave line p) hstate

theorem run_xfer_bind (line : Nat) (hR : ByteWise R clock) (spi : Spi) (segments : List Segment) (wordDelay : Nat) (o : Outcome σ)
    (f : { rx : List Bytes // rx.map List.length = segments.map Segment.rxlen } → BenchM α) :
    ∃ rx, rx.1 = (clockSegments (clock o.pin) segments o.env).1 ∧
      R.leave line (spi.xfer segments wordDelay >>= f) o =
        R.leave line (f rx) { o with env := (clockSegments (clock o.pin) segments o.env).2 } := by
  obtain ⟨rx, hrx, hanswer⟩ := hR.xfer o.pin spi.speed spi.bits wordDelay segments o.env
  refine ⟨rx, hrx, ?_⟩
  have hhandle : handleOutcome line R (.spiXfer spi.speed spi.bits wordDelay segments) o =
      (.ok rx, { o with env := (clockSegments (clock o.pin) segments o.env).2 }) := by
    simp [handleOutcome, hanswer, calm, said, Pin.after]
  refine Eq.trans ?_ (congrArg (fun a => R.leave line (Raise.andThen f a.1) a.2) hhandle)
  rfl

theorem run_duplex_bind (hR : ByteWise R clock) (spi : Spi) (tx : Bytes) (p : BenchM α) (o : Outcome σ) :
    R.leave line (spi.duplex tx >>= fun _ => p) o =
      R.leave line p (o.clocked clock tx) := by
  obtain ⟨rx, -, hrun⟩ := run_xfer_bind line hR spi [{ tx := tx, rxlen := tx.length }] 0 o fun _ => p
  rw [Spi.duplex, Raise.bind_assoc]
  refine hrun.trans ?_
  simp only [clockSegments, clockSegment_duplex, Outcome.clocked]

/-- The set-up delay goes with a segment that clocks nothing out. -/
theorem clockSegments_send (clock : UInt8 → σ → UInt8 × σ) (data : Bytes) (setup hold : Nat) (s : σ) :
    clockSegments clock ((if setup ≠ 0 then [{ tx := [], rxlen := 0, delay := setup }] else []) ++
        [{ tx := data, rxlen := data.length, delay := hold }]) s =
      ((if setup ≠ 0 then [[]] else []) ++ [(clockBytes clock data s).1], (clockBytes clock data s).2) := by
  have hempty : clockSegment clock { tx := [], rxlen := 0, delay := setup } s = ([], s) := rfl
  split <;> simp only [List.nil_append, List.cons_append, clockSegments, clockSegment_duplex, hempty]

theorem run_send_bind (hR : ByteWise R clock) (spi : Spi) (data : Bytes) (setup hold : Nat) (f : Bytes → BenchM α)
    (o : Outcome σ) :
    R.leave line (CsTimingLow.send spi data setup hold >>= f) o =
      R.leave line (f (clockBytes (clock o.pin) data o.env).1) (o.clocked clock data) := by
  obtain ⟨rx, hrx, hrun⟩ := run_xfer_bind line hR spi
    ((if setup ≠ 0 then [{ tx := [], rxlen := 0, delay := setup }] else []) ++
      [{ tx := data, rxlen := data.length, delay := hold }]) 0 o fun rx => f (rx.1.getLastD [])
  rw [CsTimingLow.send, Raise.bind_assoc]
  refine hrun.trans ?_
  rw [hrx, clockSegments_send, List.getLastD_concat]
  rfl

/-! ### The rows -/

theorem alike_frame (hR : ByteWise R clock) (l : Framing.Link) (one : Bool) (body : Bytes) :
    Raise.Alike (handleOutcome line R) (l.frame body) (Framing.Link.frame { l with one := one } body) := by
  have hframe (l : Framing.Link) (o : Outcome σ) :
      R.leave line (l.frame body) o = (.ok (), o.clocked clock (header body.length ++ body)) := by
    rw [Framing.Link.frame]
    cases l.one with
    | true => exact run_duplex_bind hR _ _ _ _
    | false =>
        rw [Outcome.clocked_append]
        refine (run_duplex_bind hR _ _ _ _).trans ?_
        refine (run_sleep_bind hR _ _ _).trans ?_
        exact run_duplex_bind hR _ _ _ _
  funext o
  exact (hframe l o).trans (hframe { l with one := one } o).symm

theorem alike_step (hR : ByteWise R clock) (l : Framing.Link) (one : Bool) (hit : Bool)
    (c : String × Option Bytes × Bool) :
    Raise.Alike (handleOutcome line R) (Framing.step l hit c) (Framing.step { l with one := one } hit c) := by
  refine (Raise.Alike.refl _ _).bind fun body => ?_
  refine Raise.Alike.bind ?_ fun _ => Raise.Alike.refl _ _
  rw [Framing.Link.command, Framing.Link.command]
  cases l.pre with
  | true => exact (alike_frame hR l one NOP).bind fun _ => (Raise.Alike.refl _ _).bind fun _ => alike_frame hR l one body
  | false => exact alike_frame hR l one body

theorem alike_framingRun (hR : ByteWise R clock) (one pre : Bool) (speed : Nat) :
    Raise.Alike (handleOutcome line R) (Framing.run one pre speed) (Framing.run (!one) pre speed) := by
  refine (Raise.Alike.refl _ _).bind fun spi => ?_
  refine (Raise.Alike.refl _ _).bind fun irq => ?_
  exact Raise.Alike.ensure (Raise.Alike.each (alike_step hR _ (!one)) _ _) _

theorem leave_each {turn : Unit → Bytes → BenchM Unit}
    (hturn : ∀ f (p : BenchM α) o, R.leave line (turn () f >>= fun _ => p) o = R.leave line p (o.clocked clock f))
    (frames : List Bytes) (p : BenchM α) (o : Outcome σ) :
    R.leave line (Raise.each turn () frames >>= fun _ => p) o = R.leave line p (o.clocked clock frames.flatten) := by
  induction frames generalizing o with
  | nil => rfl
  | cons f frames ih =>
      rw [List.flatten_cons, Outcome.clocked_append, ← ih, ← hturn, Raise.each, Raise.bind_assoc]

theorem alike_resetLow (hR : ByteWise R clock) (polls : Nat) (spi : Spi) (irq : GpioLine) :
    Raise.Alike (handleOutcome line R) (ResetLow.exchangeOneTransfer polls spi irq)
      (ResetLow.exchangeTwoTransfer polls spi irq) := by
  funext o
  refine (run_duplex_bind hR _ _ _ _).trans ?_
  refine (run_sleep_bind hR _ _ _).trans ?_
  refine (run_duplex_bind hR _ _ _ _).trans ?_
  rw [← Outcome.clocked_append]
  refine (leave_each ?_ [Sigfrodr.PREAMBLE_00, Sigfrodr.FW_VERSION] (ResetLow.readReplies spi irq polls) o).symm
  intro frame p o
  simp only [Raise.bind_assoc]
  refine (run_duplex_bind hR _ _ _ _).trans ?_
  refine (run_sleep_bind hR _ _ _).trans ?_
  refine (run_duplex_bind hR _ _ _ _).trans ?_
  refine (run_sleep_bind hR _ _ _).trans ?_
  rw [← Outcome.clocked_append, List.take_append_drop]

theorem alike_send (hR : ByteWise R clock) (spi : Spi) (data : Bytes) (setup hold setup' hold' : Nat) :
    Raise.Alike (handleOutcome line R) (CsTimingLow.send spi data setup hold)
      (CsTimingLow.send spi data setup' hold') := by
  have hsend (setup hold : Nat) (o : Outcome σ) : R.leave line (CsTimingLow.send spi data setup hold) o =
      R.leave line (pure (clockBytes (clock o.pin) data o.env).1) (o.clocked clock data) := by
    rw [← run_send_bind hR spi data setup hold, Raise.bind_pure]
  funext o
  exact (hsend setup hold o).trans (hsend setup' hold' o).symm

theorem leave_frames (hR : ByteWise R clock) (spi : Spi) (setup hold us : Nat) (frames : List Bytes) (p : BenchM α)
    (o : Outcome σ) :
    R.leave line (Raise.each (fun _ f => do
        let _ ← CsTimingLow.send spi f setup hold
        sleep us) () frames >>= fun _ => p) o = R.leave line p (o.clocked clock frames.flatten) := by
  refine leave_each ?_ frames p o
  intro f p o
  simp only [Raise.bind_assoc]
  refine (run_send_bind hR _ _ _ _ _ _).trans ?_
  exact run_sleep_bind hR _ _ _

theorem alike_csTiming (hR : ByteWise R clock) (spi : Spi) (irq : GpioLine) (polls : Nat) (c c' : CsTimingLow.Case)
    (acc : Bytes × Nat) (body : Bytes) :
    Raise.Alike (handleOutcome line R) (CsTimingLow.exchange spi irq polls c acc body)
      (CsTimingLow.exchange spi irq polls c' acc body) := by
  have hflatten (framing : String) (hdr : Bytes) :
      (if framing = "two" then [hdr, body] else [hdr ++ body]).flatten = hdr ++ body := by
    split <;> simp
  have hread : Raise.Alike (handleOutcome line R)
      (do
        let p ← pulse irq 30 polls
        let rx ← CsTimingLow.send spi (ones 4) c.setup c.hold
        pure (acc.1 ++ rx, acc.2 + if p then 1 else 0) : BenchM (Bytes × Nat))
      (do
        let p ← pulse irq 30 polls
        let rx ← CsTimingLow.send spi (ones 4) c'.setup c'.hold
        pure (acc.1 ++ rx, acc.2 + if p then 1 else 0)) :=
    (Raise.Alike.refl _ _).bind fun p => (alike_send hR _ _ _ _ _ _).bind fun rx => Raise.Alike.refl _ _
  refine (Raise.Alike.refl _ _).bind fun hdr => ?_
  funext o
  refine (leave_frames hR _ _ _ _ _ _ o).trans (Eq.trans ?_ (leave_frames hR _ _ _ _ _ _ o).symm)
  rw [hflatten, hflatten]
  exact congrFun hread _

end Transfers

/-- **What a difference between two rows means.** On a board that goes by the bytes alone, a run of `framing.py` in one chip-select and one in two, the two exchanges of `reset_low.py`, and the commands of any two cases of `cs_timing_low.py` end alike, print the same, and leave the board and the line alike. -/
theorem framing_unseen {R : Rig σ} {clock : Pin → UInt8 → σ → UInt8 × σ} (hR : ByteWise R clock) (line : Nat) :
    (∀ one pre speed, SameOutcome R line (Framing.run one pre speed) (Framing.run (!one) pre speed)) ∧
      (∀ polls spi irq,
        SameOutcome R line (ResetLow.exchangeOneTransfer polls spi irq) (ResetLow.exchangeTwoTransfer polls spi irq)) ∧
      ∀ polls spi irq (c c' : CsTimingLow.Case) acc,
        SameOutcome R line (Raise.each (CsTimingLow.exchange spi irq polls c) acc CsTimingLow.BODIES)
          (Raise.each (CsTimingLow.exchange spi irq polls c') acc CsTimingLow.BODIES) := by
  refine ⟨?_, ?_, ?_⟩
  · intro one pre speed
    exact sameOutcome_of_alike (alike_framingRun hR one pre speed)
  · intro polls spi irq
    exact sameOutcome_of_alike (alike_resetLow hR polls spi irq)
  · intro polls spi irq c c' acc
    exact sameOutcome_of_alike (Raise.Alike.each (alike_csTiming hR spi irq polls c c') _ _)

theorem clockSegments_lengths (clock : UInt8 → σ → UInt8 × σ) (segments : List Segment) (s : σ) :
    (clockSegments clock segments s).1.map List.length = segments.map Segment.rxlen := by
  induction segments generalizing s with
  | nil => rfl
  | cons seg segments ih =>
      have hlength : (clockSegment clock seg s).1.length = seg.rxlen := by
        rw [clockSegment, List.length_take, clockBytes_length, List.length_append, zeroBytes, List.length_replicate]
        omega
      simp only [clockSegments, List.map_cons, hlength, ih]

/-- A board that goes by the bytes, and on which nothing raises. -/
def byteRig (clock : Pin → UInt8 → σ → UInt8 × σ) : Rig σ where
  answer pin r s :=
    match r with
    | .spiXfer _ _ _ segments =>
        (.ok ⟨(clockSegments (clock pin) segments s).1, clockSegments_lengths _ _ _⟩, (clockSegments (clock pin) segments s).2)
    | r => ((idleRig.answer pin r ()).1, s)

theorem byteWise_byteRig (clock : Pin → UInt8 → σ → UInt8 × σ) : ByteWise (byteRig clock) clock where
  xfer _ _ _ _ _ _ := ⟨_, rfl, rfl⟩
  sleep _ _ _ := rfl

/-- A board that sends every byte back one byte later. -/
theorem framing_unseen_loopback :
    (∀ one pre speed, SameOutcome (byteRig fun _ b last => (last, b)) LINE_RST (Framing.run one pre speed)
        (Framing.run (!one) pre speed)) ∧
      (∀ polls spi irq, SameOutcome (byteRig fun _ b last => (last, b)) LINE_RST
        (ResetLow.exchangeOneTransfer polls spi irq) (ResetLow.exchangeTwoTransfer polls spi irq)) ∧
      ∀ polls spi irq (c c' : CsTimingLow.Case) acc, SameOutcome (byteRig fun _ b last => (last, b)) LINE_RST
        (Raise.each (CsTimingLow.exchange spi irq polls c) acc CsTimingLow.BODIES)
        (Raise.each (CsTimingLow.exchange spi irq polls c') acc CsTimingLow.BODIES) :=
  framing_unseen (byteWise_byteRig _) LINE_RST

end GoodixSpi.Bench
