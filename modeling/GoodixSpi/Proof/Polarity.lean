import GoodixSpi.Proof.Confined
import GoodixSpi.Proof.Lowstate

/-!
# The level of line 264 during a test

What a sweep found, or did not find, was found at one level of line 264, and the scripts never say which. The contract `clocking` admits a transfer only while the line is held at one level, and only binary values written to it. The scripts that power the sensor first keep it at high, through every request of every run and whatever raises; under the wrapper they keep it at low; and the scripts written last keep it at low themselves, and leave it there.
-/

set_option synthInstance.maxSize 1000

namespace GoodixSpi.Bench

open Wire Interaction Tools

def BenchReq.isTransfer : BenchReq → Bool
  | .spiXfer _ _ _ _ => true
  | _ => false

/-- Every transfer so far was made with the line held at this level. -/
def Stand.Clocked {σ : Type} (b : Stand σ) (level : Bool) : Prop :=
  ∀ x ∈ b.log, x.2.isTransfer = true → x.1 = ⟨true, level⟩

/-- Transfers only with line 264 held at this level, and only what the wrapper inverts written to it; the mode is how the line stands. -/
def clocking (level : Bool) : Contract BenchReq (fun r => Except Exn (BenchOut r)) Pin where
  may p r := (r.isTransfer = true → p = ⟨true, level⟩) ∧ WritesBinary r
  rely _ _ _ := True
  next p r a := p.after LINE_EN r a

/-- A part of a script that keeps `clocking` and, unless it raises, ends in `Q`. -/
def Drives {α : Type} (level : Bool) (p : BenchM α) (m : Pin) (Q : Pin → α → Prop) : Prop :=
  Raise.Meets (clocking level) p m Q fun _ _ => True

variable {σ α β γ : Type} {level : Bool} {m : Pin}

theorem binary_zero : Binary 0 := Or.inl rfl

theorem binary_one : Binary 1 := Or.inr rfl

/-! ### Rules -/

theorem Within.writesBinary {xfers : Prop} {r : BenchReq} (hr : Within xfers (Elsewhere LINE_EN) r) : WritesBinary r := by
  cases r with
  | gpioOpen offset output value => exact fun hline => absurd hline hr
  | gpioSet offset v => exact fun hline => absurd hline hr
  | _ => trivial

theorem Drives.mono {p : BenchM α} {Q R : Pin → α → Prop} (hp : Drives level p m Q) (himp : ∀ m' a, Q m' a → R m' a) :
    Drives level p m R :=
  Raise.Meets.mono hp himp fun _ _ _ => trivial

theorem drives_bind {p : BenchM α} {f : α → BenchM β} {Q : Pin → β → Prop}
    (h : Drives level p m fun m' a => Drives level (f a) m' Q) : Drives level (p >>= f) m Q :=
  Raise.meets_bind h

theorem drives_still {p : BenchM α} [hp : Confined False (Elsewhere LINE_EN) p] {Q : Pin → α → Prop} (h : ∀ a, Q m a) :
    Drives level p m Q := by
  apply hp.asks.meets _ h fun _ => trivial
  intro r hr
  refine ⟨⟨?_, hr.writesBinary⟩, Pin.after_elsewhere hr m⟩
  intro htransfer
  cases r with
  | spiXfer _ _ _ _ => exact hr.elim
  | _ => exact absurd htransfer Bool.false_ne_true

theorem still_bind {p : BenchM α} [Confined False (Elsewhere LINE_EN) p] {f : α → BenchM β} {Q : Pin → β → Prop}
    (h : ∀ a, Drives level (f a) m Q) : Drives level (p >>= f) m Q :=
  drives_bind (drives_still h)

/-- A part that leaves line 264 alone, run with the line held at the level. -/
theorem clocked_bind {p : BenchM α} [hp : Confined True (Elsewhere LINE_EN) p] {f : α → BenchM β} {Q : Pin → β → Prop}
    (h : ∀ a, Drives level (f a) ⟨true, level⟩ Q) : Drives level (p >>= f) ⟨true, level⟩ Q := by
  apply drives_bind
  apply hp.asks.meets _ h fun _ => trivial
  intro r hr
  exact ⟨⟨fun _ => rfl, hr.writesBinary⟩, Pin.after_elsewhere hr _⟩

/-- One request, after which the line stands as the answer says. -/
theorem ask_bind {r : BenchReq} {f : BenchOut r → BenchM β} {Q : Pin → β → Prop} (hbinary : WritesBinary r)
    (hquiet : r.isTransfer = false) (h : ∀ a, Drives level (f a) (m.after LINE_EN r (.ok a)) Q) :
    Drives level (ask r >>= f) m Q := by
  refine ⟨⟨fun htransfer => absurd (hquiet.symm.trans htransfer) Bool.false_ne_true, hbinary⟩, ?_⟩
  intro a _
  cases a with
  | ok a => exact h a
  | error e => trivial

theorem open_bind {offset v : Nat} {output : Bool} {f : GpioLine → BenchM β} {Q : Pin → β → Prop}
    (hbinary : WritesBinary (.gpioOpen offset output v))
    (h : Drives level (f ⟨offset⟩) (m.after LINE_EN (.gpioOpen offset output v) (.ok ())) Q) :
    Drives level (GpioLine.request offset output v >>= f) m Q := by
  refine ⟨⟨fun htransfer => absurd htransfer Bool.false_ne_true, hbinary⟩, ?_⟩
  intro a _
  cases a with
  | ok _ => exact h
  | error e => trivial

theorem request_bind {v : Nat} {f : GpioLine → BenchM β} {Q : Pin → β → Prop} (hv : Binary v)
    (h : Drives level (f ⟨LINE_EN⟩) ⟨true, v &&& 1 = 1⟩ Q) : Drives level (GpioLine.request LINE_EN true v >>= f) m Q :=
  open_bind (fun _ _ => hv) h

theorem irq_bind {f : GpioLine → BenchM β} {Q : Pin → β → Prop} (h : Drives level (f ⟨LINE_IRQ⟩) m Q) :
    Drives level (GpioLine.request LINE_IRQ >>= f) m Q := by
  apply open_bind fun hline => absurd hline irq_ne_en
  have hirq : Within False (Elsewhere LINE_EN) (.gpioOpen LINE_IRQ false 0) := irq_ne_en
  rw [Pin.after_elsewhere hirq]
  exact h

theorem set_bind {l : Bool} {v : Nat} {f : Unit → BenchM β} {Q : Pin → β → Prop} (hv : Binary v)
    (h : Drives level (f ()) ⟨true, v &&& 1 = 1⟩ Q) : Drives level (GpioLine.set ⟨LINE_EN⟩ v >>= f) ⟨true, l⟩ Q :=
  ask_bind (fun _ => hv) rfl fun _ => h

theorem close_bind {held l : Bool} {f : Unit → BenchM β} {Q : Pin → β → Prop}
    (h : Drives level (f ()) ⟨false, l⟩ Q) : Drives level (GpioLine.close ⟨LINE_EN⟩ >>= f) ⟨held, l⟩ Q :=
  ask_bind trivial rfl fun _ => h

theorem drives_each {f : γ → β → BenchM γ} {I : Pin → γ → Prop} {xs : List β}
    (hstep : ∀ m g x, x ∈ xs → I m g → Drives level (f g x) m I) {g : γ} (h : I m g) :
    Drives level (Raise.each f g xs) m I :=
  Raise.meets_each xs hstep h

/-- A loop whose turns take the line themselves and leave it in any state. -/
theorem drives_each_any {f : γ → β → BenchM γ} {xs : List β}
    (hstep : ∀ m g x, Drives level (f g x) m fun _ _ => True) {g : γ} :
    Drives level (Raise.each f g xs) m fun _ _ => True :=
  drives_each (fun m g x _ _ => hstep m g x) trivial

theorem drives_then {p : BenchM α} {f : α → BenchM β} {Q : Pin → β → Prop} (hp : Drives level p m fun _ _ => True)
    (hf : ∀ m a, Drives level (f a) m Q) : Drives level (p >>= f) m Q :=
  drives_bind (hp.mono fun m a _ => hf m a)

/-- What a script that keeps the contract has done at the end of any run. -/
theorem Drives.run {script : BenchM α} {Q : Pin → α → Prop} (h : Drives level script m Q) (R : Rig σ) (s : σ) :
    (R.run LINE_EN script ⟨s, m, []⟩).2.Clocked level ∧
      ∀ a, (R.run LINE_EN script ⟨s, m, []⟩).1 = .ok a → Q (R.run LINE_EN script ⟨s, m, []⟩).2.pin a := by
  have hstep : ∀ m (b : Stand σ) r, (b.pin = m ∧ b.Clocked level) → (clocking level).may m r →
      (clocking level).rely m r (handleRig LINE_EN R r b).1 ∧
        ((handleRig LINE_EN R r b).2.pin = (clocking level).next m r (handleRig LINE_EN R r b).1 ∧
          (handleRig LINE_EN R r b).2.Clocked level) := by
    rintro m b r ⟨rfl, hb⟩ hmay
    refine ⟨trivial, rfl, ?_⟩
    intro x hx
    rcases List.mem_append.mp hx with hx | hx
    · exact hb x hx
    · obtain rfl := List.mem_singleton.mp hx
      exact hmay.1
  have hstart : (⟨s, m, []⟩ : Stand σ).Clocked level := fun x hx => absurd hx List.not_mem_nil
  obtain ⟨m', ⟨rfl, hclocked⟩, hends⟩ := wp_run hstep h ⟨rfl, hstart⟩
  refine ⟨hclocked, ?_⟩
  intro a ha
  change Raise.Ends Q _ _ (R.run LINE_EN script ⟨s, m, []⟩).1 at hends
  rw [ha] at hends
  exact hends

/-! ### The sweeps with the line high -/

abbrev Powered (p : Pin) : Prop := p = ⟨true, true⟩

theorem pulse_bind {lowUs settleUs : Nat} {f : GpioLine → BenchM β} {Q : Pin → β → Prop}
    (h : Drives true (f ⟨LINE_RST⟩) ⟨true, true⟩ Q) :
    Drives true (do
      let g ← GpioLine.request LINE_RST true 1
      g.set 0
      sleep lowUs
      g.set 1
      sleep settleUs
      f g) m Q := by
  apply request_bind binary_one
  apply set_bind binary_zero
  refine still_bind fun _ => ?_
  apply set_bind binary_one
  exact still_bind fun _ => h

theorem bruteforce_drives : Drives true Bruteforce.main m fun _ _ => True := by
  refine still_bind fun _ => still_bind fun _ => still_bind fun _ => still_bind fun _ => still_bind fun _ => ?_
  refine pulse_bind (clocked_bind fun results => close_bind ?_)
  exact drives_still fun _ => trivial

theorem wider_reset_drives (settleUs : Nat) :
    Drives true (Wider.reset settleUs) m fun p g => Powered p ∧ g = ⟨LINE_RST⟩ :=
  pulse_bind ⟨rfl, rfl⟩

theorem wider_reset_bind {settleUs : Nat} {f : GpioLine → BenchM β} {Q : Pin → β → Prop}
    (h : Drives true (f ⟨LINE_RST⟩) ⟨true, true⟩ Q) : Drives true (Wider.reset settleUs >>= f) m Q := by
  apply drives_bind
  apply (wider_reset_drives settleUs).mono
  rintro p g ⟨rfl, rfl⟩
  exact h

theorem wider_trial_drives (settleUs gapUs readLen : Nat) (label : Label) (hits : List Hit) :
    Drives true (Wider.trial settleUs gapUs readLen label hits) m fun _ _ => True := by
  refine wider_reset_bind (still_bind fun s => clocked_bind fun rx => still_bind fun hits => still_bind fun _ => ?_)
  exact close_bind trivial

theorem wider_guardedTrial_drives (bits wordDelay : Nat) (label : Label) (failed : String) (hits : List Hit) :
    Drives true (Wider.guardedTrial bits wordDelay label failed hits) m fun _ _ => True := by
  refine wider_reset_bind (still_bind fun s => clocked_bind fun hits => still_bind fun _ => ?_)
  exact close_bind trivial

theorem wider_bitsTrial_drives (hits : List Hit) (bpw : Nat) :
    Drives true (Wider.bitsTrial hits bpw) m fun _ _ => True := by
  refine still_bind fun _ => still_bind fun ok => still_bind fun _ => ?_
  split
  · exact drives_still fun _ => trivial
  · exact wider_guardedTrial_drives bpw 0 _ _ hits

theorem wider_bitsAxis_drives (hits : List Hit) : Drives true (Wider.bitsAxis hits) m fun _ _ => True := by
  refine still_bind fun _ => drives_then (drives_each_any fun _ => wider_bitsTrial_drives) fun _ hits => ?_
  exact drives_still fun _ => trivial

theorem wider_hammerAxis_drives (hits : List Hit) : Drives true (Wider.hammerAxis hits) m fun _ _ => True := by
  refine still_bind fun _ => wider_reset_bind (still_bind fun s => clocked_bind fun _ => clocked_bind fun rx => ?_)
  exact still_bind fun hits => still_bind fun _ => close_bind trivial

theorem wider_drives : Drives true Wider.main m fun _ _ => True := by
  refine still_bind fun _ => still_bind fun _ => still_bind fun _ => still_bind fun _ => still_bind fun _ => ?_
  refine drives_then (still_bind fun _ => drives_each_any fun _ hits settle => ?_) fun _ hits => ?_
  · exact wider_trial_drives settle 2000 512 _ hits
  refine drives_then (still_bind fun _ => drives_each_any fun _ hits wd => ?_) fun _ hits => ?_
  · exact wider_guardedTrial_drives 8 wd _ _ hits
  refine drives_then (wider_bitsAxis_drives hits) fun _ hits => ?_
  refine drives_then (still_bind fun _ => drives_each_any fun _ hits gap => ?_) fun _ hits => ?_
  · exact wider_trial_drives 200000 gap 512 _ hits
  refine drives_then (still_bind fun _ => wider_trial_drives 200000 2000 8192 _ hits) fun _ hits => ?_
  refine drives_then (wider_hammerAxis_drives hits) fun _ hits => ?_
  exact drives_still fun _ => trivial

theorem dialects_drives : Drives true Dialects.main m fun _ _ => True := by
  refine still_bind fun _ => still_bind fun _ => still_bind fun _ => still_bind fun _ => ?_
  have hreset : Drives true Dialects.reset m fun p g => Powered p ∧ g = ⟨LINE_RST⟩ := pulse_bind ⟨rfl, rfl⟩
  apply drives_bind
  apply hreset.mono
  rintro p g ⟨rfl, rfl⟩
  refine still_bind fun s => clocked_bind fun hits => clocked_bind fun hits => clocked_bind fun hits => ?_
  refine clocked_bind fun hits => clocked_bind fun hits => clocked_bind fun hits => still_bind fun _ => close_bind ?_
  exact drives_still fun _ => trivial

theorem framing_drives : Drives true Framing.main m fun _ _ => True := by
  refine still_bind fun _ => still_bind fun _ => still_bind fun _ => still_bind fun _ => still_bind fun _ => ?_
  refine still_bind fun _ => pulse_bind (clocked_bind fun wins => close_bind (still_bind fun _ => ?_))
  exact drives_still fun _ => trivial

/-- Each preparation of `sigfrodr_exact.py` ends with the line high. -/
theorem sigfrodr_prep_drives {prep : String × (GpioLine → BenchM Unit)} {l : Bool}
    (hprep : prep ∈ [("no reset", Sigfrodr.noReset), ("true power cycle, 600 ms", Sigfrodr.trueCycle),
      ("true power cycle, 3 s", Sigfrodr.longSettle)]) :
    Drives true (prep.2 ⟨LINE_EN⟩) ⟨true, l⟩ fun p _ => Powered p := by
  simp only [List.mem_cons, List.not_mem_nil, or_false] at hprep
  rcases hprep with rfl | rfl | rfl
  · exact set_bind binary_one (drives_still fun _ => rfl)
  · exact set_bind binary_zero (still_bind fun _ => set_bind binary_one (drives_still fun _ => rfl))
  · exact set_bind binary_zero (still_bind fun _ => set_bind binary_one (drives_still fun _ => rfl))

theorem sigfrodr_runRow_drives {label : Label} {irq : GpioLine} {speed scale : Nat} {preamble : Bytes}
    {prep : GpioLine → BenchM Unit} (hprep : Drives true (prep ⟨LINE_EN⟩) m fun p _ => Powered p) :
    Drives true (Sigfrodr.runRow label ⟨LINE_EN⟩ irq speed scale preamble prep) m fun p _ => Powered p := by
  apply drives_bind
  apply hprep.mono
  rintro p _ rfl
  refine still_bind fun control => still_bind fun spi => clocked_bind fun out => still_bind fun _ => ?_
  exact still_bind fun _ => rfl

/-- A row of the table, begun with the line held at any level. -/
theorem sigfrodr_row_drives {label : Label} {irq : GpioLine} {speed scale : Nat} {preamble : Bytes}
    {prep : String × (GpioLine → BenchM Unit)} {rows : List Sigfrodr.Row}
    (hprep : prep ∈ [("no reset", Sigfrodr.noReset), ("true power cycle, 600 ms", Sigfrodr.trueCycle),
      ("true power cycle, 3 s", Sigfrodr.longSettle)])
    (h : m.held = true) :
    Drives true (do
      let row ← Sigfrodr.runRow label ⟨LINE_EN⟩ irq speed scale preamble prep.2
      pure (rows ++ [row])) m fun p _ => p.held = true := by
  obtain ⟨held, l⟩ := m
  obtain rfl : held = true := h
  apply drives_bind
  apply (sigfrodr_runRow_drives (sigfrodr_prep_drives hprep)).mono
  rintro p row rfl
  rfl

theorem sigfrodr_table_drives {irq : GpioLine} (h : m.held = true) :
    Drives true (Sigfrodr.table ⟨LINE_EN⟩ irq) m fun p _ => p.held = true := by
  unfold Sigfrodr.table
  apply drives_each _ h
  intro m rows prep hprep h
  apply drives_each _ h
  intro m rows speed _ h
  apply drives_each _ h
  intro m rows scale _ h
  apply drives_each _ h
  intro m rows pre _ h
  exact sigfrodr_row_drives hprep h

theorem sigfrodr_drives : Drives true Sigfrodr.main m fun _ _ => True := by
  refine still_bind fun _ => still_bind fun _ => still_bind fun _ => still_bind fun _ => still_bind fun _ => ?_
  refine irq_bind (still_bind fun v => still_bind fun _ => still_bind fun _ => irq_bind (still_bind fun found => ?_))
  have hfound : Binary (if found then 1 else 0) := by
    cases found
    · exact binary_zero
    · exact binary_one
  refine request_bind hfound (drives_bind ((sigfrodr_table_drives rfl).mono ?_))
  rintro ⟨held, l⟩ rows (rfl : held = true)
  have hcontrol : Drives true (Sigfrodr.controlCheck ⟨LINE_EN⟩ ⟨LINE_IRQ⟩) ⟨true, l⟩ fun p _ => Powered p := by
    apply set_bind binary_zero
    refine still_bind fun _ => still_bind fun off => ?_
    apply set_bind binary_one
    exact still_bind fun _ => still_bind fun on => drives_still fun _ => rfl
  apply drives_bind
  apply hcontrol.mono
  rintro p _ rfl
  refine close_bind (still_bind fun _ => ?_)
  exact drives_still fun _ => trivial

/-! ### Under the wrapper -/

/-- The sweeps written when line 264 was taken for an enable. -/
inductive Sweep where
  | bruteforce
  | wider
  | dialects
  | sigfrodrExact
  | framing
  deriving DecidableEq, Repr

def Sweep.main : Sweep → BenchM Unit
  | .bruteforce => Bruteforce.main
  | .wider => Wider.main
  | .dialects => Dialects.main
  | .sigfrodrExact => Sigfrodr.main
  | .framing => Framing.main

theorem Sweep.drives (w : Sweep) (m : Pin) : Drives true w.main m fun _ _ => True := by
  cases w with
  | bruteforce => exact bruteforce_drives
  | wider => exact wider_drives
  | dialects => exact dialects_drives
  | sigfrodrExact => exact sigfrodr_drives
  | framing => exact framing_drives

theorem Drives.writesBinary {script : BenchM α} {Q : Pin → α → Prop} (h : Drives level script m Q) :
    Raise.Asks WritesBinary script :=
  only_of_wp h (fun _ _ _ => trivial) fun _ _ hmay => hmay.2

theorem isTransfer_invertRequest (r : BenchReq) : (invertRequest r).isTransfer = r.isTransfer := by
  cases r <;> rfl

/-- A script that clocks the bus at one level clocks it at the other under the wrapper. -/
theorem Drives.lowstate_run {script : BenchM α} {Q : Pin → α → Prop} (h : Drives level script m.flip Q) (R : Rig σ)
    (s : σ) : (R.run LINE_EN (lowstate script) ⟨s, m, []⟩).2.Clocked (!level) := by
  have hflip : (⟨s, m, []⟩ : Stand σ) = Stand.flip ⟨s, m.flip, []⟩ := by
    simp only [Stand.flip, Pin.flip, Bool.not_not, List.map_nil]
  have hrun : R.run LINE_EN (lowstate script) (Stand.flip ⟨s, m.flip, []⟩) = _ :=
    run_lowstate R h.writesBinary ⟨s, m.flip, []⟩
  rw [hflip, hrun]
  intro x hx htransfer
  obtain ⟨y, hy, rfl⟩ := List.mem_map.mp hx
  have hlevel := (h.run R.inverted s).1 y hy (isTransfer_invertRequest y.2 ▸ htransfer)
  rw [hlevel]
  rfl

/-- **The sweeps saw the sensor with line 264 high, and under the wrapper with it low.** In every run of each, whatever the board answers and whatever raises, every transfer is made while the script holds the line, at high; in every run under `lowstate.py`, at low. -/
theorem sweeps_level (w : Sweep) (R : Rig σ) (s : σ) (p : Pin) :
    (R.run LINE_EN w.main ⟨s, p, []⟩).2.Clocked true ∧ (R.run LINE_EN (lowstate w.main) ⟨s, p, []⟩).2.Clocked false :=
  ⟨((w.drives p).run R s).1, (w.drives p.flip).lowstate_run R s⟩

/-! ### The tests with the line low -/

/-- The line released, and last driven low. -/
abbrev LeftLow (p : Pin) : Prop := p = ⟨false, false⟩

theorem holdLow_bind {settleUs : Nat} {f : GpioLine → BenchM β} {Q : Pin → β → Prop}
    (h : Drives false (f ⟨LINE_EN⟩) ⟨true, false⟩ Q) : Drives false (holdLow settleUs >>= f) m Q := by
  have hhold : Drives false (holdLow settleUs) m fun p g => p = ⟨true, false⟩ ∧ g = ⟨LINE_EN⟩ := by
    apply request_bind binary_one
    refine still_bind fun _ => ?_
    apply set_bind binary_zero
    exact still_bind fun _ => ⟨rfl, rfl⟩
  apply drives_bind
  apply hhold.mono
  rintro p g ⟨rfl, rfl⟩
  exact h

theorem control_bind {l : Bool} {fmt : String} {polls : Nat} {f : Unit → BenchM β} {Q : Pin → β → Prop}
    (h : Drives false (f ()) ⟨false, false⟩ Q) :
    Drives false (control ⟨LINE_EN⟩ ⟨LINE_IRQ⟩ fmt polls >>= f) ⟨true, l⟩ Q := by
  have hcontrol : Drives false (control ⟨LINE_EN⟩ ⟨LINE_IRQ⟩ fmt polls) ⟨true, l⟩ fun p _ => LeftLow p := by
    apply set_bind binary_one
    refine still_bind fun hi => ?_
    apply set_bind binary_zero
    refine still_bind fun _ => still_bind fun v => still_bind fun _ => ?_
    apply close_bind
    exact drives_still fun _ => rfl
  apply drives_bind
  apply hcontrol.mono
  rintro p _ rfl
  exact h

theorem sweepLow_drives (polls : Nat) : Drives false (SweepLow.main polls) m fun p _ => LeftLow p := by
  refine still_bind fun _ => still_bind fun _ => still_bind fun _ => irq_bind (holdLow_bind ?_)
  refine still_bind fun v => still_bind fun _ => clocked_bind fun acc => control_bind ?_
  exact drives_still fun _ => rfl

theorem csTimingLow_drives (polls : Nat) : Drives false (CsTimingLow.main polls) m fun p _ => LeftLow p := by
  refine still_bind fun _ => still_bind fun _ => still_bind fun _ => irq_bind (holdLow_bind ?_)
  refine still_bind fun v => still_bind fun _ => still_bind fun spi => clocked_bind fun _ => clocked_bind fun _ => ?_
  refine still_bind fun _ => clocked_bind fun hits => control_bind ?_
  exact drives_still fun _ => rfl

theorem timed_bind {l : Bool} {v ms polls : Nat} {fmt : String} {f : Unit → BenchM β} {Q : Pin → β → Prop}
    (hv : Binary v) (h : Drives false (f ()) ⟨true, v &&& 1 = 1⟩ Q) :
    Drives false (ResetLow.timed ⟨LINE_EN⟩ ⟨LINE_IRQ⟩ v ms fmt polls >>= f) ⟨true, l⟩ Q := by
  have htimed : Drives false (ResetLow.timed ⟨LINE_EN⟩ ⟨LINE_IRQ⟩ v ms fmt polls) ⟨true, l⟩
      fun p _ => p = ⟨true, v &&& 1 = 1⟩ := by
    apply set_bind hv
    exact still_bind fun lat => drives_still fun _ => rfl
  apply drives_bind
  apply htimed.mono
  rintro p _ rfl
  exact h

theorem resetLow_drives (polls : Nat) : Drives false (ResetLow.main polls) m fun p _ => LeftLow p := by
  refine still_bind fun _ => still_bind fun _ => still_bind fun _ => still_bind fun _ => ?_
  refine irq_bind (still_bind fun v => still_bind fun _ => request_bind binary_one (still_bind fun _ => ?_))
  refine still_bind fun v => still_bind fun _ => timed_bind binary_zero (still_bind fun _ => still_bind fun v => ?_)
  refine still_bind fun _ => clocked_bind fun hits => still_bind fun _ => timed_bind binary_one ?_
  refine still_bind fun _ => timed_bind binary_zero (still_bind fun _ => still_bind fun v => still_bind fun _ => ?_)
  apply close_bind
  exact drives_still fun _ => rfl

inductive LowTest where
  | sweepLow
  | csTimingLow
  | resetLow
  deriving DecidableEq, Repr

def LowTest.main (polls : Nat) : LowTest → BenchM Unit
  | .sweepLow => SweepLow.main polls
  | .csTimingLow => CsTimingLow.main polls
  | .resetLow => ResetLow.main polls

/-- **The last tests keep line 264 low and leave it low.** In every run of each every transfer is made while the script holds the line, at low, although the script drives it high before and after; and a run that does not raise leaves it released, last driven low. -/
theorem lowTests_level (t : LowTest) (polls : Nat) (R : Rig σ) (s : σ) (p : Pin) :
    (R.run LINE_EN (t.main polls) ⟨s, p, []⟩).2.Clocked false ∧
      ((R.run LINE_EN (t.main polls) ⟨s, p, []⟩).1 = .ok () → LeftLow (R.run LINE_EN (t.main polls) ⟨s, p, []⟩).2.pin) := by
  have hdrives : Drives false (t.main polls) p fun p _ => LeftLow p := by
    cases t with
    | sweepLow => exact sweepLow_drives polls
    | csTimingLow => exact csTimingLow_drives polls
    | resetLow => exact resetLow_drives polls
  exact ⟨(hdrives.run R s).1, (hdrives.run R s).2 ()⟩

end GoodixSpi.Bench
