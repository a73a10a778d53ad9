import GoodixSpi.Bench.Lowstate

/-!
# The wrapper is an inverter on the board

`lowstate.py` changes the methods of a class; what is wanted is a board on which line 264 reaches the sensor through an inverter. The two are the same for a script that writes zero or an odd number to that line. The class asks whether a value is true and the chip takes its lowest bit, so a nonzero even value would come out differently.
-/

namespace GoodixSpi.Bench

open Interaction Tools

/-- What the wrapper makes of a request. -/
def invertRequest : BenchReq → BenchReq
  | .gpioOpen offset output value => .gpioOpen offset output (if offset = invertedLine ∧ output then inv value else value)
  | .gpioSet offset v => .gpioSet offset (if offset = invertedLine then inv v else v)
  | r => r

def Pin.flip (p : Pin) : Pin := { p with level := !p.level }

/-- The stand as the wrapper sees it: the line at the opposite level, now and at every request. -/
def Stand.flip {σ : Type} (b : Stand σ) : Stand σ where
  env := b.env
  pin := b.pin.flip
  log := b.log.map fun x => (x.1.flip, invertRequest x.2)

/-- The level that an inverter makes of the lowest bit of `v`. -/
def complement (v : Nat) : Nat := 1 - v % 2

/-- The rig with an inverter in line 264. -/
def Rig.inverted {σ : Type} (R : Rig σ) : Rig σ where
  answer p r s :=
    match r with
    | .gpioOpen offset output value =>
        R.answer p.flip (.gpioOpen offset output (if offset = invertedLine ∧ output then complement value else value)) s
    | .gpioSet offset v => R.answer p.flip (.gpioSet offset (if offset = invertedLine then complement v else v)) s
    | .gpioGet offset =>
        let a := R.answer p.flip (.gpioGet offset) s
        (a.1.map fun v => if offset = invertedLine then !v else v, a.2)
    | r => R.answer p.flip r s

/-- True and false as the wrapper reads them are one and zero as the chip reads them. -/
def Binary (v : Nat) : Prop := v = 0 ∨ v % 2 = 1

/-- What is written to line 264 is binary. -/
def WritesBinary : BenchReq → Prop
  | .gpioOpen offset output value => offset = invertedLine → output = true → Binary value
  | .gpioSet offset v => offset = invertedLine → Binary v
  | _ => True

theorem Binary.inv_eq {v : Nat} (h : Binary v) : inv v = complement v := by
  rw [inv, complement]
  rcases h with rfl | hodd
  · rfl
  · rw [if_pos (by omega), hodd]

theorem Binary.level {v : Nat} (h : Binary v) : decide (inv v &&& 1 = 1) = !decide (v &&& 1 = 1) := by
  rw [h.inv_eq, complement, Nat.and_one_is_mod, Nat.and_one_is_mod]
  rcases Nat.mod_two_eq_zero_or_one v with hv | hv <;> rw [hv] <;> rfl

variable {σ α : Type}

@[simp] theorem Pin.flip_held (p : Pin) : p.flip.held = p.held := rfl

@[simp] theorem Pin.flip_level (p : Pin) : p.flip.level = !p.level := rfl

theorem after_flip_open (p : Pin) {offset : Nat} {output : Bool} {value : Nat}
    (hr : WritesBinary (.gpioOpen offset output value)) (a : Except Exn Unit) :
    p.flip.after invertedLine (.gpioOpen offset output (if offset = invertedLine ∧ output then inv value else value)) a =
      (p.after invertedLine (.gpioOpen offset output value) a).flip := by
  cases a with
  | error e => rfl
  | ok _ =>
      by_cases hline : offset = invertedLine
      · cases output with
        | true =>
            rw [if_pos ⟨hline, rfl⟩]
            simp only [Pin.after, if_pos hline, if_true, (hr hline rfl).level, Pin.flip]
        | false => simp only [Pin.after, if_pos hline, Bool.false_eq_true, if_false, Pin.flip]
      · simp only [Pin.after, if_neg hline]

theorem after_flip_set (p : Pin) {offset v : Nat} (hr : WritesBinary (.gpioSet offset v)) (a : Except Exn Unit) :
    p.flip.after invertedLine (.gpioSet offset (if offset = invertedLine then inv v else v)) a =
      (p.after invertedLine (.gpioSet offset v) a).flip := by
  cases a with
  | error e => rfl
  | ok _ =>
      by_cases hline : offset = invertedLine
      · rw [if_pos hline]
        cases hheld : p.held with
        | true => simp only [Pin.after, hheld, hline, and_self, if_true, (hr hline).level, Pin.flip]
        | false => simp only [Pin.after, Pin.flip_held, hheld, Bool.false_eq_true, and_false, if_false]
      · simp only [Pin.after, hline, false_and, if_false]

theorem after_flip_close (p : Pin) (offset : Nat) (a : Except Exn Unit) :
    p.flip.after invertedLine (.gpioClose offset) a = (p.after invertedLine (.gpioClose offset) a).flip := by
  by_cases hline : offset = invertedLine
  · simp only [Pin.after, if_pos hline, Pin.flip]
  · simp only [Pin.after, if_neg hline]

theorem Stand.flip_step (b : Stand σ) (r : BenchReq) (e : σ) (p : Pin) :
    Stand.flip ⟨e, p, b.log ++ [(b.pin, r)]⟩ = ⟨e, p.flip, b.flip.log ++ [(b.flip.pin, invertRequest r)]⟩ := by
  simp only [Stand.flip, List.map_append, List.map_cons, List.map_nil]

theorem invert_value {v : Nat} {c : Prop} [Decidable c] (h : c → Binary v) :
    (if c then inv v else v) = if c then complement v else v := by
  by_cases hc : c
  · rw [if_pos hc, if_pos hc, (h hc).inv_eq]
  · rw [if_neg hc, if_neg hc]

theorem run_invertEnable (R : Rig σ) (r : BenchReq) (b : Stand σ) (hr : WritesBinary r) :
    Prog.run (handleRig invertedLine R) (invertEnable r) b.flip =
      ((handleRig invertedLine R.inverted r b).1, (handleRig invertedLine R.inverted r b).2.flip) := by
  cases r with
  | gpioOpen offset output value =>
      have hvalue := invert_value (c := offset = invertedLine ∧ output = true) fun h => hr h.1 h.2
      rw [handleRig, Stand.flip_step, ← after_flip_open b.pin hr, Rig.inverted]
      dsimp only
      generalize (if offset = invertedLine ∧ output = true then complement value else value) = x at hvalue ⊢
      subst hvalue
      rfl
  | gpioSet offset v =>
      have hvalue := invert_value (c := offset = invertedLine) hr
      rw [handleRig, Stand.flip_step, ← after_flip_set b.pin hr, Rig.inverted]
      dsimp only
      generalize (if offset = invertedLine then complement v else v) = x at hvalue ⊢
      subst hvalue
      rfl
  | gpioGet offset =>
      -- The answer is changed on its way back, if there is one.
      have hrun : Prog.run (handleRig invertedLine R) (invertEnable (.gpioGet offset)) b.flip =
          Prog.run (handleRig invertedLine R)
            (Raise.andThen (fun v => (pure (if offset = invertedLine then !v else v) : BenchM Bool))
              (R.answer b.pin.flip (.gpioGet offset) b.env).1)
            (handleRig invertedLine R (.gpioGet offset) b.flip).2 := rfl
      rw [hrun, handleRig, handleRig, Stand.flip_step, Rig.inverted]
      cases ha : (R.answer b.pin.flip (.gpioGet offset) b.env).1 with
      | ok v =>
          dsimp only
          rw [ha]
          rfl
      | error e =>
          dsimp only
          rw [ha]
          rfl
  | gpioClose offset =>
      rw [handleRig, Stand.flip_step, ← after_flip_close]
      rfl
  | _ =>
      rw [handleRig, Stand.flip_step]
      rfl

theorem run_lowstate (R : Rig σ) {script : BenchM α} (hscript : Raise.Asks WritesBinary script) (b : Stand σ) :
    R.run invertedLine (lowstate script) b.flip =
      ((R.inverted.run invertedLine script b).1, (R.inverted.run invertedLine script b).2.flip) :=
  Prog.run_translate (fun r t hr => run_invertEnable R r t hr) hscript b

/-! ### The end of the wrapper -/

theorem lowstate_bind {β : Type} (p : BenchM α) (f : α → BenchM β) :
    lowstate (p >>= f) = lowstate p >>= fun a => lowstate (f a) :=
  Raise.translate_bind invertEnable p f

theorem lowstate_get (l : GpioLine) (h : l.offset ≠ invertedLine) : lowstate l.get = l.get := by
  have hget : lowstate l.get = l.get >>= fun v => (pure (if l.offset = invertedLine then !v else v) : BenchM Bool) :=
    Raise.translate_call invertEnable (.gpioGet l.offset)
  rw [hget]
  simp only [if_neg h]
  exact Raise.bind_pure _

theorem lowstate_print (fmt : String) (args : List Shown) : lowstate (print fmt args) = print fmt args :=
  Raise.translate_call invertEnable (.print fmt args)

theorem request_bind_eq (offset : Nat) (output : Bool) (value : Nat) (f : GpioLine → BenchM α) :
    (GpioLine.request offset output value >>= f) = ask (.gpioOpen offset output value) >>= fun _ => f ⟨offset⟩ := by
  change Prog.ask _ _ = Prog.ask _ _
  congr 1
  funext a
  cases a <;> rfl

theorem lowstate_report : lowstate lowstateReport = lowstateReport := by
  have hirq : LINE_IRQ ≠ invertedLine := by decide
  have hopen : lowstate (ask (.gpioOpen LINE_IRQ false 0)) = ask (.gpioOpen LINE_IRQ false 0) :=
    Raise.translate_call invertEnable _
  unfold lowstateReport
  rw [request_bind_eq, lowstate_bind, hopen]
  congr 1
  funext _
  rw [lowstate_bind, lowstate_get ⟨LINE_IRQ⟩ hirq]
  congr 1
  funext v
  rw [lowstate_bind, lowstate_print]
  congr 1

theorem asks_lowstateReport : Raise.Asks WritesBinary lowstateReport := by
  have hirq : LINE_IRQ ≠ invertedLine := by decide
  unfold lowstateReport
  rw [request_bind_eq]
  apply (Raise.asks_call fun h => absurd h hirq).bind
  intro _
  apply (Raise.asks_call trivial).bind
  intro v
  exact (Raise.asks_call trivial).bind fun _ => Raise.asks_call trivial

theorem lowstateMain_eq (name : String) (script : BenchM Unit) :
    lowstateMain name script = lowstate (do
      lowstateBanner name
      script
      lowstateReport) := by
  rw [lowstate_bind, lowstate_bind, lowstate_report]
  rfl

/-- **A script under the wrapper is the script on a board with an inverter.** On every rig, for every script that writes zero or an odd number to line 264, the two runs end alike, the rig in the same state, and the line and the record of requests as seen from the two sides of the inverter. -/
theorem lowstateMain_run (R : Rig σ) (name : String) {script : BenchM Unit}
    (hscript : Raise.Asks WritesBinary script) (b : Stand σ) :
    let unwrapped := R.inverted.run invertedLine (do
      lowstateBanner name
      script
      lowstateReport) b
    R.run invertedLine (lowstateMain name script) b.flip = (unwrapped.1, unwrapped.2.flip) := by
  rw [lowstateMain_eq]
  apply run_lowstate
  exact (Raise.asks_call trivial).bind fun _ => hscript.bind fun _ => asks_lowstateReport

/-- A pulse that a script means to end high. -/
def risingPulse : BenchM Unit := do
  let g ← GpioLine.request invertedLine true 1
  g.set 0
  g.set 1

theorem asks_risingPulse : Raise.Asks WritesBinary risingPulse := by
  unfold risingPulse
  rw [request_bind_eq]
  apply (Raise.asks_call fun _ _ => Or.inr rfl).bind
  intro _
  apply (Raise.asks_call fun _ => Or.inl rfl).bind
  intro _
  exact Raise.asks_call fun _ => Or.inr rfl

theorem lowstateMain_run_pulse :
    idleRig.run invertedLine (lowstateMain "pulse" risingPulse) (Stand.flip ⟨(), ⟨false, true⟩, []⟩) =
      ((idleRig.inverted.run invertedLine (do
          lowstateBanner "pulse"
          risingPulse
          lowstateReport) ⟨(), ⟨false, true⟩, []⟩).1,
        (idleRig.inverted.run invertedLine (do
          lowstateBanner "pulse"
          risingPulse
          lowstateReport) ⟨(), ⟨false, true⟩, []⟩).2.flip) :=
  lowstateMain_run idleRig "pulse" asks_risingPulse ⟨(), ⟨false, true⟩, []⟩

example : (idleRig.run invertedLine (lowstateMain "pulse" risingPulse) ⟨(), ⟨false, false⟩, []⟩).2.pin = ⟨true, false⟩ :=
  rfl

end GoodixSpi.Bench
