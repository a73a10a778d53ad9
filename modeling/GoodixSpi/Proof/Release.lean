import GoodixSpi.Bench.Bringup
import GoodixSpi.Proof.Confined

/-!
# Who holds line 264

`refseq.py` and `recover_probe.py` try one variant after the other, and a variant may return with the line held, or raise. A line that is held cannot be requested again, so what one variant leaves behind decides whether the next one runs at all. The contract `owning` admits a request for the line only when it is free, and setting or closing it only when it is held.
-/

set_option synthInstance.maxSize 1000

namespace GoodixSpi.Bench

open Wire Interaction Tools

/-- The line is requested when free, and set or closed when held. -/
def Proper (p : Pin) : BenchReq → Prop
  | .gpioOpen offset _ _ => offset = LINE_RST → p.held = false
  | .gpioSet offset _ => offset = LINE_RST → p.held = true
  | .gpioClose offset => offset = LINE_RST → p.held = true
  | _ => True

/-- Setting a line that is held and looking for a path do not raise, and files raise nothing but `OSError`. -/
def Dependable (p : Pin) (r : BenchReq) (a : Except Exn (BenchOut r)) : Prop :=
  match r with
  | .gpioSet _ _ => p.held = true → ∃ v, a = .ok v
  | .pathExists _ | .print _ _ | .sleep _ => ∃ v, a = .ok v
  | .readFile _ | .writeFile _ _ => ∀ e, a = .error e → e.isOsError = true
  | _ => True

def owning : Contract BenchReq (fun r => Except Exn (BenchOut r)) Pin where
  may := Proper
  rely := Dependable
  next p r a := p.after LINE_RST r a

/-- A part that does not raise, and leaves line 264 alone. -/
class Sound {α : Type} (p : BenchM α) : Prop where
  meets : ∀ (m : Pin) (Q : Pin → α → Prop) (E : Pin → Exn → Prop), (∀ a, Q m a) → Raise.Meets owning p m Q E

variable {σ α β γ : Type} {m : Pin}

/-! ### Parts that do not raise -/

instance (a : α) : Sound (pure a : BenchM α) := ⟨fun _ _ _ h => h a⟩

instance {p : BenchM α} {f : α → BenchM β} [hp : Sound p] [hf : ∀ a, Sound (f a)] : Sound (p >>= f) where
  meets m Q E h := Raise.meets_bind (hp.meets m _ E fun a => (hf a).meets m Q E h)

instance {c : Prop} [Decidable c] {p q : BenchM α} [hp : Sound p] [hq : Sound q] : Sound (if c then p else q) := by
  split
  · exact hp
  · exact hq

instance {f : γ → β → BenchM γ} [hf : ∀ g x, Sound (f g x)] (g : γ) (xs : List β) : Sound (Raise.each f g xs) := by
  induction xs generalizing g with
  | nil => exact (inferInstance : Sound (pure g : BenchM γ))
  | cons x xs ih => exact (inferInstance : Sound (f g x >>= fun g' => Raise.each f g' xs))

theorem after_ask {r : BenchReq} (hr : r.neutral = true) (p : Pin) (a : Except Exn (BenchOut r)) :
    p.after LINE_RST r a = p := by
  have helsewhere : Within True (Elsewhere LINE_RST) r := BenchReq.within_of_neutral hr
  exact Pin.after_elsewhere helsewhere p a

theorem Within.proper {r : BenchReq} (hr : Within True (Elsewhere LINE_RST) r) (p : Pin) : Proper p r := by
  cases r with
  | gpioOpen _ _ _ => exact fun hline => absurd hline hr
  | gpioSet _ _ => exact fun hline => absurd hline hr
  | gpioClose _ => exact fun hline => absurd hline hr
  | _ => trivial

theorem proper_ask {r : BenchReq} (hr : r.neutral = true) (p : Pin) : Proper p r :=
  Within.proper (BenchReq.within_of_neutral hr) p

theorem sound_ask {r : BenchReq} (hr : r.neutral = true) (hok : ∀ p a, Dependable p r a → ∃ v, a = .ok v) : Sound (ask r) := by
  constructor
  intro m Q E h
  refine Raise.meets_call (proper_ask hr m) ?_ ?_
  · intro a _
    change Q (m.after LINE_RST r (.ok a)) a
    rw [after_ask hr]
    exact h a
  · intro e he
    obtain ⟨v, hv⟩ := hok m _ he
    cases hv

instance (fmt : String) (args : List Shown) : Sound (print fmt args) := sound_ask rfl fun _ _ h => h
instance (us : Nat) : Sound (sleep us) := sound_ask rfl fun _ _ h => h
instance (path : String) : Sound (ask (.pathExists path)) := sound_ask rfl fun _ _ h => h

/-- A file operation whose `OSError` is handled. -/
theorem sound_file {r : BenchReq} {caught : Exn → BenchM β} {otherwise : BenchOut r → BenchM β}
    (hr : r.neutral = true) (hfile : ∀ p a, Dependable p r a → ∀ e, a = .error e → e.isOsError = true)
    [hc : ∀ e, Sound (caught e)] [ho : ∀ a, Sound (otherwise a)] :
    Sound (Raise.tryExcept Exn.isOsError (ask r) caught otherwise) := by
  constructor
  intro m Q E h
  apply Raise.meets_tryExcept
  refine Raise.meets_call (proper_ask hr m) ?_ ?_
  · intro a _
    change Raise.Meets owning (otherwise a) (m.after LINE_RST r (.ok a)) Q E
    rw [after_ask hr]
    exact (ho a).meets m Q E h
  · intro e he
    change if e.isOsError = true then Raise.Meets owning (caught e) (m.after LINE_RST r (.error e)) Q E else
      E (m.after LINE_RST r (.error e)) e
    rw [if_pos (hfile m _ he e rfl), after_ask hr]
    exact (hc e).meets m Q E h

instance (path : String) {caught : Exn → BenchM β} {otherwise : String → BenchM β} [∀ e, Sound (caught e)]
    [∀ a, Sound (otherwise a)] : Sound (Raise.tryExcept Exn.isOsError (ask (.readFile path)) caught otherwise) :=
  sound_file rfl fun _ _ h => h

instance (path val : String) {caught : Exn → BenchM β} {otherwise : Unit → BenchM β} [∀ e, Sound (caught e)]
    [∀ a, Sound (otherwise a)] : Sound (Raise.tryExcept Exn.isOsError (ask (.writeFile path val)) caught otherwise) :=
  sound_file rfl fun _ _ h => h

instance (tag : String) : Sound (Refseq.pads tag) := by
  unfold Refseq.pads
  infer_instance

instance (fmt name : String) (speed : Nat) : Sound (Refseq.banner fmt name speed) := by
  unfold Refseq.banner
  infer_instance

instance (path val : String) : Sound (RecoverProbe.w path val) := by
  unfold RecoverProbe.w
  infer_instance

instance : Sound RecoverProbe.unbind := by
  unfold RecoverProbe.unbind
  infer_instance

instance : Sound RecoverProbe.rebind := by
  unfold RecoverProbe.rebind
  infer_instance

instance : Sound RecoverProbe.bind := by
  unfold RecoverProbe.bind
  infer_instance

/-! ### Rules -/

/-- A part of a script: it ends in `Q`, or raises with the line free. -/
def Owns {α : Type} (p : BenchM α) (m : Pin) (Q : Pin → α → Prop) : Prop :=
  Raise.Meets owning p m Q fun m' _ => m'.held = false

theorem Owns.mono {p : BenchM α} {Q R : Pin → α → Prop} (hp : Owns p m Q) (himp : ∀ m' a, Q m' a → R m' a) :
    Owns p m R :=
  Raise.Meets.mono hp himp fun _ _ h => h

theorem owns_bind {p : BenchM α} {f : α → BenchM β} {Q : Pin → β → Prop}
    (h : Owns p m fun m' a => Owns (f a) m' Q) : Owns (p >>= f) m Q :=
  Raise.meets_bind h

theorem sound_bind {p : BenchM α} [hp : Sound p] {f : α → BenchM β} {Q : Pin → β → Prop} (h : ∀ a, Owns (f a) m Q) :
    Owns (p >>= f) m Q :=
  owns_bind (hp.meets m _ _ h)

/-- A part that leaves the line alone, run with the line free. -/
theorem owns_idle {p : BenchM α} [hp : Confined True (Elsewhere LINE_RST) p] (hm : m.held = false) {Q : Pin → α → Prop}
    (h : ∀ a, Q m a) : Owns p m Q :=
  hp.asks.meets (fun _ hr => ⟨hr.proper m, Pin.after_elsewhere hr m⟩) h fun _ => hm

theorem idle_bind {p : BenchM α} [Confined True (Elsewhere LINE_RST) p] {f : α → BenchM β} {Q : Pin → β → Prop}
    (hm : m.held = false) (h : ∀ a, Owns (f a) m Q) : Owns (p >>= f) m Q :=
  owns_bind (owns_idle hm h)

theorem take_bind {v : Nat} {f : GpioLine → BenchM β} {Q : Pin → β → Prop} (hm : m.held = false)
    (h : ∀ m, m.held = true → Owns (f ⟨LINE_RST⟩) m Q) : Owns (GpioLine.request LINE_RST true v >>= f) m Q := by
  refine ⟨fun _ => hm, ?_⟩
  intro a _
  cases a with
  | ok _ => exact h _ rfl
  | error e => exact hm

theorem write_bind {v : Nat} {f : Unit → BenchM β} {Q : Pin → β → Prop} (hm : m.held = true)
    (h : ∀ m, m.held = true → Owns (f ()) m Q) : Owns (GpioLine.set ⟨LINE_RST⟩ v >>= f) m Q := by
  refine ⟨fun _ => hm, ?_⟩
  intro a ha
  obtain ⟨u, rfl⟩ := ha hm
  apply h
  change (if LINE_RST = LINE_RST ∧ m.held = true then { m with level := v &&& 1 = 1 } else m).held = true
  rw [if_pos ⟨rfl, hm⟩]
  exact hm

/-- A close frees the line also when it raises. -/
theorem meets_close {Q : Pin → Unit → Prop} {E : Pin → Exn → Prop} (hm : m.held = true)
    (hok : ∀ m, m.held = false → Q m ()) (herr : ∀ m e, m.held = false → E m e) :
    Raise.Meets owning (GpioLine.close ⟨LINE_RST⟩) m Q E :=
  Raise.meets_call (fun _ => hm) (fun _ _ => hok _ rfl) fun e _ => herr _ e rfl

theorem drop_bind {f : Unit → BenchM β} {Q : Pin → β → Prop} (hm : m.held = true)
    (h : ∀ m, m.held = false → Owns (f ()) m Q) : Owns (GpioLine.close ⟨LINE_RST⟩ >>= f) m Q :=
  owns_bind (meets_close hm h fun _ _ => id)

/-! ### The variants -/

/-- What a variant returns is the line it holds. -/
def Returned (m : Pin) (held : Option GpioLine) : Prop :=
  (held = none ∧ m.held = false) ∨ (held = some ⟨LINE_RST⟩ ∧ m.held = true)

theorem resetReference_owns (hm : m.held = false) : Owns Refseq.resetReference m Returned := by
  refine take_bind hm fun m hm => sound_bind fun _ => sound_bind fun _ => write_bind hm fun m hm => ?_
  refine sound_bind fun _ => sound_bind fun _ => drop_bind hm fun m hm => ?_
  exact sound_bind fun _ => sound_bind fun _ => sound_bind fun _ => Or.inl ⟨rfl, hm⟩

theorem resetHoldLow_owns (hm : m.held = false) : Owns Refseq.resetHoldLow m Returned := by
  refine take_bind hm fun m hm => sound_bind fun _ => write_bind hm fun m hm => ?_
  exact sound_bind fun _ => sound_bind fun _ => Or.inr ⟨rfl, hm⟩

theorem resetReleaseOnly_owns (hm : m.held = false) : Owns Refseq.resetReleaseOnly m Returned := by
  refine take_bind hm fun m hm => drop_bind hm fun m hm => ?_
  exact sound_bind fun _ => sound_bind fun _ => Or.inl ⟨rfl, hm⟩

theorem resetLegacy_owns (hm : m.held = false) : Owns Refseq.resetLegacy m Returned := by
  refine take_bind hm fun m hm => write_bind hm fun m hm => sound_bind fun _ => write_bind hm fun m hm => ?_
  exact sound_bind fun _ => sound_bind fun _ => Or.inr ⟨rfl, hm⟩

theorem refseq_variant_owns {v : String × BenchM (Option GpioLine)} (hv : v ∈ Refseq.VARIANTS) (hm : m.held = false) :
    Owns v.2 m Returned := by
  simp only [Refseq.VARIANTS, List.mem_cons, List.not_mem_nil, or_false] at hv
  rcases hv with rfl | rfl | rfl | rfl | rfl
  · exact resetReference_owns hm
  · exact resetHoldLow_owns hm
  · exact resetReleaseOnly_owns hm
  · exact resetLegacy_owns hm
  · exact sound_bind fun _ => Or.inl ⟨rfl, hm⟩

theorem holdReset_owns (lowMs settleMs : Nat) (hm : m.held = false) :
    Owns (RecoverProbe.holdReset lowMs true settleMs) m fun m g => g = ⟨LINE_RST⟩ ∧ m.held = true := by
  refine take_bind hm fun m hm => write_bind hm fun m hm => sound_bind fun _ => write_bind hm fun m hm => ?_
  exact sound_bind fun _ => ⟨rfl, hm⟩

theorem holdReset_bind {lowMs settleMs : Nat} {f : GpioLine → BenchM β} {Q : Pin → β → Prop} (hm : m.held = false)
    (h : ∀ m, m.held = true → Owns (f ⟨LINE_RST⟩) m Q) :
    Owns (RecoverProbe.holdReset lowMs true settleMs >>= f) m Q := by
  apply owns_bind
  apply (holdReset_owns lowMs settleMs hm).mono
  rintro m g ⟨rfl, hm⟩
  exact h m hm

theorem variantResetWhileUnbound_owns (hm : m.held = false) : Owns RecoverProbe.variantResetWhileUnbound m Returned := by
  refine sound_bind fun _ => take_bind hm fun m hm => write_bind hm fun m hm => sound_bind fun _ => ?_
  refine sound_bind fun _ => write_bind hm fun m hm => ?_
  exact sound_bind fun _ => Or.inr ⟨rfl, hm⟩

theorem recover_variant_owns {v : String × BenchM (Option GpioLine)} (hv : v ∈ RecoverProbe.VARIANTS)
    (hm : m.held = false) : Owns v.2 m Returned := by
  simp only [RecoverProbe.VARIANTS, List.mem_cons, List.not_mem_nil, or_false] at hv
  rcases hv with rfl | rfl | rfl | rfl
  · exact sound_bind fun _ => holdReset_bind hm fun m hm => sound_bind fun _ => sound_bind fun _ => Or.inr ⟨rfl, hm⟩
  · exact sound_bind fun _ => sound_bind fun _ => sound_bind fun _ => Or.inl ⟨rfl, hm⟩
  · exact holdReset_bind hm fun m hm => Or.inr ⟨rfl, hm⟩
  · exact variantResetWhileUnbound_owns hm

/-! ### The loop over the variants -/

/-- The `finally` clause. -/
theorem release_meets {held : Option GpioLine} (h : Returned m held) {Q : Pin → Unit → Prop} {E : Pin → Exn → Prop}
    (hok : ∀ m, m.held = false → Q m ()) (herr : ∀ m e, m.held = false → E m e) :
    Raise.Meets owning (Refseq.release held) m Q E := by
  rcases h with ⟨rfl, hm⟩ | ⟨rfl, hm⟩
  · exact hok m hm
  · apply Raise.meets_tryExcept
    apply meets_close hm
    · intro m hm
      exact hok m hm
    · intro m e hm
      split
      · exact hok m hm
      · exact herr m e hm

/-- The body of the loop, whose exceptions are reported, leaves the line as it is. -/
theorem reported_meets {body : BenchM α} {report : Exn → BenchM α} [hbody : Confined True (Elsewhere LINE_RST) body]
    [hreport : ∀ e, Sound (report e)] {Q : Pin → α → Prop} {E : Pin → Exn → Prop} (hok : ∀ a, Q m a)
    (herr : ∀ e, E m e) : Raise.Meets owning (Raise.tryExcept Exn.isException body report pure) m Q E := by
  apply Raise.meets_tryExcept
  apply hbody.asks.meets fun _ hr => ⟨hr.proper m, Pin.after_elsewhere hr m⟩
  · exact hok
  · intro e
    split
    · exact (hreport e).meets m Q E hok
    · exact herr e

/-- Whatever a variant leaves held, and whatever is raised after it, the line is free when the loop goes on. -/
theorem guarded_owns {name : String} {fn : BenchM (Option GpioLine)} {body : BenchM α} {failed : α}
    [Confined True (Elsewhere LINE_RST) body] (hfn : Owns fn m Returned) :
    Owns (Refseq.guarded name fn body failed) m fun m _ => m.held = false := by
  have hreport (e : Exn) : Sound (do print "  !! %s: %r" [.str name, e.shown]; pure failed : BenchM α) := inferInstance
  apply Raise.meets_tryExcept
  apply Raise.Meets.mono hfn
  · intro m held hheld
    apply Raise.meets_ensure
    apply reported_meets
    · intro a
      exact release_meets hheld (fun _ hm => hm) fun _ _ hm => hm
    · intro e
      exact release_meets hheld (fun _ hm => hm) fun _ _ hm => hm
  · intro m e hm
    split
    · exact (hreport e).meets m _ _ fun _ => hm
    · exact hm

instance (polls speed : Nat) (name : String) (wins : List Label) :
    Confined True (Elsewhere LINE_RST) (Refseq.respond polls speed name wins) := by
  unfold Refseq.respond Refseq.probe
  infer_instance

instance (polls speed : Nat) (name : String) (wins : List Label) :
    Confined True (Elsewhere LINE_RST) (RecoverProbe.afterRecovery polls speed name wins) := by
  unfold RecoverProbe.afterRecovery
  infer_instance

theorem refseq_trial_owns {polls speed : Nat} {wins : List Label} {v : String × BenchM (Option GpioLine)}
    (hv : v ∈ Refseq.VARIANTS) (hm : m.held = false) :
    Owns (Refseq.trial polls speed wins v) m fun m _ => m.held = false := by
  refine sound_bind fun _ => owns_bind ((guarded_owns (refseq_variant_owns hv hm)).mono fun m wins hm => ?_)
  exact sound_bind fun _ => sound_bind fun _ => sound_bind fun _ => hm

theorem recover_trial_owns {polls speed : Nat} {wins : List Label} {v : String × BenchM (Option GpioLine)}
    (hv : v ∈ RecoverProbe.VARIANTS) (hm : m.held = false) :
    Owns (RecoverProbe.trial polls v wins speed) m fun m _ => m.held = false := by
  refine sound_bind fun _ => owns_bind ((guarded_owns (recover_variant_owns hv hm)).mono fun m out hm => ?_)
  split
  · exact hm
  · exact sound_bind fun _ => sound_bind fun _ => hm

theorem owns_each {f : γ → β → BenchM γ} {xs : List β}
    (hstep : ∀ m g x, x ∈ xs → m.held = false → Owns (f g x) m fun m _ => m.held = false) {g : γ}
    (hm : m.held = false) : Owns (Raise.each f g xs) m fun m _ => m.held = false :=
  Raise.meets_each xs (fun m g x hx hm => hstep m g x hx hm) hm

theorem refseq_owns (polls : Nat) (hm : m.held = false) : Owns (Refseq.main polls) m fun m _ => m.held = false := by
  refine idle_bind hm fun _ => idle_bind hm fun _ => idle_bind hm fun _ => sound_bind fun _ => idle_bind hm fun _ => ?_
  refine sound_bind fun _ => owns_bind ((owns_each (fun m wins speed _ hm => ?_) hm).mono fun m wins hm => ?_)
  · exact owns_each (fun m wins v hv hm => refseq_trial_owns hv hm) hm
  · exact owns_idle hm fun _ => hm

theorem recover_owns (polls : Nat) (hm : m.held = false) :
    Owns (RecoverProbe.main polls) m fun m _ => m.held = false := by
  refine idle_bind hm fun _ => idle_bind hm fun _ => sound_bind fun _ => idle_bind hm fun _ => sound_bind fun _ => ?_
  refine owns_bind ((owns_each (fun m wins v hv hm => ?_) hm).mono fun m wins hm => ?_)
  · exact owns_each (fun m wins speed _ hm => recover_trial_owns hv hm) hm
  · exact owns_idle hm fun _ => hm

/-! ### Whole runs -/

inductive VariantScript where
  | refseq
  | recoverProbe
  deriving DecidableEq, Repr

def VariantScript.main (polls : Nat) : VariantScript → BenchM Unit
  | .refseq => Refseq.main polls
  | .recoverProbe => RecoverProbe.main polls

def Rig.Dependable (R : Rig σ) : Prop := ∀ p r s, Bench.Dependable p r (calm r (R.answer p r s).1)

/-- **No variant stands in the way of the next.** On a board where driving a line does not fail, whatever else raises and wherever it does: line 264 is requested only when it is free, it is set and closed only while held, and it is free at the end. -/
theorem variants_release (v : VariantScript) (polls : Nat) {R : Rig σ} (hR : R.Dependable) (s : σ) (level : Bool) :
    (∀ x ∈ (R.run LINE_RST (v.main polls) ⟨s, ⟨false, level⟩, []⟩).2.log, Proper x.1 x.2) ∧
      (R.run LINE_RST (v.main polls) ⟨s, ⟨false, level⟩, []⟩).2.pin.held = false := by
  have howns : Owns (v.main polls) ⟨false, level⟩ fun m _ => m.held = false := by
    cases v with
    | refseq => exact refseq_owns polls rfl
    | recoverProbe => exact recover_owns polls rfl
  have hstep : ∀ m (b : Stand σ) r, (b.pin = m ∧ ∀ x ∈ b.log, Proper x.1 x.2) → owning.may m r →
      owning.rely m r (handleRig LINE_RST R r b).1 ∧
        ((handleRig LINE_RST R r b).2.pin = owning.next m r (handleRig LINE_RST R r b).1 ∧
          ∀ x ∈ (handleRig LINE_RST R r b).2.log, Proper x.1 x.2) := by
    rintro m b r ⟨rfl, hb⟩ hmay
    refine ⟨hR b.pin r b.env, rfl, ?_⟩
    intro x hx
    rcases List.mem_append.mp hx with hx | hx
    · exact hb x hx
    · obtain rfl := List.mem_singleton.mp hx
      exact hmay
  have hstart : ∀ x ∈ (⟨s, ⟨false, level⟩, []⟩ : Stand σ).log, Proper x.1 x.2 := fun x hx => absurd hx List.not_mem_nil
  obtain ⟨m', ⟨rfl, hproper⟩, hends⟩ := wp_run hstep howns ⟨rfl, hstart⟩
  refine ⟨hproper, ?_⟩
  change Raise.Ends _ _ _ (R.run LINE_RST (v.main polls) ⟨s, ⟨false, level⟩, []⟩).1 at hends
  cases hout : (R.run LINE_RST (v.main polls) ⟨s, ⟨false, level⟩, []⟩).1 with
  | ok a =>
      rw [hout] at hends
      exact hends
  | error e =>
      rw [hout] at hends
      exact hends

theorem idleRig_dependable : idleRig.Dependable := by
  intro p r s
  cases r with
  | gpioSet offset v => exact fun _ => ⟨(), rfl⟩
  | pathExists path => exact ⟨true, rfl⟩
  | print fmt args => exact ⟨(), rfl⟩
  | sleep us => exact ⟨(), rfl⟩
  | readFile path =>
      intro e he
      cases he
  | writeFile path val =>
      intro e he
      cases he
  | _ => trivial

theorem variants_release_idle :
    (∀ x ∈ (idleRig.run LINE_RST (VariantScript.refseq.main 3) ⟨(), ⟨false, false⟩, []⟩).2.log, Proper x.1 x.2) ∧
      (idleRig.run LINE_RST (VariantScript.refseq.main 3) ⟨(), ⟨false, false⟩, []⟩).2.pin.held = false :=
  variants_release .refseq 3 idleRig_dependable () false

end GoodixSpi.Bench
