import GoodixSpi.Kernel.Probe
import GoodixSpi.Proof.Footprint

/-!
# The life of a bound device

Whatever fails in probe, and however the interrupt and the file operations are interleaved with probe, remove and the release of the managed resources, nothing that runs uses what is not there yet or not there any more. What decides it is the order of things: probe requests the interrupt last of all it acquires and creates the files after that, so the files go first and the interrupt second. `Fine` says so of a state, and `conduct` follows it through the two programs.
-/

namespace GoodixSpi.Kernel

open Wire Interaction Prog Probe

/-- All that the interrupt handler and the file operations use. -/
structure Stocked (s : Res) : Prop where
  gxfp : Managed.mem .gxfp ∈ s.managed
  txbuf : Managed.mem .txbuf ∈ s.managed
  rxbuf : Managed.mem .rxbuf ∈ s.managed
  lock : s.lock = true
  wq : s.wq = true
  drvdata : s.drvdata = true
  gpios : ∀ d, s.enable = some d ∨ s.irqGpio = some d → Managed.gpio d ∈ s.managed

/-- What a request of the handler or of a file operation uses is there: its memory, the mutex and the wait queue once they are initialised, and the descriptors that are stored in `g`. -/
def Backed (s : Res) : Req → Prop
  | .lock | .unlock => Managed.mem .gxfp ∈ s.managed ∧ s.lock = true
  | .sleepOnWq _ | .wakeUp => Managed.mem .gxfp ∈ s.managed ∧ s.wq = true
  | .getEnable | .setEnable _ => Managed.mem .gxfp ∈ s.managed ∧ ∃ d, s.enable = some d ∧ Managed.gpio d ∈ s.managed
  | .irqLevel => Managed.mem .gxfp ∈ s.managed ∧ ∀ d, s.irqGpio = some d → Managed.gpio d ∈ s.managed
  | .txStore _ _ => Managed.mem .gxfp ∈ s.managed ∧ Managed.mem .txbuf ∈ s.managed
  | .rxLoad _ _ => Managed.mem .gxfp ∈ s.managed ∧ Managed.mem .rxbuf ∈ s.managed
  | .spi x =>
      Managed.mem .gxfp ∈ s.managed ∧ (x.tx = .txbuf → Managed.mem .txbuf ∈ s.managed) ∧
        (x.rx = .rxbuf → Managed.mem .rxbuf ∈ s.managed)
  | .disableIrq => Managed.mem .gxfp ∈ s.managed ∧ ∃ n, Managed.irq n ∈ s.managed
  | .kmalloc _ | .ioremap _ | .readl _ | .writel _ _ | .sleep _ | .touch _ _ _ _ | .print .seq _ _ => True
  | _ => Managed.mem .gxfp ∈ s.managed

/-- The same of a request of probe or remove. The handler may run before `requestIrq` returns. -/
def BindBacked (s : Res) : BindReq → Prop
  | .mutexInit | .initWaitqueueHead | .setDrvdata | .loadEnable | .storeIrq _ | .createFile _ _ _ =>
      Managed.mem .gxfp ∈ s.managed
  | .getDrvdata => Managed.mem .gxfp ∈ s.managed ∧ s.drvdata = true
  | .storeEnable d | .storeIrqGpio d => Managed.mem .gxfp ∈ s.managed ∧ Managed.gpio d ∈ s.managed
  | .getDirection d | .getValue d => Managed.gpio d ∈ s.managed
  | .directionOutput d _ | .setValue d _ => s.enable = some d ∧ Managed.gpio d ∈ s.managed
  | .requestIrq _ => Stocked s
  | _ => True

/-- Where there is an interrupt or a file, there is what they run on; and an interrupt is the newest resource. -/
structure Fine (s : Res) : Prop where
  irq : ∀ n, Managed.irq n ∈ s.managed → Stocked s
  newest : ∀ n, Managed.irq n ∉ s.managed.tail
  files : ∀ f ∈ s.files, Stocked s ∧ s.enable ≠ none

/-- What is known of the levels: that they are as they were, nothing, or that the enable is low. -/
inductive Line where
  | untouched | driven | low
  deriving DecidableEq, Repr

def Line.after (line : Line) : (r : BindReq) → BindAns r → Line
  | .directionOutput _ _, _ => .driven
  | .setValue _ v, _ => if v then .driven else .low
  | .createFile _ _ _, true => .driven
  | _, _ => line

/-- The enable is chosen before anything is driven, and set only while there are no files. -/
def Orderly (s : Res) (line : Line) : BindReq → Prop
  | .storeEnable _ => s.enable = none ∧ line = .untouched
  | .setValue _ _ => s.files = []
  | _ => True

def conduct (W : Wiring) : Contract BindReq BindAns (Res × Line) where
  may m r := Fine m.1 ∧ BindBacked m.1 r ∧ Orderly m.1 m.2 r
  rely m r a := W.Settles m.1 r a
  next m r a := (m.1.after r a, m.2.after r a)

/-! ### Which GPIO is which -/

namespace Wiring

variable (W : Wiring)

def found (i : Nat) : Option Gpiod :=
  match W.gpio i with
  | .found d => some d
  | _ => none

def output (i : Nat) : Option Gpiod :=
  match W.gpio i with
  | .found d => if W.direction d = 0 then some d else none
  | _ => none

/-- The first of the two GPIOs that is an output, -/
def enable : Option Gpiod := (W.output 0).or (W.output 1)

/-- and the other one. -/
def other : Option Gpiod := if (W.output 0).isSome then W.found 1 else W.found 0

/-- What a turn of the loop over `_CRS` makes of what was found before. -/
def look (g : Found) (i : Nat) : Found :=
  match W.gpio i with
  | .found d =>
      if W.direction d = 0 ∧ g.enable = none then { g with enable := some d }
      else if g.irqGpio = none then { g with irqGpio := some d } else g
  | _ => g

def sought : Found := W.look (W.look ⟨none, none⟩ 0) 1

theorem sought_eq : W.sought.enable = W.enable ∧ (W.enable ≠ none → W.sought.irqGpio = W.other) := by
  rw [sought, look, look, enable, other, output, output, found, found]
  cases W.gpio 0 with
  | found d =>
      by_cases hd : W.direction d = 0
      · cases W.gpio 1 with
        | found d' => simp [hd]
        | _ => simp [hd]
      · cases W.gpio 1 with
        | found d' => by_cases hd' : W.direction d' = 0 <;> simp [hd, hd']
        | _ => simp [hd]
  | _ =>
      cases W.gpio 1 with
      | found d' => by_cases hd' : W.direction d' = 0 <;> simp [hd']
      | _ => simp

end Wiring

/-! ### Probe -/

def Idle : BindReq → Prop
  | .print _ _ _ | .spiSetup _ _ _ _ _ | .spiInfo | .acpiGpioIrqGet | .createDir => True
  | _ => False

theorem Idle.conduct {r : BindReq} (hr : Idle r) (W : Wiring) {m : Res × Line} (hm : Fine m.1) :
    (conduct W).may m r ∧ ∀ a, (conduct W).next m r a = m := by
  cases r with
  | print ch fmt args => exact ⟨⟨hm, trivial, trivial⟩, fun _ => rfl⟩
  | spiSetup b c d e f => exact ⟨⟨hm, trivial, trivial⟩, fun _ => rfl⟩
  | spiInfo | acpiGpioIrqGet | createDir => exact ⟨⟨hm, trivial, trivial⟩, fun _ => rfl⟩
  | _ => exact absurd hr id

section Probe

variable {W : Wiring} {α : Type} {m : Res × Line}

theorem wp_idle {p : BindM α} (hp : Only Idle p) (hm : Fine m.1) {Q : Res × Line → α → Prop} (h : ∀ a, Q m a) :
    wp (conduct W) p m Q := by
  induction p with
  | ret a => exact h a
  | ask r next ih =>
      obtain ⟨hmay, hnext⟩ := hp.1.conduct W hm
      refine ⟨hmay, fun a _ => ?_⟩
      rw [hnext]
      exact ih a (hp.2 a)

theorem wp_idle_bind {β : Type} {p : BindM β} {f : β → BindM α} (hp : Only Idle p) (hm : Fine m.1)
    {Q : Res × Line → α → Prop} (h : ∀ b, wp (conduct W) (f b) m Q) : wp (conduct W) (p >>= f) m Q :=
  wp_bind_iff.mpr (wp_idle hp hm h)

theorem idle_print (ch : Channel) (fmt : String) (args : List Arg) : Only Idle (Probe.print ch fmt args) :=
  ⟨trivial, fun _ => trivial⟩

theorem idle_setupSpi (adev : Option String) (P : Setup) : Only Idle (setupSpi adev P) := by
  refine Only.perform_bind trivial fun ret => Only.bind ?_ fun _ => ?_
  · rw [warnSetup]
    split
    · exact idle_print _ _ _
    · trivial
  · exact (idle_print _ _ _).bind fun _ => Only.perform_bind trivial fun _ => idle_print _ _ _

/-- There are neither an interrupt nor files. -/
structure Unhooked (s : Res) : Prop where
  irq : ∀ n, Managed.irq n ∉ s.managed
  files : s.files = []

theorem Unhooked.fine {s : Res} (h : Unhooked s) : Fine s where
  irq n hn := absurd hn (h.irq n)
  newest n hn := h.irq n (List.mem_of_mem_tail hn)
  files f hf := absurd hf (by simp [h.files])

/-- Everything is set up but the interrupt and the files, and `g` holds what was found so far. -/
structure Ready (s : Res) (g : Found) : Prop where
  stocked : Stocked s
  unhooked : Unhooked s
  enable : s.enable = g.enable
  irqGpio : s.irqGpio = g.irqGpio

theorem Stocked.extend {s s' : Res} (h : Stocked s) (hmanaged : s.managed ⊆ s'.managed)
    (hflags : s'.lock = s.lock ∧ s'.wq = s.wq ∧ s'.drvdata = s.drvdata)
    (hgpios : ∀ d, s'.enable = some d ∨ s'.irqGpio = some d → Managed.gpio d ∈ s'.managed) : Stocked s' where
  gxfp := hmanaged h.gxfp
  txbuf := hmanaged h.txbuf
  rxbuf := hmanaged h.rxbuf
  lock := hflags.1.trans h.lock
  wq := hflags.2.1.trans h.wq
  drvdata := hflags.2.2.trans h.drvdata
  gpios := hgpios

theorem Stocked.push {s : Res} (h : Stocked s) (m : Managed) : Stocked { s with managed := m :: s.managed } :=
  h.extend (List.subset_cons_self m s.managed) ⟨rfl, rfl, rfl⟩ fun d hd => List.mem_cons_of_mem m (h.gpios d hd)

theorem Stocked.with_files {s : Res} (h : Stocked s) (files : List File) : Stocked { s with files := files } :=
  h.extend (List.Subset.refl s.managed) ⟨rfl, rfl, rfl⟩ h.gpios

theorem Ready.got {s : Res} {g : Found} (h : Ready s g) (d : Gpiod) :
    Ready { s with managed := .gpio d :: s.managed } g where
  stocked := h.stocked.push (.gpio d)
  unhooked := ⟨fun n => by simp [h.unhooked.irq n], h.unhooked.files⟩
  enable := h.enable
  irqGpio := h.irqGpio

theorem Ready.stored {s : Res} {g : Found} (h : Ready s g) {s' : Res} {g' : Found}
    (hs : s' = { s with enable := g'.enable, irqGpio := g'.irqGpio })
    (hlive : ∀ d, g'.enable = some d ∨ g'.irqGpio = some d → Managed.gpio d ∈ s.managed) : Ready s' g' := by
  subst hs
  exact ⟨h.stocked.extend (List.Subset.refl s.managed) ⟨rfl, rfl, rfl⟩ hlive, ⟨h.unhooked.irq, h.unhooked.files⟩, rfl, rfl⟩

theorem wp_findGpio {g : Found} (i : Nat) (h : Ready m.1 g) (hline : m.2 = .untouched) :
    wp (conduct W) (findGpio g i) m fun m' g' => Ready m'.1 g' ∧ m'.2 = .untouched ∧ g' = W.look g i := by
  obtain ⟨s, line⟩ := m
  obtain rfl : line = .untouched := hline
  refine ⟨⟨h.unhooked.fine, trivial, trivial⟩, fun a ha => ?_⟩
  obtain rfl : a = W.gpio i := ha
  rw [Wiring.look]
  cases W.gpio i with
  | err e => exact wp_idle_bind (idle_print _ _ _) h.unhooked.fine fun _ => ⟨h, rfl, rfl⟩
  | absent => exact wp_idle_bind (idle_print _ _ _) h.unhooked.fine fun _ => ⟨h, rfl, rfl⟩
  | found d =>
      have hgot := h.got d
      have hmem : Managed.gpio d ∈ Managed.gpio d :: s.managed := List.mem_cons_self
      refine ⟨⟨hgot.unhooked.fine, hmem, trivial⟩, fun dir hdir => ?_⟩
      refine ⟨⟨hgot.unhooked.fine, hmem, trivial⟩, fun value _ => ?_⟩
      refine wp_idle_bind (idle_print _ _ _) hgot.unhooked.fine fun _ => ?_
      refine ⟨⟨hgot.unhooked.fine, hmem, trivial⟩, fun dir hdir => ?_⟩
      obtain rfl : dir = W.direction d := hdir
      show wp (conduct W) (if W.direction d = 0 ∧ g.enable = none then _ else if g.irqGpio = none then _ else _) _ _
      dsimp only
      by_cases hout : W.direction d = 0 ∧ g.enable = none
      · rw [if_pos hout, if_pos hout]
        refine ⟨⟨hgot.unhooked.fine, ⟨hgot.stocked.gxfp, hmem⟩, hgot.enable.trans hout.2, rfl⟩, fun _ _ => ?_⟩
        refine ⟨hgot.stored (by rw [← h.irqGpio]; rfl) ?_, rfl, rfl⟩
        rintro c (hc | hc)
        · rw [← Option.some.inj hc]
          exact hmem
        · exact hgot.stocked.gpios c (Or.inr (h.irqGpio.trans hc))
      · rw [if_neg hout, if_neg hout]
        by_cases hirq : g.irqGpio = none
        · rw [if_pos hirq, if_pos hirq]
          refine ⟨⟨hgot.unhooked.fine, ⟨hgot.stocked.gxfp, hmem⟩, trivial⟩, fun _ _ => ?_⟩
          refine ⟨hgot.stored (by rw [← h.enable]; rfl) ?_, rfl, rfl⟩
          rintro c (hc | hc)
          · exact hgot.stocked.gpios c (Or.inl (h.enable.trans hc))
          · rw [← Option.some.inj hc]
            exact hmem
        · rw [if_neg hirq, if_neg hirq]
          exact ⟨hgot, rfl, rfl⟩

theorem wp_findGpios (h : Ready m.1 ⟨none, none⟩) (hline : m.2 = .untouched) :
    wp (conduct W) (Prog.fold findGpio ⟨none, none⟩ [0, 1]) m fun m' g' =>
      Ready m'.1 g' ∧ m'.2 = .untouched ∧ g' = W.sought := by
  refine wp_bind (wp_findGpio 0 h hline) ?_
  rintro m' g' ⟨h', hline', rfl⟩
  exact wp_bind (wp_findGpio 1 h' hline') fun _ _ h'' => h''

structure Hooked (s : Res) (g : Found) : Prop where
  stocked : Stocked s
  fine : Fine s
  enable : s.enable = g.enable
  some : g.enable ≠ none
  irqGpio : s.irqGpio = g.irqGpio

theorem wp_driveEnable {g : Found} {d : Gpiod} (touchEnable : Int) (h : Ready m.1 g) (hd : g.enable = some d) :
    wp (conduct W) (driveEnable touchEnable d) m fun m' _ => Ready m'.1 g := by
  have hfine := h.unhooked.fine
  rw [driveEnable, driveEnableBy]
  split
  · exact ⟨⟨hfine, ⟨h.enable.trans hd, h.stocked.gpios d (Or.inl (h.enable.trans hd))⟩, trivial⟩, fun _ _ => h⟩
  · exact wp_idle (idle_print _ _ _) hfine fun _ => h

theorem Ready.hooked {s : Res} {g : Found} (h : Ready s g) (hsome : g.enable ≠ none) : Hooked s g :=
  ⟨h.stocked, h.unhooked.fine, h.enable, hsome, h.irqGpio⟩

theorem Ready.requested {s : Res} {g : Found} (h : Ready s g) (hsome : g.enable ≠ none) (n : Int) :
    Hooked { s with managed := .irq n :: s.managed } g := by
  have hstocked := h.stocked.push (.irq n)
  refine ⟨hstocked, ⟨fun _ _ => hstocked, fun k => h.unhooked.irq k, ?_⟩, h.enable, hsome, h.irqGpio⟩
  intro f hf
  exact absurd hf (by simp [h.unhooked.files])

theorem request_bind {g : Found} {n : Int} {f : Int → BindM α} {Q : Res × Line → α → Prop} (h : Ready m.1 g)
    (hok : wp (conduct W) (f 0) ({ m.1 with managed := .irq n :: m.1.managed }, m.2) Q)
    (hfail : ∀ ret, ret ≠ 0 → wp (conduct W) (f ret) m Q) : wp (conduct W) (Probe.ask (.requestIrq n) >>= f) m Q := by
  refine ⟨⟨h.unhooked.fine, h.stocked, trivial⟩, fun ret _ => ?_⟩
  by_cases hret : ret = 0
  · subst hret
    exact hok
  · have hnext : (conduct W).next m (.requestIrq n) ret = m := by
      show (if ret = 0 then _ else _, _) = _
      rw [if_neg hret]
      rfl
    rw [hnext]
    exact hfail ret hret

theorem wp_setupIrq (adev : Option String) {g : Found} (h : Ready m.1 g) (hsome : g.enable ≠ none) :
    wp (conduct W) (setupIrq adev) m fun m' _ => Hooked m'.1 g := by
  have hfine := h.unhooked.fine
  have hgot : Only Idle (gpioIrq adev) := by
    rw [gpioIrq]
    split
    · exact ⟨trivial, fun _ => trivial⟩
    · trivial
  refine wp_idle_bind hgot hfine fun irq => wp_perform_bind ⟨hfine, h.stocked.gxfp, trivial⟩ fun _ _ => ?_
  split
  · exact wp_idle (idle_print _ _ _) hfine fun _ => h.hooked hsome
  · refine request_bind h ?_ fun ret hret => ?_
    · exact wp_idle (idle_print _ _ _) (h.requested hsome irq).fine fun _ => h.requested hsome irq
    · rw [if_pos hret]
      refine wp_idle_bind (idle_print _ _ _) hfine fun _ => ?_
      exact ⟨⟨hfine, h.stocked.gxfp, trivial⟩, fun _ _ => h.hooked hsome⟩

theorem Hooked.created {s : Res} {g : Found} (h : Hooked s g) (f : File) : Hooked { s with files := f :: s.files } g := by
  have hstocked := h.stocked.with_files (f :: s.files)
  refine ⟨hstocked, ⟨fun _ _ => hstocked, h.fine.newest, fun _ _ => ⟨hstocked, ?_⟩⟩, h.enable, h.some, h.irqGpio⟩
  show s.enable ≠ none
  rw [h.enable]
  exact h.some

theorem wp_createFiles {g : Found} (h : Hooked m.1 g) : wp (conduct W) createFiles m fun m' _ => Hooked m'.1 g := by
  refine wp_idle_bind (p := ask .createDir) ⟨trivial, fun _ => trivial⟩ h.fine fun _ => ?_
  refine wp_fold (I := fun (m' : Res × Line) _ => Hooked m'.1 g) debugfsFiles (fun m' _ f _ h' => ?_) h
  refine ⟨⟨h'.fine, h'.stocked.gxfp, trivial⟩, fun created _ => ?_⟩
  cases created with
  | true => exact h'.created f.1
  | false => exact h'

/-- What probe returns, and how it leaves things then. -/
def Probed (W : Wiring) (m : Res × Line) (ret : Int) : Prop :=
  (ret = 0 ∧ Hooked m.1 ⟨W.enable, W.other⟩) ∨
    (m.2 = .untouched ∧ Unhooked m.1 ∧ (ret = -ENOMEM ∨ (ret = -ENODEV ∧ W.enable = none)))

theorem Unhooked.with_mem {s : Res} (h : Unhooked s) (x : Mem) : Unhooked { s with managed := .mem x :: s.managed } :=
  ⟨fun n => by simp [h.irq n], h.files⟩

theorem alloc_bind {x : Mem} {f : Bool → BindM α} {Q : Res × Line → α → Prop} (h : Unhooked m.1)
    (hok : wp (conduct W) (f true) ({ m.1 with managed := .mem x :: m.1.managed }, m.2) Q)
    (hfail : wp (conduct W) (f false) m Q) : wp (conduct W) (Probe.ask (.devmKzalloc x) >>= f) m Q := by
  refine ⟨⟨h.fine, trivial, trivial⟩, fun a _ => ?_⟩
  cases a with
  | true => exact hok
  | false => exact hfail

def allocated (lock wq drvdata : Bool) : Res :=
  ⟨[.mem .rxbuf, .mem .txbuf, .mem .gxfp], lock, wq, drvdata, none, none, []⟩

theorem unhooked_allocated (lock wq drvdata : Bool) : Unhooked (allocated lock wq drvdata) :=
  ⟨fun n => by simp [allocated], Eq.refl []⟩

theorem ready_allocated : Ready (allocated true true true) ⟨none, none⟩ where
  stocked := by constructor <;> simp [allocated]
  unhooked := unhooked_allocated true true true
  enable := Eq.refl none
  irqGpio := Eq.refl none

theorem wp_gxfpProbe (adev : Option String) (P : Setup) (touchEnable : Int) :
    wp (conduct W) (gxfpProbe adev P touchEnable) (Res.none, .untouched) (Probed W) := by
  have hnone : Unhooked Res.none := ⟨fun _ => List.not_mem_nil, rfl⟩
  have hnomem {m : Res × Line} (hm : Unhooked m.1) (hline : m.2 = .untouched) : Probed W m (-ENOMEM) :=
    Or.inr ⟨hline, hm, Or.inl rfl⟩
  refine alloc_bind hnone ?_ (hnomem hnone rfl)
  have hgxfp := hnone.with_mem .gxfp
  refine alloc_bind hgxfp ?_ (alloc_bind hgxfp (hnomem (hgxfp.with_mem _) rfl) (hnomem hgxfp rfl))
  have htxbuf := hgxfp.with_mem .txbuf
  refine alloc_bind htxbuf ?_ (hnomem htxbuf rfl)
  have hmem (lock wq drvdata : Bool) : Managed.mem .gxfp ∈ (allocated lock wq drvdata).managed := by simp [allocated]
  have hfine (lock wq drvdata : Bool) := (unhooked_allocated lock wq drvdata).fine
  refine wp_perform_bind ⟨hfine false false false, hmem false false false, trivial⟩ fun _ _ => ?_
  refine wp_perform_bind ⟨hfine true false false, hmem true false false, trivial⟩ fun _ _ => ?_
  refine wp_perform_bind ⟨hfine true true false, hmem true true false, trivial⟩ fun _ _ => ?_
  refine wp_idle_bind (idle_setupSpi adev P) (hfine true true true) fun _ => ?_
  refine wp_bind (wp_findGpios ready_allocated rfl) ?_
  rintro m' found ⟨hready, hline, rfl⟩
  obtain ⟨henable, hother⟩ := W.sought_eq
  cases hfound : W.sought.enable with
  | none =>
      refine wp_idle_bind (idle_print _ _ _) hready.unhooked.fine fun _ => ?_
      exact Or.inr ⟨hline, hready.unhooked, Or.inr ⟨rfl, henable ▸ hfound⟩⟩
  | some enable =>
      have hsome : W.sought.enable ≠ none := by simp [hfound]
      have hsought : W.sought = ⟨W.enable, W.other⟩ := by
        rw [← henable, ← hother (henable ▸ hsome)]
      refine wp_bind (wp_driveEnable touchEnable hready hfound) fun m₁ _ h₁ => ?_
      refine wp_bind (wp_setupIrq adev h₁ hsome) fun m₂ _ h₂ => ?_
      refine wp_bind (wp_createFiles h₂) fun m₃ _ h₃ => ?_
      exact wp_idle_bind (idle_print _ _ _) h₃.fine fun _ => Or.inl ⟨rfl, hsought ▸ h₃⟩

/-! ### Remove -/

/-- How things are left, by what probe returned: a device that was bound has its GPIOs as they were chosen, and its enable low. -/
def Settled (W : Wiring) (ret : Int) (m : Res × Line) : Prop :=
  (ret = 0 ∧ m.1.enable = W.enable ∧ W.enable ≠ none ∧ m.1.irqGpio = W.other ∧ m.2 = .low) ∨
    (m.2 = .untouched ∧ (ret = -ENOMEM ∨ (ret = -ENODEV ∧ W.enable = none)))

def Closed (W : Wiring) (ret : Int) (m : Res × Line) : Prop := Fine m.1 ∧ m.1.files = [] ∧ Settled W ret m

theorem Hooked.removed {s : Res} {g : Found} (h : Hooked s g) : Hooked { s with files := [] } g := by
  have hstocked := h.stocked.with_files []
  exact ⟨hstocked, ⟨fun _ _ => hstocked, h.fine.newest, by simp⟩, h.enable, h.some, h.irqGpio⟩

theorem wp_gxfpRemove (h : Hooked m.1 ⟨W.enable, W.other⟩) :
    wp (conduct W) gxfpRemove m fun m' _ => Closed W 0 m' := by
  refine wp_perform_bind ⟨h.fine, ⟨h.stocked.gxfp, h.stocked.drvdata⟩, trivial⟩ fun _ _ => ?_
  refine wp_perform_bind ⟨h.fine, trivial, trivial⟩ fun _ _ => ?_
  have hremoved := h.removed
  refine wp_perform_bind ⟨hremoved.fine, hremoved.stocked.gxfp, trivial⟩ fun enable henable => ?_
  cases enable with
  | none => exact absurd (henable.trans h.enable).symm h.some
  | some d =>
      have hd : m.1.enable = some d := henable.symm
      refine ⟨⟨hremoved.fine, ⟨hd, hremoved.stocked.gpios d (Or.inl hd)⟩, Eq.refl []⟩, fun _ _ => ?_⟩
      exact ⟨hremoved.fine, Eq.refl [], Or.inl ⟨rfl, hremoved.enable, hremoved.some, hremoved.irqGpio, rfl⟩⟩

end Probe

/-! ### The invariant -/

def CoreInv (W : Wiring) (line : Line) (res : Res) : Core → Prop
  | .probing p => wp (conduct W) p (res, line) (Probed W)
  | .bound => Hooked res ⟨W.enable, W.other⟩
  | .removing p => wp (conduct W) p (res, line) fun m _ => Closed W 0 m
  | .releasing e => Closed W e (res, line)
  | .gone e => res.managed = [] ∧ Closed W e (res, line)

/-- What `line` says of the levels, `level₀` being what they were. -/
def Line.Holds (level₀ : Gpiod → Bool) (res : Res) (level : Gpiod → Bool) : Line → Prop
  | .untouched => level = level₀ ∧ res.files = []
  | .driven => True
  | .low => res.files = [] ∧ ∀ d, res.enable = some d → level d = false

structure Inv (W : Wiring) (level₀ : Gpiod → Bool) (line : Line) (s : Life) : Prop where
  core : CoreInv W line s.res s.core
  others : ∀ d, s.res.enable ≠ some d → s.level d = level₀ d
  line : line.Holds level₀ s.res s.level

section Inv

variable {W : Wiring} {level₀ level : Gpiod → Bool} {line : Line} {res : Res} {α : Type}

theorem Probed.fine {m : Res × Line} {ret : Int} (h : Probed W m ret) : Fine m.1 := by
  rcases h with ⟨-, hhooked⟩ | ⟨-, hunhooked, -⟩
  · exact hhooked.fine
  · exact hunhooked.fine

theorem CoreInv.fine {core : Core} (h : CoreInv W line res core) : Fine res := by
  cases core with
  | probing p =>
      cases p with
      | ret a => exact (show Probed W (res, line) a from h).fine
      | ask r next => exact h.1.1
  | bound => exact Hooked.fine h
  | removing p =>
      cases p with
      | ret a => exact h.1
      | ask r next => exact h.1.1
  | releasing e => exact h.1
  | gone e => exact h.2.1

theorem others_after {r : BindReq} (a : BindAns r) (hmay : (conduct W).may (res, line) r)
    (h : ∀ d, res.enable ≠ some d → level d = level₀ d) :
    ∀ d, (res.after r a).enable ≠ some d → setLevel level r d = level₀ d := by
  intro d hd
  cases r with
  | directionOutput c v | setValue c v =>
      have hc : d ≠ c := by
        rintro rfl
        exact hd hmay.2.1.1
      exact (if_neg hc).trans (h d hd)
  | storeEnable c => exact h d (by simp [show res.enable = none from hmay.2.2.1])
  | devmKzalloc m | createFile f name mode => cases a <;> exact h d hd
  | gpiodGet i => cases a <;> exact h d hd
  | requestIrq n =>
      refine h d fun henable => hd ?_
      show (if a = 0 then _ else _ : Res).enable = _
      split <;> exact henable
  | _ => exact h d hd

theorem holds_after {r : BindReq} (a : BindAns r) (hmay : (conduct W).may (res, line) r)
    (h : line.Holds level₀ res level) : (line.after r a).Holds level₀ (res.after r a) (setLevel level r) := by
  cases r with
  | directionOutput c v => trivial
  | setValue c v =>
      cases v with
      | true => trivial
      | false =>
          refine ⟨hmay.2.2, fun d hd => if_pos ?_⟩
          exact Option.some.inj (hd.symm.trans hmay.2.1.1)
  | createFile f name mode =>
      cases a with
      | true => trivial
      | false => exact h
  | storeEnable c =>
      obtain rfl : line = .untouched := hmay.2.2.2
      exact h
  | devmKzalloc m => cases a <;> exact h
  | gpiodGet i => cases a <;> exact h
  | requestIrq n =>
      show line.Holds level₀ (if a = 0 then _ else _) level
      split <;> exact h
  | removeFiles =>
      cases line with
      | untouched => exact ⟨h.1, rfl⟩
      | driven => trivial
      | low => exact ⟨rfl, h.2⟩
  | _ => exact h

theorem Inv.ask {r : BindReq} {core : Core} {a : BindAns r} (h : Inv W level₀ line ⟨core, res, level⟩) {core' : Core}
    (hmay : (conduct W).may (res, line) r) (hcore : CoreInv W (line.after r a) (res.after r a) core') :
    Inv W level₀ (line.after r a) ⟨core', res.after r a, setLevel level r⟩ :=
  ⟨hcore, others_after a hmay h.others, holds_after a hmay h.line⟩

theorem Closed.released {ret : Int} {m : Managed} {rest : List Managed} (h : Closed W ret (res, line))
    (hm : res.managed = m :: rest) : Closed W ret ({ res with managed := rest }, line) := by
  obtain ⟨hfine, hfiles, hsettled⟩ := h
  have hrest (n : Int) : Managed.irq n ∉ rest := by
    have hnewest := hfine.newest n
    rwa [hm] at hnewest
  refine ⟨⟨fun n hn => absurd hn (hrest n), fun n hn => hrest n (List.mem_of_mem_tail hn), ?_⟩, hfiles, hsettled⟩
  intro f hf
  have hnil : f ∈ ([] : List File) := hfiles ▸ hf
  exact absurd hnil List.not_mem_nil

theorem Inv.move {s s' : Life} (h : Inv W level₀ line s) (hmove : Moves W s s') : ∃ line', Inv W level₀ line' s' := by
  cases hmove with
  | probe a ha => exact ⟨_, h.ask h.core.1 (h.core.2 a ha)⟩
  | bind =>
      refine ⟨line, ?_, h.others, h.line⟩
      rcases h.core with ⟨-, hhooked⟩ | ⟨-, -, hret | hret⟩
      · exact hhooked
      · exact absurd hret (by decide)
      · exact absurd hret.1 (by decide)
  | fail he =>
      refine ⟨line, ?_, h.others, h.line⟩
      rcases h.core with ⟨hret, -⟩ | ⟨hline, hunhooked, hret⟩
      · exact absurd hret he
      · exact ⟨hunhooked.fine, hunhooked.files, Or.inr ⟨hline, hret⟩⟩
  | @unbind res level => exact ⟨line, wp_gxfpRemove (m := (res, line)) h.core, h.others, h.line⟩
  | remove a ha => exact ⟨_, h.ask h.core.1 (h.core.2 a ha)⟩
  | removed => exact ⟨line, h.core, h.others, h.line⟩
  | release hm =>
      refine ⟨line, h.core.released hm, h.others, ?_⟩
      cases line with
      | untouched | driven | low => exact h.line
  | gone hm => exact ⟨line, ⟨hm, h.core⟩, h.others, h.line⟩

/-- A file operation that drives the enable runs while there are files, and then nothing was known of the level. -/
theorem Inv.drive {s : Life} (h : Inv W level₀ line s) (hfile : s.res.files ≠ []) (r : Req) :
    Inv W level₀ line (s.drive r) := by
  cases r with
  | setEnable v =>
      rw [Life.drive.eq_def]
      cases henable : s.res.enable with
      | none => exact h
      | some d =>
          refine ⟨h.core, fun c hc => ?_, ?_⟩
          · have hne : c ≠ d := by
              rintro rfl
              exact hc henable
            exact (if_neg hne).trans (h.others c hc)
          · cases line with
            | untouched => exact absurd h.line.2 hfile
            | driven => trivial
            | low => exact absurd h.line.1 hfile
  | _ => exact h

end Inv

/-! ### What runs meanwhile -/

def OfIsr : Req → Prop
  | .incIrqCount | .setDataReady _ | .wakeUp | .getIrqMasked | .setIrqMasked _ | .disableIrq | .print _ _ _ => True
  | _ => False

def Need : Kind → Req → Prop
  | .isr => OfIsr
  | .file _ => OutsideIsr

theorem ofIsr_gxfpIsr : Only OfIsr gxfpIsr := by
  refine Only.perform_bind trivial fun n => Only.perform_bind trivial fun _ => Only.perform_bind trivial fun _ =>
    Only.perform_bind trivial fun masked => ?_
  split
  · exact Only.perform_bind trivial fun _ => Only.perform_bind trivial fun _ => ⟨trivial, fun _ => trivial⟩
  · trivial

theorem Stocked.backed {s : Res} (h : Stocked s) (henable : s.enable ≠ none) {r : Req} (hr : OutsideIsr r) :
    Backed s r := by
  cases r with
  | lock | unlock => exact ⟨h.gxfp, h.lock⟩
  | sleepOnWq ms => exact ⟨h.gxfp, h.wq⟩
  | wakeUp => exact ⟨h.gxfp, h.wq⟩
  | getEnable | setEnable v =>
      obtain ⟨d, hd⟩ := Option.ne_none_iff_exists'.mp henable
      exact ⟨h.gxfp, d, hd, h.gpios d (Or.inl hd)⟩
  | irqLevel => exact ⟨h.gxfp, fun d hd => h.gpios d (Or.inr hd)⟩
  | txStore off new => exact ⟨h.gxfp, h.txbuf⟩
  | rxLoad off len => exact ⟨h.gxfp, h.rxbuf⟩
  | spi x => exact ⟨h.gxfp, fun _ => h.txbuf, fun _ => h.rxbuf⟩
  | print ch fmt args =>
      cases ch with
      | seq => trivial
      | info | err | warn => exact h.gxfp
  | getDataReady | setDataReady v | getIrqCount | getRxlen | setRxlen n => exact h.gxfp
  | kmalloc size | ioremap addr | readl addr | writel addr v | sleep us | touch b size off len => trivial
  | incIrqCount | getIrqMasked | setIrqMasked v | disableIrq => exact absurd hr id

theorem Stocked.backed_ofIsr {s : Res} (h : Stocked s) {n : Int} (hn : Managed.irq n ∈ s.managed) {r : Req}
    (hr : OfIsr r) : Backed s r := by
  cases r with
  | wakeUp => exact ⟨h.gxfp, h.wq⟩
  | disableIrq => exact ⟨h.gxfp, n, hn⟩
  | print ch fmt args =>
      cases ch with
      | seq => trivial
      | info | err | warn => exact h.gxfp
  | incIrqCount | setDataReady v | getIrqMasked | setIrqMasked v => exact h.gxfp
  | _ => exact absurd hr id

section Life

variable {M : Module} {W : Wiring} {level₀ : Gpiod → Bool}

theorem drive_res (s : Life) (r : Req) : (s.drive r).res = s.res := by
  cases r with
  | setEnable v =>
      rw [Life.drive.eq_def]
      cases s.res.enable <;> rfl
  | _ => rfl

theorem drive_ofIsr (s : Life) {r : Req} (hr : OfIsr r) : s.drive r = s := by
  cases r with
  | setEnable v => exact absurd hr id
  | _ => rfl

theorem device_keeps (M : Module) (W : Wiring) (level₀ : Gpiod → Bool) :
    (device M W).Keeps (fun s => ∃ line, Inv W level₀ line s) Need where
  move := fun ⟨_, h⟩ hmove => h.move hmove
  begins := by
    intro s k p _ hp
    cases k with
    | isr =>
        obtain rfl : p = gxfpIsr := hp
        exact ofIsr_gxfpIsr
    | file f =>
        obtain ⟨q, ⟨op, -, rfl⟩, rfl⟩ := hp
        exact (outsideIsr_prog _ op).bind fun _ => trivial
  effect := by
    rintro s k r a ⟨line, h⟩ hoffers hr
    cases k with
    | isr =>
        show ∃ line, Inv W level₀ line (s.drive r)
        rw [drive_ofIsr s hr]
        exact ⟨line, h⟩
    | file f => exact ⟨line, h.drive (List.ne_nil_of_mem hoffers) r⟩
  offers := by
    intro s k r a h
    cases k with
    | isr =>
        show ∃ n, Managed.irq n ∈ (s.drive r).res.managed
        rw [drive_res]
        exact h
    | file f =>
        show f ∈ (s.drive r).res.files
        rw [drive_res]
        exact h

theorem inv_start (M : Module) (W : Wiring) (level₀ : Gpiod → Bool) : Inv W level₀ .untouched (M.start level₀) :=
  ⟨wp_gxfpProbe M.adev M.setup M.touchEnable, fun _ _ => rfl, rfl, rfl⟩

def CoreBacked (s : Life) : Prop :=
  match s.core with
  | .probing (.ask r _) => BindBacked s.res r
  | .removing (.ask r _) => BindBacked s.res r
  | _ => True

theorem coreBacked {line : Line} {s : Life} (h : Inv W level₀ line s) : CoreBacked s := by
  obtain ⟨core, res, level⟩ := s
  cases core with
  | probing p =>
      cases p with
      | ret a => trivial
      | ask r next => exact h.core.1.2.1
  | removing p =>
      cases p with
      | ret a => trivial
      | ask r next => exact h.core.1.2.1
  | bound | releasing e | gone e => trivial

theorem backed_of_offers {line : Line} {s : Life} (h : Inv W level₀ line s) {k : Kind} (hoffers : (device M W).offers s k)
    {r : Req} (hr : Need k r) : Backed s.res r := by
  have hfine : Fine s.res := h.core.fine
  cases k with
  | isr =>
      obtain ⟨n, hn⟩ := hoffers
      exact (hfine.irq n hn).backed_ofIsr hn hr
  | file f =>
      obtain ⟨hstocked, henable⟩ := hfine.files f hoffers
      exact hstocked.backed henable hr

/-- **Nothing uses what is not there.** In every interleaving of the life of a device with its interrupt and its file operations, whatever fails, what each of them asks next is backed, and what probe and remove ask next too; and when all is released nothing is left and nothing is running. -/
theorem lifetime_backed (M : Module) (W : Wiring) (level₀ : Gpiod → Bool) {t : Busy Req Ans Unit Life Kind}
    (h : (device M W).Reaches (M.start level₀) t) :
    (∀ a ∈ t.running, ∀ r next, a.prog = ask r next → Backed t.state.res r) ∧ CoreBacked t.state ∧
      ∀ e, t.state.core = .gone e → t.running = [] ∧ t.state.res.managed = [] ∧ t.state.res.files = [] := by
  have hsound := (device_keeps M W level₀).reaches ⟨_, inv_start M W level₀⟩ h
  obtain ⟨line, hinv⟩ := hsound.state
  refine ⟨fun a ha r next hprog => ?_, coreBacked hinv, fun e he => ?_⟩
  · exact hsound.backed (fun s => Backed s.res) (fun ⟨_, hs⟩ hoffers hr => backed_of_offers hs hoffers hr) ha hprog
  · have hcore : CoreInv W line t.state.res (.gone e) := he ▸ hinv.core
    refine ⟨hsound.drained fun k hoffers => ?_, hcore.1, hcore.2.2.1⟩
    cases k with
    | isr =>
        obtain ⟨n, hn⟩ := hoffers
        rw [hcore.1] at hn
        exact absurd hn List.not_mem_nil
    | file f =>
        have hf : f ∈ t.state.res.files := hoffers
        rw [hcore.2.2.1] at hf
        exact absurd hf List.not_mem_nil

/-- **What becomes of the lines.** No GPIO but the enable is ever driven. A device that was bound, which takes an output among its two GPIOs, had the first such for its enable and the other for its interrupt, and is left with the enable low whatever its files were used for; one that was not is left as it was. -/
theorem lifetime_lines (M : Module) (W : Wiring) (level₀ : Gpiod → Bool) {t : Busy Req Ans Unit Life Kind}
    (h : (device M W).Reaches (M.start level₀) t) :
    (∀ d, t.state.res.enable ≠ some d → t.state.level d = level₀ d) ∧
      ∀ e, t.state.core = .gone e →
        (e = 0 ∧ t.state.res.enable = W.enable ∧ t.state.res.irqGpio = W.other ∧
            ∃ d, W.enable = some d ∧ t.state.level d = false) ∨
          (t.state.level = level₀ ∧ (e = -ENOMEM ∨ (e = -ENODEV ∧ W.enable = none))) := by
  obtain ⟨line, hinv⟩ := ((device_keeps M W level₀).reaches ⟨_, inv_start M W level₀⟩ h).state
  refine ⟨hinv.others, fun e he => ?_⟩
  have hcore : CoreInv W line t.state.res (.gone e) := he ▸ hinv.core
  have hholds := hinv.line
  rcases hcore.2.2.2 with ⟨rfl, henable, hsome, hother, rfl⟩ | ⟨rfl, hret⟩
  · obtain ⟨d, hd⟩ := Option.ne_none_iff_exists'.mp hsome
    exact Or.inl ⟨rfl, henable, hother, d, hd, hholds.2 d (henable.trans hd)⟩
  · exact Or.inr ⟨hholds.1, hret⟩

/-! ### A life -/

def twoGpios : Wiring where
  gpio i := if i = 0 then .found 41 else .found 189
  direction d := if d = 189 then 0 else 1

def fortunate (W : Wiring) (s : Res) : (r : BindReq) → BindAns r
  | .devmKzalloc _ | .createFile _ _ _ => true
  | .gpiodGet i => W.gpio i
  | .getDirection d => W.direction d
  | .loadEnable => s.enable
  | .spiSetup _ _ _ _ _ | .getValue _ | .requestIrq _ => (0 : Int)
  | .acpiGpioIrqGet => (55 : Int)
  | .spiInfo => ⟨0, 0, 8, 10000000⟩
  | .mutexInit | .initWaitqueueHead | .setDrvdata | .getDrvdata | .storeEnable _ | .storeIrqGpio _ | .directionOutput _ _
  | .setValue _ _ | .storeIrq _ | .createDir | .removeFiles | .print _ _ _ => ()

theorem fortunate_settles (W : Wiring) (s : Res) (r : BindReq) : W.Settles s r (fortunate W s r) := by
  cases r with
  | gpiodGet i | getDirection d | loadEnable => exact Eq.refl _
  | _ => trivial

def fortunes (W : Wiring) (r : BindReq) (s : Res × (Gpiod → Bool)) : BindAns r × Res × (Gpiod → Bool) :=
  (fortunate W s.1 r, s.1.after r (fortunate W s.1 r), setLevel s.2 r)

theorem reaches_played {α : Type} {core : BindM α → Core}
    (hcore : ∀ {r : BindReq} {next : BindAns r → BindM α} {res : Res} {level : Gpiod → Bool} (a : BindAns r),
      W.Settles res r a → Moves W ⟨core (ask r next), res, level⟩ ⟨core (next a), res.after r a, setLevel level r⟩)
    (p : BindM α) (s : Res × (Gpiod → Bool)) :
    Relation.ReflTransGen (device M W).Step ⟨⟨core p, s.1, s.2⟩, []⟩
      ⟨⟨core (ret (run (fortunes W) p s).1), (run (fortunes W) p s).2.1, (run (fortunes W) p s).2.2⟩, []⟩ := by
  induction p generalizing s with
  | ret a => exact .refl
  | ask r next ih =>
      have hrest := ih (fortunate W s.1 r) (s.1.after r (fortunate W s.1 r), setLevel s.2 r)
      refine .head (.move (hcore _ (fortunate_settles W s.1 r)) ?_) hrest
      simp

theorem reaches_released {e : Int} (managed : List Managed) (res : Res) (level : Gpiod → Bool) :
    Relation.ReflTransGen (device M W).Step ⟨⟨.releasing e, { res with managed := managed }, level⟩, []⟩
      ⟨⟨.gone e, { res with managed := [] }, level⟩, []⟩ := by
  induction managed with
  | nil => exact .single (.move (.gone rfl) (by simp))
  | cons m rest ih => exact .head (.move (.release rfl) (by simp)) ih

theorem reaches_bound (M : Module) (level₀ : Gpiod → Bool) {W : Wiring} {res : Res} {level : Gpiod → Bool}
    (hprobe : run (fortunes W) (gxfpProbe M.adev M.setup M.touchEnable) (Res.none, level₀) = (0, res, level)) :
    (device M W).Reaches (M.start level₀) ⟨⟨.bound, res, level⟩, []⟩ := by
  have hprobing := reaches_played (M := M) (W := W) Moves.probe (gxfpProbe M.adev M.setup M.touchEnable) (Res.none, level₀)
  rw [hprobe] at hprobing
  exact hprobing.tail (.move .bind (by simp))

theorem reaches_gone (M : Module) (level₀ : Gpiod → Bool) {W : Wiring} {res res' : Res} {level level' : Gpiod → Bool}
    (hprobe : run (fortunes W) (gxfpProbe M.adev M.setup M.touchEnable) (Res.none, level₀) = (0, res, level))
    (hremove : run (fortunes W) gxfpRemove (res, level) = ((), res', level')) :
    (device M W).Reaches (M.start level₀) ⟨⟨.gone 0, { res' with managed := [] }, level'⟩, []⟩ := by
  have hremoving := reaches_played (M := M) (W := W) Moves.remove gxfpRemove (res, level)
  rw [hremove] at hremoving
  refine (reaches_bound M level₀ hprobe).trans (.head (.move .unbind (by simp)) ?_)
  exact hremoving.trans (.head (.move .removed (by simp)) (reaches_released res'.managed res' level'))

/-- A read of `raw` is about to take the mutex, and the handler about to wake up the queue. -/
theorem reaches_busy {M : Module} {level₀ : Gpiod → Bool} {W : Wiring} {res : Res} {level : Gpiod → Bool}
    (hbound : (device M W).Reaches (M.start level₀) ⟨⟨.bound, res, level⟩, []⟩)
    (hirq : ∃ n, Managed.irq n ∈ res.managed) (hraw : File.raw ∈ res.files) :
    ∃ isr file, (device M W).Reaches (M.start level₀)
      ⟨⟨.bound, res, level⟩, [⟨.isr, ask .wakeUp isr⟩, ⟨.file .raw, ask .lock file⟩]⟩ := by
  obtain ⟨file, hfile⟩ : ∃ file, (gxfpRawRead 64 0 >>= fun _ => pure () : DriverM Unit) = ask .lock file := ⟨_, rfl⟩
  have hserves : (device M W).begins ⟨.bound, res, level⟩ (.file .raw) (ask .lock file) :=
    ⟨gxfpRawRead 64 0, ⟨.rawRead 64 0, rfl, rfl⟩, hfile.symm⟩
  obtain ⟨isr, hisr⟩ : ∃ isr : UInt32 → DriverM Unit,
      gxfpIsr = ask .incIrqCount fun n => ask (.setDataReady true) fun _ => ask .wakeUp fun _ => isr n := ⟨_, rfl⟩
  have hbegins : (device M W).begins ⟨.bound, res, level⟩ .isr
      (ask .incIrqCount fun n => ask (.setDataReady true) fun _ => ask .wakeUp fun _ => isr n) := hisr.symm
  refine ⟨fun _ => isr 1, file, ?_⟩
  have hoffersRaw : (device M W).offers ⟨.bound, res, level⟩ (.file .raw) := hraw
  have hoffersIsr : (device M W).offers ⟨.bound, res, level⟩ .isr := hirq
  have hreading := hbound.tail (Owner.Step.start hoffersRaw hserves)
  have hfired := hreading.tail (Owner.Step.start hoffersIsr hbegins)
  have hcounted := hfired.tail (Owner.step_newest (1 : UInt32))
  exact hcounted.tail (Owner.step_newest ())

end Life

def byDefault : Module := ⟨some "GXFP51A0:00", {}, 0⟩

/-- In the middle of its life, with the handler and a file operation at work, and at its end. -/
theorem lifetime_backed_byDefault :
    (∃ (res : Res) (level : Gpiod → Bool) (isr : Unit → DriverM Unit) (file : Unit → DriverM Unit),
      (device byDefault twoGpios).Reaches (byDefault.start fun _ => true)
        ⟨⟨.bound, res, level⟩, [⟨.isr, ask .wakeUp isr⟩, ⟨.file .raw, ask .lock file⟩]⟩ ∧
      Backed res .wakeUp ∧ Backed res .lock) ∧
    ∃ t : Busy Req Ans Unit Life Kind,
      (device byDefault twoGpios).Reaches (byDefault.start fun _ => true) t ∧ t.state.core = .gone 0 ∧
        t.running = [] ∧ t.state.res.managed = [] ∧ t.state.res.files = [] := by
  constructor
  · have hbound := reaches_bound byDefault (fun _ => true) (W := twoGpios) rfl
    obtain ⟨isr, file, hbusy⟩ := reaches_busy hbound ⟨55, by decide⟩ (by decide)
    have hbacked := (lifetime_backed byDefault twoGpios _ hbusy).1
    exact ⟨_, _, isr, file, hbusy, hbacked _ List.mem_cons_self _ _ rfl,
      hbacked _ (List.mem_cons_of_mem _ List.mem_cons_self) _ _ rfl⟩
  · have hreach := reaches_gone byDefault (fun _ => true) (W := twoGpios) rfl rfl
    exact ⟨_, hreach, rfl, (lifetime_backed byDefault twoGpios _ hreach).2.2 0 rfl⟩

theorem lifetime_lines_byDefault : ∃ t : Busy Req Ans Unit Life Kind,
    (device byDefault twoGpios).Reaches (byDefault.start fun _ => true) t ∧ t.state.core = .gone 0 ∧
      t.state.level 41 = true ∧ t.state.res.irqGpio = some 41 ∧
      ∃ d, twoGpios.enable = some d ∧ t.state.level d = false := by
  have hreach := reaches_gone byDefault (fun _ => true) (W := twoGpios) rfl rfl
  obtain ⟨hothers, hgone⟩ := lifetime_lines byDefault twoGpios _ hreach
  refine ⟨_, hreach, rfl, hothers 41 (by decide), ?_⟩
  rcases hgone 0 rfl with ⟨-, -, hother, hlow⟩ | ⟨-, hret | hret⟩
  · exact ⟨hother, hlow⟩
  · exact absurd hret (by decide)
  · exact absurd hret.1 (by decide)

end GoodixSpi.Kernel
