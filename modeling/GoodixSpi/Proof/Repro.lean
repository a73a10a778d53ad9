import GoodixSpi.Bench.Repro

/-!
# What the first-contact test does to a board

Whatever the board answers and whatever raises, the test touches the one spidev node and the two lines that were resolved, drives only the reset line, and clocks the bus only in the three conditions its cases compare: with the reset released in either chip-select mode, and with it asserted in `SPI_CS_HIGH`. When it returns, the reset line is released and low and the node is closed.

Two things can be left behind when it raises. The node stays open if one of the ioctls of `Spi.__init__` fails, for the `try` that closes it comes after. And if the reset and the interrupt are resolved to one line, the second request for it fails outside the `try` that closes both: the line stays requested as an input, and nothing is driven or clocked.
-/

namespace GoodixSpi.Bench.Repro

open Wire Interaction Tools Raise

structure Target where
  path : String
  chip : String
  reset : Int
  irq : Int
  deriving DecidableEq, Repr

def target (S : Board.Sysfs) (spidev : Option String) (reset irq : Option Int) : Option Target :=
  match Board.resolve S spidev reset irq false with
  | .error _ => none
  | .ok r =>
      match r.spidev, r.reset, r.irq with
      | some spidev, some rstLine, some irqLine => if spidev = "" then none else some ⟨spidev, r.chip, rstLine, irqLine⟩
      | _, _, _ => none

/-- A request that goes to a device. -/
def ToDevice : ReproReq → Prop
  | .gpioOpen _ _ _ _ | .gpioSet _ _ _ | .gpioGet _ _ | .gpioClose _ _ | .spiOpen _ | .spiMode _ _ | .spiBits _ _ | .spiSpeed _ _
  | .duplex _ _ | .spiClose _ => True
  | _ => False

/-- The conditions under which the cases clock the bus: the mode of the node, and the level of the reset line. -/
def Compared (mode : Nat) (level : Bool) : Prop := (mode = SPI_CS_HIGH ∨ mode = 0) ∧ (level = true → mode = SPI_CS_HIGH)

/-- The request goes to the resolved board; only one whose reset is not also its interrupt is driven or has its node opened. A transfer is made with the node set up and under one of the compared conditions. -/
def Fits (t : Target) (p : Ports) : ReproReq → Prop
  | .gpioOpen chip offset output value => chip = t.chip ∧ (if output then offset = t.reset ∧ value = 1 else offset = t.irq)
  | .gpioSet chip offset _ => t.reset ≠ t.irq ∧ chip = t.chip ∧ offset = t.reset
  | .gpioGet chip offset => chip = t.chip ∧ offset = t.irq
  | .gpioClose chip offset => chip = t.chip ∧ (offset = t.reset ∨ offset = t.irq)
  | .spiOpen path | .spiMode path _ | .spiBits path _ | .spiSpeed path _ | .spiClose path => t.reset ≠ t.irq ∧ path = t.path
  | .duplex path _ => t.reset ≠ t.irq ∧ path = t.path ∧ ∃ mode level,
      p.nodes t.path = some ⟨some mode, some 8, some 1000000⟩ ∧ p.lines t.chip t.reset = ⟨true, true, level⟩ ∧
      Compared mode level
  | _ => True

/-- A line that is requested cannot be requested again before it is closed. -/
def Denied (p : Ports) (r : ReproReq) (a : Except Failure (ReproOut r)) : Prop :=
  match r with
  | .gpioOpen chip offset _ _ => (p.lines chip offset).held = true → ∃ e, a = .error e
  | _ => True

/-- The ports, followed request by request. -/
def conduct (may : Ports → ReproReq → Prop) : Contract ReproReq (fun r => Except Failure (ReproOut r)) Ports where
  may := may
  rely p r a := Denied p r a
  next p r a := p.after r a

section Rules

variable {may : Ports → ReproReq → Prop} {α β : Type} {p : Ports} {Q : Ports → α → Prop} {E : Ports → Failure → Prop}

theorem ask_bind {r : ReproReq} {f : ReproOut r → ReproM α} (hmay : may p r)
    (hok : ∀ a, Meets (conduct may) (f a) (p.after r (.ok a)) Q E) (herr : ∀ e, E (p.after r (.error e)) e) :
    Meets (conduct may) (ask r >>= f) p Q E :=
  meets_bind (meets_call hmay (fun a _ => hok a) fun e _ => herr e)

theorem idle_bind {r : ReproReq} {f : ReproOut r → ReproM α} (hidle : ∀ p a, Ports.after p r a = p) (hmay : may p r)
    (hok : ∀ a, Meets (conduct may) (f a) p Q E) (herr : ∀ e, E p e) : Meets (conduct may) (ask r >>= f) p Q E := by
  apply ask_bind hmay
  · intro a
    rw [hidle]
    exact hok a
  · intro e
    rw [hidle]
    exact herr e

theorem idle_prog_bind {P : ReproReq → Prop} {q : ReproM β} {f : β → ReproM α} (hq : Asks P q)
    (hP : ∀ r, P r → may p r ∧ ∀ a, p.after r a = p) (hok : ∀ b, Meets (conduct may) (f b) p Q E) (herr : ∀ e, E p e) :
    Meets (conduct may) (q >>= f) p Q E :=
  meets_bind (hq.meets (C := conduct may) hP hok herr)

end Rules

/-! ### One case -/

/-- Requests that neither go to a device nor do anything to the ports. -/
def Idle : ReproReq → Prop
  | .geteuid | .strftime | .pathExists _ | .readPads | .sleep _ | .print _ _ => True
  | _ => False

/-- The script holds the reset line, at this level. -/
def Driven (t : Target) (level : Bool) (p : Ports) : Prop := p.lines t.chip t.reset = ⟨true, true, level⟩

/-- Between the cases the reset line is held, and the node is closed. -/
def Between (t : Target) (p : Ports) : Prop := (∃ level, Driven t level p) ∧ p.nodes t.path = none

/-- A node that is open has not been set up. -/
def Unready (t : Target) (p : Ports) : Prop := ∀ n, p.nodes t.path = some n → n.speed = none

/-- What an exception leaves of a case. -/
def Broken (t : Target) (p : Ports) : Prop := (∃ level, Driven t level p) ∧ Unready t p

theorem unready_closed {t : Target} {p : Ports} (h : p.nodes t.path = none) : Unready t p := by
  intro n hn
  rw [h] at hn
  exact absurd hn (by simp)

theorem Between.broken {t : Target} {p : Ports} (h : Between t p) : Broken t p := ⟨h.1, unready_closed h.2⟩

variable {t : Target} {α : Type}

theorem Idle.fits {r : ReproReq} (hr : Idle r) (p : Ports) : Fits t p r ∧ ∀ a, p.after r a = p := by
  cases r with
  | geteuid | strftime | pathExists path | readPads | sleep us | print fmt args => exact ⟨trivial, fun _ => rfl⟩
  | _ => exact absurd hr id

section Case

variable {p : Ports} {Q : Ports → α → Prop} {E : Ports → Failure → Prop}

theorem get_bind {f : Bool → ReproM α} (hok : ∀ v, Meets (conduct (Fits t)) (f v) p Q E) (herr : ∀ e, E p e) :
    Meets (conduct (Fits t)) (Line.get ⟨t.chip, t.irq⟩ >>= f) p Q E :=
  idle_bind (fun _ _ => rfl) ⟨rfl, rfl⟩ hok herr

theorem sleep_bind {us : Nat} {f : Unit → ReproM α} (hok : Meets (conduct (Fits t)) (f ()) p Q E) (herr : ∀ e, E p e) :
    Meets (conduct (Fits t)) (sleep us >>= f) p Q E :=
  idle_bind (fun _ _ => rfl) trivial (fun _ => hok) herr

theorem print_bind {fmt : String} {args : List Shown} {f : Unit → ReproM α}
    (hok : Meets (conduct (Fits t)) (f ()) p Q E) (herr : ∀ e, E p e) :
    Meets (conduct (Fits t)) (print fmt args >>= f) p Q E :=
  idle_bind (fun _ _ => rfl) trivial (fun _ => hok) herr

theorem set_bind {v : Nat} {f : Unit → ReproM α} {level : Bool} (hne : t.reset ≠ t.irq) (hp : Driven t level p)
    (hok : ∀ p', Driven t (v &&& 1 = 1) p' → p'.nodes = p.nodes → Meets (conduct (Fits t)) (f ()) p' Q E)
    (herr : ∀ e, E p e) : Meets (conduct (Fits t)) (Line.set ⟨t.chip, t.reset⟩ v >>= f) p Q E := by
  have hafter : p.after (.gpioSet t.chip t.reset v) (.ok ()) =
      p.setLine t.chip t.reset { held := true, output := true, level := v &&& 1 = 1 } := by
    show (if (p.lines t.chip t.reset).held = true ∧ (p.lines t.chip t.reset).output = true then _ else p) = _
    rw [hp, if_pos ⟨rfl, rfl⟩]
  refine ask_bind ⟨hne, rfl, rfl⟩ (fun _ => ?_) herr
  rw [hafter]
  exact hok _ (if_pos ⟨rfl, rfl⟩) rfl

/-- The set-up of a node: an exception leaves it at most opened, not ready. -/
theorem spi_bind {mode : Nat} {f : Unit → ReproM α} (hne : t.reset ≠ t.irq) (hclosed : p.nodes t.path = none)
    (hok : ∀ p', p'.lines = p.lines → p'.nodes t.path = some ⟨some mode, some 8, some 1000000⟩ →
      Meets (conduct (Fits t)) (f ()) p' Q E)
    (herr : ∀ p' e, p'.lines = p.lines → Unready t p' → E p' e) :
    Meets (conduct (Fits t)) (spi t.path mode 1000000 >>= f) p Q E := by
  have hset (q : Ports) (n : Option Node) : (q.setNode t.path n).nodes t.path = n := if_pos rfl
  have hupdate {q : Ports} {n : Node} (f : Node → Node) (hn : q.nodes t.path = some n) :
      (q.setNode t.path ((q.nodes t.path).map f)).nodes t.path = some (f n) := by
    rw [hset, hn, Option.map_some]
  have hunready {q : Ports} {n : Option Node} (hn : q.nodes t.path = n) (hspeed : ∀ m, n = some m → m.speed = none) :
      Unready t q := fun m hm => hspeed m (hn ▸ hm)
  apply meets_bind
  refine ask_bind ⟨hne, rfl⟩ (fun _ => ?_) fun e => herr p e rfl (unready_closed hclosed)
  generalize h₁ : Ports.after p (.spiOpen t.path) (.ok _) = p₁
  have hn₁ : p₁.nodes t.path = some ⟨none, none, none⟩ := h₁ ▸ hset p _
  have hl₁ : p₁.lines = p.lines := h₁ ▸ rfl
  refine ask_bind ⟨hne, rfl⟩ (fun _ => ?_) fun e => herr p₁ e hl₁ (hunready hn₁ (by simp))
  generalize h₂ : Ports.after p₁ (.spiMode t.path mode) (.ok _) = p₂
  have hn₂ : p₂.nodes t.path = some ⟨some mode, none, none⟩ := h₂ ▸ hupdate _ hn₁
  have hl₂ : p₂.lines = p.lines := h₂ ▸ hl₁
  refine ask_bind ⟨hne, rfl⟩ (fun _ => ?_) fun e => herr p₂ e hl₂ (hunready hn₂ (by simp))
  generalize h₃ : Ports.after p₂ (.spiBits t.path 8) (.ok _) = p₃
  have hn₃ : p₃.nodes t.path = some ⟨some mode, some 8, none⟩ := h₃ ▸ hupdate _ hn₂
  have hl₃ : p₃.lines = p.lines := h₃ ▸ hl₂
  refine meets_call ⟨hne, rfl⟩ (fun _ _ => ?_) fun e _ => herr p₃ e hl₃ (hunready hn₃ (by simp))
  exact hok _ hl₃ (hupdate _ hn₃)

theorem meets_conversation {mode : Nat} {level : Bool} (hne : t.reset ≠ t.irq)
    (hmode : p.nodes t.path = some ⟨some mode, some 8, some 1000000⟩) (hlevel : Driven t level p) (hcompared : Compared mode level) (bodies : List Bytes) :
    Meets (conduct (Fits t)) (conversation t.path bodies) p (fun p' _ => p' = p) fun p' _ => p' = p := by
  have hduplex (tx : Bytes) : Asks (fun r => Idle r ∨ ∃ tx, r = .duplex t.path tx) (ask (.duplex t.path tx)) :=
    asks_call (Or.inr ⟨tx, rfl⟩)
  have hsleep (us : Nat) : Asks (fun r => Idle r ∨ ∃ tx, r = .duplex t.path tx) (sleep us) := asks_call (Or.inl trivial)
  have hasks : Asks (fun r => Idle r ∨ ∃ tx, r = .duplex t.path tx) (conversation t.path bodies) := by
    refine Asks.bind (asks_each (fun _ body _ => ?_) ()) fun _ => (hduplex _).bind fun _ => asks_pure _
    split
    · exact asks_raise _
    · exact (hduplex _).bind fun _ => (hsleep _).bind fun _ => (hduplex _).bind fun _ => hsleep _
  refine hasks.meets ?_ (fun _ => rfl) fun _ => rfl
  intro r hr
  rcases hr with hidle | ⟨tx, rfl⟩
  · exact hidle.fits p
  · exact ⟨⟨hne, rfl, mode, level, hmode, hlevel, hcompared⟩, fun _ => rfl⟩

theorem meets_runCase (hne : t.reset ≠ t.irq) (c : Case) (hcompared : Compared c.modeBits c.resetAsserted)
    (hp : Between t p) :
    Meets (conduct (Fits t)) (runCase c.tag t.path ⟨t.chip, t.reset⟩ ⟨t.chip, t.irq⟩ c.resetAsserted c.modeBits c.bodies) p
      (fun p' _ => Between t p') fun p' _ => Broken t p' := by
  obtain ⟨⟨level, hlevel⟩, hclosed⟩ := hp
  refine set_bind hne hlevel (fun p₁ h₁ hn₁ => ?_) fun _ => Between.broken ⟨⟨level, hlevel⟩, hclosed⟩
  have hbetween₁ : Between t p₁ := ⟨⟨_, h₁⟩, hn₁ ▸ hclosed⟩
  refine sleep_bind (get_bind (fun _ => ?_) fun _ => hbetween₁.broken) fun _ => hbetween₁.broken
  refine set_bind hne h₁ (fun p₂ h₂ hn₂ => ?_) fun _ => hbetween₁.broken
  have hbetween₂ : Between t p₂ := ⟨⟨_, h₂⟩, hn₂ ▸ hbetween₁.2⟩
  have hasserted : Driven t c.resetAsserted p₂ := by
    cases hreset : c.resetAsserted with
    | true => simpa [hreset] using h₂
    | false => simpa [hreset] using h₂
  refine sleep_bind (get_bind (fun _ => ?_) fun _ => hbetween₂.broken) fun _ => hbetween₂.broken
  refine print_bind ?_ fun _ => hbetween₂.broken
  have hdriven {p' : Ports} (hl : p'.lines = p₂.lines) : Driven t c.resetAsserted p' := by
    rw [Driven, hl]
    exact hasserted
  refine spi_bind hne hbetween₂.2 (fun p₃ hl₃ hn₃ => ?_) fun p₃ _ hl₃ hunready => ⟨⟨_, hdriven hl₃⟩, hunready⟩
  -- the node is open from here to the `finally`, which closes it whatever the conversation ends with
  have hafter {p' : Ports} (hp' : p' = p₃) (a : Except Failure Unit) : Between t (p'.after (.spiClose t.path) a) := by
    rw [hp']
    exact ⟨⟨_, hdriven hl₃⟩, if_pos rfl⟩
  refine meets_bind (meets_ensure ((meets_conversation hne hn₃ (hdriven hl₃) hcompared c.bodies).mono ?_ ?_))
  · intro p' rx hp'
    refine meets_call ⟨hne, rfl⟩ (fun a _ => ?_) fun e _ => (hafter hp' (.error e)).broken
    have hbetween := hafter hp' (.ok a)
    refine get_bind (fun _ => print_bind ?_ fun _ => hbetween.broken) fun _ => hbetween.broken
    split
    · have hasks : Asks Idle (Raise.each (fun _ (l : List Char) => print "%s" [.str (String.ofList l)]) ()
          (Tools.CshighRepro.dump rx)) :=
        asks_each (fun _ l _ => (asks_call trivial : Asks Idle (print "%s" [.str (String.ofList l)]))) ()
      exact hasks.meets (fun r hr => hr.fits _) (fun _ => hbetween) fun _ => hbetween.broken
    · exact hbetween
  · intro p' e hp'
    exact meets_call ⟨hne, rfl⟩ (fun a _ => (hafter hp' (.ok a)).broken) fun e _ => (hafter hp' (.error e)).broken

end Case

/-! ### The test -/

theorem compared_cases : ∀ c ∈ cases, Compared c.modeBits c.resetAsserted := by
  simp [cases, Compared, SPI_CS_HIGH]

/-- The cases, and the release of the reset line after them. -/
theorem meets_allCases {p : Ports} (hne : t.reset ≠ t.irq) (hp : Between t p) :
    Meets (conduct (Fits t)) (allCases t.path ⟨t.chip, t.reset⟩ ⟨t.chip, t.irq⟩) p
      (fun p' _ => Driven t false p' ∧ p'.nodes t.path = none) fun p' _ => Broken t p' := by
  refine meets_bind ((meets_each (I := fun p _ => Between t p) cases (fun p _ c hc hp => ?_) hp).mono ?_ fun _ _ h => h)
  · exact meets_runCase hne c (compared_cases c hc) hp
  · intro p' _ hp'
    obtain ⟨⟨level, hlevel⟩, hclosed⟩ := hp'
    refine set_bind hne hlevel (fun p₁ h₁ hn₁ => ?_) fun _ => Between.broken ⟨⟨level, hlevel⟩, hclosed⟩
    have hbetween₁ : Between t p₁ := ⟨⟨_, h₁⟩, hn₁ ▸ hclosed⟩
    refine sleep_bind ?_ fun _ => hbetween₁.broken
    refine set_bind hne h₁ (fun p₂ h₂ hn₂ => ?_) fun _ => hbetween₁.broken
    have hbetween₂ : Between t p₂ := ⟨⟨_, h₂⟩, hn₂ ▸ hbetween₁.2⟩
    refine sleep_bind (get_bind (fun _ => ?_) fun _ => hbetween₂.broken) fun _ => hbetween₂.broken
    exact meets_call trivial (fun _ _ => ⟨h₂, hbetween₂.2⟩) fun _ _ => hbetween₂.broken

theorem asks_showPads (tag : String) (lines : List Int) : Asks Idle (showPads tag lines) := by
  refine (asks_call trivial).bind fun pads => (asks_call trivial).bind fun _ => asks_each (fun _ ln _ => ?_) ()
  split
  · exact asks_pure _
  · split
    · exact asks_raise _
    · exact asks_call trivial

/-- How the ports stand when the script is over, whichever way. A line that is still requested is the interrupt's as well, and requested as an input; a node that is still open has not been set up. -/
structure Left (t : Target) (p : Ports) : Prop where
  reset : (p.lines t.chip t.reset).held = true → t.reset = t.irq ∧ (p.lines t.chip t.reset).output = false
  node : Unready t p

/-- How they stand when it returns: the reset released, and everything closed. -/
def Released (t : Target) (p : Ports) : Prop :=
  t.reset ≠ t.irq ∧ p.lines t.chip t.reset = ⟨false, true, false⟩ ∧ (p.lines t.chip t.irq).held = false ∧
    p.nodes t.path = none

theorem left_of_free {p : Ports} (hfree : (p.lines t.chip t.reset).held = false) (hnode : Unready t p) : Left t p := by
  refine ⟨fun hheld => ?_, hnode⟩
  rw [hfree] at hheld
  exact absurd hheld (by simp)

theorem left_closed (t : Target) : Left t Ports.closed := left_of_free rfl (unready_closed rfl)

theorem Released.left {p : Ports} (hp : Released t p) : Left t p :=
  left_of_free (by rw [hp.2.1]) (unready_closed hp.2.2.2)

theorem meets_closeBoth {p : Ports} {level : Bool} (hne : t.reset ≠ t.irq) (hlevel : Driven t level p)
    (hnode : Unready t p) {Q : Ports → Prop}
    (hQ : ∀ p', p'.lines t.chip t.reset = ⟨false, true, level⟩ → (p'.lines t.chip t.irq).held = false →
      p'.nodes = p.nodes → Q p') :
    Meets (conduct (Fits t)) (do
        Line.close ⟨t.chip, t.reset⟩
        Line.close ⟨t.chip, t.irq⟩ : ReproM Unit) p (fun p' _ => Q p') fun p' _ => Left t p' := by
  have hfirst (b : Except Failure Unit) :
      (p.after (.gpioClose t.chip t.reset) b).lines t.chip t.reset = ⟨false, true, level⟩ := by
    show (if t.chip = t.chip ∧ t.reset = t.reset then _ else _) = _
    rw [if_pos ⟨rfl, rfl⟩, hlevel]
  have hsecond (b c : Except Failure Unit) :
      (Ports.after (p.after (.gpioClose t.chip t.reset) b) (.gpioClose t.chip t.irq) c).lines t.chip t.reset =
        ⟨false, true, level⟩ := by
    show (if t.chip = t.chip ∧ t.reset = t.irq then _ else _) = _
    rw [if_neg fun h => hne h.2, hfirst]
  have hirq (b c : Except Failure Unit) :
      ((Ports.after (p.after (.gpioClose t.chip t.reset) b) (.gpioClose t.chip t.irq) c).lines t.chip t.irq).held = false := by
    show LineState.held (if t.chip = t.chip ∧ t.irq = t.irq then _ else _) = _
    rw [if_pos ⟨rfl, rfl⟩]
  refine ask_bind ⟨rfl, Or.inl rfl⟩ (fun b => ?_) fun e => left_of_free (congrArg LineState.held (hfirst _)) hnode
  refine meets_call ⟨rfl, Or.inr rfl⟩ (fun c _ => ?_) fun e _ =>
    left_of_free (congrArg LineState.held (hsecond (.ok b) (.error e))) hnode
  exact hQ _ (hsecond (.ok b) (.ok c)) (hirq (.ok b) (.ok c)) rfl

/-- A request for a line, which succeeds only if the line is free. -/
theorem open_bind {α : Type} {p : Ports} {offset : Int} {output : Bool} {value : Nat} {f : Line → ReproM α}
    {Q : Ports → α → Prop} {E : Ports → Failure → Prop} (hmay : Fits t p (.gpioOpen t.chip offset output value))
    (hok : (p.lines t.chip offset).held = false →
      Meets (conduct (Fits t)) (f ⟨t.chip, offset⟩) (p.after (.gpioOpen t.chip offset output value) (.ok ())) Q E)
    (herr : ∀ e, E p e) : Meets (conduct (Fits t)) (line t.chip offset output value >>= f) p Q E := by
  refine meets_bind (meets_bind (meets_call hmay (fun a hdenied => hok ?_) fun e _ => herr e))
  cases hheld : (p.lines t.chip offset).held with
  | false => rfl
  | true =>
      obtain ⟨e, he⟩ := hdenied hheld
      exact absurd he (by simp)

theorem meets_onBoard :
    Meets (conduct (Fits t)) (onBoard t.path t.chip t.reset t.irq) Ports.closed (fun p _ => Released t p)
      fun p _ => Left t p := by
  have hclosed := left_closed t
  refine idle_bind (fun _ _ => rfl) trivial (fun there => ?_) fun _ => hclosed
  split
  · exact hclosed
  · refine print_bind ?_ fun _ => hclosed
    refine idle_prog_bind (asks_showPads _ _) (fun r hr => hr.fits _) (fun _ => ?_) fun _ => hclosed
    refine open_bind ⟨rfl, rfl⟩ (fun _ => ?_) fun _ => hclosed
    generalize hp₁ : Ports.after Ports.closed (.gpioOpen t.chip t.irq false 0) (.ok ()) = p₁
    have hirq : p₁.lines t.chip t.irq = ⟨true, false, false⟩ := hp₁ ▸ if_pos ⟨rfl, rfl⟩
    have hother : t.reset ≠ t.irq → (p₁.lines t.chip t.reset).held = false := by
      intro hne
      rw [← hp₁]
      show LineState.held (if t.chip = t.chip ∧ t.reset = t.irq then _ else _) = _
      rw [if_neg fun h => hne h.2]
      rfl
    have hnode₁ : p₁.nodes t.path = none := hp₁ ▸ rfl
    have hopened : Left t p₁ := by
      refine ⟨fun hheld => ?_, unready_closed hnode₁⟩
      by_cases hsame : t.reset = t.irq
      · exact ⟨hsame, by rw [hsame, hirq]⟩
      · rw [hother hsame] at hheld
        exact absurd hheld (by simp)
    refine open_bind ⟨rfl, rfl, rfl⟩ (fun hfree => ?_) fun _ => hopened
    -- the second request succeeded, so it was for another line
    have hne : t.reset ≠ t.irq := by
      intro hsame
      rw [hsame, hirq] at hfree
      exact absurd hfree (by simp)
    have hbetween : Between t (p₁.after (.gpioOpen t.chip t.reset true 1) (.ok ())) := ⟨⟨true, if_pos ⟨rfl, rfl⟩⟩, hnode₁⟩
    refine meets_bind (meets_ensure ((meets_allCases hne hbetween).mono ?_ ?_))
    · intro p _ hp
      obtain ⟨hlevel, hnode⟩ := hp
      refine meets_closeBoth hne hlevel (unready_closed hnode) fun p' hreset hirq hnodes => ?_
      have hreleased : Released t p' := ⟨hne, hreset, hirq, hnodes ▸ hnode⟩
      refine print_bind ?_ fun _ => hreleased.left
      exact (asks_showPads _ _).meets (fun r hr => hr.fits _) (fun _ => hreleased) fun _ => hreleased.left
    · intro p e hp
      obtain ⟨⟨level, hlevel⟩, hunready⟩ := hp
      refine meets_closeBoth hne hlevel hunready fun p' hreset _ hnodes => ?_
      exact left_of_free (by rw [hreset]) (by rw [Unready, hnodes]; exact hunready)

/-! ### Runs -/

/-- What the test may ask: of the resolved board what fits, and without one nothing of a device. -/
def Allowed (found : Option Target) (p : Ports) (r : ReproReq) : Prop :=
  match found with
  | some t => Fits t p r
  | none => ¬ ToDevice r

/-- How it may leave the ports: a test that returns had a board to test. -/
def Ending (found : Option Target) (p : Ports) (a : Except Failure Unit) : Prop :=
  match found with
  | some t => Left t p ∧ (a = .ok () → Released t p)
  | none => p = Ports.closed ∧ a ≠ .ok ()

theorem Idle.allowed {r : ReproReq} (hr : Idle r) (found : Option Target) (p : Ports) :
    Allowed found p r ∧ ∀ a, p.after r a = p := by
  refine ⟨?_, (hr.fits (t := ⟨"", "", 0, 0⟩) p).2⟩
  cases found with
  | some t => exact (hr.fits p).1
  | none =>
      intro hdevice
      cases r <;> first | exact hdevice | exact hr

theorem meets_main (S : Board.Sysfs) (spidev : Option String) (reset irq : Option Int) :
    wp (conduct (Allowed (target S spidev reset irq))) (main S spidev reset irq) Ports.closed
      (Ending (target S spidev reset irq)) := by
  have hearly (e : Failure) : Ending (target S spidev reset irq) Ports.closed (.error e) := by
    cases target S spidev reset irq with
    | some t => exact ⟨left_closed t, by simp⟩
    | none => exact ⟨rfl, by simp⟩
  have hmain : Meets (conduct (Allowed (target S spidev reset irq))) (main S spidev reset irq) Ports.closed
      (fun p a => Ending (target S spidev reset irq) p (.ok a)) fun p e => Ending (target S spidev reset irq) p (.error e) := by
    have hidle {r : ReproReq} (hr : Idle r) := (hr.allowed (target S spidev reset irq) Ports.closed).1
    refine idle_bind (fun _ _ => rfl) (hidle trivial) (fun uid => ?_) hearly
    split
    · exact hearly _
    · refine idle_bind (fun _ _ => rfl) (hidle trivial) (fun now => ?_) hearly
      refine idle_bind (fun _ _ => rfl) (hidle trivial) (fun _ => ?_) hearly
      cases hres : Board.resolve S spidev reset irq false with
      | error e => exact hearly _
      | ok r =>
          have hsaid : Asks Idle (Raise.each (fun _ (l : String × List Shown) => print l.1 l.2) () r.said) :=
            asks_each (fun _ l _ => (asks_call trivial : Asks Idle (print l.1 l.2))) ()
          refine idle_prog_bind hsaid (fun r hr => hr.allowed _ _) (fun _ => ?_) hearly
          split
          · next path rstLine irqLine hpath hrst hirq =>
              split
              · exact hearly _
              · next hne =>
                  have hfound : target S spidev reset irq = some ⟨path, r.chip, rstLine, irqLine⟩ := by
                    simp [target, hres, hpath, hrst, hirq, hne]
                  rw [hfound]
                  exact (meets_onBoard (t := ⟨path, r.chip, rstLine, irqLine⟩)).mono
                    (fun p _ hp => ⟨hp.left, fun _ => hp⟩) fun p e hp => ⟨hp, by simp⟩
          · exact hearly _
  apply wp_mono hmain
  intro p a ha
  cases a with
  | ok a => exact ha
  | error e => exact ha

/-- What is outside denies a second request for a line that is held. -/
def Exclusive {σ : Type} (O : Outside σ) : Prop := ∀ p r env, Denied p r (O.answer p r env).1

/-- **The test in any run**, on whatever board is resolved, or none. -/
theorem repro_run {σ : Type} (O : Outside σ) (hO : Exclusive O) (S : Board.Sysfs) (spidev : Option String)
    (reset irq : Option Int) (env : σ) :
    let run := O.run (main S spidev reset irq) ⟨env, Ports.closed, []⟩
    (∀ entry ∈ run.2.log, Allowed (target S spidev reset irq) entry.1 entry.2) ∧
      Ending (target S spidev reset irq) run.2.ports run.1 := by
  have hstep : ∀ (p : Ports) (s : State σ) (r : ReproReq),
      (s.ports = p ∧ ∀ entry ∈ s.log, Allowed (target S spidev reset irq) entry.1 entry.2) →
      Allowed (target S spidev reset irq) p r →
      Denied p r (handle O r s).1 ∧ (handle O r s).2.ports = p.after r (handle O r s).1 ∧
        ∀ entry ∈ (handle O r s).2.log, Allowed (target S spidev reset irq) entry.1 entry.2 := by
    intro p s r hs hmay
    obtain ⟨rfl, hlog⟩ := hs
    refine ⟨hO s.ports r s.env, rfl, ?_⟩
    intro entry hentry
    rcases List.mem_append.mp hentry with hentry | hentry
    · exact hlog entry hentry
    · rw [List.mem_singleton.mp hentry]
      exact hmay
  obtain ⟨p, ⟨hports, hlog⟩, hend⟩ := wp_run (h := handle O) hstep (meets_main S spidev reset irq)
    (s := ⟨env, Ports.closed, []⟩) ⟨rfl, by simp⟩
  exact ⟨hlog, hports ▸ hend⟩

/-! ### A board that answers nothing -/

/-- Every request returns but a second one for a held line; no pads are shown, and only zeros come back. -/
def silent : Outside Unit where
  answer p r _ :=
    match r with
    | .geteuid => (.ok 0, ())
    | .strftime => (.ok "", ())
    | .pathExists _ => (.ok true, ())
    | .readPads => (.ok [], ())
    | .gpioOpen chip offset _ _ =>
        (if (p.lines chip offset).held then .error (.raised (.osError 16)) else .ok (), ())
    | .gpioGet _ _ => (.ok false, ())
    | .duplex _ tx => (.ok ⟨zeroBytes tx.length, List.length_replicate⟩, ())
    | .gpioSet _ _ _ | .gpioClose _ _ | .spiOpen _ | .spiMode _ _ | .spiBits _ _ | .spiSpeed _ _ | .spiClose _ | .sleep _
    | .print _ _ => (.ok (), ())

theorem silent_exclusive : Exclusive silent := by
  intro p r env
  cases r with
  | gpioOpen chip offset output value => exact fun hheld => ⟨_, if_pos hheld⟩
  | _ => trivial

def barren : Board.Sysfs where
  environ _ := none
  findSpidev := none
  readPads := []
  gpiochipPath _ := "/dev/gpiochip0"

set_option maxRecDepth 3000 in
/-- A run to its end. -/
theorem repro_run_silent :
    let run := silent.run (main barren (some "/dev/spidev1.0") (some 264) (some 48)) ⟨(), Ports.closed, []⟩
    run.1 = .ok () ∧ Released ⟨"/dev/spidev1.0", "/dev/gpiochip0", 264, 48⟩ run.2.ports := by
  have htarget : target barren (some "/dev/spidev1.0") (some 264) (some 48) =
      some ⟨"/dev/spidev1.0", "/dev/gpiochip0", 264, 48⟩ := rfl
  have hreturns : (silent.run (main barren (some "/dev/spidev1.0") (some 264) (some 48)) ⟨(), Ports.closed, []⟩).1 = .ok () :=
    rfl
  have hend := (repro_run silent silent_exclusive barren (some "/dev/spidev1.0") (some 264) (some 48) ()).2
  rw [htarget] at hend
  exact ⟨hreturns, hend.2 hreturns⟩

end GoodixSpi.Bench.Repro
