import GoodixSpi.Bench.Bringup
import GoodixSpi.Bench.LowSweeps

/-!
# What the scripts ask of the GPIO lines

`Confined xfers G p` bounds what a script can do to the lines: whatever it is answered, every line it opens, sets or closes satisfies `G`, and it makes transfers only if `xfers`. The instances follow the constructs a script is made of, so that a part of a script is confined by its parts.
-/

set_option synthInstance.maxSize 1000

namespace GoodixSpi.Bench

open Wire Interaction Tools

/-- The requests allowed to a confined script; `G` sees the line and the value written to it, if one is. -/
def Within (xfers : Prop) (G : Nat → Option Nat → Prop) : BenchReq → Prop
  | .gpioOpen offset output value => G offset (if output then some value else none)
  | .gpioSet offset v => G offset (some v)
  | .gpioClose offset => G offset none
  | .spiXfer _ _ _ _ => xfers
  | _ => True

class Confined (xfers : Prop) (G : Nat → Option Nat → Prop) {α : Type} (p : BenchM α) : Prop where
  asks : Raise.Asks (Within xfers G) p

variable {xfers : Prop} {G : Nat → Option Nat → Prop} {α β γ : Type}

/-- Lines other than this one. -/
def Elsewhere (line offset : Nat) (_ : Option Nat) : Prop := offset ≠ line

theorem Pin.after_elsewhere {line : Nat} {r : BenchReq} (hr : Within xfers (Elsewhere line) r) (p : Pin)
    (a : Except Exn (BenchOut r)) : p.after line r a = p := by
  cases r with
  | gpioOpen offset output value =>
      cases a with
      | ok _ => exact if_neg hr
      | error e => rfl
  | gpioSet offset v =>
      cases a with
      | ok _ => exact if_neg fun h => hr h.1
      | error e => rfl
  | gpioClose offset => exact if_neg hr
  | _ => rfl

theorem irq_ne_en : LINE_IRQ ≠ LINE_EN := by decide

theorem irq_ne_rst : LINE_IRQ ≠ LINE_RST := by decide

instance (v : Option Nat) : Fact (Elsewhere LINE_EN LINE_IRQ v) := ⟨irq_ne_en⟩

instance (v : Option Nat) : Fact (Elsewhere LINE_RST LINE_IRQ v) := ⟨irq_ne_rst⟩

instance factTrue : Fact True := ⟨trivial⟩

/-! ### Constructs -/

instance (a : α) : Confined xfers G (pure a : BenchM α) := ⟨Raise.asks_pure a⟩

instance (e : Exn) : Confined xfers G (Raise.raise e : BenchM α) := ⟨Raise.asks_raise e⟩

instance (msg : String) : Confined xfers G (sysExit msg : BenchM α) := ⟨Raise.asks_raise _⟩

instance {p : BenchM α} {f : α → BenchM β} [hp : Confined xfers G p] [hf : ∀ a, Confined xfers G (f a)] :
    Confined xfers G (p >>= f) :=
  ⟨hp.asks.bind fun a => (hf a).asks⟩

instance {c : Prop} [Decidable c] {p q : BenchM α} [hp : Confined xfers G p] [hq : Confined xfers G q] :
    Confined xfers G (if c then p else q) := by
  split
  · exact hp
  · exact hq

instance {f : γ → β → BenchM γ} [hf : ∀ g x, Confined xfers G (f g x)] (g : γ) (xs : List β) :
    Confined xfers G (Raise.each f g xs) :=
  ⟨Raise.asks_each (fun g x _ => (hf g x).asks) g⟩

instance {handles : Exn → Bool} {p : BenchM α} {caught : Exn → BenchM β} {otherwise : α → BenchM β}
    [hp : Confined xfers G p] [hc : ∀ e, Confined xfers G (caught e)] [ho : ∀ a, Confined xfers G (otherwise a)] :
    Confined xfers G (Raise.tryExcept handles p caught otherwise) :=
  ⟨hp.asks.tryExcept (fun e => (hc e).asks) (fun a => (ho a).asks) handles⟩

instance {p : BenchM α} {q : BenchM Unit} [hp : Confined xfers G p] [hq : Confined xfers G q] :
    Confined xfers G (Raise.ensure p q) :=
  ⟨hp.asks.ensure hq.asks⟩

instance (o : Option α) : Confined xfers G (orValueError o) := by
  cases o
  · exact ⟨Raise.asks_raise _⟩
  · exact ⟨Raise.asks_pure _⟩

/-! ### Calls -/

/-- A request that neither touches a line nor clocks the bus. -/
def BenchReq.neutral : BenchReq → Bool
  | .gpioOpen _ _ _ | .gpioSet _ _ | .gpioClose _ | .spiXfer _ _ _ _ => false
  | _ => true

theorem BenchReq.within_of_neutral {r : BenchReq} (hr : r.neutral = true) : Within xfers G r := by
  cases r with
  | gpioOpen _ _ _ => exact absurd hr Bool.false_ne_true
  | gpioSet _ _ => exact absurd hr Bool.false_ne_true
  | gpioClose _ => exact absurd hr Bool.false_ne_true
  | spiXfer _ _ _ _ => exact absurd hr Bool.false_ne_true
  | _ => trivial

theorem confined_ask {r : BenchReq} (hr : r.neutral = true) : Confined xfers G (ask r) :=
  ⟨Raise.asks_call (BenchReq.within_of_neutral hr)⟩

instance : Confined xfers G (ask .geteuid) := confined_ask rfl
instance (path : String) : Confined xfers G (ask (.pathExists path)) := confined_ask rfl
instance : Confined xfers G (ask .strftime) := confined_ask rfl
instance (path : String) : Confined xfers G (ask (.readFile path)) := confined_ask rfl
instance (path val : String) : Confined xfers G (ask (.writeFile path val)) := confined_ask rfl
instance : Confined xfers G (ask .devOpen) := confined_ask rfl
instance (mode : Nat) : Confined xfers G (ask (.wrMode mode)) := confined_ask rfl
instance : Confined xfers G (ask .rdMode) := confined_ask rfl
instance (bits : Nat) : Confined xfers G (ask (.wrBits bits)) := confined_ask rfl
instance : Confined xfers G (ask .devClose) := confined_ask rfl
instance : Confined xfers G (ask .monotonic) := confined_ask rfl
instance : Confined xfers G (ask .clockMs) := confined_ask rfl
instance (us : Nat) : Confined xfers G (sleep us) := confined_ask rfl
instance (fmt : String) (args : List Shown) : Confined xfers G (print fmt args) := confined_ask rfl
instance (l : GpioLine) : Confined xfers G l.get := confined_ask rfl
instance (s : Spi) : Confined xfers G s.close := confined_ask rfl

instance (mode speed bits : Nat) : Confined xfers G (Spi.open mode speed bits) :=
  ⟨(confined_ask (r := .spiOpen mode speed bits) rfl).asks.bind fun _ => Raise.asks_pure _⟩

instance [h : Fact xfers] (s : Spi) (segments : List Segment) (wordDelay : Nat) :
    Confined xfers G (s.xfer segments wordDelay) :=
  ⟨Raise.asks_call h.out⟩

instance [Fact xfers] (s : Spi) (tx : Bytes) (wordDelay : Nat) : Confined xfers G (s.duplex tx wordDelay) := by
  unfold Spi.duplex
  infer_instance

instance (offset : Nat) (output : Bool) (value : Nat) [h : Fact (G offset (if output then some value else none))] :
    Confined xfers G (GpioLine.request offset output value) := by
  have hopen : Raise.Asks (Within xfers G) (ask (.gpioOpen offset output value)) := Raise.asks_call h.out
  exact ⟨hopen.bind fun _ => Raise.asks_pure _⟩

/-- What follows a request has the line that was asked for. -/
instance (priority := high) {f : GpioLine → BenchM α} (offset : Nat) (output : Bool) (value : Nat)
    [h : Fact (G offset (if output then some value else none))] [hf : Confined xfers G (f ⟨offset⟩)] :
    Confined xfers G (GpioLine.request offset output value >>= f) := by
  constructor
  refine ⟨h.out, ?_⟩
  intro a
  cases a with
  | ok _ => exact hf.asks
  | error e => exact Raise.asks_raise e

instance (l : GpioLine) (v : Nat) [h : Fact (G l.offset (some v))] : Confined xfers G (l.set v) :=
  ⟨Raise.asks_call h.out⟩

instance (l : GpioLine) [h : Fact (G l.offset none)] : Confined xfers G l.close := ⟨Raise.asks_call h.out⟩

instance [Fact xfers] (spi : Spi) (irq : GpioLine) (p : HostM α) : Confined xfers G (onDevices spi irq p) := by
  have hany : Prog.Only (fun _ => True) p := by
    induction p with
    | ret a => trivial
    | ask r next ih => exact ⟨trivial, ih⟩
  constructor
  apply Raise.asks_lift _ hany
  intro r _
  cases r with
  | irqGet => exact (confined_ask (r := .gpioGet irq.offset) rfl).asks
  | duplex tx =>
      have hduplex : Confined xfers G (spi.duplex tx) := inferInstance
      exact hduplex.asks
  | sleep us => exact (confined_ask (r := .sleep us) rfl).asks
  | clockMs => exact (confined_ask (r := .clockMs) rfl).asks
  | print fmt args => exact (confined_ask (r := .print fmt args) rfl).asks

/-! ### Parts of the scripts that leave the lines and the bus alone -/

instance : Confined xfers G requireRoot := by
  unfold requireRoot
  infer_instance

instance (missing : String) : Confined xfers G (requireNode missing) := by
  unfold requireNode
  infer_instance

instance (width : Nat) (head fmt nothing : String) (hits : List Hit) :
    Confined xfers G (printHits width head fmt nothing hits) := by
  unfold printHits
  infer_instance

instance (modeBits : Nat) (label : Label) : Confined xfers G (Bruteforce.modeTaken modeBits label) := by
  unfold Bruteforce.modeTaken
  infer_instance

instance (label : Label) (rx : Bytes) (results : List Hit) :
    Confined xfers G (Bruteforce.verdict label rx results) := by
  unfold Bruteforce.verdict
  infer_instance

instance (label : Label) (rx : Bytes) (hits : List Hit) : Confined xfers G (Wider.report label rx hits) := by
  unfold Wider.report
  infer_instance

instance : Confined xfers G (Sigfrodr.checkConstants) := by
  unfold Sigfrodr.checkConstants
  infer_instance

instance (irq : GpioLine) (ms t polls : Nat) : Confined xfers G (pulseFrom irq ms t polls) := by
  induction polls with
  | zero => exact ⟨Raise.asks_pure _⟩
  | succ polls ih =>
      unfold pulseFrom
      infer_instance

instance (irq : GpioLine) (ms polls : Nat) : Confined xfers G (pulse irq ms polls) := by
  unfold pulse
  infer_instance

instance (irq : GpioLine) (level : Bool) (ms t polls : Nat) :
    Confined xfers G (ResetLow.waitLevelFrom irq level ms t polls) := by
  induction polls with
  | zero => exact ⟨Raise.asks_pure _⟩
  | succ polls ih =>
      unfold ResetLow.waitLevelFrom
      infer_instance

instance (irq : GpioLine) (level : Bool) (ms polls : Nat) :
    Confined xfers G (ResetLow.waitLevel irq level ms polls) := by
  unfold ResetLow.waitLevel
  infer_instance

instance (body : Option Bytes) : Confined xfers G (Framing.bodyOf body) := by
  cases body <;> unfold Framing.bodyOf <;> infer_instance

instance (tag : String) : Confined xfers G (Refseq.pads tag) := by
  unfold Refseq.pads
  infer_instance

instance : Confined xfers G (uptime) := by
  unfold uptime
  infer_instance

instance (fmt name : String) (speed : Nat) : Confined xfers G (Refseq.banner fmt name speed) := by
  unfold Refseq.banner
  infer_instance

instance (path val : String) : Confined xfers G (RecoverProbe.w path val) := by
  unfold RecoverProbe.w
  infer_instance

instance : Confined xfers G (RecoverProbe.unbind) := by
  unfold RecoverProbe.unbind
  infer_instance

instance : Confined xfers G (RecoverProbe.rebind) := by
  unfold RecoverProbe.rebind
  infer_instance

instance : Confined xfers G (RecoverProbe.bind) := by
  unfold RecoverProbe.bind
  infer_instance

/-! ### Parts that clock the bus and leave the lines alone -/

variable [Fact xfers]

instance (s : Spi) : Confined xfers G (Bruteforce.conversation s) := by
  unfold Bruteforce.conversation
  infer_instance

instance (modeBits speed : Nat) (label : Label) (results : List Hit) :
    Confined xfers G (Bruteforce.attemptOn modeBits speed label results) := by
  unfold Bruteforce.attemptOn
  infer_instance

instance (modeBits speed : Nat) (label : Label) (results : List Hit) :
    Confined xfers G (Bruteforce.attempt modeBits speed label results) := by
  unfold Bruteforce.attempt
  infer_instance

instance : Confined xfers G (Bruteforce.sweep) := by
  unfold Bruteforce.sweep
  infer_instance

instance (spi : Spi) (gapUs readLen wordDelay : Nat) : Confined xfers G (Wider.probe spi gapUs readLen wordDelay) := by
  unfold Wider.probe
  infer_instance

instance (s : Spi) (label : Label) (hits : List Hit) : Confined xfers G (Dialects.check s label hits) := by
  unfold Dialects.check
  infer_instance

instance (s : Spi) (tx : Bytes) (us : Nat) (label : Label) (hits : List Hit) :
    Confined xfers G (Dialects.poke s tx us label hits) := by
  unfold Dialects.poke
  infer_instance

instance (s : Spi) (c0 : Nat) (acc : Nat × List Hit) (c1 : Nat) :
    Confined xfers G (Dialects.milanStep s c0 acc c1) := by
  unfold Dialects.milanStep
  infer_instance

instance (s : Spi) : Confined xfers G (Dialects.milanSpace s) := by
  unfold Dialects.milanSpace
  infer_instance

instance (s : Spi) (hits : List Hit) : Confined xfers G (Dialects.rawPatterns s hits) := by
  unfold Dialects.rawPatterns
  infer_instance

instance (s : Spi) (fmt : String) (frame : UInt8 → Bytes) (cmds : List UInt8) (hits : List Hit) :
    Confined xfers G (Dialects.byCommand s fmt frame cmds hits) := by
  unfold Dialects.byCommand
  infer_instance

instance (s : Spi) (hits : List Hit) : Confined xfers G (Dialects.dfu s hits) := by
  unfold Dialects.dfu
  infer_instance

instance (s : Spi) (hits : List Hit) : Confined xfers G (Dialects.iha s hits) := by
  unfold Dialects.iha
  infer_instance

instance (s : Spi) (hits : List Hit) : Confined xfers G (Dialects.ccf2 s hits) := by
  unfold Dialects.ccf2
  infer_instance

instance (s : Spi) (hits : List Hit) : Confined xfers G (Dialects.barePatterns s hits) := by
  unfold Dialects.barePatterns
  infer_instance

instance (spi : Spi) (ack hdr : Bytes) (out : List Label) : Confined xfers G (Sigfrodr.reply spi ack hdr out) := by
  unfold Sigfrodr.reply
  infer_instance

instance (spi : Spi) (irq : GpioLine) : Confined xfers G (Sigfrodr.readFour spi irq) := by
  unfold Sigfrodr.readFour
  infer_instance

instance (spi : Spi) (irq : GpioLine) (scale : Nat) (preamble : Bytes) :
    Confined xfers G (Sigfrodr.exchange spi irq scale preamble) := by
  unfold Sigfrodr.exchange
  infer_instance

instance (spi : Spi) (irq : GpioLine) (polls mode cmd0 : Nat) (acc : SweepLow.Tally) (cmd1 : Nat) :
    Confined xfers G (SweepLow.command spi irq polls mode cmd0 acc cmd1) := by
  unfold SweepLow.command
  infer_instance

instance (spi : Spi) (irq : GpioLine) (polls mode : Nat) (acc : SweepLow.Tally) (cmd0 : Nat) :
    Confined xfers G (SweepLow.family spi irq polls mode acc cmd0) := by
  unfold SweepLow.family
  infer_instance

instance (irq : GpioLine) (polls : Nat) (acc : SweepLow.Tally) (mode : Nat) :
    Confined xfers G (SweepLow.clockMode irq polls acc mode) := by
  unfold SweepLow.clockMode
  infer_instance

instance (spi : Spi) (data : Bytes) (setup hold : Nat) : Confined xfers G (CsTimingLow.send spi data setup hold) := by
  unfold CsTimingLow.send
  infer_instance

instance (spi : Spi) (label : String) (setup hold : Nat) :
    Confined xfers G (CsTimingLow.timing spi label setup hold) := by
  unfold CsTimingLow.timing
  infer_instance

instance (spi : Spi) (irq : GpioLine) (polls : Nat) (c : CsTimingLow.Case) (acc : Bytes × Nat) (body : Bytes) :
    Confined xfers G (CsTimingLow.exchange spi irq polls c acc body) := by
  unfold CsTimingLow.exchange
  infer_instance

instance (irq : GpioLine) (polls : Nat) (hits : List Label) (c : CsTimingLow.Case) :
    Confined xfers G (CsTimingLow.runCase irq polls hits c) := by
  unfold CsTimingLow.runCase
  infer_instance

instance (spi : Spi) (hdr : Bytes) : Confined xfers G (ResetLow.readBody spi hdr) := by
  unfold ResetLow.readBody
  infer_instance

instance (spi : Spi) (irq : GpioLine) (polls : Nat) (tag : String) :
    Confined xfers G (ResetLow.readReply spi irq polls tag) := by
  unfold ResetLow.readReply
  infer_instance

instance (spi : Spi) (irq : GpioLine) (polls : Nat) : Confined xfers G (ResetLow.readReplies spi irq polls) := by
  unfold ResetLow.readReplies
  infer_instance

instance (polls : Nat) (spi : Spi) (irq : GpioLine) :
    Confined xfers G (ResetLow.exchangeOneTransfer polls spi irq) := by
  unfold ResetLow.exchangeOneTransfer
  infer_instance

instance (polls : Nat) (spi : Spi) (irq : GpioLine) :
    Confined xfers G (ResetLow.exchangeTwoTransfer polls spi irq) := by
  unfold ResetLow.exchangeTwoTransfer
  infer_instance

instance (irq : GpioLine) (speed : Nat) (name : String) (fn : Spi → GpioLine → BenchM Bool) (hits : List Label)
    [∀ spi, Confined xfers G (fn spi irq)] : Confined xfers G (ResetLow.trial irq speed name fn hits) := by
  unfold ResetLow.trial
  infer_instance

instance (l : Framing.Link) (body : Bytes) : Confined xfers G (l.frame body) := by
  unfold Framing.Link.frame
  infer_instance

instance (l : Framing.Link) (body : Bytes) : Confined xfers G (l.command body) := by
  unfold Framing.Link.command
  infer_instance

instance (l : Framing.Link) (tag : String) : Confined xfers G (l.read tag) := by
  unfold Framing.Link.read
  infer_instance

instance (l : Framing.Link) (hit : Bool) (c : String × Option Bytes × Bool) :
    Confined xfers G (Framing.step l hit c) := by
  unfold Framing.step
  infer_instance

/-! ### Parts that take the interrupt line -/

variable [∀ v, Fact (G LINE_IRQ v)]

instance (one pre : Bool) (speed : Nat) : Confined xfers G (Framing.run one pre speed) := by
  unfold Framing.run
  infer_instance

instance (one pre : Bool) (wins : List Label) (speed : Nat) : Confined xfers G (Framing.trial one pre wins speed) := by
  unfold Framing.trial
  infer_instance

end GoodixSpi.Bench
