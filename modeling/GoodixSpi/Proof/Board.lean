import GoodixSpi.Tools.Board
import Mathlib.Data.List.Pairwise

/-!
# The lines `resolve` picks on its own

An interrupt line that is discovered is always one of `classify`'s candidates. The reset line is not: line 264 is taken whenever its pad is not ACPI's, and what follows only comments on its shape.
-/

namespace GoodixSpi.Tools.Board

def DistinctLines (pads : List Pad) : Prop := pads.Pairwise fun p q => p.line = none ∨ p.line ≠ q.line

instance (pads : List Pad) : Decidable (DistinctLines pads) := inferInstanceAs (Decidable (List.Pairwise _ _))

/-- The lines are none or candidates, and not the same line. -/
structure RightShape (pads : List Pad) (r : Resolved) : Prop where
  reset : ∀ line, r.reset = some line → ∃ p ∈ (classify pads).1, p.line = some line
  irq : ∀ line, r.irq = some line → ∃ p ∈ (classify pads).2, p.line = some line
  distinct : ∀ line, r.reset = some line → r.irq ≠ some line

/-- Where the shortcut to line 264 goes wrong: its pad is nobody's, has a configuration word, and is no reset candidate. -/
def Misleads (pads : List Pad) (p : Pad) : Prop :=
  p.line = some 264 ∧ p.acpi = false ∧ p.cfg0 ≠ none ∧ p ∉ (classify pads).1

instance (pads : List Pad) (p : Pad) : Decidable (Misleads pads p) := inferInstanceAs (Decidable (_ ∧ _ ∧ _ ∧ _))

theorem mem_resets {pads : List Pad} {p : Pad} :
    p ∈ (classify pads).1 ↔ p ∈ pads ∧ considered p = true ∧ isOutput p.cfg0 = true ∧ isInput p.cfg0 = false := by
  simp [classify]

theorem mem_irqs {pads : List Pad} {p : Pad} :
    p ∈ (classify pads).2 ↔ p ∈ pads ∧ considered p = true ∧ isInput p.cfg0 = true ∧ routedToIoxapic p.cfg0 = true := by
  simp [classify]

theorem not_mem_irqs_of_mem_resets {pads : List Pad} {p : Pad} (h : p ∈ (classify pads).1) : p ∉ (classify pads).2 := by
  intro h'
  rw [mem_resets] at h
  rw [mem_irqs] at h'
  rw [h'.2.2.1] at h
  exact absurd h.2.2.2 (by simp)

theorem line_of_considered {p : Pad} (h : considered p = true) : ∃ line cfg0, p.line = some line ∧ p.cfg0 = some cfg0 := by
  obtain ⟨pin, name, line, chip, cfg0, acpi, gpioMode⟩ := p
  cases line with
  | none => simp [considered] at h
  | some line =>
      cases cfg0 with
      | none => simp [considered] at h
      | some cfg0 => exact ⟨line, cfg0, rfl, rfl⟩

theorem DistinctLines.eq {pads : List Pad} (h : DistinctLines pads) {p q : Pad} (hp : p ∈ pads) (hq : q ∈ pads)
    {line : Int} (hpl : p.line = some line) (hql : q.line = some line) : p = q := by
  have hsymm : Std.Symm fun p q : Pad => p.line = none ∨ p.line ≠ q.line := by
    refine ⟨?_⟩
    intro a b hab
    rcases hab with hab | hab
    · cases hb : b.line with
      | none => exact Or.inl rfl
      | some l => exact Or.inr (by rw [hab]; simp)
    · exact Or.inr (Ne.symm hab)
  by_contra hne
  rcases h.forall hp hq hne with hnone | hother
  · rw [hpl] at hnone
    exact absurd hnone (by simp)
  · exact hother (hpl.trans hql.symm)

theorem byLine_mem {pads : List Pad} {line : Int} {p : Pad} (h : byLine pads line = some p) :
    p ∈ pads ∧ p.line = some line := by
  rw [byLine] at h
  exact ⟨List.mem_reverse.mp (List.mem_of_find?_eq_some h), by simpa using List.find?_some h⟩

theorem DistinctLines.byLine {pads : List Pad} (h : DistinctLines pads) {p : Pad} (hp : p ∈ pads) {line : Int}
    (hline : p.line = some line) : byLine pads line = some p := by
  cases hfound : Board.byLine pads line with
  | none =>
      rw [Board.byLine, List.find?_eq_none] at hfound
      exact absurd hline (by simpa using hfound p (List.mem_reverse.mpr hp))
  | some q =>
      obtain ⟨hq, hql⟩ := byLine_mem hfound
      rw [h.eq hq hp hql hline]

/-! ### The two defaults -/

theorem head?_line_mem {cs : List Pad} {line : Int} (h : cs.head?.bind (·.line) = some line) :
    ∃ p ∈ cs, p.line = some line := by
  obtain ⟨p, hp, hline⟩ := Option.bind_eq_some_iff.mp h
  exact ⟨p, List.mem_of_mem_head? hp, hline⟩

theorem defaultIrq_mem {pads cs : List Pad} {line : Int} (h : defaultIrq pads cs = some line) :
    ∃ p ∈ cs, p.line = some line := by
  rw [defaultIrq] at h
  cases hfound : byLine pads 48 with
  | none =>
      rw [hfound] at h
      exact head?_line_mem h
  | some p =>
      rw [hfound] at h
      dsimp only at h
      by_cases hmem : p ∈ cs
      · rw [if_pos hmem] at h
        obtain rfl : (48 : Int) = line := Option.some.inj h
        exact ⟨p, hmem, (byLine_mem hfound).2⟩
      · rw [if_neg hmem] at h
        exact head?_line_mem h

theorem defaultReset_cases {pads cs : List Pad} {line : Int} (h : defaultReset pads cs = some line) :
    (∃ p ∈ cs, p.line = some line) ∨ (line = 264 ∧ ∃ p, byLine pads 264 = some p ∧ p.acpi = false) := by
  rw [defaultReset] at h
  cases hfound : byLine pads 264 with
  | none =>
      rw [hfound] at h
      exact Or.inl (head?_line_mem h)
  | some p =>
      rw [hfound] at h
      dsimp only at h
      by_cases hacpi : p.acpi = true
      · rw [if_pos hacpi] at h
        exact Or.inl (head?_line_mem h)
      · rw [if_neg hacpi] at h
        exact Or.inr ⟨(Option.some.inj h).symm, p, rfl, by simpa using hacpi⟩

theorem defaultReset_of_misleads {pads : List Pad} (cs : List Pad) (hdistinct : DistinctLines pads) {p : Pad} (hp : p ∈ pads)
    (hbad : Misleads pads p) : defaultReset pads cs = some 264 := by
  obtain ⟨hline, hacpi, -, -⟩ := hbad
  rw [defaultReset, hdistinct.byLine hp hline]
  exact if_neg (by simp [hacpi])

/-! ### What is said about them -/

theorem describe_bind_ok_iff {fmt : String} {line : Int} {p : Pad} {remark : String} {f : Said → Said} :
    (∃ said, (describe fmt line p remark >>= fun said => pure (f said)) = .ok said) ↔ p.cfg0 ≠ none := by
  rw [describe]
  cases p.cfg0 with
  | none => simp [bind, Except.bind]
  | some cfg0 => simp [bind, Except.bind, pure, Except.pure]

theorem sayReset_ok_iff {pads : List Pad} (cs : List Pad) {reset : Option Int} :
    (∃ said, sayReset pads cs reset = .ok said) ↔ ∀ p, reset.bind (byLine pads) = some p → p.cfg0 ≠ none := by
  rw [sayReset.eq_def]
  cases reset with
  | none => simp
  | some line =>
      rw [Option.bind_some]
      cases byLine pads line with
      | none => simp
      | some p => exact describe_bind_ok_iff.trans (by simp)

theorem sayIrq_ok_iff {pads : List Pad} (cs : List Pad) {irq : Option Int} :
    (∃ said, sayIrq pads cs irq = .ok said) ↔ ∀ p, irq.bind (byLine pads) = some p → p.cfg0 ≠ none := by
  rw [sayIrq.eq_def]
  cases irq with
  | none => simp
  | some line =>
      rw [Option.bind_some]
      cases byLine pads line with
      | none => simp
      | some p => exact describe_bind_ok_iff.trans (by simp)

/-- The variable is unset or empty. -/
def Unset (S : Sysfs) (name : String) : Prop := S.environ name = none ∨ S.environ name = some ""

theorem override_unset {S : Sysfs} {name : String} (h : Unset S name) : override none (S.environ name) = .ok none := by
  rcases h with h | h
  · rw [h]
    rfl
  · rw [h]
    rfl

section Resolve

variable {S : Sysfs} {spidev : Option String} {quiet : Bool}

/-- Without overrides the lines are the two defaults, and the reset line's pad has a configuration word, -/
theorem resolve_lines (hreset : Unset S "GXFP_RESET") (hirq : Unset S "GXFP_IRQ") {r : Resolved}
    (h : resolve S spidev none none quiet = .ok r) :
    r.reset = defaultReset S.readPads (classify S.readPads).1 ∧
      r.irq = defaultIrq S.readPads (classify S.readPads).2 ∧
      ∀ p, r.reset.bind (byLine S.readPads) = some p → p.cfg0 ≠ none := by
  rw [resolve, override_unset hreset, override_unset hirq] at h
  simp only [bind, Except.bind, if_pos] at h
  cases hrst : sayReset S.readPads (classify S.readPads).1 (defaultReset S.readPads (classify S.readPads).1) with
  | error e =>
      rw [hrst] at h
      exact absurd h (by simp)
  | ok aboutReset =>
      rw [hrst] at h
      dsimp only at h
      cases hq : sayIrq S.readPads (classify S.readPads).2 (defaultIrq S.readPads (classify S.readPads).2) with
      | error e =>
          rw [hq] at h
          exact absurd h (by simp)
      | ok aboutIrq =>
          rw [hq] at h
          obtain rfl := Except.ok.inj h
          exact ⟨rfl, rfl, (sayReset_ok_iff _).mp ⟨aboutReset, hrst⟩⟩

/-- and `resolve` returns them unless one has a pad without a configuration word. -/
theorem resolve_ok (hreset : Unset S "GXFP_RESET") (hirq : Unset S "GXFP_IRQ")
    (hrst : ∀ p, (defaultReset S.readPads (classify S.readPads).1).bind (byLine S.readPads) = some p → p.cfg0 ≠ none)
    (hq : ∀ p, (defaultIrq S.readPads (classify S.readPads).2).bind (byLine S.readPads) = some p → p.cfg0 ≠ none) :
    ∃ r, resolve S spidev none none quiet = .ok r := by
  obtain ⟨aboutReset, haboutReset⟩ := (sayReset_ok_iff (classify S.readPads).1).mpr hrst
  obtain ⟨aboutIrq, haboutIrq⟩ := (sayIrq_ok_iff (classify S.readPads).2).mpr hq
  rw [resolve, override_unset hreset, override_unset hirq]
  simp only [bind, Except.bind, if_pos]
  rw [haboutReset]
  dsimp only
  rw [haboutIrq]
  exact ⟨_, rfl⟩

/-- **What `resolve` discovers has the right shape exactly when line 264 does not mislead it**: when the pad of that line, if there is one, is ACPI's, has no configuration word (and `resolve` raises), or is a reset candidate. -/
theorem resolve_rightShape_iff (S : Sysfs) (spidev : Option String) (quiet : Bool)
    (hdistinct : DistinctLines S.readPads) (hreset : Unset S "GXFP_RESET") (hirq : Unset S "GXFP_IRQ") :
    (∀ r, resolve S spidev none none quiet = .ok r → RightShape S.readPads r) ↔
      ∀ p ∈ S.readPads, ¬ Misleads S.readPads p := by
  constructor
  · intro hshape p hp hbad
    have h264 := defaultReset_of_misleads (classify S.readPads).1 hdistinct hp hbad
    obtain ⟨hline, -, hcfg0, hcand⟩ := hbad
    obtain ⟨r, hr⟩ : ∃ r, resolve S spidev none none quiet = .ok r := by
      apply resolve_ok hreset hirq
      · intro q hq
        rw [h264, Option.bind_some, hdistinct.byLine hp hline] at hq
        exact Option.some.inj hq ▸ hcfg0
      · intro q hq
        obtain ⟨line, hdefault, hfound⟩ := Option.bind_eq_some_iff.mp hq
        obtain ⟨c, hc, hcline⟩ := defaultIrq_mem hdefault
        obtain ⟨hcpads, hconsidered, -⟩ := mem_irqs.mp hc
        obtain ⟨_, cfg0, -, hcfg0⟩ := line_of_considered hconsidered
        rw [hdistinct.byLine hcpads hcline] at hfound
        rw [← Option.some.inj hfound, hcfg0]
        simp
    have hresetLine := (resolve_lines hreset hirq hr).1.trans h264
    obtain ⟨q, hq, hqline⟩ := (hshape r hr).reset 264 hresetLine
    rw [hdistinct.eq hp (mem_resets.mp hq).1 hline hqline] at hcand
    exact hcand hq
  · intro hgood r hr
    obtain ⟨hresetLine, hirqLine, hcfg0⟩ := resolve_lines hreset hirq hr
    have hcandRst : ∀ line, r.reset = some line → ∃ p ∈ (classify S.readPads).1, p.line = some line := by
      intro line hline
      rcases defaultReset_cases (hresetLine.symm.trans hline) with hcand | ⟨rfl, p, hp, hacpi⟩
      · exact hcand
      · obtain ⟨hmem, hpline⟩ := byLine_mem hp
        refine ⟨p, ?_, hpline⟩
        by_contra hcand
        refine hgood p hmem ⟨hpline, hacpi, hcfg0 p ?_, hcand⟩
        rw [hline]
        exact hp
    have hcandIrq : ∀ line, r.irq = some line → ∃ p ∈ (classify S.readPads).2, p.line = some line :=
      fun line hline => defaultIrq_mem (hirqLine.symm.trans hline)
    refine ⟨hcandRst, hcandIrq, ?_⟩
    intro line hline hline'
    obtain ⟨p, hp, hpline⟩ := hcandRst line hline
    obtain ⟨q, hq, hqline⟩ := hcandIrq line hline'
    have hpq := hdistinct.eq (mem_resets.mp hp).1 (mem_irqs.mp hq).1 hpline hqline
    exact not_mem_irqs_of_mem_resets hp (hpq ▸ hq)

end Resolve

def bare (pads : List Pad) : Sysfs where
  environ _ := none
  findSpidev := none
  readPads := pads
  gpiochipPath _ := "/dev/gpiochip0"

def wired : List Pad :=
  [⟨189, "UART0_RXD", some 264, none, some 0x44000201, false, true⟩, ⟨41, "GSPI0_CLK", some 48, none, some 0x40100100, false, true⟩]

/-- A board whose line 264 is a routed GPIO input, with a proper reset output on line 300. -/
def foreign : List Pad :=
  [⟨189, "UART0_RXD", some 264, none, some 0x40100100, false, true⟩, ⟨200, "GPP_C8", some 300, none, some 0x44000201, false, true⟩]

theorem resolve_rightShape_wired :
    DistinctLines wired ∧ ∃ r, resolve (bare wired) none none none false = .ok r ∧
      r.reset = some 264 ∧ r.irq = some 48 ∧ RightShape wired r :=
  ⟨by decide, _, rfl, rfl, rfl,
    (resolve_rightShape_iff (bare wired) none false (by decide) (Or.inl rfl) (Or.inl rfl)).mpr (by decide) _ rfl⟩

theorem resolve_foreign :
    DistinctLines foreign ∧ ∃ r, resolve (bare foreign) none none none false = .ok r ∧
      r.reset = some 264 ∧ r.irq = some 264 ∧ ¬ RightShape foreign r := by
  refine ⟨by decide, _, rfl, rfl, rfl, ?_⟩
  intro h
  exact h.distinct 264 rfl rfl

end GoodixSpi.Tools.Board
