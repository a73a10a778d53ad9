import GoodixSpi.Kernel.Spisnoop

/-!
# The verdict on the chip select

The verdict is about the chip-select bit, and the log that it goes by compares the whole register. So it is wrong in a window in which the register changes and that bit does not.
-/

namespace GoodixSpi.Kernel.Spisnoop

/-- The bit of the register is 0. -/
def Asserted (cs : UInt32) : Prop := cs &&& CS_STATE = 0

instance (cs : UInt32) : Decidable (Asserted cs) := inferInstanceAs (Decidable (_ = _))

def sse (r : Reading) : Bool := r.sscr0 &&& SSCR0_SSE ≠ 0

def bsy (r : Reading) : Bool := r.sssr &&& SSSR_BSY ≠ 0

def low (r : Reading) : Bool := Asserted r.cs

/-! ### One sample -/

def Locals.count (l : Locals) (r : Reading) : Locals :=
  { l with
    samples := l.samples + 1
    sse_on := if sse r then l.sse_on + 1 else l.sse_on
    bsy_on := if bsy r then l.bsy_on + 1 else l.bsy_on
    cs_low := if low r then l.cs_low + 1 else l.cs_low }

theorem sample_eq (l : Locals) (t0 : UInt64) (r : Reading) : l.sample t0 r = (l.count r).log t0 r := by
  by_cases hsse : r.sscr0 &&& SSCR0_SSE = 0 <;> by_cases hbsy : r.sssr &&& SSSR_BSY = 0 <;>
    by_cases hlow : r.cs &&& CS_STATE = 0 <;>
    simp [Locals.sample, Locals.count, sse, bsy, low, Asserted, hsse, hbsy, hlow]

theorem ofNat_countP_append (p : Reading → Bool) (seen : List Reading) (r : Reading) :
    UInt64.ofNat ((seen ++ [r]).countP p) =
      if p r then UInt64.ofNat (seen.countP p) + 1 else UInt64.ofNat (seen.countP p) := by
  rw [List.countP_append, List.countP_singleton]
  split
  · exact UInt64.ofNat_add _ _
  · rfl

/-- What the locals hold after the readings of a window. -/
structure Tallied (cs : UInt32) (seen : List Reading) (l : Locals) : Prop where
  samples : l.samples = UInt64.ofNat seen.length
  sse_on : l.sse_on = UInt64.ofNat (seen.countP sse)
  bsy_on : l.bsy_on = UInt64.ofNat (seen.countP bsy)
  cs_low : l.cs_low = UInt64.ofNat (seen.countP low)
  quiet : l.ev = [] → l.last_cs = cs ∧ ∀ r ∈ seen, r.cs = cs
  logged : l.ev ≠ [] → ∃ r ∈ seen, r.cs ≠ cs

theorem tallied_init (cs : UInt32) : Tallied cs [] (Locals.init cs) :=
  ⟨rfl, rfl, rfl, rfl, fun _ => ⟨rfl, by simp⟩, fun h => absurd rfl h⟩

variable {cs : UInt32} {seen : List Reading} {l : Locals}

theorem Tallied.count (h : Tallied cs seen l) (r : Reading) :
    (l.count r).samples = UInt64.ofNat (seen ++ [r]).length ∧
      (l.count r).sse_on = UInt64.ofNat ((seen ++ [r]).countP sse) ∧
      (l.count r).bsy_on = UInt64.ofNat ((seen ++ [r]).countP bsy) ∧
      (l.count r).cs_low = UInt64.ofNat ((seen ++ [r]).countP low) := by
  refine ⟨?_, ?_, ?_, ?_⟩
  · rw [Locals.count, h.samples, List.length_append]
    exact (UInt64.ofNat_add _ _).symm
  · rw [ofNat_countP_append, Locals.count, h.sse_on]
  · rw [ofNat_countP_append, Locals.count, h.bsy_on]
  · rw [ofNat_countP_append, Locals.count, h.cs_low]

theorem Tallied.sample (h : Tallied cs seen l) (t0 : UInt64) (r : Reading) :
    Tallied cs (seen ++ [r]) (l.sample t0 r) := by
  obtain ⟨hsamples, hsse, hbsy, hlow⟩ := h.count r
  rw [sample_eq, Locals.log]
  split
  · rename_i hlog
    refine ⟨hsamples, hsse, hbsy, hlow, fun hnil => absurd hnil (by simp), fun _ => ?_⟩
    by_cases hev : l.ev = []
    · refine ⟨r, by simp, ?_⟩
      rw [← (h.quiet hev).1]
      exact hlog.1
    · obtain ⟨s, hs, hne⟩ := h.logged hev
      exact ⟨s, List.mem_append_left _ hs, hne⟩
  · rename_i hlog
    refine ⟨hsamples, hsse, hbsy, hlow, fun hev => ?_, fun hev => ?_⟩
    · obtain ⟨hlast, hsame⟩ := h.quiet hev
      have hr : r.cs = cs := by
        by_contra hne
        exact hlog ⟨fun heq => hne (heq.trans hlast), by rw [hev]; decide⟩
      refine ⟨hlast, fun s hs => ?_⟩
      rcases List.mem_append.mp hs with hs | hs
      · exact hsame s hs
      · rw [List.mem_singleton.mp hs]
        exact hr
    · obtain ⟨s, hs, hne⟩ := h.logged hev
      exact ⟨s, List.mem_append_left _ hs, hne⟩

/-! ### The window -/

def observed (ms : UInt32) (t0 : UInt64) (readings : List Reading) : List Reading := readings.takeWhile (inWindow ms t0)

/-- **The loop ends with the window**, and tallies what was observed in it. -/
theorem samplingLoop_tallied {ms : UInt32} {t0 : UInt64} {readings : List Reading}
    (hends : ∃ r ∈ readings, inWindow ms t0 r = false) (h : Tallied cs seen l) :
    ∃ l', samplingLoop ms t0 l readings = some l' ∧ Tallied cs (seen ++ observed ms t0 readings) l' := by
  induction readings generalizing seen l with
  | nil =>
      obtain ⟨r, hr, -⟩ := hends
      exact absurd hr List.not_mem_nil
  | cons r readings ih =>
      rw [samplingLoop, observed, List.takeWhile_cons]
      by_cases hin : inWindow ms t0 r = true
      · have hrest : ∃ r ∈ readings, inWindow ms t0 r = false := by
          obtain ⟨s, hs, hout⟩ := hends
          rcases List.mem_cons.mp hs with rfl | hs
          · rw [hin] at hout
            exact absurd hout (by decide)
          · exact ⟨s, hs, hout⟩
        rw [if_pos hin, if_pos hin, List.append_cons]
        exact ih hrest (h.sample t0 r)
      · rw [if_neg hin, if_neg hin, List.append_nil]
        exact ⟨l, rfl, h⟩

/-! ### The verdict -/

theorem ofNat_eq_zero_iff (n : Nat) : UInt64.ofNat n = 0 ↔ 2 ^ 64 ∣ n := by
  rw [← UInt64.toNat_inj, UInt64.toNat_ofNat', Nat.dvd_iff_mod_eq_zero]
  rfl

/-- Neither counter of the bus is seen to have moved. -/
def NoTraffic (seen : List Reading) : Prop := 2 ^ 64 ∣ seen.countP sse ∧ 2 ^ 64 ∣ seen.countP bsy

instance (seen : List Reading) : Decidable (NoTraffic seen) := inferInstanceAs (Decidable (_ ∧ _))

/-- The register is the same throughout. -/
def Still (cs : UInt32) (seen : List Reading) : Prop := ∀ r ∈ seen, r.cs = cs

instance (cs : UInt32) (seen : List Reading) : Decidable (Still cs seen) := inferInstanceAs (Decidable (∀ r ∈ seen, _))

theorem Tallied.noTraffic_iff (h : Tallied cs seen l) : (l.sse_on = 0 ∧ l.bsy_on = 0) ↔ NoTraffic seen := by
  rw [h.sse_on, h.bsy_on, ofNat_eq_zero_iff, ofNat_eq_zero_iff, NoTraffic]

theorem Tallied.still_iff (h : Tallied cs seen l) : l.ev.length = 0 ↔ Still cs seen := by
  rw [List.length_eq_zero_iff]
  constructor
  · intro hev
    exact (h.quiet hev).2
  · intro hstill
    by_contra hev
    obtain ⟨r, hr, hne⟩ := h.logged hev
    exact hne (hstill r hr)

theorem Tallied.cs_low_of_still (h : Tallied cs seen l) (hstill : Still cs seen) :
    l.cs_low = if Asserted cs then l.samples else 0 := by
  have hlow : ∀ r ∈ seen, low r = decide (Asserted cs) := by
    intro r hr
    rw [low, hstill r hr]
  rw [h.cs_low, h.samples]
  split
  · rename_i hcs
    rw [List.countP_eq_length.mpr]
    intro r hr
    rw [hlow r hr, decide_eq_true hcs]
  · rename_i hcs
    rw [List.countP_eq_zero.mpr]
    · rfl
    · intro r hr
      rw [hlow r hr, decide_eq_false hcs]
      decide

theorem Tallied.verdict_eq (h : Tallied cs seen l) : l.verdict =
    if NoTraffic seen then NO_TRAFFIC
    else if Still cs seen then if Asserted cs ∧ ¬ 2 ^ 64 ∣ seen.length then HELD_ASSERTED else NEVER_ASSERTED
    else TOGGLING := by
  have hsamples : l.samples = 0 ↔ 2 ^ 64 ∣ seen.length := by rw [h.samples, ofNat_eq_zero_iff]
  rw [Locals.verdict]
  simp only [h.noTraffic_iff, h.still_iff]
  by_cases hstill : Still cs seen
  · rw [h.cs_low_of_still hstill]
    by_cases hcs : Asserted cs
    · simp [hstill, hcs, hsamples]
    · simp [hstill, hcs]
  · simp [hstill]

/-- The values of the register in a window, the one before it included. -/
def values (cs : UInt32) (seen : List Reading) : List UInt32 := cs :: seen.map Reading.cs

def AllHigh (cs : UInt32) (seen : List Reading) : Prop := ∀ v ∈ values cs seen, ¬ Asserted v

instance (cs : UInt32) (seen : List Reading) : Decidable (AllHigh cs seen) := List.decidableBAll _ _

def AllLow (cs : UInt32) (seen : List Reading) : Prop := ∀ v ∈ values cs seen, Asserted v

instance (cs : UInt32) (seen : List Reading) : Decidable (AllLow cs seen) := List.decidableBAll _ _

def Toggles (cs : UInt32) (seen : List Reading) : Prop :=
  (∃ v ∈ values cs seen, Asserted v) ∧ ∃ v ∈ values cs seen, ¬ Asserted v

/-- The last that is printed. -/
def Concludes (ms cs : UInt32) (t0 : UInt64) (readings : List Reading) (text : String) : Prop :=
  ∃ out, snapShow true true ms cs t0 readings = some (0, out) ∧ out.getLast? = some (text, [])

/-- Each of the three verdicts is given exactly where the chip-select bit bears it out. -/
structure Truthful (ms cs : UInt32) (t0 : UInt64) (readings : List Reading) : Prop where
  never : Concludes ms cs t0 readings NEVER_ASSERTED ↔ AllHigh cs (observed ms t0 readings)
  held : Concludes ms cs t0 readings HELD_ASSERTED ↔ AllLow cs (observed ms t0 readings)
  toggling : Concludes ms cs t0 readings TOGGLING ↔ Toggles cs (observed ms t0 readings)

/-- Where the register changes, the bit does; and the counters have not wrapped around to nothing. -/
structure Telling (cs : UInt32) (seen : List Reading) : Prop where
  moves : ¬ Still cs seen → Toggles cs seen
  traffic : ¬ NoTraffic seen
  counted : Still cs seen → Asserted cs → ¬ 2 ^ 64 ∣ seen.length

theorem Still.values {v : UInt32} (h : Still cs seen) (hv : v ∈ values cs seen) : v = cs := by
  rcases List.mem_cons.mp hv with rfl | hv
  · rfl
  · obtain ⟨r, hr, rfl⟩ := List.mem_map.mp hv
    exact h r hr

theorem concludes_iff {ms : UInt32} (cs : UInt32) {t0 : UInt64} {readings : List Reading}
    (hends : ∃ r ∈ readings, inWindow ms t0 r = false) :
    ∃ l, Tallied cs (observed ms t0 readings) l ∧ ∀ text, Concludes ms cs t0 readings text ↔ l.verdict = text := by
  obtain ⟨l, hloop, htallied⟩ := samplingLoop_tallied hends (tallied_init cs)
  refine ⟨l, htallied, fun text => ?_⟩
  have hshow : snapShow true true ms cs t0 readings = some (0, l.report ms) := by
    simp only [snapShow, hloop]
    rfl
  have hlast : (l.report ms).getLast? = some (l.verdict, []) := by
    rw [Locals.report, List.getLast?_append]
    rfl
  constructor
  · intro h
    obtain ⟨out, hout, htext⟩ := h
    obtain rfl := congrArg Prod.snd (Option.some.inj (hshow.symm.trans hout))
    exact congrArg Prod.fst (Option.some.inj (hlast.symm.trans htext))
  · intro h
    exact ⟨_, hshow, h ▸ hlast⟩

/-- The verdict that the bit bears out. -/
def due (cs : UInt32) (seen : List Reading) : String :=
  if AllHigh cs seen then NEVER_ASSERTED
  else if AllLow cs seen then HELD_ASSERTED
  else TOGGLING

theorem due_ne_noTraffic : due cs seen ≠ NO_TRAFFIC := by
  rw [due]
  split
  · decide
  · split <;> decide

theorem due_eq_never_iff : due cs seen = NEVER_ASSERTED ↔ AllHigh cs seen := by
  rw [due]
  split
  · rename_i hnever
    exact iff_of_true rfl hnever
  · rename_i hsome
    split
    · exact iff_of_false (by decide) hsome
    · exact iff_of_false (by decide) hsome

theorem due_eq_held_iff : due cs seen = HELD_ASSERTED ↔ AllLow cs seen := by
  have hcs : cs ∈ values cs seen := List.mem_cons_self
  rw [due]
  split
  · rename_i hnever
    exact iff_of_false (by decide) fun hheld => hnever cs hcs (hheld cs hcs)
  · split
    · rename_i hheld
      exact iff_of_true rfl hheld
    · rename_i hnot
      exact iff_of_false (by decide) hnot

theorem due_eq_toggling_iff : due cs seen = TOGGLING ↔ Toggles cs seen := by
  rw [due, Toggles]
  split
  · rename_i hnever
    refine iff_of_false (by decide) fun h => ?_
    obtain ⟨v, hv, hasserted⟩ := h.1
    exact hnever v hv hasserted
  · rename_i hsome
    split
    · rename_i hheld
      refine iff_of_false (by decide) fun h => ?_
      obtain ⟨v, hv, hnot⟩ := h.2
      exact hnot (hheld v hv)
    · rename_i hnot
      refine iff_of_true rfl ⟨?_, ?_⟩
      · simpa [AllHigh] using hsome
      · simpa [AllLow] using hnot

theorem due_cases (cs : UInt32) (seen : List Reading) :
    due cs seen = NEVER_ASSERTED ∨ due cs seen = HELD_ASSERTED ∨ due cs seen = TOGGLING := by
  rw [due]
  split
  · exact .inl rfl
  · split
    · exact .inr (.inl rfl)
    · exact .inr (.inr rfl)

theorem Still.due_eq (h : Still cs seen) : due cs seen = if Asserted cs then HELD_ASSERTED else NEVER_ASSERTED := by
  split
  · rename_i hcs
    exact due_eq_held_iff.mpr fun v hv => (h.values hv).symm ▸ hcs
  · rename_i hcs
    exact due_eq_never_iff.mpr fun v hv => (h.values hv).symm ▸ hcs

theorem Tallied.verdict_eq_due_iff (h : Tallied cs seen l) : l.verdict = due cs seen ↔ Telling cs seen := by
  rw [h.verdict_eq]
  constructor
  · intro hdue
    have htraffic : ¬ NoTraffic seen := by
      intro hno
      rw [if_pos hno] at hdue
      exact due_ne_noTraffic hdue.symm
    rw [if_neg htraffic] at hdue
    refine ⟨fun hmoves => ?_, htraffic, fun hstill hcs hwrap => ?_⟩
    · rw [if_neg hmoves] at hdue
      exact due_eq_toggling_iff.mp hdue.symm
    · rw [if_pos hstill, if_neg fun hand => hand.2 hwrap, hstill.due_eq, if_pos hcs] at hdue
      exact absurd hdue (by decide)
  · intro htelling
    rw [if_neg htelling.traffic]
    by_cases hstill : Still cs seen
    · rw [if_pos hstill, hstill.due_eq]
      by_cases hcs : Asserted cs
      · rw [if_pos ⟨hcs, htelling.counted hstill hcs⟩, if_pos hcs]
      · rw [if_neg fun hand => hcs hand.1, if_neg hcs]
    · rw [if_neg hstill]
      exact (due_eq_toggling_iff.mpr (htelling.moves hstill)).symm

/-- **The verdict is right exactly where the whole register tells of its bit.** -/
theorem truthful_iff (ms cs : UInt32) (t0 : UInt64) (readings : List Reading)
    (hends : ∃ r ∈ readings, inWindow ms t0 r = false) :
    Truthful ms cs t0 readings ↔ Telling cs (observed ms t0 readings) := by
  obtain ⟨l, htallied, hconcludes⟩ := concludes_iff cs hends
  rw [← htallied.verdict_eq_due_iff]
  constructor
  · intro h
    rcases due_cases cs (observed ms t0 readings) with hdue | hdue | hdue
    · rw [hdue, ← hconcludes]
      exact h.never.mpr (due_eq_never_iff.mp hdue)
    · rw [hdue, ← hconcludes]
      exact h.held.mpr (due_eq_held_iff.mp hdue)
    · rw [hdue, ← hconcludes]
      exact h.toggling.mpr (due_eq_toggling_iff.mp hdue)
  · intro hdue
    constructor
    · rw [hconcludes, hdue, due_eq_never_iff]
    · rw [hconcludes, hdue, due_eq_held_iff]
    · rw [hconcludes, hdue, due_eq_toggling_iff]

def oneSample (cs : UInt32) : List Reading := [⟨1000, cs, 0x87, 0⟩, ⟨300000000, cs, 0x87, 0⟩]

/-- A transfer that asserts the chip select. -/
theorem truthful_iff_asserts : Truthful 300 0xe003 0 (oneSample 0xe001) := by
  refine (truthful_iff 300 0xe003 0 (oneSample 0xe001) (by decide)).mpr ⟨fun _ => ?_, by decide, ?_⟩
  · exact ⟨⟨0xe001, by decide, by decide⟩, 0xe003, by decide, by decide⟩
  · exact fun hstill => absurd hstill (by decide)

/-- The register changes in another bit, the chip select stays high, and the verdict is that it toggles. -/
theorem toggling_without_assertion :
    (∃ r ∈ observed 300 0 (oneSample 0xe002), sse r) ∧
      AllHigh 0xe003 (observed 300 0 (oneSample 0xe002)) ∧
      Concludes 300 0xe003 0 (oneSample 0xe002) TOGGLING ∧ ¬ Truthful 300 0xe003 0 (oneSample 0xe002) := by
  have hnever : AllHigh 0xe003 (observed 300 0 (oneSample 0xe002)) := by decide
  have hends : ∃ r ∈ oneSample 0xe002, inWindow 300 0 r = false := by decide
  obtain ⟨l, htallied, hconcludes⟩ := concludes_iff 0xe003 hends
  have htoggling : Concludes 300 0xe003 0 (oneSample 0xe002) TOGGLING := by
    rw [hconcludes, htallied.verdict_eq, if_neg (by decide), if_neg (by decide)]
  refine ⟨by decide, hnever, htoggling, fun h => ?_⟩
  obtain ⟨⟨v, hv, hasserted⟩, -⟩ := h.toggling.mp htoggling
  exact hnever v hv hasserted

end GoodixSpi.Kernel.Spisnoop
