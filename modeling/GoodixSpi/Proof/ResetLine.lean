import GoodixSpi.Proof.Footprint

/-!
# Whether the MCU is left running

The enable GPIO is an active-HIGH reset: low lets the MCU run. Probe with `touch_enable = 0` and a write of 0 to `enable` leave it low. The pulse of `reset` still has the polarity of a power enable, low and then high, so it ends with the MCU held in reset.
-/

namespace GoodixSpi.Kernel

open Wire Interaction

variable {ε : Type}

/-- The reset is released: the enable GPIO is low. -/
def Released (w : World ε) : Prop := w.g.enable = false

theorem released_probe (E : Env ε) (tid : Nat) (w : World ε) : Released ((probeEnable 0).run (handle E tid) w).2 := rfl

theorem released_enableSet (E : Env ε) (P : Setup) (w : World ε) : Released (runOp E P (.enableSet 0) w).2 := rfl

theorem Ordinary.enable_eq {r : Req} (hr : Ordinary r) (tid : Nat) (a : Ans r) (g : Gxfp) :
    (update tid r a g).enable = g.enable := by
  cases r with
  | setEnable v => exact absurd hr id
  | spi x =>
      rw [update]
      split <;> rfl
  | _ => rfl

theorem run_ordinary_enable {α : Type} {p : DriverM α} (hp : Prog.Only Ordinary p) (E : Env ε) (tid : Nat) (w : World ε) :
    (p.run (handle E tid) w).2.g.enable = w.g.enable := by
  apply hp.run_keeps (I := fun w' : World ε => w'.g.enable = w.g.enable) _ rfl
  intro r w' hr hw'
  rw [handle_g, hr.enable_eq, hw']

theorem enable_resetSet (E : Env ε) (P : Setup) (val : UInt64) (w : World ε) :
    (runOp E P (.resetSet val) w).2.g.enable = true := by
  rw [runOp, DebugOp.prog, gxfpResetSet]
  simp only [issue, sleep, Prog.perform_bind, Prog.run_ask]
  rw [run_ordinary_enable]
  · rfl
  · exact ((external_printReset P _).mono fun _ h => h.poking.ordinary).bind fun _ => trivial

theorem not_released_resetSet (E : Env ε) (P : Setup) (val : UInt64) (w : World ε) :
    ¬ Released (runOp E P (.resetSet val) w).2 := by
  rw [Released, enable_resetSet]
  simp

/-- **One operation** that is neither a write to `reset` nor one of a nonzero value to `enable` keeps the reset released. -/
theorem Released.step {w : World ε} (h : Released w) (E : Env ε) (P : Setup) {op : DebugOp}
    (hreset : ∀ val, op ≠ .resetSet val) (henable : ∀ val, op = .enableSet val → val = 0) :
    Released (runOp E P op w).2 := by
  by_cases hset : ∃ val, op = .enableSet val
  · obtain ⟨val, rfl⟩ := hset
    rw [henable val rfl]
    exact released_enableSet E P w
  · have hop : Prog.Only Ordinary (op.prog P) := ordinary_prog P fun val => ⟨fun heq => hset ⟨val, heq⟩, hreset val⟩
    exact (run_ordinary_enable hop E 0 w).trans h

theorem Released.runOps_iff {w : World ε} (h : Released w) (E : Env ε) (P : Setup) (ops : List DebugOp)
    (henable : ∀ val, .enableSet val ∈ ops → val = 0) :
    (∀ pre, pre <+: ops → Released (runOps E P pre w).2) ↔ ∀ val, .resetSet val ∉ ops := by
  induction ops generalizing w with
  | nil =>
      refine ⟨fun _ _ => List.not_mem_nil, fun _ pre hpre => ?_⟩
      rw [List.prefix_nil.mp hpre]
      exact h
  | cons op ops ih =>
      have henable' : ∀ val, .enableSet val ∈ ops → val = 0 := fun val hval =>
        henable val (List.mem_cons_of_mem op hval)
      constructor
      · intro hall val hmem
        have hfirst : Released (runOp E P op w).2 := hall [op] ⟨ops, rfl⟩
        rcases List.mem_cons.mp hmem with rfl | hmem
        · exact not_released_resetSet E P val w hfirst
        · refine (ih hfirst henable').mp ?_ val hmem
          intro pre hpre
          exact hall (op :: pre) (List.cons_prefix_cons.mpr ⟨rfl, hpre⟩)
      · intro hnone pre hpre
        cases pre with
        | nil => exact h
        | cons op' pre =>
            obtain ⟨rfl, hrest⟩ := List.cons_prefix_cons.mp hpre
            have hfirst : Released (runOp E P op' w).2 := by
              apply h.step E P
              · rintro val rfl
                exact hnone val List.mem_cons_self
              · rintro val rfl
                exact henable val List.mem_cons_self
            exact (ih hfirst henable').mpr (fun val hval => hnone val (List.mem_cons_of_mem _ hval)) pre hrest

/-- **The MCU is left running exactly in the runs without a write to `reset`**, among those whose writes to `enable` write 0; a write to `reset` never leaves it running. -/
theorem released_iff (E : Env ε) (P : Setup) (w : World ε) (ops : List DebugOp)
    (henable : ∀ val, .enableSet val ∈ ops → val = 0) :
    ((∀ pre, pre <+: ops → Released (runOps E P pre ((probeEnable 0).run (handle E 0) w).2).2) ↔
        ∀ val, .resetSet val ∉ ops) ∧
      ∀ val w', ¬ Released (runOp E P (.resetSet val) w').2 :=
  ⟨(released_probe E 0 w).runOps_iff E P ops henable, fun val w' => not_released_resetSet E P val w'⟩

theorem released_enable_irqlevel :
    Released (runOps Env.idle {} [.enableSet 0, .irqlevelGet] ((probeEnable 0).run (handle Env.idle 0) (probed ())).2).2 :=
  (released_iff Env.idle {} (probed ()) [.enableSet 0, .irqlevelGet] (by simp)).1.mpr (by simp) _ (List.prefix_refl _)

/-- `echo 10 > reset`. -/
theorem reset_holds_mcu :
    (∀ val, DebugOp.enableSet val ∈ [DebugOp.resetSet 10] → val = 0) ∧
      ¬ Released (runOps Env.idle {} [.resetSet 10] ((probeEnable 0).run (handle Env.idle 0) (probed ())).2).2 :=
  ⟨by simp, not_released_resetSet Env.idle {} 10 _⟩

end GoodixSpi.Kernel
