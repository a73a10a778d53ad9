import GoodixSpi.Proof.Interrupts
import Mathlib.Data.List.Nodup

/-!
# What `padprobe` leaves in the pad registers

`padprobe` is the only operation that writes a register. It clears `GPIORXDIS` in four pads and writes back what it read there, and in between it samples the pads for seconds without the mutex. The contract `restoring` is an undo list: a write is either of the value just read, bit 9 cleared, to a pad that is not on the list, or of what the head of the list says. An operation that keeps it and ends with the list empty has put every register back.
-/

namespace GoodixSpi.Kernel

open Wire Interaction

/-! ### The undo list -/

/-- The addresses of the pads' registers. -/
def padAddrs (com : Nat) : List Nat := pads.map (com + ·.off)

/-- The register read last and what it held, and the registers that are to be written back, with what was read there. -/
structure Probing where
  last : Option (Nat × UInt32)
  pending : List (Nat × UInt32)

/-- Bit 9 of the value just read is cleared in a pad that is not on the list. -/
structure Probing.Clears (com : Nat) (m : Probing) (addr : Nat) (v orig : UInt32) : Prop where
  read : m.last = some (addr, orig)
  value : v = orig &&& ~~~0x200
  pad : addr ∈ padAddrs com
  fresh : addr ∉ m.pending.map Prod.fst

def Probing.write (m : Probing) (addr : Nat) (v : UInt32) : Probing :=
  if m.pending.head? = some (addr, v) then ⟨none, m.pending.tail⟩ else ⟨none, m.pending ++ m.last.toList⟩

def restoring (com : Nat) : Contract Req Ans Probing where
  may m r := match r with
    | .writel addr v => (∃ orig, m.Clears com addr v orig) ∨ m.pending.head? = some (addr, v)
    | _ => True
  rely _ _ _ := True
  next m r a := match r, a with
    | .readl addr, v => { m with last := some (addr, v) }
    | .writel addr v, _ => m.write addr v
    | _, _ => m

variable {com : Nat}

theorem Probing.write_head {m : Probing} {addr : Nat} {v : UInt32} (h : m.pending.head? = some (addr, v)) :
    m.write addr v = ⟨none, m.pending.tail⟩ :=
  if_pos h

theorem Probing.write_clears {m : Probing} {addr : Nat} {v orig : UInt32} (h : m.Clears com addr v orig) :
    m.write addr v = ⟨none, m.pending ++ [(addr, orig)]⟩ := by
  have hhead : m.pending.head? ≠ some (addr, v) := by
    intro hhead
    obtain ⟨rest, hrest⟩ := List.head?_eq_some_iff.mp hhead
    apply h.fresh
    rw [hrest]
    exact List.mem_cons_self
  rw [Probing.write, if_neg hhead, h.read]
  rfl

/-- Reading changes nothing on the list. -/
theorem wp_readsOnly {α : Type} {p : DriverM α} (hp : Prog.Only ReadsOnly p) (m : Probing) :
    wp (restoring com) p m fun m' _ => m'.pending = m.pending := by
  induction p generalizing m with
  | ret a => rfl
  | ask r next ih =>
      obtain ⟨hr, hnext⟩ := hp
      cases r with
      | writel addr v => exact absurd hr id
      | readl addr => exact ⟨trivial, fun a _ => ih a (hnext a) { m with last := some (addr, a) }⟩
      | _ => exact ⟨trivial, fun a _ => ih a (hnext a) m⟩

theorem wp_readsOnly_bind {α β : Type} {p : DriverM α} {f : α → DriverM β} (hp : Prog.Only ReadsOnly p) {m : Probing}
    {Q : Probing → β → Prop} (h : ∀ m' a, m'.pending = m.pending → wp (restoring com) (f a) m' Q) :
    wp (restoring com) (p >>= f) m Q :=
  wp_bind (wp_readsOnly hp m) h

theorem readsOnly_samplePads : ∀ seen, Prog.Only ReadsOnly (Prog.iter (samplePads com) 400000 seen) :=
  fun _ => readsOnly_of_external (Prog.Only.iter (external_samplePads com) _ _)

theorem readsOnly_padprobeResample : Prog.Only ReadsOnly (padprobeResample com) := by
  refine ⟨trivial, fun _ => ?_⟩
  apply (readsOnly_samplePads _).bind
  intro seen
  exact ⟨trivial, fun _ => readsOnly_of_external (external_printResampled seen)⟩

/-- The pads that were cleared so far, with what was read there. -/
def undo (com : Nat) (done : List Pad) (origs : List UInt32) : List (Nat × UInt32) :=
  (done.map (com + ·.off)).zip origs

theorem padAddrs_nodup : (padAddrs com).Nodup := by
  have hoffs : (pads.map (·.off)).Nodup := by decide
  have hmap : padAddrs com = (pads.map (·.off)).map (com + ·) := by rw [padAddrs, List.map_map]; rfl
  rw [hmap]
  exact List.Nodup.map (fun _ _ => Nat.add_left_cancel) hoffs

/-- Each pad is put on the list with what was read there. -/
theorem wp_unlockPads {m : Probing} (hm : m.pending = []) :
    wp (restoring com) (unlockPads com) m fun m' a => a.1.length = pads.length ∧ m'.pending = undo com pads a.1 := by
  have h := wp_fold_rest (C := restoring com)
    (f := fun acc pad => do
      let orig ← readl (com + pad.off)
      writel (com + pad.off) (orig &&& ~~~0x200)
      let after ← readl (com + pad.off)
      print .seq "  %s 0x%08x -> wrote 0x%08x -> reads 0x%08x  %s\n"
        [.str pad.n, .int orig.toNat, .int (orig &&& ~~~0x200).toNat, .int after.toNat,
          .str (if after &&& 0x200 ≠ 0 then "BLOCKED (locked)" else "TOOK")]
      pure (acc.1 ++ [orig], acc.2 || after &&& 0x200 = 0))
    (I := fun xs m (acc : List UInt32 × Bool) => ∃ done, pads = done ++ xs ∧ acc.1.length = done.length ∧
      m.pending = undo com done acc.1) pads ?_ (m := m) (g := ([], false)) ⟨[], rfl, rfl, hm⟩
  · refine wp_mono h ?_
    intro m' acc hdone
    obtain ⟨done, hpads, hlen, hpending⟩ := hdone
    rw [List.append_nil] at hpads
    subst hpads
    exact ⟨hlen, hpending⟩
  · intro pad xs m acc hI
    obtain ⟨done, hpads, hlen, hpending⟩ := hI
    refine ⟨trivial, fun orig _ => ?_⟩
    have hclears : (Probing.mk (some (com + pad.off, orig)) m.pending).Clears com (com + pad.off)
        (orig &&& ~~~0x200) orig := by
      refine ⟨rfl, rfl, ?_, ?_⟩
      · rw [padAddrs, hpads]
        exact List.mem_map_of_mem (List.mem_append_right _ List.mem_cons_self)
      · show com + pad.off ∉ m.pending.map Prod.fst
        have hnodup : (padAddrs com).Nodup := padAddrs_nodup
        rw [padAddrs, hpads, List.map_append, List.nodup_append] at hnodup
        rw [hpending, undo, List.map_fst_zip (by rw [List.length_map, hlen])]
        intro hmem
        exact hnodup.2.2 _ hmem _ List.mem_cons_self rfl
    refine ⟨Or.inl ⟨orig, hclears⟩, fun _ _ => ⟨trivial, fun after _ => ⟨trivial, fun _ _ => ?_⟩⟩⟩
    refine ⟨done ++ [pad], by rw [hpads, List.append_assoc]; rfl, ?_, ?_⟩
    · show (acc.1 ++ [orig]).length = (done ++ [pad]).length
      rw [List.length_append, List.length_append, hlen]
      rfl
    · show (Probing.write ⟨some (com + pad.off, orig), m.pending⟩ (com + pad.off) (orig &&& ~~~0x200)).pending = _
      rw [Probing.write_clears hclears, hpending, undo, undo, List.map_append,
        List.zip_append (by rw [List.length_map, hlen])]
      rfl

theorem wp_restorePads {m : Probing} {origs : List UInt32} (hm : m.pending = undo com pads origs) :
    wp (restoring com) (restorePads com origs) m fun m' _ => m'.pending = [] := by
  have hzip : ∀ (ps : List Pad) (os : List UInt32),
      undo com ps os = (ps.zip os).map fun x => (com + x.1.off, x.2) := by
    intro ps os
    rw [undo, ← List.map_id os, List.zip_map, List.map_id]
    exact congrFun (congrArg List.map (funext fun x => rfl)) _
  rw [hzip] at hm
  have h := wp_fold_rest (C := restoring com) (f := fun (_ : Unit) x => writel (com + x.1.off) x.2)
    (I := fun xs m _ => m.pending = xs.map fun x => (com + x.1.off, x.2)) (pads.zip origs) ?_ (g := ()) hm
  · refine wp_bind h ?_
    intro m' _ hm'
    exact ⟨trivial, fun _ _ => hm'⟩
  · intro x xs m' _ hI
    have hhead : m'.pending.head? = some (com + x.1.off, x.2) := by rw [hI]; rfl
    refine ⟨Or.inr hhead, fun _ _ => ?_⟩
    show (m'.write (com + x.1.off) x.2).pending = _
    rw [Probing.write_head hhead, hI]
    rfl

theorem wp_padprobeUnlock (seen : List (UInt32 × UInt32)) {m : Probing} (hm : m.pending = []) :
    wp (restoring com) (padprobeUnlock com seen) m fun m' a =>
      a.1.length = pads.length ∧ m'.pending = undo com pads a.1 := by
  refine ⟨trivial, fun _ _ => ⟨trivial, fun _ _ => ?_⟩⟩
  apply wp_readsOnly_bind (readsOnly_of_external (external_printChanged seen))
  intro m' _ hm'
  exact ⟨trivial, fun _ _ => wp_unlockPads (hm'.trans hm)⟩

/-- **`padprobe` restores** what it displaced, on every path. -/
theorem wp_padprobe (P : Setup) {m : Probing} (hm : m.pending = []) :
    wp (restoring P.gpioCom0) (gxfpPadprobeShow P) m fun m' _ => m'.pending = [] := by
  apply wp_perform_bind (by trivial)
  intro mapped _
  split
  · exact ⟨trivial, fun _ _ => hm⟩
  · refine ⟨trivial, fun _ _ => ?_⟩
    apply wp_readsOnly_bind (readsOnly_of_external (external_checkPads _))
    intro m₁ ok hm₁
    split
    · exact ⟨trivial, fun _ _ => hm₁.trans hm⟩
    · refine ⟨trivial, fun _ _ => ⟨trivial, fun _ _ => ⟨trivial, fun _ _ => ?_⟩⟩⟩
      apply wp_readsOnly_bind (readsOnly_samplePads _)
      intro m₂ seen hm₂
      apply wp_bind (wp_padprobeUnlock seen (hm₂.trans (hm₁.trans hm)))
      intro m₃ unlocked hm₃
      split
      · apply wp_readsOnly_bind readsOnly_padprobeResample
        intro m₄ _ hm₄
        exact wp_bind (wp_restorePads (hm₄.trans hm₃.2)) fun _ _ h => h
      · exact wp_bind (wp_restorePads hm₃.2) fun _ _ h => h

/-! ### The registers -/

variable {ε : Type}

/-- A register file behind the environment: `config` is what the writable bits of each register hold. Reads show them, writes set them, and nothing else of what the driver does changes them. -/
structure Registers (E : Env ε) (writable : Nat → UInt32) (config : ε → Nat → UInt32) : Prop where
  shown : ∀ addr e, (E.readl addr e).1 &&& writable addr = config e addr
  set : ∀ addr v e a, config (E.writel addr v e) a = if a = addr then v &&& writable a else config e a
  readl : ∀ addr e, config (E.readl addr e).2 = config e
  kmalloc : ∀ size e, config (E.kmalloc size e).2 = config e
  ioremap : ∀ addr e, config (E.ioremap addr e).2 = config e
  sleep : ∀ us e, config (E.sleep us e) = config e
  irqLevel : ∀ e, config (E.irqLevel e).2 = config e
  xfer : ∀ x mosi e, config (E.xfer x mosi e).2 = config e

variable {E : Env ε} {writable : Nat → UInt32} {config : ε → Nat → UInt32}

theorem Registers.readsOnly (hE : Registers E writable config) {r : Req} (hr : ReadsOnly r) (g : Gxfp) (e : ε) :
    config (answer E r g e).2 = config e := by
  cases r with
  | writel addr v => exact absurd hr id
  | readl addr => exact hE.readl addr e
  | kmalloc size => exact hE.kmalloc size e
  | ioremap addr => exact hE.ioremap addr e
  | sleep us => exact hE.sleep us e
  | sleepOnWq ms =>
      show config (if g.dataReady then e else E.sleep (1000 * ms) e) = config e
      split
      · rfl
      · exact hE.sleep (1000 * ms) e
  | irqLevel => exact hE.irqLevel e
  | spi x => exact hE.xfer x (mosi g x) e
  | _ => rfl

/-- The registers `now` are the registers `before` but for what is on the undo list. -/
structure Displaced (com : Nat) (writable before : Nat → UInt32) (m : Probing) (now : Nat → UInt32) : Prop where
  last : ∀ addr v, m.last = some (addr, v) → v &&& writable addr = now addr
  pads : ∀ x ∈ m.pending, x.1 ∈ padAddrs com
  distinct : (m.pending.map Prod.fst).Nodup
  orig : ∀ x ∈ m.pending, x.2 &&& writable x.1 = before x.1
  cleared : ∀ x ∈ m.pending, now x.1 = x.2 &&& ~~~0x200 &&& writable x.1
  rest : ∀ addr, addr ∉ m.pending.map Prod.fst → now addr = before addr

variable {before now : Nat → UInt32} {m : Probing}

theorem Displaced.clear (h : Displaced com writable before m now) {addr : Nat} {v orig : UInt32}
    (hclears : m.Clears com addr v orig) :
    Displaced com writable before (m.write addr v) fun a => if a = addr then v &&& writable a else now a := by
  have hne : ∀ x ∈ m.pending, x.1 ≠ addr := by
    intro x hx heq
    exact hclears.fresh (heq ▸ List.mem_map_of_mem hx)
  rw [Probing.write_clears hclears]
  refine ⟨fun _ _ hlast => absurd hlast (by simp), ?_, ?_, ?_, ?_, ?_⟩
  · intro x hx
    rcases List.mem_append.mp hx with hx | hx
    · exact h.pads x hx
    · rw [List.mem_singleton.mp hx]
      exact hclears.pad
  · rw [List.map_append]
    refine List.nodup_append.mpr ⟨h.distinct, List.nodup_singleton _, ?_⟩
    intro a ha b hb heq
    rw [heq, List.mem_singleton.mp hb] at ha
    exact hclears.fresh ha
  · intro x hx
    rcases List.mem_append.mp hx with hx | hx
    · exact h.orig x hx
    · rw [List.mem_singleton.mp hx]
      exact (h.last addr orig hclears.read).trans (h.rest addr hclears.fresh)
  · intro x hx
    rcases List.mem_append.mp hx with hx | hx
    · show (if x.1 = addr then _ else now x.1) = _
      rw [if_neg (hne x hx)]
      exact h.cleared x hx
    · rw [List.mem_singleton.mp hx, hclears.value]
      exact if_pos rfl
  · intro a ha
    rw [List.map_append, List.mem_append, not_or] at ha
    have hother : a ≠ addr := fun heq => ha.2 (List.mem_singleton.mpr heq)
    show (if a = addr then _ else now a) = _
    rw [if_neg hother]
    exact h.rest a ha.1

theorem Displaced.restore (h : Displaced com writable before m now) {addr : Nat} {v : UInt32}
    (hhead : m.pending.head? = some (addr, v)) :
    Displaced com writable before (m.write addr v) fun a => if a = addr then v &&& writable a else now a := by
  obtain ⟨rest, hrest⟩ := List.head?_eq_some_iff.mp hhead
  have hdistinct := h.distinct
  rw [hrest, List.map_cons, List.nodup_cons] at hdistinct
  have hmem : ∀ x ∈ rest, x ∈ m.pending := fun x hx => hrest ▸ List.mem_cons_of_mem _ hx
  have hne : ∀ x ∈ rest, x.1 ≠ addr := by
    intro x hx heq
    exact hdistinct.1 (List.mem_map.mpr ⟨x, hx, heq⟩)
  rw [Probing.write_head hhead, hrest, List.tail_cons]
  refine ⟨fun _ _ hlast => absurd hlast (by simp), fun x hx => h.pads x (hmem x hx), hdistinct.2,
    fun x hx => h.orig x (hmem x hx), ?_, ?_⟩
  · intro x hx
    show (if x.1 = addr then _ else now x.1) = _
    rw [if_neg (hne x hx)]
    exact h.cleared x (hmem x hx)
  · intro a ha
    by_cases heq : a = addr
    · rw [if_pos heq, heq]
      exact h.orig (addr, v) (hrest ▸ List.mem_cons_self)
    · rw [if_neg heq]
      apply h.rest a
      rw [hrest, List.map_cons, List.mem_cons, not_or]
      exact ⟨heq, ha⟩

/-- **One request** of an operation that keeps the contract. -/
theorem Displaced.reply (h : Displaced com writable before m (config e)) (hE : Registers E writable config) {r : Req}
    (hmay : (restoring com).may m r) (g : Gxfp) :
    Displaced com writable before ((restoring com).next m r (answer E r g e).1) (config (answer E r g e).2) := by
  cases r with
  | writel addr v =>
      have hset : config (E.writel addr v e) = fun a => if a = addr then v &&& writable a else config e a :=
        funext (hE.set addr v e)
      show Displaced com writable before (m.write addr v) (config (E.writel addr v e))
      rw [hset]
      obtain ⟨orig, hclears⟩ | hhead := hmay
      · exact h.clear hclears
      · exact h.restore hhead
  | readl addr =>
      show Displaced com writable before { m with last := some (addr, (E.readl addr e).1) } (config (E.readl addr e).2)
      rw [hE.readl]
      refine ⟨?_, h.pads, h.distinct, h.orig, h.cleared, h.rest⟩
      intro addr' v hlast
      obtain ⟨rfl, rfl⟩ := Prod.mk.inj (Option.some.inj hlast)
      exact hE.shown addr e
  | _ =>
      rw [hE.readsOnly (by trivial)]
      exact h

/-- Only bit 9 of the pads is ever displaced. -/
theorem Displaced.other_bits (h : Displaced com writable before m now) (addr : Nat) :
    now addr &&& ~~~0x200 = before addr &&& ~~~0x200 := by
  by_cases hmem : addr ∈ m.pending.map Prod.fst
  · obtain ⟨x, hx, rfl⟩ := List.mem_map.mp hmem
    rw [h.cleared x hx, ← h.orig x hx]
    grind
  · rw [h.rest addr hmem]

theorem Displaced.forget (h : Displaced com writable before m now) (hm : m.pending = []) :
    Displaced com writable before ⟨none, []⟩ now := by
  refine ⟨fun _ _ hlast => absurd hlast (by simp), ?_, List.nodup_nil, ?_, ?_, ?_⟩
  · exact fun x hx => absurd hx List.not_mem_nil
  · exact fun x hx => absurd hx List.not_mem_nil
  · exact fun x hx => absurd hx List.not_mem_nil
  · intro addr _
    apply h.rest
    rw [hm]
    exact List.not_mem_nil

/-! ### Operations running at once -/

def Returned (i : Nat) (s : Threads Req Ans OpResult (World ε)) : Prop := ∃ a, s.progs[i]? = some (.ret a)

/-- No two reads of `padprobe` overlap: when one has a turn, any other that has had one is at its end. -/
def NoOverlap (E : Env ε) (ops : List DebugOp) : List Nat → List Act → Threads Req Ans OpResult (World ε) → Prop
  | _, [], _ => True
  | begun, .isr :: acts, s => NoOverlap E ops begun acts (Act.isr.perform E s)
  | begun, .turn i :: acts, s =>
      (ops[i]? = some .padprobe → ∀ j ∈ begun, j ≠ i → ops[j]? = some .padprobe → Returned j s) ∧
        NoOverlap E ops (i :: begun) acts ((Act.turn i).perform E s)

variable {P : Setup} {ops : List DebugOp} {begun : List Nat} {p i : Nat} {s : Threads Req Ans OpResult (World ε)}

/-- What is left of an operation that is not in the middle of a `padprobe`: it writes no register, or has not begun. -/
def Calm (P : Setup) (ops : List DebugOp) (begun : List Nat) (i : Nat) (q : DriverM OpResult) : Prop :=
  Prog.Only ReadsOnly q ∨ (i ∉ begun ∧ ops[i]? = some .padprobe ∧ q = gxfpPadprobeShow P)

/-- The `padprobe` that began last, if there is one, is operation `p`. It keeps the contract in mode `m`, the others are calm, and the registers are as the undo list says. -/
structure Restoring (writable : Nat → UInt32) (config : ε → Nat → UInt32) (before : Nat → UInt32) (P : Setup)
    (ops : List DebugOp) (begun : List Nat) (p : Nat) (m : Probing) (s : Threads Req Ans OpResult (World ε)) : Prop where
  probe : ∀ q, s.progs[p]? = some q → wp (restoring P.gpioCom0) q m fun m' _ => m'.pending = []
  owned : ∀ q, s.progs[p]? = some q → p ∈ begun ∧ ops[p]? = some .padprobe
  absent : s.progs[p]? = none → m.pending = []
  others : ∀ i q, i ≠ p → s.progs[i]? = some q → Calm P ops begun i q
  registers : Displaced P.gpioCom0 writable before m (config s.shared.env)

section Restoring

variable (h : Restoring writable config before P ops begun p m s)

include h

/-- When the last `padprobe` is at its end, if there is one, nothing is left to be written back. -/
theorem Restoring.idle (hend : ops[p]? = some .padprobe → p ∈ begun → Returned p s) : m.pending = [] := by
  cases hq : s.progs[p]? with
  | none => exact h.absent hq
  | some q =>
      obtain ⟨hbegun, hop⟩ := h.owned q hq
      obtain ⟨a, ha⟩ := hend hop hbegun
      exact h.probe _ ha

theorem Restoring.proceed (hE : Registers E writable config) {r : Req} {next : Ans r → DriverM OpResult}
    (hp : s.progs[p]? = some (.ask r next)) :
    ∃ m', Restoring writable config before P ops (p :: begun) p m' ((kernel E).reply p r next s) := by
  obtain ⟨hmay, hnext⟩ := h.probe _ hp
  refine ⟨_, ?_, fun _ _ => ⟨List.mem_cons_self, (h.owned _ hp).2⟩, ?_, ?_, h.registers.reply hE hmay s.shared.g⟩
  · intro q hq
    rw [Shared.progs_reply_self hp] at hq
    exact Option.some.inj hq ▸ hnext _ trivial
  · intro hnone
    rw [Shared.progs_reply_self hp] at hnone
    exact absurd hnone (by simp)
  · intro j q hj hq
    rw [Shared.progs_reply_ne hj] at hq
    rcases h.others j q hj hq with hreads | ⟨hnew, hfresh⟩
    · exact Or.inl hreads
    · exact Or.inr ⟨fun hmem => (List.mem_cons.mp hmem).elim hj hnew, hfresh⟩

theorem Restoring.read (hE : Registers E writable config) (hip : i ≠ p) {r : Req} {next : Ans r → DriverM OpResult}
    (hreads : Prog.Only ReadsOnly (.ask r next)) :
    Restoring writable config before P ops (i :: begun) p m ((kernel E).reply i r next s) := by
  refine ⟨?_, ?_, ?_, ?_, ?_⟩
  · intro q hq
    rw [Shared.progs_reply_ne (Ne.symm hip)] at hq
    exact h.probe q hq
  · intro q hq
    rw [Shared.progs_reply_ne (Ne.symm hip)] at hq
    exact ⟨List.mem_cons_of_mem i (h.owned q hq).1, (h.owned q hq).2⟩
  · intro hnone
    rw [Shared.progs_reply_ne (Ne.symm hip)] at hnone
    exact h.absent hnone
  · intro j q hj hq
    rcases Shared.progs_reply hq with ⟨-, rfl⟩ | ⟨hij, hq⟩
    · exact Or.inl (hreads.2 _)
    · rcases h.others j q hj hq with hcalm | ⟨hnew, hfresh⟩
      · exact Or.inl hcalm
      · exact Or.inr ⟨fun hmem => (List.mem_cons.mp hmem).elim hij hnew, hfresh⟩
  · show Displaced P.gpioCom0 writable before m (config (answer E r s.shared.g s.shared.env).2)
    rw [hE.readsOnly hreads.1]
    exact h.registers

theorem Restoring.enter (hE : Registers E writable config) (hip : i ≠ p) (hop : ops[i]? = some .padprobe)
    (hi : s.progs[i]? = some (gxfpPadprobeShow P)) (hend : ops[p]? = some .padprobe → p ∈ begun → Returned p s) :
    ∃ m', Restoring writable config before P ops (i :: begun) i m' ((kernel E).step i s) := by
  obtain ⟨next, hshow⟩ : ∃ next, gxfpPadprobeShow P = .ask (.ioremap P.gpioCom0) next := ⟨_, rfl⟩
  have hwp := wp_padprobe P (m := ⟨none, []⟩) rfl
  rw [hshow] at hi hwp
  rw [Shared.step_eq hi rfl]
  have hregisters := (h.registers.forget (h.idle hend)).reply hE hwp.1 s.shared.g
  refine ⟨_, ?_, fun _ _ => ⟨List.mem_cons_self, hop⟩, ?_, ?_, hregisters⟩
  · intro q hq
    rw [Shared.progs_reply_self hi] at hq
    exact Option.some.inj hq ▸ hwp.2 _ trivial
  · intro hnone
    rw [Shared.progs_reply_self hi] at hnone
    exact absurd hnone (by simp)
  · intro j q hj hq
    rw [Shared.progs_reply_ne hj] at hq
    by_cases hjp : j = p
    · subst hjp
      obtain ⟨hbegun, hpad⟩ := h.owned q hq
      obtain ⟨a, ha⟩ := hend hpad hbegun
      obtain rfl : q = .ret a := Option.some.inj (hq.symm.trans ha)
      exact Or.inl trivial
    · rcases h.others j q hjp hq with hreads | ⟨hnew, hfresh⟩
      · exact Or.inl hreads
      · exact Or.inr ⟨fun hmem => (List.mem_cons.mp hmem).elim hj hnew, hfresh⟩

theorem Restoring.skip (hcalm : ∀ q, i ≠ p → s.progs[i]? = some q → Prog.Only ReadsOnly q) :
    Restoring writable config before P ops (i :: begun) p m s := by
  refine ⟨h.probe, ?_, h.absent, ?_, h.registers⟩
  · exact fun q hq => ⟨List.mem_cons_of_mem i (h.owned q hq).1, (h.owned q hq).2⟩
  · intro j q hj hq
    by_cases hij : j = i
    · subst hij
      exact Or.inl (hcalm q hj hq)
    · rcases h.others j q hj hq with hreads | ⟨hnew, hfresh⟩
      · exact Or.inl hreads
      · exact Or.inr ⟨fun hmem => (List.mem_cons.mp hmem).elim hij hnew, hfresh⟩

theorem Restoring.turn (hE : Registers E writable config)
    (hend : ops[i]? = some .padprobe → ∀ j ∈ begun, j ≠ i → ops[j]? = some .padprobe → Returned j s) :
    ∃ p' m', Restoring writable config before P ops (i :: begun) p' m' ((kernel E).step i s) := by
  by_cases hfresh : i ≠ p ∧ ops[i]? = some .padprobe ∧ s.progs[i]? = some (gxfpPadprobeShow P)
  · obtain ⟨hip, hop, hi⟩ := hfresh
    obtain ⟨m', h'⟩ := h.enter hE hip hop hi fun hpad hbegun => hend hop p hbegun (Ne.symm hip) hpad
    exact ⟨i, m', h'⟩
  · have hreads : ∀ q, i ≠ p → s.progs[i]? = some q → Prog.Only ReadsOnly q := by
      intro q hip hq
      rcases h.others i q hip hq with hreads | ⟨-, hop, rfl⟩
      · exact hreads
      · exact absurd ⟨hip, hop, hq⟩ hfresh
    rcases (kernel E).step_cases i s with hskip | ⟨r, next, hi, -, hreply⟩
    · rw [hskip]
      exact ⟨p, m, h.skip hreads⟩
    · rw [hreply]
      by_cases hip : i = p
      · subst hip
        obtain ⟨m', h'⟩ := h.proceed hE hi
        exact ⟨i, m', h'⟩
      · exact ⟨p, m, h.read hE hip (hreads _ hip hi)⟩

end Restoring

theorem interrupt_env (E : Env ε) (s : Threads Req Ans OpResult (World ε)) :
    (interrupt E s).shared.env = s.shared.env := by
  rw [interrupt]
  split
  · simp only [gxfpIsr, issue, Prog.perform_bind, Prog.run_ask]
    split <;> rfl
  · rfl

theorem Restoring.isr (h : Restoring writable config before P ops begun p m s) (E : Env ε) :
    Restoring writable config before P ops begun p m (interrupt E s) := by
  refine ⟨?_, ?_, ?_, ?_, ?_⟩
  · rw [interrupt_progs]
    exact h.probe
  · rw [interrupt_progs]
    exact h.owned
  · rw [interrupt_progs]
    exact h.absent
  · rw [interrupt_progs]
    exact h.others
  · rw [interrupt_env]
    exact h.registers

/-- The run lemma; `begun'` are the operations that have had a turn by its end. -/
theorem Restoring.drive (h : Restoring writable config before P ops begun p m s) (hE : Registers E writable config)
    (acts : List Act) (halone : NoOverlap E ops begun acts s) :
    ∃ begun' p' m', (∀ i ∈ begun', i ∈ begun ∨ Act.turn i ∈ acts) ∧
      Restoring writable config before P ops begun' p' m' (drive E acts s) := by
  induction acts generalizing begun p m s with
  | nil => exact ⟨begun, p, m, fun _ => Or.inl, h⟩
  | cons act acts ih =>
      cases act with
      | isr =>
          obtain ⟨begun', p', m', hbegun, h'⟩ := ih (h.isr E) halone
          exact ⟨begun', p', m', fun i hi => (hbegun i hi).imp_right (List.mem_cons_of_mem _), h'⟩
      | turn i =>
          obtain ⟨p₁, m₁, h₁⟩ := h.turn hE halone.1
          obtain ⟨begun', p', m', hbegun, h'⟩ := ih h₁ halone.2
          refine ⟨begun', p', m', fun j hj => ?_, h'⟩
          rcases hbegun j hj with hj | hj
          · rcases List.mem_cons.mp hj with rfl | hj
            · exact Or.inr List.mem_cons_self
            · exact Or.inl hj
          · exact Or.inr (List.mem_cons_of_mem _ hj)

theorem restoring_start (P : Setup) (ops : List DebugOp) (e : ε) :
    Restoring writable config (config e) P ops [] ops.length ⟨none, []⟩ (start P ops e) := by
  have hnone : (start P ops e).progs[ops.length]? = none := by
    rw [start, List.getElem?_map, List.getElem?_eq_none (Nat.le_refl _)]
    rfl
  refine ⟨?_, ?_, fun _ => rfl, ?_, ?_⟩
  · intro q hq
    rw [hnone] at hq
    exact absurd hq (by simp)
  · intro q hq
    rw [hnone] at hq
    exact absurd hq (by simp)
  · intro i q _ hq
    rw [start, List.getElem?_map] at hq
    obtain ⟨op, hop, rfl⟩ := Option.map_eq_some_iff.mp hq
    by_cases hpad : op = .padprobe
    · subst hpad
      exact Or.inr ⟨List.not_mem_nil, hop, rfl⟩
    · exact Or.inl (readsOnly_prog P hpad)
  · refine ⟨fun _ _ h => absurd h (by simp), ?_, List.nodup_nil, ?_, ?_, fun _ _ => rfl⟩
    all_goals
      intro x hx
      exact absurd hx List.not_mem_nil

/-- **The pads are put back.** Any operations in any interleaving with any interrupts, on registers of which any bits may be locked, provided no two reads of `padprobe` overlap. In every state of the run every register but the four pads, and every bit of those but bit 9, holds what it held before; and whenever no `padprobe` is under way, so does every bit of every register. -/
theorem padprobe_restores (hE : Registers E writable config) (P : Setup) (ops : List DebugOp) (e : ε) (acts : List Act)
    (halone : NoOverlap E ops [] acts (start P ops e)) :
    (∀ addr, addr ∉ padAddrs P.gpioCom0 → config (drive E acts (start P ops e)).shared.env addr = config e addr) ∧
    (∀ addr, config (drive E acts (start P ops e)).shared.env addr &&& ~~~0x200 = config e addr &&& ~~~0x200) ∧
    ((∀ i, ops[i]? = some .padprobe → Act.turn i ∈ acts → Returned i (drive E acts (start P ops e))) →
      config (drive E acts (start P ops e)).shared.env = config e) := by
  obtain ⟨begun, p, m, hbegun, h⟩ := (restoring_start P ops e).drive hE acts halone
  refine ⟨?_, h.registers.other_bits, ?_⟩
  · intro addr haddr
    apply h.registers.rest
    intro hmem
    obtain ⟨x, hx, rfl⟩ := List.mem_map.mp hmem
    exact haddr (h.registers.pads x hx)
  · intro hend
    have hempty : m.pending = [] := by
      apply h.idle
      intro hop hp
      exact hend p hop ((hbegun p hp).resolve_left List.not_mem_nil)
    funext addr
    apply h.registers.rest
    rw [hempty]
    exact List.not_mem_nil

/-- A machine of which every register can be written. -/
def Env.unlocked : Env (Nat → UInt32) where
  kmalloc _ e := (true, e)
  ioremap _ e := (true, e)
  readl addr e := (e addr, e)
  writel addr v e := fun a => if a = addr then v else e a
  sleep _ e := e
  irqLevel e := (false, e)
  xfer x mosi e := ((Env.idle.xfer x mosi ()).1, e)

theorem unlocked_registers : Registers Env.unlocked (fun _ => 0xFFFFFFFF) (fun e => e) where
  shown addr e := by
    show e addr &&& 0xFFFFFFFF = e addr
    exact UInt32.and_neg_one
  set addr v e a := by
    show (if a = addr then v else e a) = _
    rw [show v &&& (0xFFFFFFFF : UInt32) = v from UInt32.and_neg_one]
  readl _ _ := rfl
  kmalloc _ _ := rfl
  ioremap _ _ := rfl
  sleep _ _ := rfl
  irqLevel _ := rfl
  xfer _ _ _ := rfl

/-! ### A `padprobe` that can unlock the pads -/

/-- With at most one `padprobe` in the run there is nothing to overlap with. -/
theorem noOverlap_of_unique {E : Env ε} {ops : List DebugOp}
    (hone : ∀ i j : Nat, ops[i]? = some DebugOp.padprobe → ops[j]? = some DebugOp.padprobe → i = j) (begun : List Nat) (acts : List Act)
    (s : Threads Req Ans OpResult (World ε)) : NoOverlap E ops begun acts s := by
  induction acts generalizing begun s with
  | nil => trivial
  | cons act acts ih =>
      cases act with
      | isr => exact ih _ _
      | turn i => exact ⟨fun hi j _ hne hj => absurd (hone j i hj hi) hne, ih _ _⟩

theorem drive_turns (E : Env ε) (schedule : List Nat) (s : Threads Req Ans OpResult (World ε)) :
    drive E (schedule.map .turn) s = (kernel E).run schedule s := by
  induction schedule generalizing s with
  | nil => rfl
  | cons i schedule ih => exact ih _

theorem run_log_mem {α : Type} {E : Env ε} {tid : Nat} (p : DriverM α) {w : World ε} {entry : Entry}
    (hw : entry ∈ w.log) : entry ∈ (p.run (handle E tid) w).2.log := by
  apply Prog.run_keeps (I := fun w : World ε => entry ∈ w.log) _ p hw
  intro r w hw
  rw [handle_log]
  exact List.mem_append_right _ hw

/-- The pads as `gxfp_padprobe_show` expects them: every register reads as that of an output, and MISO's as high. -/
def expected : Nat → UInt32 := fun addr => if addr = 0xFD6E08E0 then 0x44000702 else 0x44000700

theorem handle_env_readsOnly {r : Req} (hr : ReadsOnly r) (w : World (Nat → UInt32)) :
    (handle Env.unlocked 0 r w).2.env = w.env :=
  unlocked_registers.readsOnly hr w.g w.env

theorem run_env_readsOnly {α : Type} {p : DriverM α} (hp : Prog.Only ReadsOnly p) (w : World (Nat → UInt32)) :
    (p.run (handle Env.unlocked 0) w).2.env = w.env := by
  apply hp.run_keeps (I := fun w' : World (Nat → UInt32) => w'.env = w.env) _ rfl
  intro r w' hr hw'
  exact (handle_env_readsOnly hr w').trans hw'

theorem run_checkPads_expected (w : World (Nat → UInt32)) (hw : w.env = expected) :
    ((checkPads 0xFD6E0000).run (handle Env.unlocked 0) w).1 = true := by
  obtain ⟨g, env, log⟩ := w
  subst hw
  rfl

theorem run_unlockPads_expected (w : World (Nat → UInt32)) (hw : w.env = expected) :
    ((unlockPads 0xFD6E0000).run (handle Env.unlocked 0) w).1.2 = true := by
  obtain ⟨g, env, log⟩ := w
  subst hw
  simp [unlockPads, pads, Prog.fold, readl, writel, print, issue, Env.unlocked, expected, answer, handle]
  decide

theorem run_padprobeUnlock_expected (seen : List (UInt32 × UInt32)) (w : World (Nat → UInt32)) (hw : w.env = expected) :
    ((padprobeUnlock 0xFD6E0000 seen).run (handle Env.unlocked 0) w).1.2 = true := by
  rw [padprobeUnlock, sleep, Prog.perform_bind, Prog.run_ask, Kernel.print, Prog.perform_bind, Prog.run_ask, Prog.run_bind,
    Kernel.print, Prog.perform_bind, Prog.run_ask]
  apply run_unlockPads_expected
  exact (run_env_readsOnly (readsOnly_of_external (external_printChanged seen)) _).trans hw

/-- The line that only a second sampling prints. -/
def resampled : Entry := ⟨0, .print .seq "  re-sampled with RX enabled:\n" []⟩

theorem run_printResampled (seen : List (UInt32 × UInt32)) (w : World (Nat → UInt32)) :
    resampled ∈ ((printResampled seen).run (handle Env.unlocked 0) w).2.log := by
  rw [printResampled, Kernel.print, Prog.perform_bind, Prog.run_ask]
  exact run_log_mem _ List.mem_cons_self

theorem run_resample (sample : DriverM (List (UInt32 × UInt32))) (w : World (Nat → UInt32)) :
    resampled ∈ ((spi padprobeXfer >>= fun _ => sample >>= fun seen => sleep 600000 >>= fun _ => printResampled seen).run
      (handle Env.unlocked 0) w).2.log := by
  rw [spi, Prog.perform_bind, Prog.run_ask, Prog.run_bind, sleep, Prog.perform_bind, Prog.run_ask]
  exact run_printResampled _ _

theorem run_padprobeResample (com : Nat) (w : World (Nat → UInt32)) :
    resampled ∈ ((padprobeResample com).run (handle Env.unlocked 0) w).2.log := by
  rw [padprobeResample]
  exact run_resample _ w

theorem padprobe_unlocks (w : World (Nat → UInt32)) (hw : w.env = expected) :
    resampled ∈ (runOp Env.unlocked {} .padprobe w).2.log := by
  have hsample : Prog.Only ReadsOnly (Prog.iter (samplePads 0xFD6E0000) 400000 noneSeen) := readsOnly_samplePads _
  have hresample := run_padprobeResample 0xFD6E0000
  rw [runOp, DebugOp.prog, gxfpPadprobeShow]
  generalize padprobeResample 0xFD6E0000 = resample at hresample ⊢
  generalize Prog.iter (samplePads 0xFD6E0000) 400000 noneSeen = sample at hsample ⊢
  rw [ioremap, Prog.perform_bind, Prog.run_ask, if_neg (by simp [answer, Env.unlocked]), Kernel.print, Prog.perform_bind,
    Prog.run_ask, Prog.run_bind]
  generalize hw' : (handle Env.unlocked 0 _ (handle Env.unlocked 0 _ w).2).2 = w'
  have henv : w'.env = expected := hw' ▸ hw
  have hcom : ({} : Setup).gpioCom0 = 0xFD6E0000 := rfl
  rw [hcom, run_checkPads_expected w' henv, if_neg Bool.noConfusion, Prog.perform_bind, Prog.run_ask, Kernel.print,
    Prog.perform_bind, Prog.run_ask, spi, Prog.perform_bind, Prog.run_ask, Prog.run_bind, Prog.run_bind, if_pos, Prog.run_bind]
  · exact run_log_mem _ (hresample _)
  · apply run_padprobeUnlock_expected
    rw [run_env_readsOnly hsample, handle_env_readsOnly (by trivial), handle_env_readsOnly (by trivial), handle_env_readsOnly (by trivial),
      run_env_readsOnly (readsOnly_of_external (external_checkPads _)), henv]

theorem padprobe_returns : ∃ acts a w', resampled ∈ w'.log ∧
    drive Env.unlocked acts (start {} [.padprobe] expected) = ⟨w', [.ret a]⟩ := by
  obtain ⟨n, hn⟩ := launch_alone Env.unlocked {} .padprobe (probed expected).g expected
  have hworld : (⟨{ (probed expected).g with lock := none }, expected, []⟩ : World (Nat → UInt32)) = probed expected := rfl
  have hlog := padprobe_unlocks (probed expected) rfl
  rw [launch, hworld] at hn
  generalize runOp Env.unlocked {} .padprobe (probed expected) = done at hn hlog
  refine ⟨(List.replicate n 0).map .turn, done.1, done.2, hlog, ?_⟩
  rw [drive_turns, start]
  exact hn

/-- A `padprobe` to its end, on pads it can unlock. -/
theorem padprobe_restores_unlocked :
    ∃ acts, Returned 0 (drive Env.unlocked acts (start {} [.padprobe] expected)) ∧
      resampled ∈ (drive Env.unlocked acts (start {} [.padprobe] expected)).shared.log ∧
      (drive Env.unlocked acts (start {} [.padprobe] expected)).shared.env = expected := by
  obtain ⟨acts, a, w', hlog, hrun⟩ := padprobe_returns
  have hreturned : Returned 0 (drive Env.unlocked acts (start {} [.padprobe] expected)) := by
    rw [hrun]
    exact ⟨a, rfl⟩
  have hone (i j : Nat) (hi : [DebugOp.padprobe][i]? = some .padprobe) (hj : [DebugOp.padprobe][j]? = some .padprobe) :
      i = j := by
    have hi' := (List.getElem?_eq_some_iff.mp hi).1
    have hj' := (List.getElem?_eq_some_iff.mp hj).1
    simp only [List.length_singleton] at hi' hj'
    omega
  have hrestores := padprobe_restores unlocked_registers {} [.padprobe] expected acts (noOverlap_of_unique hone _ _ _)
  refine ⟨acts, hreturned, ?_, hrestores.2.2 ?_⟩
  · rw [hrun]
    exact hlog
  · intro i hi _
    obtain rfl := hone i 0 hi rfl
    exact hreturned

end GoodixSpi.Kernel
