import GoodixSpi.Lib.Overlay
import GoodixSpi.Proof.RawPhases
import Mathlib.Logic.Function.Basic

/-!
# Concurrent raw writers

The transmit buffer is filled without the mutex: by the parsing phase of a raw write, and by `cstest` and `padprobe`, which clear its first half. A raw transfer clocks out what the buffer holds when the mutex is taken. So a write sends its own bytes exactly when the fills that came last at each of its positions put its own bytes there.
-/

namespace GoodixSpi.Kernel

open Wire Interaction Overlay

/-- Where a raw write stands. -/
inductive Stage where
  | ready
  | parsed (n : Nat)
  | finished
  deriving DecidableEq, Repr

/-- An atomic step: a write parses its text, or makes its transfer, or a `cstest` or `padprobe` clears the buffer. -/
inductive Phase where
  | parse (i : Nat)
  | transfer (i : Nat)
  | clear (i : Nat)
  deriving DecidableEq, Repr

/-- The driver and its raw writers, one for each number. -/
structure Writers (ε : Type) where
  world : World ε
  stage : Nat → Stage

variable {ε : Type}

def Stage.after : Except Int Nat → Stage
  | .ok n => .parsed n
  | .error _ => .finished

/-- What the next phase does; a phase that is not due passes. -/
def Phase.perform (E : Env ε) (us : Nat → UserBuf) (s : Writers ε) : Phase → Writers ε
  | .parse i =>
      match s.stage i with
      | .ready =>
          let out := (rawParse (us i)).run (handle E i) s.world
          ⟨out.2, Function.update s.stage i (.after out.1)⟩
      | _ => s
  | .transfer i =>
      match s.stage i with
      | .parsed n => ⟨((rawTransfer n).run (handle E i) s.world).2, Function.update s.stage i .finished⟩
      | _ => s
  | .clear i => { s with world := ((issue (.txStore 0 (List.replicate 2048 0))).run (handle E i) s.world).2 }

def interleave (E : Env ε) (us : Nat → UserBuf) : List Phase → Writers ε → Writers ε
  | [], s => s
  | ph :: phs, s => interleave E us phs (ph.perform E us s)

/-- Every raw transfer clocked out what its write parsed. -/
def OwnBytes (us : Nat → UserBuf) (log : List Entry) : Prop := ∀ x ∈ rawSends log, x.2 = (us x.1).parsed

section Phases

variable {E : Env ε} {us : Nat → UserBuf} {s : Writers ε} {i : Nat}

variable (E us) in
theorem perform_parse (h : s.stage i = .ready) :
    ∃ new, OnlyTouches new ∧ Phase.perform E us s (.parse i) =
      ⟨⟨{ s.world.g with txbuf := s.world.g.txbuf.store 0 (us i).parsed }, s.world.env, new ++ s.world.log⟩,
        Function.update s.stage i (.after (us i).outcome)⟩ := by
  obtain ⟨new, hnew, hrun⟩ := run_rawParse E i (us i) s.world
  refine ⟨new, hnew, ?_⟩
  rw [Phase.perform, h]
  dsimp only
  rw [hrun]

theorem perform_parse_passes (h : s.stage i ≠ .ready) : Phase.perform E us s (.parse i) = s := by
  rw [Phase.perform]
  cases hstage : s.stage i with
  | ready => exact absurd hstage h
  | _ => rfl

theorem perform_transfer {n : Nat} (h : s.stage i = .parsed n) :
    Phase.perform E us s (.transfer i) =
      ⟨((rawTransfer n).run (handle E i) s.world).2, Function.update s.stage i .finished⟩ := by
  rw [Phase.perform, h]

theorem perform_transfer_passes (h : ∀ n, s.stage i ≠ .parsed n) : Phase.perform E us s (.transfer i) = s := by
  rw [Phase.perform]
  cases hstage : s.stage i with
  | parsed n => exact absurd hstage (h n)
  | _ => rfl

theorem stage_after_eq {u : UserBuf} {n : Nat} (h : Stage.after u.outcome = .parsed n) : u.outcome = .ok n := by
  cases hout : u.outcome with
  | ok k =>
      rw [hout, Stage.after] at h
      rw [Stage.parsed.inj h]
  | error e =>
      rw [hout, Stage.after] at h
      exact absurd h (by simp)

end Phases

/-! ### What the fills left -/

def Phase.fills (us : Nat → UserBuf) (s : Writers ε) : Phase → List Bytes
  | .parse i => if s.stage i = .ready then [(us i).parsed] else []
  | .transfer _ => []
  | .clear _ => [List.replicate 2048 0]

/-- A transfer that is due finds its own byte at each position, put there by the last fill that reaches it. -/
def Phase.Intact (us : Nat → UserBuf) (fills : List Bytes) (s : Writers ε) : Phase → Prop
  | .transfer i => ∀ n, s.stage i = .parsed n → ∀ p < n, lastStored p fills = (us i).parsed[p]?
  | _ => True

/-- Every transfer of a schedule is intact, after the given fills, the newest first. -/
def Intact (E : Env ε) (us : Nat → UserBuf) : List Bytes → List Phase → Writers ε → Prop
  | _, [], _ => True
  | fills, ph :: phs, s => ph.Intact us fills s ∧ Intact E us (ph.fills us s ++ fills) phs (ph.perform E us s)

/-- The transmit buffer is what the fills left, and a parsed text is one of them. -/
structure Filling (us : Nat → UserBuf) (init : Bytes) (fills : List Bytes) (s : Writers ε) : Prop where
  txbuf : s.world.g.txbuf.bytes = overlay init fills
  parsed : ∀ i n, s.stage i = .parsed n → n = (us i).parsed.length ∧ (us i).parsed ∈ fills

theorem store_zero_bytes {b : Buffer GXFP_BUF_MAX} {new : Bytes} (h : new.length ≤ GXFP_BUF_MAX) :
    (b.store 0 new).bytes = overwrite new b.bytes := by
  rw [Buffer.store_bytes (by omega), Nat.zero_add]
  rfl

theorem UserBuf.parsed_length_le (u : UserBuf) : u.parsed.length ≤ GXFP_BUF_MAX := by
  rw [parsed]
  split
  · exact Nat.zero_le _
  · split
    · exact Nat.zero_le _
    · exact values_length_le _ _

theorem txbuf_perform (E : Env ε) (us : Nat → UserBuf) (s : Writers ε) (ph : Phase) :
    (ph.perform E us s).world.g.txbuf.bytes = overlay s.world.g.txbuf.bytes (ph.fills us s) := by
  cases ph with
  | parse i =>
      rw [Phase.fills]
      by_cases hready : s.stage i = .ready
      · obtain ⟨new, -, hperform⟩ := perform_parse E us hready
        rw [if_pos hready, hperform]
        exact store_zero_bytes (us i).parsed_length_le
      · rw [if_neg hready, perform_parse_passes hready]
        rfl
  | transfer i =>
      cases hstage : s.stage i with
      | parsed n =>
          rw [perform_transfer hstage, (run_rawTransfer E i n s.world).2.1]
          rfl
      | _ =>
          rw [perform_transfer_passes (by simp [hstage])]
          rfl
  | clear i => exact store_zero_bytes (by rw [List.length_replicate, GXFP_BUF_MAX]; omega)

theorem parsed_perform {E : Env ε} {us : Nat → UserBuf} {s : Writers ε} {ph : Phase} {j n : Nat}
    (h : (ph.perform E us s).stage j = .parsed n) :
    s.stage j = .parsed n ∨ n = (us j).parsed.length ∧ ph.fills us s = [(us j).parsed] := by
  cases ph with
  | parse i =>
      by_cases hready : s.stage i = .ready
      · obtain ⟨new, -, hperform⟩ := perform_parse E us hready
        rw [hperform] at h
        change Function.update s.stage i (.after (us i).outcome) j = _ at h
        by_cases hij : j = i
        · subst hij
          rw [Function.update_self] at h
          exact Or.inr ⟨(UserBuf.outcome_ok (stage_after_eq h)).1, if_pos hready⟩
        · rw [Function.update_of_ne hij] at h
          exact Or.inl h
      · rw [perform_parse_passes hready] at h
        exact Or.inl h
  | transfer i =>
      cases hstage : s.stage i with
      | parsed m =>
          rw [perform_transfer hstage] at h
          change Function.update s.stage i .finished j = _ at h
          by_cases hij : j = i
          · rw [hij, Function.update_self] at h
            exact absurd h (by simp)
          · rw [Function.update_of_ne hij] at h
            exact Or.inl h
      | _ =>
          rw [perform_transfer_passes (by simp [hstage])] at h
          exact Or.inl h
  | clear i => exact Or.inl h

theorem Filling.perform {us : Nat → UserBuf} {init : Bytes} {fills : List Bytes} {s : Writers ε}
    (h : Filling us init fills s) (E : Env ε) (ph : Phase) :
    Filling us init (ph.fills us s ++ fills) (ph.perform E us s) where
  txbuf := by rw [txbuf_perform, h.txbuf, overlay_append]
  parsed j n hj := by
    rcases parsed_perform hj with hbefore | ⟨hn, hfill⟩
    · obtain ⟨hn, hmem⟩ := h.parsed j n hbefore
      exact ⟨hn, List.mem_append_right _ hmem⟩
    · rw [hfill]
      exact ⟨hn, List.mem_cons_self⟩

theorem ownBytes_congr {us : Nat → UserBuf} {log log' : List Entry} (h : rawSends log' = rawSends log) :
    OwnBytes us log' ↔ OwnBytes us log := by
  rw [OwnBytes, OwnBytes, h]

theorem ownBytes_append {us : Nat → UserBuf} {log log' : List Entry} {i : Nat} {b : Bytes}
    (h : rawSends log' = rawSends log ++ [(i, b)]) : OwnBytes us log' ↔ OwnBytes us log ∧ b = (us i).parsed := by
  rw [OwnBytes, OwnBytes, h, List.forall_mem_append, List.forall_mem_singleton]

/-- A transfer that is due clocks out its write's bytes exactly if it is intact. -/
theorem Filling.load_eq_iff {us : Nat → UserBuf} {init : Bytes} {fills : List Bytes} {s : Writers ε}
    (h : Filling us init fills s) {i n : Nat} (hstage : s.stage i = .parsed n) :
    s.world.g.txbuf.load 0 n = (us i).parsed ↔ Phase.Intact us fills s (.transfer i) := by
  obtain ⟨rfl, hmem⟩ := h.parsed i n hstage
  rw [Buffer.load_zero, h.txbuf, take_overlay_eq_iff init hmem]
  constructor
  · intro hall n hn
    obtain rfl := Stage.parsed.inj (hstage.symm.trans hn)
    exact hall
  · intro hintact
    exact hintact _ hstage

/-- **One phase** keeps the transfers to their own bytes exactly if it is intact. -/
theorem Filling.own_iff {us : Nat → UserBuf} {init : Bytes} {fills : List Bytes} {s : Writers ε}
    (h : Filling us init fills s) (E : Env ε) (ph : Phase) :
    OwnBytes us (ph.perform E us s).world.log ↔ OwnBytes us s.world.log ∧ ph.Intact us fills s := by
  cases ph with
  | parse i =>
      refine Iff.trans ?_ (and_iff_left trivial).symm
      by_cases hready : s.stage i = .ready
      · obtain ⟨new, hnew, hperform⟩ := perform_parse E us hready
        rw [hperform]
        exact ownBytes_congr (rawSends_touches hnew s.world.log)
      · rw [perform_parse_passes hready]
  | transfer i =>
      cases hstage : s.stage i with
      | parsed n =>
          rw [perform_transfer hstage, ← h.load_eq_iff hstage]
          exact ownBytes_append (run_rawTransfer E i n s.world).2.2.1
      | _ =>
          have hnot : ∀ n, s.stage i ≠ .parsed n := by simp [hstage]
          rw [perform_transfer_passes hnot, Phase.Intact]
          exact (and_iff_left fun n hn => absurd hn (hnot n)).symm
  | clear i =>
      exact (ownBytes_congr rfl).trans (and_iff_left trivial).symm

theorem Filling.interleave_own_iff {us : Nat → UserBuf} {init : Bytes} {fills : List Bytes} {s : Writers ε}
    (h : Filling us init fills s) (E : Env ε) (phs : List Phase) :
    OwnBytes us (interleave E us phs s).world.log ↔ OwnBytes us s.world.log ∧ Intact E us fills phs s := by
  induction phs generalizing fills s with
  | nil => exact (and_iff_left trivial).symm
  | cons ph phs ih => rw [interleave, ih (h.perform E ph), h.own_iff E ph, Intact, and_assoc]

def Writers.start (g : Gxfp) (e : ε) : Writers ε := ⟨⟨g, e, []⟩, fun _ => .ready⟩

/-- **Concurrent raw writers send their own bytes exactly in the schedules whose transfers are all intact.** -/
theorem ownBytes_iff_intact (E : Env ε) (us : Nat → UserBuf) (g : Gxfp) (e : ε) (phs : List Phase) :
    OwnBytes us (interleave E us phs (.start g e)).world.log ↔ Intact E us [] phs (.start g e) := by
  have hstart : Filling us g.txbuf.bytes [] (Writers.start g e) := ⟨rfl, fun i n hn => absurd hn (by simp [Writers.start])⟩
  rw [hstart.interleave_own_iff E phs]
  exact and_iff_right fun _ hx => absurd hx List.not_mem_nil

/-! ### Fills that wait for each other -/

/-- A fill comes when no write is between its parse and its transfer. -/
def Phase.Alone (s : Writers ε) : Phase → Prop
  | .transfer _ => True
  | _ => ∀ j n, s.stage j ≠ .parsed n

def AllAlone (E : Env ε) (us : Nat → UserBuf) : List Phase → Writers ε → Prop
  | [], _ => True
  | ph :: phs, s => ph.Alone s ∧ AllAlone E us phs (ph.perform E us s)

/-- A text that waits for its transfer is the newest fill. -/
def Newest (us : Nat → UserBuf) (fills : List Bytes) (s : Writers ε) : Prop :=
  ∀ j n, s.stage j = .parsed n → n = (us j).parsed.length ∧ ∃ older, fills = (us j).parsed :: older

theorem Newest.intact {us : Nat → UserBuf} {fills : List Bytes} {s : Writers ε} (h : Newest us fills s) (ph : Phase) :
    ph.Intact us fills s := by
  cases ph with
  | transfer i =>
      intro n hn p hp
      obtain ⟨rfl, older, rfl⟩ := h i n hn
      rw [lastStored, List.getElem?_eq_getElem hp, Option.some_or]
  | _ => trivial

theorem Newest.perform {us : Nat → UserBuf} {fills : List Bytes} {s : Writers ε} (h : Newest us fills s) (E : Env ε)
    {ph : Phase} (halone : ph.Alone s) : Newest us (ph.fills us s ++ fills) (ph.perform E us s) := by
  intro j n hj
  rcases parsed_perform hj with hbefore | ⟨hn, hfill⟩
  · cases ph with
    | transfer i => exact h j n hbefore
    | _ => exact absurd hbefore (halone j n)
  · rw [hfill]
    exact ⟨hn, fills, rfl⟩

theorem Newest.intact_run {us : Nat → UserBuf} {fills : List Bytes} {s : Writers ε} (h : Newest us fills s) (E : Env ε)
    {phs : List Phase} (halone : AllAlone E us phs s) : Intact E us fills phs s := by
  induction phs generalizing fills s with
  | nil => trivial
  | cons ph phs ih => exact ⟨h.intact ph, ih (h.perform E halone.1) halone.2⟩

/-- Writers whose fills wait for the transfers send their own bytes. -/
theorem ownBytes_of_alone (E : Env ε) (us : Nat → UserBuf) (g : Gxfp) (e : ε) (phs : List Phase)
    (halone : AllAlone E us phs (.start g e)) : OwnBytes us (interleave E us phs (.start g e)).world.log := by
  have hfilling : Filling us g.txbuf.bytes [] (Writers.start g e) :=
    ⟨rfl, fun i n hn => absurd hn (by simp [Writers.start])⟩
  have hnewest : Newest us [] (Writers.start g e) := fun j n hj => absurd hj (by simp [Writers.start])
  exact (hfilling.interleave_own_iff E phs).mpr ⟨fun _ hx => absurd hx List.not_mem_nil, hnewest.intact_run E halone⟩

/-! ### A race -/

def twoTexts (i : Nat) : UserBuf := if i = 0 then .text [0x30, 0x31] else .text [0x30, 0x32]

/-- Both writers parse before the first of them transfers, and both transfers clock out `02`. -/
theorem racing_writers_send_other_bytes :
    rawSends (interleave Env.idle twoTexts [.parse 0, .parse 1, .transfer 0, .transfer 1]
        (.start (probed ()).g ())).world.log = [(0, [2]), (1, [2])] ∧
      ¬ OwnBytes twoTexts (interleave Env.idle twoTexts [.parse 0, .parse 1, .transfer 0, .transfer 1]
        (.start (probed ()).g ())).world.log := by
  have hsends : rawSends (interleave Env.idle twoTexts [.parse 0, .parse 1, .transfer 0, .transfer 1]
        (.start (probed ()).g ())).world.log = [(0, [2]), (1, [2])] := by decide +kernel
  refine ⟨hsends, ?_⟩
  intro hown
  have hfirst : [2] = (twoTexts 0).parsed := hown (0, [2]) (by rw [hsends]; exact List.mem_cons_self)
  exact absurd hfirst (by decide)

end GoodixSpi.Kernel
