import GoodixSpi.Proof.Specs
import Mathlib.Data.List.TakeWhile

/-!
# What a token loop takes

`gxfp_cmd_write` and `gxfp_raw_write` turn blank-separated tokens into bytes with the same loop: it skips empty tokens, stops at a bad one, and ends when the text or the room in the buffer does. `values` is what such a loop stores and whether it met a bad token; `lowBytes` is what the whole text stands for.
-/

namespace GoodixSpi.Kernel

open Wire Interaction

theorem cString_eq_self {text : Bytes} (hnul : 0 ∉ text) : cString text = text := by
  apply List.takeWhile_eq_self_iff.mpr
  intro x hx
  exact decide_eq_true fun h0 => hnul (h0 ▸ hx)

/-- The byte a token stands for. -/
def lowByte (tok : Bytes) : Option UInt8 :=
  match kstrtouint tok with
  | .error _ => none
  | .ok v => some (UInt8.ofNat (v &&& 0xFF))

def tokens (p : List Bytes) : List Bytes := p.filter (· ≠ [])

/-- The low bytes of all tokens, if each of them is a number. -/
def lowBytes (p : List Bytes) : Option Bytes := (tokens p).mapM lowByte

/-- What a loop with room for `cap` bytes stores, and whether it ended without meeting a bad token. -/
def values : Nat → List Bytes → Bytes × Bool
  | 0, _ => ([], true)
  | _ + 1, [] => ([], true)
  | cap + 1, tok :: p =>
      if tok = [] then values (cap + 1) p
      else
        match lowByte tok with
        | none => ([], false)
        | some b => (b :: (values cap p).1, (values cap p).2)

theorem tokens_cons_nil (p : List Bytes) : tokens ([] :: p) = tokens p := by
  simp [tokens]

theorem tokens_cons {tok : Bytes} (p : List Bytes) (h : tok ≠ []) : tokens (tok :: p) = tok :: tokens p := by
  simp [tokens, h]

theorem lowBytes_cons_nil (p : List Bytes) : lowBytes ([] :: p) = lowBytes p := by
  rw [lowBytes, tokens_cons_nil, lowBytes]

theorem lowBytes_cons {tok : Bytes} (p : List Bytes) (h : tok ≠ []) :
    lowBytes (tok :: p) = (lowByte tok).bind fun b => (lowBytes p).map (b :: ·) := by
  rw [lowBytes, tokens_cons p h, List.mapM_cons, lowBytes]
  cases lowByte tok with
  | none => rfl
  | some b => cases (tokens p).mapM lowByte <;> rfl

theorem lowBytes_length {p : List Bytes} {bs : Bytes} (h : lowBytes p = some bs) : bs.length = (tokens p).length := by
  induction p generalizing bs with
  | nil =>
      obtain rfl : [] = bs := Option.some.inj h
      rfl
  | cons tok p ih =>
      by_cases hempty : tok = []
      · subst hempty
        rw [lowBytes_cons_nil] at h
        rw [tokens_cons_nil, ih h]
      · rw [lowBytes_cons p hempty] at h
        obtain ⟨b, -, hrest⟩ := Option.bind_eq_some_iff.mp h
        obtain ⟨rest, hrest', rfl⟩ := Option.map_eq_some_iff.mp hrest
        rw [tokens_cons p hempty, List.length_cons, List.length_cons, ih hrest']

theorem values_cons {cap : Nat} {tok : Bytes} (p : List Bytes) (h : tok ≠ []) :
    values (cap + 1) (tok :: p) =
      match lowByte tok with
      | none => ([], false)
      | some b => (b :: (values cap p).1, (values cap p).2) := by
  rw [values, if_neg h]

theorem values_cons_nil (cap : Nat) (p : List Bytes) : values cap ([] :: p) = values cap p := by
  cases cap with
  | zero => rw [values, values]
  | succ cap => rw [values, if_pos rfl]

theorem values_length_le (cap : Nat) (p : List Bytes) : (values cap p).1.length ≤ cap := by
  induction p generalizing cap with
  | nil => cases cap <;> simp [values]
  | cons tok p ih =>
      by_cases hempty : tok = []
      · rw [hempty, values_cons_nil]
        exact ih cap
      · cases cap with
        | zero => simp [values]
        | succ cap =>
            rw [values_cons p hempty]
            cases lowByte tok with
            | none => simp
            | some b => exact Nat.succ_le_succ (ih cap)

theorem values_of_lowBytes {p : List Bytes} {bs : Bytes} (h : lowBytes p = some bs) (cap : Nat) :
    values cap p = (bs.take cap, true) := by
  induction p generalizing bs cap with
  | nil =>
      obtain rfl : [] = bs := Option.some.inj h
      cases cap <;> rfl
  | cons tok p ih =>
      by_cases hempty : tok = []
      · subst hempty
        rw [lowBytes_cons_nil] at h
        rw [values_cons_nil, ih h]
      · rw [lowBytes_cons p hempty] at h
        obtain ⟨b, hb, hrest⟩ := Option.bind_eq_some_iff.mp h
        obtain ⟨rest, hrest', rfl⟩ := Option.map_eq_some_iff.mp hrest
        cases cap with
        | zero => rfl
        | succ cap =>
            rw [values_cons p hempty, hb]
            dsimp only
            rw [ih hrest']
            rfl

/-- A loop that meets no bad token and has room for all takes the whole text. -/
theorem lowBytes_of_values {cap : Nat} {p : List Bytes} (hgood : (values cap p).2 = true)
    (hroom : (tokens p).length ≤ cap) : lowBytes p = some (values cap p).1 := by
  induction p generalizing cap with
  | nil => cases cap <;> rfl
  | cons tok p ih =>
      by_cases hempty : tok = []
      · subst hempty
        rw [values_cons_nil] at hgood ⊢
        rw [tokens_cons_nil] at hroom
        rw [lowBytes_cons_nil, ih hgood hroom]
      · rw [tokens_cons p hempty, List.length_cons] at hroom
        cases cap with
        | zero => omega
        | succ cap =>
            rw [values_cons p hempty] at hgood ⊢
            rw [lowBytes_cons p hempty]
            cases hb : lowByte tok with
            | none =>
                rw [hb] at hgood
                exact absurd hgood Bool.false_ne_true
            | some b =>
                rw [hb] at hgood
                rw [Option.bind_some, ih hgood (by omega)]
                rfl

theorem values_full {cap : Nat} {p : List Bytes} (hgood : (values cap p).2 = true) (hmore : cap ≤ (tokens p).length) :
    (values cap p).1.length = cap := by
  induction p generalizing cap with
  | nil =>
      obtain rfl : cap = 0 := Nat.le_zero.mp hmore
      rfl
  | cons tok p ih =>
      by_cases hempty : tok = []
      · subst hempty
        rw [values_cons_nil] at hgood ⊢
        rw [tokens_cons_nil] at hmore
        exact ih hgood hmore
      · rw [tokens_cons p hempty, List.length_cons] at hmore
        cases cap with
        | zero => rfl
        | succ cap =>
            rw [values_cons p hempty] at hgood ⊢
            cases hb : lowByte tok with
            | none =>
                rw [hb] at hgood
                exact absurd hgood Bool.false_ne_true
            | some b =>
                rw [hb] at hgood
                exact congrArg (· + 1) (ih hgood (by omega))

/-- A loop meets no bad token if the tokens it has room for are numbers. -/
theorem values_good_iff {cap : Nat} {p : List Bytes} :
    (values cap p).2 = true ↔ ∀ tok ∈ (tokens p).take cap, lowByte tok ≠ none := by
  induction p generalizing cap with
  | nil => cases cap <;> simp [values, tokens]
  | cons tok p ih =>
      by_cases hempty : tok = []
      · rw [hempty, values_cons_nil, tokens_cons_nil]
        exact ih
      · cases cap with
        | zero => simp [values]
        | succ cap =>
            rw [values_cons p hempty, tokens_cons p hempty, List.take_succ_cons, List.forall_mem_cons]
            cases hb : lowByte tok with
            | none => simp
            | some b => simp [ih]

/-! ### The two loops -/

section Contracts

variable {M : Type} {C : Contract Req Ans M}

theorem lowByte_eq_none {tok : Bytes} {e : Int} (h : kstrtouint tok = .error e) : lowByte tok = none := by
  rw [lowByte, h]

theorem lowByte_eq_some {tok : Bytes} {v : Nat} (h : kstrtouint tok = .ok v) :
    lowByte tok = some (UInt8.ofNat (v &&& 0xFF)) := by
  rw [lowByte, h]

/-- The payload loop of `gxfp_cmd_write` fills the payload buffer with what `values` says. -/
theorem wp_cmdPayload_values (hC : IgnoresTouch C) (p : List Bytes) {payload : Buffer 256} {front : Bytes} {m : M}
    {Q : M → Option (Buffer 256 × Nat) → Prop} (hpayload : payload.Filled front) (hfront : front.length ≤ 256)
    (hnone : (values (256 - front.length) p).2 = false → Q m none)
    (hsome : (values (256 - front.length) p).2 = true → ∀ payload : Buffer 256,
      payload.Filled (front ++ (values (256 - front.length) p).1) →
        Q m (some (payload, front.length + (values (256 - front.length) p).1.length))) :
    wp C (cmdPayload p payload front.length) m Q := by
  induction p generalizing payload front with
  | nil =>
      have hnil : values (256 - front.length) [] = ([], true) := by cases 256 - front.length <;> rfl
      rw [hnil] at hsome
      exact hsome rfl payload (by rwa [List.append_nil])
  | cons tok p ih =>
      rw [cmdPayload]
      by_cases hlt : front.length < 256
      · rw [if_pos hlt]
        by_cases hempty : tok = []
        · subst hempty
          rw [values_cons_nil] at hnone hsome
          rw [if_pos rfl]
          exact ih hpayload hfront hnone hsome
        · rw [if_neg hempty]
          obtain ⟨room, hroom⟩ : ∃ room, 256 - front.length = room + 1 := ⟨255 - front.length, by omega⟩
          rw [hroom, values_cons p hempty] at hnone hsome
          cases hval : kstrtouint tok with
          | error e =>
              rw [lowByte_eq_none hval] at hnone
              exact hnone rfl
          | ok v =>
              rw [lowByte_eq_some hval] at hnone hsome
              apply wp_store_bind hC (by simp only [List.length_singleton]; omega)
              generalize UInt8.ofNat (v &&& 0xFF) = b at hnone hsome ⊢
              have hstored : (payload.store front.length [b]).Filled (front ++ [b]) :=
                hpayload.store rfl (by simp only [List.length_singleton]; omega)
              have hlen : (front ++ [b]).length = front.length + 1 := List.length_append
              have hrest : 256 - (front ++ [b]).length = room := by omega
              rw [← hlen]
              apply ih hstored (by omega)
              · rw [hrest]
                exact hnone
              · rw [hrest, hlen]
                intro hgood payload' hpayload'
                have hdone := hsome hgood payload' (by simpa using hpayload')
                rwa [List.length_cons, Nat.add_comm _ 1, ← Nat.add_assoc] at hdone
      · rw [if_neg hlt]
        have hfull : 256 - front.length = 0 := by omega
        rw [hfull, values] at hsome
        exact hsome rfl payload (by rwa [List.append_nil])

end Contracts

end GoodixSpi.Kernel
