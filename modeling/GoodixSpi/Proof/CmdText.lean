import GoodixSpi.Proof.Send
import GoodixSpi.Proof.Tokens

/-!
# What a text written to `cmd` puts on the bus

The payload of a command is the list of its tokens' low bytes as long as there are at most 256 of them. The loop of `gxfp_cmd_write` ends when its array is full, and then the rest of the text is neither sent nor looked at.
-/

namespace GoodixSpi.Kernel

open Wire Interaction Tools

/-! ### The run of a command -/

/-- A request that clocks out nothing but zeros. -/
def Polling : Req → Prop
  | .spi x => x.tx = .zeros
  | _ => True

theorem polling_waitDataReady (ms : Nat) : Prog.Only Polling (waitDataReady ms) :=
  (passive_waitDataReady ms).mono fun r hr => by
    cases r with
    | spi x => exact absurd hr id
    | _ => trivial

theorem polling_gxfpRecv : Prog.Only Polling gxfpRecv := by
  apply Prog.Only.perform_bind (by rfl)
  intro a
  split
  · trivial
  · apply Prog.Only.perform_bind (by trivial)
    intro _
    split
    · trivial
    · split
      · trivial
      · apply Prog.Only.perform_bind (by rfl)
        intro _
        split
        · trivial
        · exact ⟨trivial, fun _ => ⟨trivial, fun _ => ⟨trivial, fun _ => trivial⟩⟩⟩

/-- A list of strings of zeros, what reads clock out. -/
def Zeros (polled : List Bytes) : Prop := ∀ b ∈ polled, ∀ x ∈ b, x = 0

section Run

variable {ε : Type} (E : Env ε) (tid : Nat) (v : View ε)

theorem run_polling {α : Type} {p : DriverM α} (hp : Prog.Only Polling p) :
    ∃ polled, (p.run (handleView E tid) v).2.sent = v.sent ++ polled ∧ Zeros polled := by
  apply hp.run_keeps (I := fun v' : View ε => ∃ polled, v'.sent = v.sent ++ polled ∧ Zeros polled)
  · rintro r v' hr ⟨polled, hsent, hzeros⟩
    cases r with
    | spi x =>
        refine ⟨polled ++ [mosi v'.g x], ?_, ?_⟩
        · change v'.sent ++ [mosi v'.g x] = _
          rw [hsent, List.append_assoc]
        · have hmosi : mosi v'.g x = List.replicate x.len 0 := by rw [mosi, show x.tx = .zeros from hr]
          intro b hb y hy
          rcases List.mem_append.mp hb with hb | hb
          · exact hzeros b hb y hy
          · rw [List.mem_singleton.mp hb, hmosi] at hy
            exact List.eq_of_mem_replicate hy
    | _ =>
        refine ⟨polled, ?_, hzeros⟩
        change v'.sent ++ [] = _
        rw [List.append_nil, hsent]
  · exact ⟨[], (List.append_nil _).symm, fun _ hb => absurd hb List.not_mem_nil⟩

/-- The outcome of the payload loop on a text. -/
def Takes (p : List Bytes) (r : Option (Buffer 256 × Nat)) : Prop :=
  ((values 256 p).2 = false → r = none) ∧
    ((values 256 p).2 = true → ∃ payload n, r = some (payload, n) ∧ n ≤ 256 ∧ payload.load 0 n = (values 256 p).1)

theorem run_cmdPayload (p : List Bytes) :
    ∃ r, (cmdPayload p (Buffer.zeros 256) 0).run (handleView E tid) v = (r, v) ∧ Takes p r := by
  apply run_localOnly
  apply wp_cmdPayload_values localOnly_ignoresTouch p Buffer.filled_zeros (Nat.zero_le 256)
  · intro hbad
    exact ⟨fun _ => rfl, fun hgood => absurd (hbad.symm.trans hgood) Bool.false_ne_true⟩
  · intro hgood payload hpayload
    refine ⟨fun hbad => absurd (hbad.symm.trans hgood) Bool.false_ne_true, fun _ => ⟨_, _, rfl, ?_, ?_⟩⟩
    · have := values_length_le 256 p
      simpa using this
    · rw [Buffer.load_zero, hpayload]
      simp

theorem run_cmdExchange (cmd0 cmd1 : Nat) (payload : Buffer 256) {n : Nat} (hn : n ≤ 256) :
    let body := message (cmd0 &&& 0xF) (cmd1 &&& 7) (payload.load 0 n) true
    ∃ polled, ((cmdExchange cmd0 cmd1 payload n).run (handleView E tid) v).2.sent =
      v.sent ++ (framedSend E (spiHeader body.length) body v.env).2.2 ++ polled ∧ Zeros polled := by
  intro body
  have hn16 : (UInt16.ofNat n).toNat = n := by
    rw [UInt16.toNat_ofNat']
    omega
  have h0 : (UInt8.ofNat (cmd0 &&& 0xF)).toNat = cmd0 &&& 0xF := by
    rw [toNat_ofNat_mod, and_0f]
    omega
  have h1 : (UInt8.ofNat (cmd1 &&& 7)).toNat = cmd1 &&& 7 := by
    rw [toNat_ofNat_mod, and_07]
    omega
  have hsend := run_gxfpSend_view E tid
    { v with g := { v.g with lock := some tid, dataReady := false } } (UInt8.ofNat (cmd0 &&& 0xF)) (UInt8.ofNat (cmd1 &&& 7))
    payload (UInt16.ofNat n) true (by omega) (by omega)
  rw [hn16, h0, h1] at hsend
  simp only [cmdExchange, mutexLock, issue, Prog.perform_bind, Prog.run_ask, Prog.run_bind]
  have hlock : (handleView E tid (.setDataReady false) (handleView E tid .lock v).2).2 =
      { v with g := { v.g with lock := some tid, dataReady := false } } := by
    simp only [handleView, answer, update, clocked, List.append_nil]
  rw [hlock, hsend]
  split
  · exact run_polling E tid _ ((polling_waitDataReady 500).bind fun _ => polling_gxfpRecv.bind fun _ =>
      ⟨trivial, fun _ => trivial⟩)
  · exact run_polling E tid _ ⟨trivial, fun _ => trivial⟩

def cmdSend (cmd0 cmd1 len : Nat) : Option (Buffer 256 × Nat) → DriverM OpResult
  | none => pure { ret := -EINVAL }
  | some (payload, n) => do
      let ret ← cmdExchange cmd0 cmd1 payload n
      pure { ret := if ret ≠ 0 then ret else len }

theorem gxfpCmdWrite_none {text : Bytes} (hlen : text.length ≤ 1024) (hnul : 0 ∉ text)
    (hnum : cmdNumbers (fields (strim text)) = none) : gxfpCmdWrite (UserBuf.text text) = pure { ret := -EINVAL } := by
  have hlen' : ¬ (UserBuf.text text).len > 1024 := Nat.not_lt.mpr hlen
  rw [gxfpCmdWrite, if_neg hlen']
  dsimp only [UserBuf.text]
  rw [cString_eq_self hnul, hnum]

theorem gxfpCmdWrite_some {text : Bytes} (hlen : text.length ≤ 1024) (hnul : 0 ∉ text) {cmd0 cmd1 : Nat}
    {p : List Bytes} (hnum : cmdNumbers (fields (strim text)) = some (cmd0, cmd1, p)) :
    gxfpCmdWrite (UserBuf.text text) = cmdPayload p (Buffer.zeros 256) 0 >>= cmdSend cmd0 cmd1 text.length := by
  have hlen' : ¬ (UserBuf.text text).len > 1024 := Nat.not_lt.mpr hlen
  rw [gxfpCmdWrite, if_neg hlen']
  dsimp only [UserBuf.text]
  rw [cString_eq_self hnul, hnum]
  apply congrArg
  funext parsed
  cases parsed <;> rfl

theorem run_cmd_rejected {text : Bytes} (hlen : text.length ≤ 1024) (hnul : 0 ∉ text)
    (hbad : ∀ cmd0 cmd1 p, cmdNumbers (fields (strim text)) = some (cmd0, cmd1, p) → (values 256 p).2 = false) :
    (gxfpCmdWrite (UserBuf.text text)).run (handleView E tid) v = ({ ret := -EINVAL }, v) := by
  cases hnum : cmdNumbers (fields (strim text)) with
  | none =>
      rw [gxfpCmdWrite_none hlen hnul hnum]
      rfl
  | some numbers =>
      obtain ⟨cmd0, cmd1, p⟩ := numbers
      obtain ⟨r, hrun, hnone, -⟩ := run_cmdPayload E tid v p
      rw [gxfpCmdWrite_some hlen hnul hnum, Prog.run_bind, hrun, hnone (hbad cmd0 cmd1 p hnum)]
      rfl

theorem run_cmd_accepted {text : Bytes} (hlen : text.length ≤ 1024) (hnul : 0 ∉ text) {cmd0 cmd1 : Nat} {p : List Bytes}
    (hnum : cmdNumbers (fields (strim text)) = some (cmd0, cmd1, p)) (hgood : (values 256 p).2 = true) :
    let body := message (cmd0 &&& 0xF) (cmd1 &&& 7) (values 256 p).1 true
    ∃ polled, ((gxfpCmdWrite (UserBuf.text text)).run (handleView E tid) v).2.sent =
      v.sent ++ (framedSend E (spiHeader body.length) body v.env).2.2 ++ polled ∧ Zeros polled := by
  intro body
  obtain ⟨r, hrun, -, hsome⟩ := run_cmdPayload E tid v p
  obtain ⟨payload, n, rfl, hn, hload⟩ := hsome hgood
  have hexchange := run_cmdExchange E tid v cmd0 cmd1 payload hn
  rw [hload] at hexchange
  rw [gxfpCmdWrite_some hlen hnul hnum, Prog.run_bind, hrun, cmdSend, Prog.run_bind]
  exact hexchange

end Run

/-! ### What is transmitted of a text -/

/-- A write of the text is rejected before any transfer, or all its tokens are numbers and what goes on the wire, as far as the bus lets it, is the frame of the low bytes of all tokens after the first two. -/
def TransmitsAll (text : Bytes) : Prop :=
  ∀ (ε : Type) (E : Env ε) (P : Setup) (w : World ε),
    let out := runOp E P (.cmdWrite (UserBuf.text text)) w
    (out.1.ret = -EINVAL ∧ sent out.2.log = sent w.log) ∨
      ∃ cmd0 cmd1 p ps, cmdNumbers (fields (strim text)) = some (cmd0, cmd1, p) ∧ lowBytes p = some ps ∧
        let body := message (cmd0 &&& 0xF) (cmd1 &&& 7) ps true
        ∃ polled, sent out.2.log = sent w.log ++ (framedSend E (spiHeader body.length) body w.env).2.2 ++ polled ∧
          Zeros polled

/-- If a text starts with two numbers and no bad token is among the 256 after these, then no token follows these 256. -/
def NothingLeft (text : Bytes) : Prop :=
  ∀ cmd0 cmd1 p, cmdNumbers (fields (strim text)) = some (cmd0, cmd1, p) →
    (∀ tok ∈ (tokens p).take 256, lowByte tok ≠ none) → (tokens p).length ≤ 256

theorem transmitsAll_of_nothingLeft {text : Bytes} (hlen : text.length ≤ 1024) (hnul : 0 ∉ text)
    (hfits : NothingLeft text) : TransmitsAll text := by
  intro ε E P w out
  have hview := run_handleView E 0 (gxfpCmdWrite (UserBuf.text text)) w
  by_cases hbad : ∀ cmd0 cmd1 p, cmdNumbers (fields (strim text)) = some (cmd0, cmd1, p) → (values 256 p).2 = false
  · rw [run_cmd_rejected E 0 w.view hlen hnul hbad] at hview
    left
    exact ⟨(congrArg (fun r => r.1.ret) hview).symm, (congrArg (fun r => r.2.sent) hview).symm⟩
  · simp only [not_forall, Bool.not_eq_false] at hbad
    obtain ⟨cmd0, cmd1, p, hnum, hgood⟩ := hbad
    obtain ⟨polled, hsent, hzeros⟩ := run_cmd_accepted E 0 w.view hlen hnul hnum hgood
    rw [hview] at hsent
    right
    exact ⟨cmd0, cmd1, p, _, hnum, lowBytes_of_values hgood (hfits cmd0 cmd1 p hnum (values_good_iff.mp hgood)), polled, hsent, hzeros⟩

theorem framedSend_idle (hdr body : Bytes) : (framedSend Env.idle hdr body ()).2.2 = [hdr, body] := rfl

/-- A text with more tokens than the payload array holds is sent in part. -/
theorem nothingLeft_of_transmitsAll {text : Bytes} (hlen : text.length ≤ 1024) (hnul : 0 ∉ text)
    (hall : TransmitsAll text) : NothingLeft text := by
  intro cmd0 cmd1 p hnum hnumbers
  by_contra hmore
  have hgood : (values 256 p).2 = true := values_good_iff.mpr hnumbers
  have hview := run_handleView Env.idle 0 (gxfpCmdWrite (UserBuf.text text)) (probed ())
  obtain ⟨polled, hsent, -⟩ := run_cmd_accepted Env.idle 0 (World.view (probed ())) hlen hnul hnum hgood
  rw [hview] at hsent
  rcases hall Unit Env.idle {} (probed ()) with ⟨-, hnothing⟩ | ⟨cmd0', cmd1', p', ps, hnum', hps, polled', hsent', -⟩
  · have heq := hsent.symm.trans hnothing
    rw [framedSend_idle] at heq
    exact absurd heq (by simp [World.view, probed, sent])
  · obtain ⟨rfl, rfl, rfl⟩ : cmd0 = cmd0' ∧ cmd1 = cmd1' ∧ p = p' := by
      simpa using hnum.symm.trans hnum'
    have heq := hsent.symm.trans hsent'
    rw [framedSend_idle, framedSend_idle] at heq
    have hbodies : message (cmd0 &&& 0xF) (cmd1 &&& 7) (values 256 p).1 true = message (cmd0 &&& 0xF) (cmd1 &&& 7) ps true := by
      simp only [World.view, probed, sent, List.filterMap_nil, List.reverse_nil, List.nil_append, List.cons_append,
        List.cons.injEq] at heq
      exact heq.2.1
    have hlengths := congrArg List.length hbodies
    rw [message_eq_frame, message_eq_frame, frame_length, frame_length, lowBytes_length hps,
      values_full hgood (by omega)] at hlengths
    omega

theorem transmitsAll_iff {text : Bytes} (hlen : text.length ≤ 1024) (hnul : 0 ∉ text) :
    TransmitsAll text ↔ NothingLeft text :=
  ⟨nothingLeft_of_transmitsAll hlen hnul, transmitsAll_of_nothingLeft hlen hnul⟩

theorem transmitsAll_short : TransmitsAll [48, 32, 48, 32, 49] :=
  (transmitsAll_iff (by decide) (by decide)).mpr fun cmd0 cmd1 p hnum _ => by
    have hfields : cmdNumbers (fields (strim [48, 32, 48, 32, 49])) = some (0, 0, [[49]]) := by decide
    obtain ⟨rfl, rfl, rfl⟩ : 0 = cmd0 ∧ 0 = cmd1 ∧ [[49]] = p := by
      simpa using hfields.symm.trans hnum
    decide

def manyOnes : Bytes := [48, 32, 48] ++ (List.replicate 257 [32, 49]).flatten

/-- The last of the ones is dropped. -/
theorem manyOnes_not_transmitted : ¬ TransmitsAll manyOnes := by
  intro hall
  have hfields : cmdNumbers (fields (strim manyOnes)) = some (0, 0, List.replicate 257 [49]) := by decide +kernel
  have hleft := nothingLeft_of_transmitsAll (by decide +kernel) (by decide +kernel) hall 0 0 _ hfields
  have hmany : ¬ (tokens (List.replicate 257 [49])).length ≤ 256 := by decide +kernel
  exact hmany (hleft (by decide +kernel))

end GoodixSpi.Kernel
