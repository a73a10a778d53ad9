import GoodixSpi.Proof.Codec

/-!
# A single corrupted byte

Both check sums are sums modulo 256, so replacing one summand or the sum itself breaks them. What the body's check byte lets through is the sentinel: `parse_message` takes a last byte of `0x88` for a frame without a check sum.
-/

namespace GoodixSpi.Tools

open Wire

/-! ### The transport header -/

theorem sum_of_checkHeader {h0 h1 h2 h3 : UInt8} (h : checkHeader [h0, h1, h2, h3] ≠ none) :
    h3.toNat = (h0.toNat + h2.toNat + h1.toNat) % 256 := by
  by_contra hsum
  apply h
  rw [checkHeader]
  split
  · rfl
  · rw [if_pos (by rwa [and_ff])]

theorem checkHeader_set_eq_none {h0 h1 h2 h3 x : UInt8} (hsum : h3.toNat = (h0.toNat + h2.toNat + h1.toNat) % 256)
    {i : Nat} (hi : i < 4) (hx : [h0, h1, h2, h3][i]? ≠ some x) : checkHeader ([h0, h1, h2, h3].set i x) = none := by
  have := h0.toNat_lt
  have := h1.toNat_lt
  have := h2.toNat_lt
  have := x.toNat_lt
  by_contra hsome
  have hcases : i = 0 ∨ i = 1 ∨ i = 2 ∨ i = 3 := by omega
  rcases hcases with rfl | rfl | rfl | rfl <;>
  · have hsum' := sum_of_checkHeader hsome
    exact hx (congrArg some (UInt8.toNat_inj.mp (by omega)))

theorem spiHeader_sum (bodyLen ptype flags : Nat) : ∃ h0 h1 h2 h3 : UInt8, spiHeader bodyLen ptype flags = [h0, h1, h2, h3] ∧
    h3.toNat = (h0.toNat + h2.toNat + h1.toNat) % 256 := by
  refine ⟨_, _, _, _, rfl, ?_⟩
  simp only [and_ff, toNat_ofNat_mod]
  omega

/-! ### The inner message -/

theorem frame_set_payload (c : UInt8) {payload : Bytes} (ck : UInt8) {i : Nat} (x : UInt8) (hi : i < payload.length) :
    (frame c payload ck).set (i + 3) x = frame c (payload.set i x) ck := by
  rw [frame, frame, List.length_set, List.set_cons_succ, List.set_cons_succ, List.set_cons_succ,
    List.set_append_left i x hi]

theorem frame_set_last (c : UInt8) (payload : Bytes) (ck x : UInt8) :
    (frame c payload ck).set (payload.length + 3) x = frame c payload x := by
  rw [frame, frame, List.set_cons_succ, List.set_cons_succ, List.set_cons_succ, List.set_append_right _ _ (Nat.le_refl _),
    Nat.sub_self]
  rfl

theorem frame_getLast? (c : UInt8) (payload : Bytes) (ck : UInt8) : (frame c payload ck).getLast? = some ck := by
  simp [frame, List.getLast?_cons]

theorem checkByte_set_ne {c : UInt8} {payload : Bytes} {i : Nat} {x y : UInt8} (hi : payload[i]? = some y) (hxy : y ≠ x) :
    checkByte c (payload.set i x) ≠ checkByte c payload := by
  intro h
  have hmod := low8_eq_iff.mp h
  have hset := total_set (x := x) hi
  have := x.toNat_lt
  have := y.toNat_lt
  rw [List.length_set] at hmod
  exact hxy (UInt8.toNat_inj.mp (by omega))

/-- A changed byte outside the length field leaves a frame whose check byte is not the formula's. -/
theorem set_frame_eq {c : UInt8} {payload : Bytes} {i : Nat} {x : UInt8}
    (hi : i < (frame c payload (checkByte c payload)).length) (h1 : i ≠ 1) (h2 : i ≠ 2)
    (hx : (frame c payload (checkByte c payload))[i]? ≠ some x) :
    ∃ c' payload' ck', (frame c payload (checkByte c payload)).set i x = frame c' payload' ck' ∧
      payload'.length = payload.length ∧ ck' ≠ checkByte c' payload' := by
  rw [frame_length] at hi
  by_cases hcmd : i = 0
  · subst hcmd
    refine ⟨x, payload, checkByte c payload, rfl, rfl, ?_⟩
    intro heq
    exact hx (congrArg some (checkByte_inj heq))
  · by_cases hlast : i = payload.length + 3
    · subst hlast
      refine ⟨c, payload, x, frame_set_last _ _ _ _, rfl, ?_⟩
      intro heq
      apply hx
      simp [frame, heq]
    · obtain ⟨k, rfl⟩ : ∃ k, i = k + 3 := ⟨i - 3, by omega⟩
      have hk : k < payload.length := by omega
      refine ⟨c, payload.set k x, checkByte c payload, frame_set_payload c _ x hk, List.length_set, ?_⟩
      have hget : (frame c payload (checkByte c payload))[k + 3]? = some payload[k] := by
        simp [frame, List.getElem?_append_left hk, List.getElem?_eq_getElem hk]
      rw [hget] at hx
      exact (checkByte_set_ne (List.getElem?_eq_getElem hk) fun heq => hx (congrArg some heq)).symm

/-- **One corrupted byte is detected, except through the sentinel.** In a header no replaced byte goes unnoticed; in a body with a check sum, one outside the length field goes unnoticed exactly when the body then ends in `0x88`. -/
theorem corruption_detected (cmd0 cmd1 : Nat) (payload : Bytes) (hfits : payload.length ≤ 65534) :
    let body := message cmd0 cmd1 payload true
    (∀ ptype flags i x, i < 4 → (spiHeader body.length ptype flags)[i]? ≠ some x →
      checkHeader ((spiHeader body.length ptype flags).set i x) = none) ∧
    ∀ i x, i < body.length → i ≠ 1 → i ≠ 2 → body[i]? ≠ some x →
      ∃ r, parseMessage (body.set i x) = some r ∧ (r.cksumOk = true ↔ (body.set i x).getLast? = some NO_CHECKSUM) := by
  intro body
  constructor
  · intro ptype flags i x hi hx
    obtain ⟨h0, h1, h2, h3, hheader, hsum⟩ := spiHeader_sum body.length ptype flags
    rw [hheader] at hx ⊢
    exact checkHeader_set_eq_none hsum hi hx
  · intro i x hi h1 h2 hx
    have hbody : body = frame (packCmd cmd0 cmd1) payload (checkByte (packCmd cmd0 cmd1) payload) :=
      message_eq_frame cmd0 cmd1 payload true
    rw [hbody] at hi hx ⊢
    obtain ⟨c, payload', ck, hset, hlen, hck⟩ := set_frame_eq hi h1 h2 hx
    rw [hset, frame_getLast?]
    refine ⟨_, parseMessage_frame c payload' ck (by omega), ?_⟩
    simp [hck]

/-- `GetEvkVersion` with its command byte hit, and with its check byte turned into the sentinel. -/
theorem corruption_detected_evkVersion :
    (∃ r, parseMessage [0xA9, 0x03, 0x00, 0x00, 0x00, 0xFF] = some r ∧ r.cksumOk = false) ∧
      ∃ r, parseMessage [0xA8, 0x03, 0x00, 0x00, 0x00, 0x88] = some r ∧ r.cksumOk = true := by
  have h := (corruption_detected 10 4 [0, 0] (by decide)).2
  obtain ⟨r, hr, hok⟩ := h 0 0xA9 (by decide) (by decide) (by decide) (by decide)
  obtain ⟨s, hs, hok'⟩ := h 5 0x88 (by decide) (by decide) (by decide) (by decide)
  refine ⟨⟨r, hr, ?_⟩, s, hs, hok'.mpr (by decide)⟩
  rw [Bool.eq_false_iff]
  exact mt hok.mp (by decide)

end GoodixSpi.Tools
