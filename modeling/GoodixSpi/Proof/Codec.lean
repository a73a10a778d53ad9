import GoodixSpi.Tools.Gxfp

/-!
# What the frame codec accepts and returns

Both directions go through one shape, `frame c payload ck`: a command byte, the two bytes of `len + 1`, the payload and a check byte. `message` builds such a frame, a byte string the parser accepts and that ends at its check byte is one, and `parseMessage_frame` reads one back. The codec theorems are then facts about the command byte and the check byte alone.
-/

namespace GoodixSpi.Tools

open Wire

/-! ### The transport header -/

private theorem headByte_lt (ptype flags : Nat) : ((ptype <<< 4) &&& 0xF0) ||| (flags &&& 0x0F) < 256 :=
  Nat.or_lt_two_pow (n := 8) (Nat.lt_of_le_of_lt Nat.and_le_right (by decide))
    (Nat.lt_of_le_of_lt Nat.and_le_right (by decide))

private theorem headByte_type (ptype flags : Nat) (htype : ptype < 16) :
    (((ptype <<< 4) &&& 0xF0) ||| (flags &&& 0x0F)) >>> 4 = ptype := by
  have hflags : (flags &&& 0x0F) >>> 4 = 0 := by
    rw [and_0f, Nat.shiftRight_eq_div_pow]
    omega
  rw [Nat.shiftRight_or_distrib, hflags, Nat.shiftRight_and_distrib, Nat.shiftLeft_shiftRight]
  change ptype &&& 15 ||| 0 = ptype
  rw [Nat.or_zero, and_0f, Nat.mod_eq_of_lt htype]

theorem checkHeader_spiHeader (bodyLen ptype flags : Nat) (htype : ptype = PKT_MSG ∨ ptype = PKT_TLS) :
    checkHeader (spiHeader bodyLen ptype flags) = some (bodyLen % 65536) := by
  have hlt : ptype < 16 := by
    rcases htype with rfl | rfl <;> decide
  have hhead := headByte_lt ptype flags
  have hnibble := headByte_type ptype flags hlt
  simp only [spiHeader, checkHeader]
  generalize ((ptype <<< 4) &&& 0xF0) ||| (flags &&& 0x0F) = h0 at hhead hnibble ⊢
  simp only [and_ff, shiftRight_8, toNat_ofNat_mod, Nat.mod_eq_of_lt hhead, hnibble, Nat.mod_mod]
  rw [if_neg (not_not.mpr htype), if_neg (not_not.mpr rfl)]
  rw [show bodyLen % 256 = (UInt8.ofNat (bodyLen % 256)).toNat by simp,
    show bodyLen / 256 % 256 = (UInt8.ofNat (bodyLen / 256 % 256)).toNat by simp,
    or_shiftLeft_8, le16_split]

/-! ### The inner message -/

/-- A command byte, the length field, the payload and a check byte. -/
def frame (c : UInt8) (payload : Bytes) (ck : UInt8) : Bytes :=
  c :: UInt8.ofNat ((payload.length + 1) % 256) :: UInt8.ofNat ((payload.length + 1) / 256 % 256) ::
    (payload ++ [ck])

theorem frame_length (c : UInt8) (payload : Bytes) (ck : UInt8) :
    (frame c payload ck).length = payload.length + 4 := by
  simp [frame]

def packCmd (cmd0 cmd1 : Nat) : UInt8 := UInt8.ofNat (((cmd0 <<< 4) ||| (cmd1 <<< 1)) &&& 0xFF)

/-- The length field of a frame, `L` in the protocol notes. -/
def innerLen (b : Bytes) : Nat := le16 (b.getD 1 0) (b.getD 2 0)

/-- The check byte the formula asks for: `0xAA` minus the command, the length bytes and the payload. -/
def formulaByte (b : Bytes) : UInt8 :=
  low8 (0xAA - ((b.getD 0 0).toNat + (b.getD 1 0).toNat + (b.getD 2 0).toNat
    + total (slice b 3 (2 + innerLen b)) : Nat))

def checkByte (c : UInt8) (payload : Bytes) : UInt8 :=
  low8 (0xAA - (c.toNat + (payload.length + 1) % 256 + (payload.length + 1) / 256 % 256 + total payload : Nat))

theorem message_eq_frame (cmd0 cmd1 : Nat) (payload : Bytes) (checksum : Bool) :
    message cmd0 cmd1 payload checksum = frame (packCmd cmd0 cmd1) payload
      (if checksum then checkByte (packCmd cmd0 cmd1) payload else NO_CHECKSUM) := by
  simp only [message, frame, checkByte, packCmd, and_ff, shiftRight_8, toNat_ofNat_mod, Nat.mod_mod]
  cases checksum with
  | false => rfl
  | true =>
      simp only [if_true, List.cons_append, List.nil_append, List.cons.injEq, List.append_cancel_left_eq,
        and_true, true_and]
      exact low8_congr (by omega)

/-- The parser in terms of the length field, for every string long enough to be looked at. A zero field makes `2 + innerLen b` the index of the field's own high byte. -/
theorem parseMessage_eq (b : Bytes) (hlen : 4 ≤ b.length) :
    parseMessage b = some
      { cmd := b.getD 0 0
        cmd0 := (b.getD 0 0).toNat >>> 4
        cmd1 := ((b.getD 0 0).toNat >>> 1) &&& 7
        name := cmd0Name ((b.getD 0 0).toNat >>> 4)
        len := (innerLen b : Int) - 1
        payload := slice b 3 (2 + innerLen b)
        cksum := b[2 + innerLen b]?
        cksumOk := b[2 + innerLen b]? = some NO_CHECKSUM ∨ b[2 + innerLen b]? = some (formulaByte b) } := by
  obtain ⟨cmd, b1, b2, b3, rest, rfl⟩ : ∃ cmd b1 b2 b3 rest, b = cmd :: b1 :: b2 :: b3 :: rest := by
    match b, hlen with
    | cmd :: b1 :: b2 :: b3 :: rest, _ => exact ⟨cmd, b1, b2, b3, rest, rfl⟩
  have hstop : (3 + ((le16 b1 b2 : Int) - 1)).toNat = 2 + le16 b1 b2 := by omega
  have hmask (n : Nat) : low8 (0xAA - ((n % 256 : Nat) : Int)) = low8 (0xAA - (n : Int)) :=
    low8_congr (by omega)
  simp only [parseMessage, or_shiftLeft_8, hstop, and_ff, hmask, innerLen, formulaByte, List.getD_cons_zero,
    List.getD_cons_succ]

theorem innerLen_frame (c : UInt8) (payload : Bytes) (ck : UInt8) :
    innerLen (frame c payload ck) = (payload.length + 1) % 65536 := by
  simp only [innerLen, frame, List.getD_cons_zero, List.getD_cons_succ, le16_split]

theorem slice_frame (c : UInt8) (payload : Bytes) (ck : UInt8) :
    slice (frame c payload ck) 3 (payload.length + 3) = payload := by
  simp [slice, frame]

theorem formulaByte_frame (c : UInt8) (payload : Bytes) (ck : UInt8) (hfits : payload.length ≤ 65534) :
    formulaByte (frame c payload ck) = checkByte c payload := by
  have hstop : 2 + innerLen (frame c payload ck) = payload.length + 3 := by
    rw [innerLen_frame, Nat.mod_eq_of_lt (by omega)]
    omega
  rw [formulaByte, hstop, slice_frame]
  simp [frame, checkByte]

theorem parseMessage_frame (c : UInt8) (payload : Bytes) (ck : UInt8) (hfits : payload.length ≤ 65534) :
    parseMessage (frame c payload ck) = some
      { cmd := c
        cmd0 := c.toNat >>> 4
        cmd1 := (c.toNat >>> 1) &&& 7
        name := cmd0Name (c.toNat >>> 4)
        len := payload.length
        payload := payload
        cksum := some ck
        cksumOk := ck = NO_CHECKSUM ∨ ck = checkByte c payload } := by
  have hstop : 2 + innerLen (frame c payload ck) = payload.length + 3 := by
    rw [innerLen_frame, Nat.mod_eq_of_lt (by omega)]
    omega
  have hck : (frame c payload ck)[payload.length + 3]? = some ck := by
    simp [frame]
  have hn : ((payload.length + 1) % 65536 : Nat) - (1 : Int) = payload.length := by omega
  rw [parseMessage_eq _ (by rw [frame_length]; omega), hstop, slice_frame, hck, innerLen_frame, hn,
    formulaByte_frame _ _ _ hfits]
  simp only [Option.some.injEq]
  rfl

theorem packCmd_toNat {cmd0 cmd1 : Nat} (hcmd0 : cmd0 < 16) (hcmd1 : cmd1 < 8) :
    (packCmd cmd0 cmd1).toNat = 16 * cmd0 + 2 * cmd1 := by
  have hlow : cmd1 <<< 1 < 2 ^ 4 := by
    rw [Nat.shiftLeft_eq]
    omega
  rw [packCmd, toNat_ofNat_mod, and_ff, shiftLeft_or cmd0 hlow, Nat.shiftLeft_eq]
  omega

/-- **Decoding undoes encoding**, and exactly up to the two length fields' wraps: the transport header's at four bytes more than the payload, the inner message's at one byte more. -/
theorem codec_roundtrip (cmd0 cmd1 ptype flags : Nat) (checksum : Bool) (payload : Bytes)
    (hcmd0 : cmd0 < 16) (hcmd1 : cmd1 < 8) (htype : ptype = PKT_MSG ∨ ptype = PKT_TLS) :
    (checkHeader (spiHeader (message cmd0 cmd1 payload checksum).length ptype flags)
        = some (message cmd0 cmd1 payload checksum).length ↔ payload.length ≤ 65531) ∧
    ((∃ r, parseMessage (message cmd0 cmd1 payload checksum) = some r ∧ r.cmd0 = cmd0 ∧ r.cmd1 = cmd1 ∧
        r.len = payload.length ∧ r.payload = payload) ↔ payload.length ≤ 65534) ∧
    (payload.length ≤ 65534 →
      ∃ r, parseMessage (message cmd0 cmd1 payload checksum) = some r ∧ r.cksumOk = true) := by
  rw [message_eq_frame]
  generalize hck : (if checksum then checkByte (packCmd cmd0 cmd1) payload else NO_CHECKSUM) = ck
  have hcmd := packCmd_toNat hcmd0 hcmd1
  refine ⟨?_, ⟨?_, ?_⟩, ?_⟩
  · rw [checkHeader_spiHeader _ _ _ htype, frame_length, Option.some.injEq]
    omega
  · rintro ⟨r, hparse, -, -, hlen, -⟩
    rw [parseMessage_eq _ (by rw [frame_length]; omega), innerLen_frame] at hparse
    have hfield := congrArg Parsed.len (Option.some.inj hparse)
    rw [hlen] at hfield
    dsimp only at hfield
    omega
  · intro hfits
    refine ⟨_, parseMessage_frame _ _ _ hfits, ?_, ?_, rfl, rfl⟩
    · change (packCmd cmd0 cmd1).toNat >>> 4 = cmd0
      rw [hcmd, Nat.shiftRight_eq_div_pow]
      omega
    · change ((packCmd cmd0 cmd1).toNat >>> 1) &&& 7 = cmd1
      rw [hcmd, and_07, Nat.shiftRight_eq_div_pow]
      omega
  · intro hfits
    refine ⟨_, parseMessage_frame _ _ _ hfits, ?_⟩
    simp only [decide_eq_true_eq, ← hck]
    cases checksum with
    | false => exact Or.inl rfl
    | true => exact Or.inr rfl

theorem codec_roundtrip_evkVersion :
    (10 < 16 ∧ 4 < 8 ∧ (0xA = PKT_MSG ∨ 0xA = PKT_TLS)) ∧
      (checkHeader (spiHeader (message 10 4 [0, 0] true).length 0xA 0) = some (message 10 4 [0, 0] true).length ↔
        [0, 0].length ≤ 65531) :=
  ⟨by decide, (codec_roundtrip 10 4 0xA 0 true [0, 0] (by decide) (by decide) (by decide)).1⟩

/-! ### What the parser accepts -/

/-- The inner-message grammar: the length field counts the payload and its check byte, so it is at least one, the string holds that many bytes after it, and the last of them is the sentinel or the formula's value. -/
structure Conforms (b : Bytes) : Prop where
  positive : 1 ≤ innerLen b
  fits : 3 + innerLen b ≤ b.length
  check : b.getD (2 + innerLen b) 0 = NO_CHECKSUM ∨ b.getD (2 + innerLen b) 0 = formulaByte b

def ChecksumOk (b : Bytes) : Prop := ∃ r, parseMessage b = some r ∧ r.cksumOk = true

/-- The parser accepts exactly the grammar, and then reports the payload's length. -/
def ParsesGrammar (b : Bytes) : Prop :=
  (ChecksumOk b ↔ Conforms b) ∧
    ∀ r, parseMessage b = some r → r.cksumOk = true → r.len = r.payload.length

theorem checksumOk_iff (b : Bytes) (hlen : 4 ≤ b.length) :
    ChecksumOk b ↔ b[2 + innerLen b]? = some NO_CHECKSUM ∨ b[2 + innerLen b]? = some (formulaByte b) := by
  simp only [ChecksumOk, parseMessage_eq b hlen, Option.some.injEq, exists_eq_left', decide_eq_true_eq]

theorem checksumOk_iff_conforms (b : Bytes) (hlen : 4 ≤ b.length) (hpos : 1 ≤ innerLen b) :
    ChecksumOk b ↔ Conforms b := by
  rw [checksumOk_iff b hlen]
  by_cases hfits : 3 + innerLen b ≤ b.length
  · have hlt : 2 + innerLen b < b.length := by omega
    have hget : b[2 + innerLen b]? = some (b.getD (2 + innerLen b) 0) := by
      rw [List.getElem?_eq_getElem hlt, List.getD_eq_getElem _ _ hlt]
    rw [hget, Option.some.injEq, Option.some.injEq]
    exact ⟨fun h => ⟨hpos, hfits, h⟩, Conforms.check⟩
  · have hnone : b[2 + innerLen b]? = none := List.getElem?_eq_none (by omega)
    rw [hnone]
    refine ⟨fun h => ?_, fun h => absurd h.fits hfits⟩
    simp at h

theorem parsed_len_of_conforms {b : Bytes} {r : Parsed} (hlen : 4 ≤ b.length) (hb : Conforms b)
    (hparse : parseMessage b = some r) : r.len = r.payload.length := by
  rw [parseMessage_eq b hlen] at hparse
  cases hparse
  have := hb.positive
  have := hb.fits
  simp only [slice_length]
  omega

/-- The one string shape outside the grammar that the parser lets through: with a zero length field the field's own high byte is taken for the check byte, and `0` is the formula's value for the command `0xAA`. -/
theorem checksumOk_of_zero_len (b : Bytes) (hlen : 4 ≤ b.length) (hzero : innerLen b = 0) :
    ChecksumOk b ↔ b.getD 0 0 = 0xAA := by
  have hfields : b.getD 1 0 = 0 ∧ b.getD 2 0 = 0 := le16_inj hzero
  have hget : b[2]? = some 0 := by
    rw [List.getElem?_eq_getElem (by omega), ← List.getD_eq_getElem _ 0 (by omega), hfields.2]
  have hformula : formulaByte b = low8 (0xAA - ((b.getD 0 0).toNat : Int)) := by
    rw [formulaByte, hfields.1, hfields.2, hzero, slice_eq_nil b (by omega)]
    simp
  rw [checksumOk_iff b hlen, hzero, hget, hformula, Option.some.injEq, Option.some.injEq,
    or_iff_right (by decide), zero_eq_low8_iff, ← UInt8.toNat_inj]
  have := (b.getD 0 0).toNat_lt
  change _ ↔ _ = 170
  omega

/-- **The parser accepts exactly the inner-message grammar**, except on the strings that begin `aa 00 00`: those carry a zero length field, and the parser accepts them with a reported length of `-1`. -/
theorem parsesGrammar_iff (b : Bytes) (hlen : 4 ≤ b.length) :
    ParsesGrammar b ↔ ¬ (b.getD 0 0 = 0xAA ∧ b.getD 1 0 = 0 ∧ b.getD 2 0 = 0) := by
  have hzero : innerLen b = 0 ↔ b.getD 1 0 = 0 ∧ b.getD 2 0 = 0 :=
    ⟨fun h => le16_inj h, fun h => by rw [innerLen, h.1, h.2]; rfl⟩
  rw [← hzero]
  constructor
  · rintro ⟨haccept, -⟩ ⟨hcmd, hlen0⟩
    have := (haccept.mp ((checksumOk_of_zero_len b hlen hlen0).mpr hcmd)).positive
    omega
  · intro hnot
    have haccept : ChecksumOk b ↔ Conforms b := by
      rcases Nat.eq_zero_or_pos (innerLen b) with hlen0 | hpos
      · refine ⟨fun h => absurd ⟨(checksumOk_of_zero_len b hlen hlen0).mp h, hlen0⟩ hnot, fun h => ?_⟩
        have := h.positive
        omega
      · exact checksumOk_iff_conforms b hlen hpos
    exact ⟨haccept, fun r hparse hok => parsed_len_of_conforms hlen (haccept.mp ⟨r, hparse, hok⟩) hparse⟩

theorem parsesGrammar_iff_evkVersion :
    4 ≤ [0xA8, 0x03, 0x00, 0x00, 0x00, 0xFF].length ∧
      (ParsesGrammar [0xA8, 0x03, 0x00, 0x00, 0x00, 0xFF] ↔ ¬ ((0xA8 : UInt8) = 0xAA ∧ (0x03 : UInt8) = 0 ∧ (0 : UInt8) = 0)) :=
  ⟨by decide, parsesGrammar_iff [0xA8, 0x03, 0x00, 0x00, 0x00, 0xFF] (by decide)⟩

/-- `aa 00 00 00` is reported as a correct message of length `-1`. -/
theorem zero_length_frame_accepted :
    ChecksumOk [0xAA, 0, 0, 0] ∧ ¬ Conforms [0xAA, 0, 0, 0] ∧
      ∃ r, parseMessage [0xAA, 0, 0, 0] = some r ∧ r.len = -1 ∧ r.payload = [] :=
  ⟨⟨_, rfl, rfl⟩, fun h => absurd h.positive (by decide), _, rfl, by decide, by decide⟩

/-! ### Encoding what was parsed

`cmd0` and `cmd1` are the command byte's upper seven bits, so the projection forgets bit 0 and nothing else.
-/

structure Accepts (b : Bytes) (r : Parsed) : Prop where
  parsed : parseMessage b = some r
  ok : r.cksumOk = true
  positive : 1 ≤ innerLen b
  whole : b.length = 3 + innerLen b

/-- The frame `message` builds from the parsed fields, in the checksum mode the parsed check byte shows. -/
def rebuild (r : Parsed) : Bytes := message r.cmd0 r.cmd1 r.payload (r.cksum ≠ some NO_CHECKSUM)

/-- Two parses agree on the command numbers, the payload and the check byte. -/
def SameFields (r s : Parsed) : Prop :=
  r.cmd0 = s.cmd0 ∧ r.cmd1 = s.cmd1 ∧ r.payload = s.payload ∧ r.cksum = s.cksum

theorem packCmd_unpack (c : UInt8) :
    packCmd (c.toNat >>> 4) ((c.toNat >>> 1) &&& 7) = UInt8.ofNat (2 * (c.toNat / 2)) := by
  have := c.toNat_lt
  have hlow : ((c.toNat >>> 1) &&& 7) <<< 1 < 2 ^ 4 := by
    rw [and_07, Nat.shiftLeft_eq]
    omega
  rw [packCmd, shiftLeft_or _ hlow, and_07, and_ff, Nat.shiftLeft_eq, Nat.shiftRight_eq_div_pow,
    Nat.shiftRight_eq_div_pow]
  exact ofNat_congr (by omega)

theorem half_eq_of_unpack_eq {c d : UInt8} (hcmd0 : c.toNat >>> 4 = d.toNat >>> 4)
    (hcmd1 : (c.toNat >>> 1) &&& 7 = (d.toNat >>> 1) &&& 7) : c.toNat / 2 = d.toNat / 2 := by
  rw [Nat.shiftRight_eq_div_pow, Nat.shiftRight_eq_div_pow] at hcmd0
  rw [and_07, and_07, Nat.shiftRight_eq_div_pow, Nat.shiftRight_eq_div_pow] at hcmd1
  omega

theorem checkByte_inj {c d : UInt8} {payload : Bytes} (h : checkByte c payload = checkByte d payload) : c = d := by
  have hmod := low8_eq_iff.mp h
  have := c.toNat_lt
  have := d.toNat_lt
  exact UInt8.toNat_inj.mp (by omega)

theorem Accepts.exists_frame {b : Bytes} {r : Parsed} (h : Accepts b r) :
    ∃ c payload ck, b = frame c payload ck ∧ payload.length ≤ 65534 ∧
      (ck = NO_CHECKSUM ∨ ck = checkByte c payload) ∧ r.cmd0 = c.toNat >>> 4 ∧
      r.cmd1 = (c.toNat >>> 1) &&& 7 ∧ r.payload = payload ∧ r.cksum = some ck := by
  obtain ⟨hparsed, hok, hpos, hwhole⟩ := h
  have hlt := le16_lt (b.getD 1 0) (b.getD 2 0)
  obtain ⟨c, b1, b2, rest, rfl⟩ : ∃ c b1 b2 rest, b = c :: b1 :: b2 :: rest := by
    match b, hwhole with
    | c :: b1 :: b2 :: rest, _ => exact ⟨c, b1, b2, rest, rfl⟩
  change 1 ≤ le16 b1 b2 at hpos
  change le16 b1 b2 < 65536 at hlt
  have hrest : rest.length = le16 b1 b2 := by
    change rest.length + 3 = 3 + le16 b1 b2 at hwhole
    omega
  obtain ⟨payload, ck, rfl⟩ : ∃ payload ck, rest = payload ++ [ck] := by
    have hne : rest ≠ [] := List.ne_nil_of_length_pos (by omega)
    exact ⟨rest.dropLast, rest.getLast hne, (List.dropLast_concat_getLast hne).symm⟩
  have hsize : payload.length + 1 = le16 b1 b2 := by simpa using hrest
  have hfield : b1 = UInt8.ofNat ((payload.length + 1) % 256) ∧ b2 = UInt8.ofNat ((payload.length + 1) / 256 % 256) :=
    le16_inj (by rw [le16_split, hsize, Nat.mod_eq_of_lt hlt])
  have hframe : c :: b1 :: b2 :: (payload ++ [ck]) = frame c payload ck := by
    rw [frame, ← hfield.1, ← hfield.2]
  have hfits : payload.length ≤ 65534 := by omega
  rw [hframe, parseMessage_frame _ _ _ hfits] at hparsed
  cases hparsed
  exact ⟨c, payload, ck, hframe, hfits, of_decide_eq_true hok, rfl, rfl, rfl, rfl⟩

theorem frame_inj_cmd {c d : UInt8} {payload : Bytes} {ck ck' : UInt8} (h : frame c payload ck = frame d payload ck') :
    c = d ∧ ck = ck' := by
  simp only [frame, List.cons.injEq, List.append_cancel_left_eq, and_true, true_and] at h
  exact h

/-- **Encoding undoes decoding on every bit but one.** Rebuilding an accepted frame yields it again exactly when bit 0 of its command byte is clear, and two different accepted frames with the same parsed fields carry the sentinel and differ in that bit alone. -/
theorem rebuild_accepted {b : Bytes} {r : Parsed} (h : Accepts b r) :
    (rebuild r = b ↔ (b.getD 0 0).toNat % 2 = 0) ∧
    ∀ b' r', Accepts b' r' → SameFields r r' → b ≠ b' →
      r.cksum = some NO_CHECKSUM ∧ b.drop 1 = b'.drop 1 ∧ (b.getD 0 0).toNat / 2 = (b'.getD 0 0).toNat / 2 := by
  obtain ⟨c, payload, ck, rfl, hfits, hck, hcmd0, hcmd1, hpayload, hcksum⟩ := h.exists_frame
  change (rebuild r = _ ↔ c.toNat % 2 = 0) ∧ _
  constructor
  · rw [rebuild, hcmd0, hcmd1, hpayload, hcksum, message_eq_frame, packCmd_unpack]
    have := c.toNat_lt
    constructor
    · intro heq
      have hc := ofNat_eq_iff.mp (frame_inj_cmd heq).1
      omega
    · intro heven
      have hc : UInt8.ofNat (2 * (c.toNat / 2)) = c := ofNat_eq_iff.mpr (by omega)
      rw [hc]
      by_cases hsentinel : ck = NO_CHECKSUM
      · simp [hsentinel]
      · simp [hsentinel, ← hck.resolve_left hsentinel]
  · rintro b' r' h' ⟨hsame0, hsame1, hsameP, hsameC⟩ hne
    obtain ⟨d, payload', ck', rfl, -, hck', hcmd0', hcmd1', hpayload', hcksum'⟩ := h'.exists_frame
    obtain rfl : payload = payload' := by rw [← hpayload, hsameP, hpayload']
    obtain rfl : ck = ck' := Option.some.inj (by rw [← hcksum, hsameC, hcksum'])
    have hhalf : c.toNat / 2 = d.toNat / 2 :=
      half_eq_of_unpack_eq (by rw [← hcmd0, hsame0, hcmd0']) (by rw [← hcmd1, hsame1, hcmd1'])
    refine ⟨?_, rfl, hhalf⟩
    by_contra hsentinel
    have hne' : ck ≠ NO_CHECKSUM := fun he => hsentinel (by rw [hcksum, he])
    have hcd : c = d := checkByte_inj ((hck.resolve_left hne').symm.trans (hck'.resolve_left hne'))
    exact hne (by rw [hcd])

theorem rebuild_accepted_nop :
    ∃ r, Accepts [0x00, 0x05, 0, 0, 0, 0, 0, 0x88] r ∧
      (rebuild r = [0x00, 0x05, 0, 0, 0, 0, 0, 0x88] ↔ (0 : UInt8).toNat % 2 = 0) :=
  have h : Accepts [0x00, 0x05, 0, 0, 0, 0, 0, 0x88] _ := ⟨rfl, by decide, by decide, by decide⟩
  ⟨_, h, (rebuild_accepted h).1⟩

/-- The bring-up sequence's `01 05 00 00 00 00 00 88` is accepted, does not come back, and parses to the same fields as the frame with command byte `00`. -/
theorem rebuild_loses_bit0 :
    ∃ r s, Accepts [0x01, 0x05, 0, 0, 0, 0, 0, 0x88] r ∧ Accepts [0x00, 0x05, 0, 0, 0, 0, 0, 0x88] s ∧
      rebuild r ≠ [0x01, 0x05, 0, 0, 0, 0, 0, 0x88] ∧ SameFields r s :=
  ⟨_, _, ⟨rfl, by decide, by decide, by decide⟩, ⟨rfl, by decide, by decide, by decide⟩, by decide,
    by decide, by decide, by decide, by decide⟩

end GoodixSpi.Tools
