import GoodixSpi.Proof.RawPhases
import GoodixSpi.Proof.RawRead

/-!
# Writing back what `raw` showed

The text `raw` shows is one it accepts: `strim` takes off the last blank and the newline, and the fields in between are the bytes again. The limit comes from the text: `n` bytes take `3n + 1` characters, and `gxfp_raw_write` takes at most 4096.
-/

namespace GoodixSpi.Kernel

open Wire Interaction

/-! ### The text stands for the bytes -/

theorem isBlank_hexDigit : ∀ n < 16, isBlank (hexDigit n) = false := by decide

theorem hexDigit_ne_zero : ∀ n < 16, hexDigit n ≠ 0 := by decide

theorem mem_hex2 {b c : UInt8} (hc : c ∈ hex2 b) : ∃ n < 16, c = hexDigit n := by
  have := b.toNat_lt
  simp only [hex2, List.mem_cons, List.not_mem_nil, or_false] at hc
  rcases hc with rfl | rfl
  · exact ⟨b.toNat / 16, by omega, rfl⟩
  · exact ⟨b.toNat % 16, by omega, rfl⟩

theorem lowByte_hex2 (b : UInt8) : lowByte (hex2 b) = some b := by
  have hall : ∀ n < 256, lowByte (hex2 (UInt8.ofNat n)) = some (UInt8.ofNat n) := by decide +kernel
  have hb := hall b.toNat b.toNat_lt
  rwa [UInt8.ofNat_toNat] at hb

theorem lowBytes_hex2 (bs : Bytes) : lowBytes (bs.map hex2) = some bs := by
  induction bs with
  | nil => rfl
  | cons b bs ih =>
      rw [List.map_cons, lowBytes_cons _ (by simp [hex2]), lowByte_hex2, ih]
      rfl

theorem fields_append_blank {tok : Bytes} (htok : ∀ c ∈ tok, isBlank c = false) (rest : Bytes) :
    fields (tok ++ 32 :: rest) = tok :: fields rest := by
  induction tok with
  | nil => rfl
  | cons c tok ih =>
      have hc : ¬ isBlank c = true := by
        rw [htok c List.mem_cons_self]
        exact Bool.false_ne_true
      rw [List.cons_append, fields, if_neg hc, ih fun d hd => htok d (List.mem_cons_of_mem c hd)]

theorem fields_eq_singleton {tok : Bytes} (htok : ∀ c ∈ tok, isBlank c = false) : fields tok = [tok] := by
  induction tok with
  | nil => rfl
  | cons c tok ih =>
      have hc : ¬ isBlank c = true := by
        rw [htok c List.mem_cons_self]
        exact Bool.false_ne_true
      rw [fields, if_neg hc, ih fun d hd => htok d (List.mem_cons_of_mem c hd)]

theorem isBlank_hex2 (b : UInt8) : ∀ c ∈ hex2 b, isBlank c = false := by
  intro c hc
  obtain ⟨n, hn, rfl⟩ := mem_hex2 hc
  exact isBlank_hexDigit n hn

theorem fields_hexItems (bs : Bytes) (b : UInt8) : fields (bs.flatMap hexItem ++ hex2 b) = (bs ++ [b]).map hex2 := by
  induction bs with
  | nil => exact fields_eq_singleton (isBlank_hex2 b)
  | cons x bs ih =>
      rw [List.flatMap_cons, hexItem, List.append_assoc, List.append_assoc, List.singleton_append,
        fields_append_blank (isBlank_hex2 x), ih]
      rfl

theorem isspace_hex2 (b : UInt8) : isspace (hexDigit (b.toNat / 16)) = false ∧ isspace (hexDigit (b.toNat % 16)) = false := by
  have hlt := b.toNat_lt
  exact ⟨isspace_hexDigit _ (by omega), isspace_hexDigit _ (by omega)⟩

/-- `strim` takes off the blank after the last byte and the newline. -/
theorem strim_hexDump (bs : Bytes) (b : UInt8) : strim (hexDump (bs ++ [b])) = bs.flatMap hexItem ++ hex2 b := by
  have htail : (hexDump (bs ++ [b])).reverse = 10 :: 32 :: (bs.flatMap hexItem ++ hex2 b).reverse := by
    simp [hexDump, hexItem]
  have hlast : (bs.flatMap hexItem ++ hex2 b).reverse.dropWhile isspace = (bs.flatMap hexItem ++ hex2 b).reverse := by
    rw [List.reverse_append, hex2, List.reverse_cons, List.singleton_append.symm, List.append_assoc]
    exact List.dropWhile_cons_of_neg (by simp [isspace_hex2 b])
  have hfirst : (bs.flatMap hexItem ++ hex2 b).dropWhile isspace = bs.flatMap hexItem ++ hex2 b := by
    cases bs with
    | nil => exact List.dropWhile_cons_of_neg (by simp [isspace_hex2 b])
    | cons x bs => exact List.dropWhile_cons_of_neg (by simp [isspace_hex2 x])
  rw [strim, htail, List.dropWhile_cons_of_pos (by decide), List.dropWhile_cons_of_pos (by decide), hlast,
    List.reverse_reverse, hfirst]

theorem not_mem_hexDump (bs : Bytes) : 0 ∉ hexDump bs := by
  intro hzero
  rcases List.mem_append.mp hzero with hitem | hnewline
  · obtain ⟨b, -, hb⟩ := List.mem_flatMap.mp hitem
    rcases List.mem_append.mp hb with hdigit | hblank
    · obtain ⟨n, hn, hdigit⟩ := mem_hex2 hdigit
      exact hexDigit_ne_zero n hn hdigit.symm
    · exact absurd hblank (by decide)
  · exact absurd hnewline (by decide)

theorem hexDump_length (bs : Bytes) : (hexDump bs).length = 3 * bs.length + 1 := by
  rw [hexDump, List.length_append, flatMap_hexItem_length, List.length_singleton]

theorem values_hexDump (bs : Bytes) (hlen : bs.length ≤ GXFP_BUF_MAX) :
    values GXFP_BUF_MAX (fields (strim (cString (hexDump bs)))) = (bs, true) := by
  rw [cString_eq_self (not_mem_hexDump bs)]
  rcases List.eq_nil_or_concat bs with rfl | ⟨front, b, rfl⟩
  · rfl
  · rw [List.concat_eq_append] at hlen ⊢
    rw [strim_hexDump, fields_hexItems, values_of_lowBytes (lowBytes_hex2 _), List.take_of_length_le hlen]

theorem outcome_hexDump (bs : Bytes) (hmax : bs.length ≤ 1365) (hpos : bs ≠ []) :
    (UserBuf.text (hexDump bs)).outcome = .ok bs.length ∧ (UserBuf.text (hexDump bs)).parsed = bs := by
  have hfits : ¬ (UserBuf.text (hexDump bs)).len > 4096 := by
    change ¬ (hexDump bs).length > 4096
    rw [hexDump_length]
    omega
  have hvalues := values_hexDump bs (by rw [GXFP_BUF_MAX]; omega)
  rw [UserBuf.outcome, UserBuf.parsed, if_neg hfits, if_neg hfits]
  dsimp only [UserBuf.text]
  rw [hvalues]
  exact ⟨if_pos ⟨rfl, hpos⟩, rfl⟩

theorem outcome_hexDump_rejected {bs : Bytes} (h : bs = [] ∨ 1365 < bs.length) :
    (UserBuf.text (hexDump bs)).outcome = .error (-EINVAL) := by
  rw [UserBuf.outcome]
  rcases h with rfl | hmax
  · rfl
  · have hlong : (UserBuf.text (hexDump bs)).len > 4096 := by
      change (hexDump bs).length > 4096
      rw [hexDump_length]
      omega
    rw [if_pos hlong]

/-! ### Reading in pieces -/

variable {ε : Type}

/-- Reads of the given sizes, each from where the one before ended, and the bytes they return together. -/
def readAll (E : Env ε) (P : Setup) : List Nat → Nat → World ε → Bytes × World ε
  | [], _, w => ([], w)
  | len :: lens, off, w =>
      let first := runOp E P (.rawRead len off) w
      let rest := readAll E P lens (off + first.1.out.length) first.2
      (first.1.out ++ rest.1, rest.2)

theorem take_append_take {α : Type} (l : List α) (j k : Nat) :
    l.take j ++ (l.drop (l.take j).length).take k = l.take ((l.take j).length + k) := by
  have htake : l.take j = l.take (l.take j).length := by
    rw [List.length_take]
    by_cases hj : j ≤ l.length
    · rw [Nat.min_eq_left hj]
    · rw [Nat.min_eq_right (by omega), List.take_of_length_le (by omega), List.take_length]
  rw [List.take_add, ← htake]

/-- A read returns a piece of the text, an empty one if there is no memory. -/
theorem runOp_rawRead_out (E : Env ε) (P : Setup) (w : World ε) (len off : Nat) (hlen : w.g.rxlen ≤ GXFP_BUF_MAX) :
    ∃ j, (runOp E P (.rawRead len off) w).1.out = ((hexDump (w.g.rxbuf.load 0 w.g.rxlen)).drop off).take j := by
  obtain ⟨⟨-, hread⟩ | hread, -⟩ := runOp_rawRead E P w len off hlen
  · exact ⟨0, by rw [hread, List.take_zero]⟩
  · refine ⟨len, ?_⟩
    rw [hread, slice, List.drop_take, Nat.add_sub_cancel_left]

/-- However the text is read, and even if some reads find no memory, what was read so far is a prefix of it. -/
theorem readAll_eq (E : Env ε) (P : Setup) (lens : List Nat) (off : Nat) (w : World ε) (hlen : w.g.rxlen ≤ GXFP_BUF_MAX) :
    ∃ k, (readAll E P lens off w).1 = ((hexDump (w.g.rxbuf.load 0 w.g.rxlen)).drop off).take k := by
  induction lens generalizing off w with
  | nil => exact ⟨0, rfl⟩
  | cons len lens ih =>
      obtain ⟨j, hfirst⟩ := runOp_rawRead_out E P w len off hlen
      obtain ⟨-, hbuf, hkept⟩ := runOp_rawRead E P w len off hlen
      obtain ⟨k, hrest⟩ := ih (off + (runOp E P (.rawRead len off) w).1.out.length) (runOp E P (.rawRead len off) w).2
        (hkept ▸ hlen)
      rw [hbuf, hkept, hfirst, ← List.drop_drop] at hrest
      rw [readAll, hfirst, hrest]
      exact ⟨_, take_append_take ((hexDump (w.g.rxbuf.load 0 w.g.rxlen)).drop off) j k⟩

/-- **The text of `raw`, written back to it.** Whatever `n` bytes were received, and however their text was read, if all of it was: for `n` from 1 to 1365 the write sends exactly those bytes, and otherwise it returns `-EINVAL` and sends nothing. -/
theorem rawWrite_readAll (E : Env ε) (P : Setup) (w : World ε) (lens : List Nat) (hlen : w.g.rxlen ≤ GXFP_BUF_MAX)
    (hwhole : (readAll E P lens 0 w).1.length = 3 * w.g.rxlen + 1) :
    let bytes := w.g.rxbuf.load 0 w.g.rxlen
    let text := (readAll E P lens 0 w).1
    let w' := (readAll E P lens 0 w).2
    let out := runOp E P (.rawWrite (.text text)) w'
    let ret := (E.xfer (rawXfer w.g.rxlen) bytes w'.env).1.ret
    if 1 ≤ w.g.rxlen ∧ w.g.rxlen ≤ 1365 then
      out.1.ret = (if ret ≠ 0 then ret else text.length) ∧ sent out.2.log = sent w'.log ++ [bytes]
    else out.1.ret = -EINVAL ∧ sent out.2.log = sent w'.log := by
  intro bytes text w' out ret
  have hbytes : bytes.length = w.g.rxlen := Buffer.load_length (by omega)
  have htext : text = hexDump bytes := by
    obtain ⟨k, hread⟩ := readAll_eq E P lens 0 w hlen
    rw [List.drop_zero] at hread
    have hall : (hexDump bytes).length ≤ k := by
      have hshort := congrArg List.length hread
      rw [hwhole, List.length_take, hexDump_length, hbytes] at hshort
      rw [hexDump_length, hbytes]
      omega
    exact hread.trans (List.take_of_length_le hall)
  have hwrite := runOp_rawWrite E P (.text text) w'
  by_cases hn : 1 ≤ w.g.rxlen ∧ w.g.rxlen ≤ 1365
  · have hne : bytes ≠ [] := by
      intro hnil
      rw [hnil, List.length_nil] at hbytes
      omega
    obtain ⟨houtcome, hparsed⟩ := outcome_hexDump bytes (by omega) hne
    rw [← htext] at houtcome hparsed
    rw [houtcome, hparsed, hbytes] at hwrite
    rw [if_pos hn]
    exact hwrite
  · have hbad : bytes = [] ∨ 1365 < bytes.length := by
      by_cases hzero : w.g.rxlen = 0
      · left
        exact List.eq_nil_of_length_eq_zero (hbytes.trans hzero)
      · right
        omega
    have houtcome := outcome_hexDump_rejected hbad
    rw [← htext] at houtcome
    rw [houtcome] at hwrite
    rw [if_neg hn]
    exact hwrite

def receivedDead : World Unit :=
  { probed () with g := { (probed ()).g with rxbuf := (Buffer.zeros _).store 0 [0xDE, 0xAD], rxlen := 2 } }

/-- Read in pieces of three characters and of the rest, and written back. -/
theorem rawWrite_readAll_dead :
    receivedDead.g.rxlen ≤ GXFP_BUF_MAX ∧
      (readAll Env.idle {} [3, 100] 0 receivedDead).1.length = 3 * receivedDead.g.rxlen + 1 ∧
      sent (runOp Env.idle {} (.rawWrite (.text (readAll Env.idle {} [3, 100] 0 receivedDead).1))
        (readAll Env.idle {} [3, 100] 0 receivedDead).2).2.log = [[0xDE, 0xAD]] := by
  have hlen : receivedDead.g.rxlen ≤ GXFP_BUF_MAX := by decide
  have hwhole : (readAll Env.idle {} [3, 100] 0 receivedDead).1.length = 3 * receivedDead.g.rxlen + 1 := by decide +kernel
  have hwrite := rawWrite_readAll Env.idle {} receivedDead [3, 100] hlen hwhole
  rw [if_pos (by decide)] at hwrite
  have hbytes : receivedDead.g.rxbuf.load 0 receivedDead.g.rxlen = [0xDE, 0xAD] := by decide +kernel
  have hbefore : sent (readAll Env.idle {} [3, 100] 0 receivedDead).2.log = [] := by decide +kernel
  refine ⟨hlen, hwhole, hwrite.2.trans ?_⟩
  rw [hbytes, hbefore]
  rfl

end GoodixSpi.Kernel
