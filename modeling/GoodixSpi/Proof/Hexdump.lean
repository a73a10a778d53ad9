import GoodixSpi.Tools.Hexdump

/-!
# The dumps lose nothing

A row is read back from its hex column, which has a fixed place behind the index; the line of a collapsed tail says which byte it is and where the tail ends. So a log holds the bytes that were received.
-/

namespace GoodixSpi.Tools

open Wire Text

/-- The bytes of a hex column, three characters a byte, up to the first blank pair. -/
def undumpColumn : List Char → Bytes
  | a :: b :: _ :: cs => if a = ' ' then [] else UInt8.ofNat (ofHex [a, b]) :: undumpColumn cs
  | _ => []

/-- The bytes of a row whose index begins after `skip` characters. -/
def undumpRow (skip : Nat) (line : List Char) : Bytes :=
  undumpColumn ((((line.drop skip).dropWhile isHex).drop 2).take 48)

/-! ### A row -/

theorem hexPad_byte (b : UInt8) : ∃ x y, hexPad 2 b.toNat = [x, y] ∧ x ≠ ' ' ∧ UInt8.ofNat (ofHex [x, y]) = b := by
  have hlength : (hexPad 2 b.toNat).length = 2 := hexPad_length (by decide) b.toNat_lt
  obtain ⟨x, y, hxy⟩ := List.length_eq_two.mp hlength
  refine ⟨x, y, hxy, ?_, ?_⟩
  · rintro rfl
    have hblank := isHex_of_mem_hexPad (w := 2) (n := b.toNat) ' ' (by rw [hxy]; simp)
    exact absurd hblank (by decide)
  · rw [← hxy, ofHex_hexPad, UInt8.ofNat_toNat]

theorem hexBytes_length (chunk : Bytes) : (hexBytes chunk).length = 3 * chunk.length - 1 := by
  have hbyte (b : UInt8) : (hexPad 2 b.toNat).length = 2 := hexPad_length (by decide) b.toNat_lt
  fun_induction hexBytes chunk with
  | case1 => rfl
  | case2 b => exact hbyte b
  | case3 b bs _ ih =>
      have hbs : bs.length ≠ 0 := by
        rw [Ne, List.length_eq_zero_iff]
        assumption
      rw [List.length_append, List.length_cons, List.length_cons, hbyte, ih]
      omega

theorem undumpColumn_blank (k : Nat) : undumpColumn (List.replicate k ' ') = [] := by
  match k with
  | 0 | 1 | 2 => rfl
  | k + 3 => rfl

theorem undumpColumn_cons (b : UInt8) (sep : Char) (cs : List Char) :
    undumpColumn (hexPad 2 b.toNat ++ sep :: cs) = b :: undumpColumn cs := by
  obtain ⟨x, y, hxy, hx, hb⟩ := hexPad_byte b
  rw [hxy, List.cons_append, List.cons_append, List.nil_append, undumpColumn, if_neg hx, hb]

theorem undumpColumn_hexBytes (chunk : Bytes) (k : Nat) :
    undumpColumn (hexBytes chunk ++ List.replicate (k + 1) ' ') = chunk := by
  fun_induction hexBytes chunk with
  | case1 => exact undumpColumn_blank (k + 1)
  | case2 b => rw [List.replicate_succ, undumpColumn_cons, undumpColumn_blank]
  | case3 b bs _ ih => rw [List.append_assoc, List.cons_append, undumpColumn_cons, ih]

/-- A column of at most sixteen bytes is filled up to 48 characters, the last of which is a blank. -/
theorem column_eq {chunk : Bytes} (hchunk : chunk.length ≤ 16) :
    (ljust 48 (hexBytes chunk)).length = 48 ∧ undumpColumn (ljust 48 (hexBytes chunk)) = chunk := by
  have hlength := hexBytes_length chunk
  refine ⟨?_, ?_⟩
  · rw [ljust, List.length_append, List.length_replicate]
    omega
  · obtain ⟨k, hk⟩ : ∃ k, 48 - (hexBytes chunk).length = k + 1 := ⟨47 - (hexBytes chunk).length, by omega⟩
    rw [ljust, hk, undumpColumn_hexBytes]

theorem undumpRow_eq (front : List Char) (i : Nat) {chunk : Bytes} (hchunk : chunk.length ≤ 16) (rest : List Char) :
    undumpRow front.length (front ++ hexPad 4 i ++ [' ', ' '] ++ ljust 48 (hexBytes chunk) ++ rest) = chunk := by
  obtain ⟨hlength, hcolumn⟩ := column_eq hchunk
  have hdrop : (front ++ hexPad 4 i ++ [' ', ' '] ++ ljust 48 (hexBytes chunk) ++ rest).drop front.length =
      hexPad 4 i ++ ([' ', ' '] ++ ljust 48 (hexBytes chunk) ++ rest) := by
    simp only [List.append_assoc, List.drop_left]
  rw [undumpRow, hdrop, dropWhile_hexPad 4 i (by simp [isHex, hexValue])]
  show undumpColumn ((ljust 48 (hexBytes chunk) ++ rest).take 48) = chunk
  rw [List.take_append_of_le_length (Nat.le_of_eq hlength.symm), List.take_of_length_le (Nat.le_of_eq hlength), hcolumn]

/-! ### `dump` -/

namespace CshighRepro

/-- The bytes a dump shows after `acc`. -/
def undump : List (List Char) → Bytes → Bytes
  | [], acc => acc
  | line :: lines, acc =>
      if line.take 8 = [' ', ' ', ' ', ' ', ' ', '.', '.', '.'] then
        acc ++ List.replicate (readHex (line.drop 20) + 1 - acc.length) (UInt8.ofNat (ofHex ((line.drop 12).take 2)))
      else undump lines (acc ++ undumpRow 5 line)

theorem take_row (i : Nat) (chunk : Bytes) : (row i chunk).take 8 ≠ [' ', ' ', ' ', ' ', ' ', '.', '.', '.'] := by
  intro heq
  obtain ⟨a, digits, hd⟩ := List.exists_cons_of_length_pos (hexPad_length_pos 4 i)
  rw [row, hd] at heq
  have ha : some a = some '.' := congrArg (·[5]?) heq
  have hdigit : '.' ∈ hexPad 4 i := by simp [hd, Option.some.inj ha]
  exact absurd (isHex_of_mem_hexPad '.' hdigit) (by decide)

theorem undump_collapsed (filler : UInt8) (last : Nat) (lines : List (List Char)) (acc : Bytes) :
    undump (collapsed filler last :: lines) acc = acc ++ List.replicate (last + 1 - acc.length) filler := by
  obtain ⟨x, y, hxy, -, hfiller⟩ := hexPad_byte filler
  have hline : collapsed filler last =
      ([' ', ' ', ' ', ' ', ' ', '.', '.', '.', ' ', ' ', ' ', '('] ++ [x, y] ++ [' ', 't', 'o', ' ', '0', 'x']) ++ (hexPad 4 last ++ [')']) := by
    rw [collapsed, hxy, List.append_assoc]
  have hlast : readHex ((collapsed filler last).drop 20) = last := by
    rw [hline]
    exact readHex_hexPad 4 last (by simp [isHex, hexValue])
  have hbyte : ((collapsed filler last).drop 12).take 2 = [x, y] := by
    rw [hline]
    rfl
  rw [undump, if_pos (by rw [hline]; rfl), hlast, hbyte, hfiller]

theorem undump_dumpFrom (i : Nat) (rest acc : Bytes) (hacc : rest ≠ [] → acc.length = i) :
    undump (dumpFrom i rest) acc = acc ++ rest := by
  fun_induction dumpFrom i rest generalizing acc with
  | case1 i => exact (List.append_nil acc).symm
  | case2 i b bs h =>
      have htail : List.replicate (bs.length + 1) b = b :: bs := by
        rw [List.replicate_succ]
        exact congrArg (b :: ·) (List.eq_replicate_iff.mpr ⟨rfl, by simpa using h.2⟩).symm
      rw [undump_collapsed, hacc (by simp), ← htail]
      congr 2
      omega
  | case3 i b bs h ih =>
      rw [undump, if_neg (take_row _ _)]
      have hrow : undumpRow 5 (row i ((b :: bs).take 16)) = (b :: bs).take 16 :=
        undumpRow_eq [' ', ' ', ' ', ' ', ' '] i (List.length_take_le 16 _) _
      rw [hrow, ih, List.append_assoc, List.take_append_drop]
      intro hmore
      have hlong : ¬ (b :: bs).length ≤ 16 := fun hshort => hmore (List.drop_eq_nil_of_le hshort)
      have hlength := hacc (by simp)
      rw [List.length_append, List.length_take]
      omega

end CshighRepro

/-! ### `hexd` -/

namespace SpidevRaw

/-- The bytes shown by lines with a prefix of this length. -/
def unhexd (skip : Nat) (text : List Char) : Bytes := (text.splitOn '\n').flatMap (undumpRow skip)

theorem flatMap_hexdFrom (pfx : List Char) (i : Nat) (rest : Bytes) :
    (hexdFrom pfx i rest).flatMap (undumpRow pfx.length) = rest := by
  fun_induction hexdFrom pfx i rest with
  | case1 i => rfl
  | case2 i b bs ih =>
      have hrow : undumpRow pfx.length (row pfx i ((b :: bs).take 16)) = (b :: bs).take 16 := by
        rw [row, List.append_assoc, List.append_assoc]
        exact undumpRow_eq pfx i (List.length_take_le 16 _) _
      rw [List.flatMap_cons, hrow, ih, List.take_append_drop]

theorem not_mem_hexBytes (chunk : Bytes) : '\n' ∉ hexBytes chunk := by
  have hdigits (b : UInt8) : '\n' ∉ hexPad 2 b.toNat := fun h => absurd (isHex_of_mem_hexPad _ h) (by decide)
  fun_induction hexBytes chunk with
  | case1 => simp
  | case2 b => exact hdigits b
  | case3 b bs _ ih => simp [hdigits b, ih]

theorem ascii_ne_newline (b : UInt8) : ascii b ≠ '\n' := by
  have hall : ∀ n < 256, ascii (UInt8.ofNat n) ≠ '\n' := by decide +kernel
  have hb := hall b.toNat b.toNat_lt
  rwa [UInt8.ofNat_toNat] at hb

theorem not_mem_row {pfx : List Char} (hpfx : '\n' ∉ pfx) (i : Nat) (chunk : Bytes) : '\n' ∉ row pfx i chunk := by
  have hindex : '\n' ∉ hexPad 4 i := fun h => absurd (isHex_of_mem_hexPad _ h) (by decide)
  have hascii : '\n' ∉ chunk.map ascii := by
    intro h
    obtain ⟨b, -, hb⟩ := List.mem_map.mp h
    exact ascii_ne_newline b hb
  simp [row, ljust, hpfx, hindex, hascii, not_mem_hexBytes]

theorem not_mem_of_mem_hexdFrom {pfx : List Char} (hpfx : '\n' ∉ pfx) (i : Nat) (rest : Bytes) :
    ∀ line ∈ hexdFrom pfx i rest, '\n' ∉ line := by
  fun_induction hexdFrom pfx i rest with
  | case1 i => simp
  | case2 i b bs ih => exact List.forall_mem_cons.mpr ⟨not_mem_row hpfx _ _, ih⟩

theorem unhexd_hexd {pfx : List Char} (hpfx : '\n' ∉ pfx) (b : Bytes) : unhexd pfx.length (hexd b pfx) = b := by
  cases b with
  | nil => simp [hexd, hexdFrom, unhexd, List.splitOn_nil, undumpRow, undumpColumn]
  | cons x xs =>
      have hne : hexdFrom pfx 0 (x :: xs) ≠ [] := by
        rw [hexdFrom]
        exact List.cons_ne_nil _ _
      rw [unhexd, hexd, List.splitOn_intercalate _ (not_mem_of_mem_hexdFrom hpfx 0 (x :: xs)) hne, flatMap_hexdFrom]

end SpidevRaw

/-- **The dumps lose nothing**: the bytes are read back from the lines `cshigh_repro.py` prints, also where a tail is collapsed, and from the text of `hexd`, with any prefix on one line. -/
theorem dumps_lossless {pfx : List Char} (hpfx : '\n' ∉ pfx) (b : Bytes) :
    CshighRepro.undump (CshighRepro.dump b) [] = b ∧ SpidevRaw.unhexd pfx.length (SpidevRaw.hexd b pfx) = b :=
  ⟨CshighRepro.undump_dumpFrom 0 b [] fun _ => rfl, SpidevRaw.unhexd_hexd hpfx b⟩

theorem dumps_lossless_filler :
    CshighRepro.undump (CshighRepro.dump ([0xA0, 6, 0, 0xA6] ++ List.replicate 20 0x4C)) [] =
        [0xA0, 6, 0, 0xA6] ++ List.replicate 20 0x4C ∧
      SpidevRaw.unhexd 2 (SpidevRaw.hexd ([0xA0, 6, 0, 0xA6] ++ List.replicate 20 0x4C)) =
        [0xA0, 6, 0, 0xA6] ++ List.replicate 20 0x4C :=
  dumps_lossless (show '\n' ∉ [' ', ' '] by decide) _

end GoodixSpi.Tools
