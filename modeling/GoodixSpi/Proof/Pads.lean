import GoodixSpi.Tools.Pads
import Mathlib.Data.List.Nodup
import Mathlib.Data.List.TakeWhile

/-!
# The readers of the pinctrl table agree

A table is lines of words: `pin 41 (GSPI0_CLK) 48:INT34BB:00 GPIO 0x40100102 0x00000040 [LOCKED full]`. Of such a table `board.py` reads every pad with everything in it, and the two readers that only look for the first word like a register find the same configuration words.
-/

namespace GoodixSpi.Tools

open Text

/-! ### The table -/

def hexWord (v : UInt32) : List Char := '0' :: 'x' :: hexPad 8 v.toNat

def gpioWord (g : Nat × List Char) : List Char := Nat.toDigits 10 g.1 ++ ':' :: g.2

/-- A line of the table: a pad in GPIO mode, or in a native one; its registers; and remarks. -/
structure Row where
  pin : Nat
  name : List Char
  gpio : Option (Nat × List Char)
  native : Option Nat
  cfg0 : UInt32
  others : List UInt32
  remark : List (List Char)
  deriving DecidableEq, Repr

namespace Row

def function (r : Row) : List (List Char) :=
  match r.native with
  | none => [['G', 'P', 'I', 'O']]
  | some n => [['m', 'o', 'd', 'e'], Nat.toDigits 10 n]

def rest (r : Row) : List (List Char) := r.function ++ hexWord r.cfg0 :: (r.others.map hexWord ++ r.remark)

/-- The words behind the name. -/
def tail (r : Row) : List (List Char) := (r.gpio.map gpioWord).toList ++ r.rest

def words (r : Row) : List (List Char) :=
  ['p', 'i', 'n'] :: Nat.toDigits 10 r.pin :: ('(' :: (r.name ++ [')'])) :: r.tail

def line (r : Row) : List Char := unwords r.words

/-- A name has no blank and no parenthesis, a chip's label no blank, and no remark is the word `GPIO`. -/
structure Ok (r : Row) : Prop where
  name : ∀ c ∈ r.name, isSpace c = false ∧ c ≠ ')'
  chip : ∀ g ∈ r.gpio, Word g.2
  remark : ∀ w ∈ r.remark, Word w ∧ w ≠ ['G', 'P', 'I', 'O']

def pad (r : Row) : Board.Pad where
  pin := r.pin
  name := String.ofList r.name
  line := r.gpio.map fun g => (g.1 : Int)
  chip := r.gpio.map fun g => String.ofList g.2
  cfg0 := some r.cfg0.toNat
  acpi := ∃ w ∈ r.remark, ['A', 'C', 'P', 'I'] <:+: w
  gpioMode := r.native = none

end Row

/-- The lines before the rows, and the rows. -/
structure Table where
  preamble : List (List Char)
  rows : List Row

def Table.text (t : Table) : List Char := (t.preamble ++ t.rows.map Row.line).flatMap (· ++ ['\n'])

/-- No line of the preamble begins like a row, or with a blank; every row is in order, and no two are for one pad. -/
structure Table.Ok (t : Table) : Prop where
  preamble : ∀ l ∈ t.preamble, (∀ c ∈ l, isBreak c = false) ∧ ∀ c ∈ l.head?, c ≠ 'p' ∧ isSpace c = false
  rows : ∀ r ∈ t.rows, r.Ok
  pins : (t.rows.map Row.pin).Nodup

/-! ### Its characters -/

theorem isSpace_of_isDigit {c : Char} (h : c.isDigit = true) : isSpace c = false := by
  simp only [Char.isDigit, Bool.and_eq_true, decide_eq_true_eq] at h
  have hlow : 48 ≤ c.toNat := h.1
  simp only [isSpace, Bool.or_eq_false_iff, Bool.and_eq_false_iff, decide_eq_false_iff_not]
  omega

theorem isSpace_of_isHex {c : Char} (h : isHex c = true) : isSpace c = false := by
  have hlow : 48 ≤ c.toNat := by
    by_contra hlt
    simp [isHex, hexValue, show ¬ 48 ≤ c.toNat by omega, show ¬ 97 ≤ c.toNat by omega] at h
  simp only [isSpace, Bool.or_eq_false_iff, Bool.and_eq_false_iff, decide_eq_false_iff_not]
  omega

theorem isSpace_of_isBreak {c : Char} (h : isBreak c = true) : isSpace c = true := by
  simp only [isBreak, isSpace, Bool.or_eq_true, Bool.and_eq_true, decide_eq_true_eq] at h ⊢
  omega

theorem isDigit_toDigits (n : Nat) : ∀ c ∈ Nat.toDigits 10 n, c.isDigit = true :=
  fun _ hc => Nat.isDigit_of_mem_toDigits (by decide) (by decide) hc

theorem toDigits_ne_nil (n : Nat) : Nat.toDigits 10 n ≠ [] := List.ne_nil_of_length_pos Nat.length_toDigits_pos

theorem word_toDigits (n : Nat) : Word (Nat.toDigits 10 n) :=
  ⟨toDigits_ne_nil n, fun c hc => isSpace_of_isDigit (isDigit_toDigits n c hc)⟩

theorem word_hexWord (v : UInt32) : Word (hexWord v) := by
  refine ⟨List.cons_ne_nil _ _, fun c hc => ?_⟩
  rw [hexWord, List.mem_cons, List.mem_cons] at hc
  rcases hc with rfl | rfl | hc
  · decide
  · decide
  · exact isSpace_of_isHex (isHex_of_mem_hexPad c hc)

theorem word_gpioWord {g : Nat × List Char} (h : Word g.2) : Word (gpioWord g) := by
  refine ⟨by simp [gpioWord], fun c hc => ?_⟩
  rcases List.mem_append.mp hc with hc | hc
  · exact (word_toDigits g.1).solid c hc
  · rcases List.mem_cons.mp hc with rfl | hc
    · decide
    · exact h.solid c hc

theorem word_function (r : Row) : ∀ w ∈ r.function, Word w := by
  have hgpio : Word ['G', 'P', 'I', 'O'] := by decide
  have hmode : Word ['m', 'o', 'd', 'e'] := by decide
  rw [Row.function]
  split
  · simpa using hgpio
  · simpa using ⟨hmode, word_toDigits _⟩

theorem word_rest {r : Row} (h : r.Ok) : ∀ w ∈ r.rest, Word w := by
  intro w hw
  simp only [Row.rest, List.mem_append, List.mem_cons, List.mem_map] at hw
  rcases hw with hw | rfl | ⟨v, -, rfl⟩ | hw
  · exact word_function r w hw
  · exact word_hexWord r.cfg0
  · exact word_hexWord v
  · exact (h.remark w hw).1

theorem word_tail {r : Row} (h : r.Ok) : ∀ w ∈ r.tail, Word w := by
  intro w hw
  rcases List.mem_append.mp hw with hw | hw
  · simp only [Option.mem_toList, Option.map_eq_some_iff] at hw
    obtain ⟨g, hg, rfl⟩ := hw
    exact word_gpioWord (h.chip g hg)
  · exact word_rest h w hw

theorem word_words {r : Row} (h : r.Ok) : ∀ w ∈ r.words, Word w := by
  have hname : Word ('(' :: (r.name ++ [')'])) := by
    refine ⟨List.cons_ne_nil _ _, fun c hc => ?_⟩
    rw [List.mem_cons, List.mem_append, List.mem_singleton] at hc
    rcases hc with rfl | hc | rfl
    · decide
    · exact (h.name c hc).1
    · decide
  intro w hw
  simp only [Row.words, List.mem_cons] at hw
  rcases hw with rfl | rfl | rfl | hw
  · decide
  · exact word_toDigits r.pin
  · exact hname
  · exact word_tail h w hw

theorem mem_unwords {c : Char} {ws : List (List Char)} (h : c ∈ unwords ws) : c = ' ' ∨ ∃ w ∈ ws, c ∈ w := by
  induction ws with
  | nil => simp [unwords] at h
  | cons w ws ih =>
      cases ws with
      | nil => exact Or.inr ⟨w, List.mem_singleton_self w, h⟩
      | cons w' ws =>
          rw [unwords, List.mem_append, List.mem_cons] at h
          rcases h with h | h | h
          · exact Or.inr ⟨w, List.mem_cons_self, h⟩
          · exact Or.inl h
          · obtain hc | ⟨v, hv, hc⟩ := ih h
            · exact Or.inl hc
            · exact Or.inr ⟨v, List.mem_cons_of_mem w hv, hc⟩

theorem not_isBreak_line {r : Row} (h : r.Ok) : ∀ c ∈ r.line, isBreak c = false := by
  intro c hc
  rw [← Bool.not_eq_true]
  intro hbreak
  rcases mem_unwords hc with rfl | ⟨w, hw, hc⟩
  · exact absurd hbreak (by decide)
  · have hsolid := (word_words h w hw).solid c hc
    rw [isSpace_of_isBreak hbreak] at hsolid
    exact absurd hsolid (by decide)

/-- The lines of a table, by either way of cutting it. -/
theorem lines_text {t : Table} (h : t.Ok) :
    cut isBreak (universal t.text) = t.preamble ++ t.rows.map Row.line ∧
      fileLines t.text = t.preamble ++ t.rows.map Row.line := by
  have hline : ∀ l ∈ t.preamble ++ t.rows.map Row.line, ∀ c ∈ l, isBreak c = false := by
    intro l hl
    rcases List.mem_append.mp hl with hl | hl
    · exact (h.preamble l hl).1
    · obtain ⟨r, hr, rfl⟩ := List.mem_map.mp hl
      exact not_isBreak_line (h.rows r hr)
  have hreturn : '\r' ∉ t.text := by
    intro hmem
    obtain ⟨l, hl, hc⟩ := List.mem_flatMap.mp hmem
    rw [List.mem_append, List.mem_singleton] at hc
    rcases hc with hc | hc
    · exact absurd (hline l hl _ hc) (by decide)
    · exact absurd hc (by decide)
  rw [fileLines, universal_eq hreturn, Table.text]
  refine ⟨cut_lines (by decide) hline, cut_lines (by decide) fun l hl c hc => ?_⟩
  rw [decide_eq_false_iff_not]
  rintro rfl
  exact absurd (hline l hl _ hc) (by decide)

/-! ### The regular expression -/

namespace Board

section Groups

variable {cs : List Char}

theorem spaces_blank (h : ∀ c ∈ cs.head?, isSpace c = false) : spaces (' ' :: cs) = some cs := by
  have hblank : isSpace ' ' = true := by decide
  rw [spaces, List.takeWhile_cons_of_pos hblank, if_neg (List.cons_ne_nil _ _), List.dropWhile_cons_of_pos hblank,
    dropWhile_of_head h]

theorem digitGroup_toDigits (n : Nat) {c : Char} (hc : c.isDigit = false) :
    digitGroup (Nat.toDigits 10 n ++ c :: cs) = some (Nat.toDigits 10 n, c :: cs) := by
  rw [digitGroup, takeWhile_append_cons (isDigit_toDigits n) hc, dropWhile_append_cons (isDigit_toDigits n) hc,
    if_neg (toDigits_ne_nil n)]

theorem nameGroup_name {name : List Char} (h : ')' ∉ name) : nameGroup ('(' :: (name ++ ')' :: cs)) = some (name, cs) := by
  have hname : ∀ c ∈ name, decide (c ≠ ')') = true := fun c hc => decide_eq_true fun heq : c = ')' => h (heq ▸ hc)
  rw [nameGroup, takeWhile_append_cons hname (by decide), dropWhile_append_cons hname (by decide)]

theorem gpioGroup_gpioWord {g : Nat × List Char} (h : Word g.2) :
    gpioGroup (gpioWord g ++ ' ' :: cs) = (some (Nat.toDigits 10 g.1, g.2), ' ' :: cs) := by
  have hsolid : ∀ c ∈ g.2, (!isSpace c) = true := fun c hc => by simp [h.solid c hc]
  rw [gpioGroup, gpioWord, List.append_assoc, List.cons_append, digitGroup_toDigits g.1 (by decide)]
  show (if (g.2 ++ ' ' :: cs).takeWhile (!isSpace ·) = [] then _ else _) = _
  rw [takeWhile_append_cons hsolid (by decide), dropWhile_append_cons hsolid (by decide), if_neg h.nonempty]

/-- Without a digit in front the group is left out. -/
theorem gpioGroup_none (h : ∀ c ∈ cs.head?, c.isDigit = false) : gpioGroup cs = (none, cs) := by
  have hnone : digitGroup cs = none := by
    cases cs with
    | nil => simp [digitGroup]
    | cons c cs => simp [digitGroup, h c rfl]
  rw [gpioGroup, hnone]

end Groups

/-- The words behind the name begin with the function, or with the line of the pad. -/
theorem head?_rest (r : Row) : ∀ c ∈ (unwords r.rest).head?, isSpace c = false ∧ c.isDigit = false := by
  have hG : isSpace 'G' = false ∧ 'G'.isDigit = false := by decide
  have hm : isSpace 'm' = false ∧ 'm'.isDigit = false := by decide
  rw [Row.rest, Row.function]
  cases r.native with
  | none =>
      rw [List.singleton_append, head?_unwords (by decide)]
      simpa using hG
  | some n =>
      rw [List.cons_append, head?_unwords (by decide)]
      simpa using hm

theorem unwords_cons {w : List Char} {ws : List (List Char)} (h : ws ≠ []) : unwords (w :: ws) = w ++ ' ' :: unwords ws := by
  obtain ⟨w', ws, rfl⟩ := List.exists_cons_of_ne_nil h
  rw [unwords]

theorem rest_ne_nil (r : Row) : r.rest ≠ [] := by simp [Row.rest]

theorem gpioGroup_tail {r : Row} (h : r.Ok) :
    (gpioGroup (unwords r.tail)).1 = r.gpio.map (fun g => (Nat.toDigits 10 g.1, g.2)) ∧
      (gpioGroup (unwords r.tail)).2.dropWhile isSpace = unwords r.rest := by
  have hrest : (unwords r.rest).dropWhile isSpace = unwords r.rest :=
    dropWhile_of_head fun c hc => (head?_rest r c hc).1
  rw [Row.tail]
  cases hgpio : r.gpio with
  | none =>
      rw [Option.map_none, Option.toList_none, List.nil_append, gpioGroup_none fun c hc => (head?_rest r c hc).2]
      exact ⟨by simp, hrest⟩
  | some g =>
      rw [Option.map_some, Option.toList_some, List.singleton_append, unwords_cons (rest_ne_nil r),
        gpioGroup_gpioWord (h.chip g hgpio)]
      refine ⟨by simp, ?_⟩
      rw [List.dropWhile_cons_of_pos (by decide), hrest]

theorem line_eq (r : Row) : r.line =
    'p' :: 'i' :: 'n' :: ' ' :: (Nat.toDigits 10 r.pin ++ ' ' :: '(' :: (r.name ++ ')' :: ' ' :: unwords r.tail)) := by
  have htail : r.tail ≠ [] := by simp [Row.tail, rest_ne_nil]
  rw [Row.line, Row.words, unwords_cons (List.cons_ne_nil _ _), unwords_cons (List.cons_ne_nil _ _), unwords_cons htail]
  simp

theorem padRe_line {r : Row} (h : r.Ok) : padRe (strip r.line) = some
    { pin := Nat.toDigits 10 r.pin, name := r.name, gpio := r.gpio.map fun g => (Nat.toDigits 10 g.1, g.2),
      rest := unwords r.rest } := by
  have hdigits : ∀ c ∈ (Nat.toDigits 10 r.pin ++ ' ' :: '(' :: (r.name ++ ')' :: ' ' :: unwords r.tail)).head?,
      isSpace c = false := by
    rw [List.head?_append_of_ne_nil _ (toDigits_ne_nil r.pin)]
    exact fun c hc => isSpace_of_isDigit (isDigit_toDigits r.pin c (List.mem_of_mem_head? hc))
  have htail : ∀ c ∈ (unwords r.tail).head?, isSpace c = false := by
    obtain ⟨w, ws, hws⟩ := List.exists_cons_of_ne_nil (show r.tail ≠ [] by simp [Row.tail, rest_ne_nil])
    have hw := word_tail h w (hws ▸ List.mem_cons_self)
    rw [hws, head?_unwords hw.nonempty]
    exact fun c hc => hw.solid c (List.mem_of_mem_head? hc)
  obtain ⟨hgpio, hrest⟩ := gpioGroup_tail h
  have hstrip : strip r.line = r.line := strip_unwords (word_words h)
  rw [hstrip, line_eq, padRe]
  dsimp only
  rw [spaces_blank hdigits]
  simp only [bind, Option.bind]
  rw [digitGroup_toDigits r.pin (by decide)]
  dsimp only
  rw [spaces_blank (by simp [isSpace])]
  dsimp only
  rw [nameGroup_name fun hmem => (h.name _ hmem).2 rfl]
  dsimp only
  rw [spaces_blank htail]
  dsimp only
  rw [hgpio, hrest]
  rfl

/-! ### What is read off the groups -/

theorem digits_cons {c : Char} (hc : c.isDigit = true) (cs : List Char) (v : Option Nat) :
    digits (c :: cs) v = digits cs (some (10 * v.getD 0 + (c.toNat - 48))) := by
  have hne : c ≠ '_' := by
    rintro rfl
    exact absurd hc (by decide)
  rw [digits.eq_3 _ _ _ fun _ _ _ _ heq _ => hne heq, if_pos hc]

theorem digits_some {cs : List Char} (h : ∀ c ∈ cs, c.isDigit = true) (v : Nat) :
    digits cs (some v) = some (Nat.ofDigitChars 10 cs v) := by
  induction cs generalizing v with
  | nil => simp [digits]
  | cons c cs ih =>
      rw [digits_cons (h c List.mem_cons_self), ih fun d hd => h d (List.mem_cons_of_mem c hd), Nat.ofDigitChars_cons,
        Option.getD_some]
      rfl

theorem digits_toDigits (n : Nat) : digits (Nat.toDigits 10 n) none = some n := by
  have hround := Nat.ofDigitChars_toDigits (b := 10) (n := n) (by decide) (by decide)
  have hdigits := isDigit_toDigits n
  obtain ⟨c, cs, hcs⟩ := List.exists_cons_of_ne_nil (toDigits_ne_nil n)
  rw [hcs] at hround hdigits ⊢
  rw [digits_cons (hdigits c List.mem_cons_self), digits_some fun d hd => hdigits d (List.mem_cons_of_mem c hd)]
  rw [Nat.ofDigitChars_cons] at hround
  exact congrArg some hround

/-- There is no register in a word without an `x`, nor across its end. -/
theorem searchHex_skip {w : List Char} (hw : 'x' ∉ w) (cs : List Char) : searchHex (w ++ ' ' :: cs) = searchHex cs := by
  induction w with
  | nil => rw [List.nil_append, searchHex, if_neg (by simp [hexAt])]
  | cons c w ih =>
      obtain ⟨-, hw⟩ := List.ne_and_not_mem_of_not_mem_cons hw
      have hat : ¬ hexAt (c :: (w ++ ' ' :: cs)) = true := by
        cases w with
        | nil => simp [hexAt]
        | cons d w => simp [hexAt, (List.ne_and_not_mem_of_not_mem_cons hw).1]
      rw [List.cons_append, searchHex, if_neg hat, ih hw]

theorem searchHex_hexWord (v : UInt32) (cs : List Char) : searchHex (hexWord v ++ cs) = some v.toNat := by
  have hlength : (hexPad 8 v.toNat).length = 8 := hexPad_length (by decide) v.toNat_lt
  have htake : ((hexWord v ++ cs).drop 2).take 8 = hexPad 8 v.toNat := by
    rw [hexWord, List.cons_append, List.cons_append, List.drop_succ_cons, List.drop_succ_cons, List.drop_zero,
      List.take_append_of_le_length (Nat.le_of_eq hlength.symm), List.take_of_length_le (Nat.le_of_eq hlength)]
  have hat : hexAt (hexWord v ++ cs) = true := by
    rw [hexAt, htake, hlength]
    simpa [hexWord] using fun c hc => isHex_of_mem_hexPad c hc
  rw [hexWord, List.cons_append] at hat htake ⊢
  rw [searchHex, if_pos hat, htake, ofHex_hexPad]

theorem not_mem_toDigits {c : Char} (hc : c.isDigit = false) (n : Nat) : c ∉ Nat.toDigits 10 n := by
  intro hmem
  rw [isDigit_toDigits n c hmem] at hc
  exact absurd hc (by decide)

theorem searchHex_rest (r : Row) : searchHex (unwords r.rest) = some r.cfg0.toNat := by
  have hcfg0 : searchHex (unwords (hexWord r.cfg0 :: (r.others.map hexWord ++ r.remark))) = some r.cfg0.toNat := by
    cases r.others.map hexWord ++ r.remark with
    | nil => simpa [unwords] using searchHex_hexWord r.cfg0 []
    | cons w ws => rw [unwords, searchHex_hexWord]
  rw [Row.rest, Row.function]
  cases r.native with
  | none => rw [List.singleton_append, unwords_cons (List.cons_ne_nil _ _), searchHex_skip (by decide), hcfg0]
  | some n =>
      rw [List.cons_append, List.singleton_append, unwords_cons (List.cons_ne_nil _ _), searchHex_skip (by decide),
        unwords_cons (List.cons_ne_nil _ _), searchHex_skip (not_mem_toDigits (by decide) n), hcfg0]

theorem not_mem_hexWord {c : Char} (hc : isHex c = false) (hx : c ≠ 'x') (v : UInt32) : c ∉ hexWord v := by
  intro hmem
  rw [hexWord, List.mem_cons, List.mem_cons] at hmem
  rcases hmem with rfl | rfl | hmem
  · exact absurd hc (by decide)
  · exact hx rfl
  · rw [isHex_of_mem_hexPad c hmem] at hc
    exact absurd hc (by decide)

/-- Only a remark can have an `A` in it. -/
theorem acpi_rest (r : Row) : ['A', 'C', 'P', 'I'] <:+: unwords r.rest ↔ ∃ w ∈ r.remark, ['A', 'C', 'P', 'I'] <:+: w := by
  rw [infix_unwords (List.cons_ne_nil _ _) (by decide)]
  refine ⟨?_, fun ⟨w, hw, h⟩ => ⟨w, by simp [Row.rest, hw], h⟩⟩
  rintro ⟨w, hw, h⟩
  have hA : 'A' ∈ w := h.subset List.mem_cons_self
  have hhex (v : UInt32) : 'A' ∉ hexWord v := not_mem_hexWord (by decide) (by decide) v
  simp only [Row.rest, List.mem_append, List.mem_cons, List.mem_map] at hw
  rcases hw with hw | rfl | ⟨v, -, rfl⟩ | hw
  · rw [Row.function] at hw
    split at hw
    · rw [List.mem_singleton.mp hw] at hA
      exact absurd hA (by decide)
    · next n _ =>
        rw [List.mem_cons, List.mem_singleton] at hw
        rcases hw with rfl | rfl
        · exact absurd hA (by decide)
        · exact absurd hA (not_mem_toDigits (by decide) n)
  · exact absurd hA (hhex r.cfg0)
  · exact absurd hA (hhex v)
  · exact ⟨w, hw, h⟩

theorem gpioMode_rest {r : Row} (h : r.Ok) :
    ([' ', 'G', 'P', 'I', 'O', ' '] <:+: ' ' :: (unwords r.rest ++ [' ']) ∨ ['G', 'P', 'I', 'O'] <+: unwords r.rest) ↔
      r.native = none := by
  have hpadded := padded_infix_unwords (g := ['G', 'P', 'I', 'O']) (by decide) (fun w hw => (word_rest h w hw).no_blank)
    (rest_ne_nil r)
  rw [show [' ', 'G', 'P', 'I', 'O', ' '] = ' ' :: (['G', 'P', 'I', 'O'] ++ [' ']) by decide, hpadded]
  cases hnative : r.native with
  | none => simp [Row.rest, Row.function, hnative]
  | some n =>
      have hhex (v : UInt32) : ['G', 'P', 'I', 'O'] ≠ hexWord v := by simp [hexWord]
      have hdigits : ['G', 'P', 'I', 'O'] ≠ Nat.toDigits 10 n := fun heq =>
        not_mem_toDigits (c := 'G') (by decide) n (heq ▸ List.mem_cons_self)
      have hremark : ['G', 'P', 'I', 'O'] ∉ r.remark := fun hmem => (h.remark _ hmem).2 rfl
      have hmem : ['G', 'P', 'I', 'O'] ∉ r.rest := by
        simpa [Row.rest, Row.function, hnative, hhex, hdigits, hremark] using fun v _ => (hhex v).symm
      have hprefix : ¬ ['G', 'P', 'I', 'O'] <+: unwords r.rest := by
        rw [Row.rest, Row.function, hnative]
        simp [unwords]
      simp [hmem, hprefix]

theorem padOf_line {r : Row} (h : r.Ok) : (padRe (strip r.line)).map padOf = some r.pad := by
  rw [padRe_line h, Option.map_some, padOf, Row.pad]
  simp only [digits_toDigits, searchHex_rest, acpi_rest, gpioMode_rest h, Option.getD_some, Option.map_map,
    Function.comp_def]

/-- A line that does not begin like a row is no pad. -/
theorem padRe_preamble {l : List Char} (h : ∀ c ∈ l.head?, c ≠ 'p' ∧ isSpace c = false) : padRe (strip l) = none := by
  have hhead : ∀ c ∈ (strip l).head?, c ≠ 'p' := by
    have hprefix := strip_prefix l
    rw [dropWhile_of_head fun c hc => (h c hc).2] at hprefix
    obtain ⟨blanks, hl⟩ := hprefix
    refine fun c hc => (h c ?_).1
    rw [← hl, List.head?_append, Option.mem_def.mp hc]
    exact Option.mem_some_self c
  cases hl : strip l with
  | nil => simp [padRe]
  | cons c cs =>
      rw [padRe]
      rintro cs' heq
      exact hhead c (by simp [hl]) (List.cons.inj heq).1

/-- **Every pad of the table is read, in order and with everything in it.** -/
theorem readPads_table {t : Table} (h : t.Ok) : readPads [some t.text] = t.rows.map Row.pad := by
  have hpreamble : t.preamble.filterMap (fun line => (padRe (strip line)).map padOf) = [] := by
    rw [List.filterMap_eq_nil_iff]
    intro l hl
    rw [padRe_preamble (h.preamble l hl).2, Option.map_none]
  have hrows : (t.rows.map Row.line).filterMap (fun line => (padRe (strip line)).map padOf) = t.rows.map Row.pad := by
    rw [List.filterMap_map, ← List.filterMap_eq_map]
    exact List.filterMap_congr fun r hr => padOf_line (h.rows r hr)
  rw [readPads, List.flatMap_singleton]
  dsimp only
  rw [(lines_text h).1, List.filterMap_append, hpreamble, hrows, List.nil_append]

end Board

/-! ### The first word like a register -/

theorem toDigits_inj {m n : Nat} (h : Nat.toDigits 10 m = Nat.toDigits 10 n) : m = n := by
  have hm := Nat.ofDigitChars_toDigits (b := 10) (n := m) (by decide) (by decide)
  rw [h, Nat.ofDigitChars_toDigits (by decide) (by decide)] at hm
  exact hm.symm

theorem pinPrefix_line (n : Nat) (r : Row) : (pinPrefix n).isPrefixOf r.line = true ↔ r.pin = n := by
  have hblank (k : Nat) : ' ' ∉ Nat.toDigits 10 k := Board.not_mem_toDigits (by decide) k
  have hiff := append_prefix_append (u := '(' :: (r.name ++ ')' :: ' ' :: unwords r.tail)) (hblank n) (hblank r.pin)
  rw [List.isPrefixOf_iff_prefix, Board.line_eq, pinPrefix]
  simp only [List.cons_append, List.nil_append, List.cons_prefix_cons, true_and, hiff]
  exact ⟨fun h => (toDigits_inj h).symm, fun h => congrArg (Nat.toDigits 10) h.symm⟩

theorem not_pinPrefix_preamble (n : Nat) {l : List Char} (h : ∀ c ∈ l.head?, c ≠ 'p' ∧ isSpace c = false) :
    (pinPrefix n).isPrefixOf l = false := by
  cases l with
  | nil => simp [pinPrefix]
  | cons c cs =>
      rw [← Bool.not_eq_true, List.isPrefixOf_iff_prefix, pinPrefix, List.cons_append, List.cons_append, List.cons_prefix_cons]
      exact fun hprefix => (h c rfl).1 hprefix.1.symm

theorem isRegister_hexWord (v : UInt32) : isRegister (hexWord v) = true := by
  have hlength : (hexPad 8 v.toNat).length = 8 := hexPad_length (by decide) v.toNat_lt
  simp [isRegister, hexWord, hlength]

/-- A word that begins with digits and goes on with something else than an `x` is no register, -/
theorem not_isRegister_digits (n : Nat) (cs : List Char) (h : ∀ c ∈ cs.head?, c ≠ 'x') :
    isRegister (Nat.toDigits 10 n ++ cs) = false := by
  have hdigits := isDigit_toDigits n
  obtain ⟨d, ds, hds⟩ := List.exists_cons_of_ne_nil (toDigits_ne_nil n)
  rw [hds] at hdigits ⊢
  have hsecond : ∀ c ∈ (ds ++ cs).head?, c ≠ 'x' := by
    cases ds with
    | nil => exact h
    | cons e ds =>
        rintro c hc rfl
        rw [List.cons_append, List.head?_cons, Option.mem_some_iff] at hc
        exact absurd (hdigits 'x' (by simp [hc])) (by decide)
  cases hrest : ds ++ cs with
  | nil => simp [isRegister, hrest]
  | cons c rest =>
      have hne := hsecond c (by simp [hrest])
      simp [isRegister, hrest, Ne.symm hne]

/-- so the first word of a row that is one is the configuration word. -/
theorem find_isRegister_words (r : Row) : r.words.find? isRegister = some (hexWord r.cfg0) := by
  have hnumber (n : Nat) : isRegister (Nat.toDigits 10 n) = false := by
    simpa using not_isRegister_digits n [] (by simp)
  have hgpio : (r.gpio.map gpioWord).toList.find? isRegister = none := by
    cases r.gpio with
    | none => simp
    | some g => simp [gpioWord, not_isRegister_digits g.1 (':' :: g.2) (by simp)]
  have hfunction : r.function.find? isRegister = none := by
    rw [Row.function]
    cases r.native with
    | none => simp [isRegister]
    | some n => rw [List.find?_cons_of_neg (by decide), List.find?_cons_of_neg (by simp [hnumber n]), List.find?_nil]
  rw [Row.words, List.find?_cons_of_neg (by simp [isRegister]), List.find?_cons_of_neg (by simp [hnumber]),
    List.find?_cons_of_neg (by simp [isRegister]), Row.tail, List.find?_append, hgpio, Row.rest, List.find?_append, hfunction,
    List.find?_cons_of_pos (isRegister_hexWord r.cfg0)]
  rfl

theorem toLower_of_isHex {c : Char} (h : isHex c = true) : c.toLower = c := by
  have hnot : ¬ (c.val ≥ 'A'.val ∧ c.val ≤ 'Z'.val) := by
    rintro ⟨hlow, hhigh⟩
    have hlow' : 65 ≤ c.toNat := hlow
    have hhigh' : c.toNat ≤ 90 := hhigh
    simp [isHex, hexValue, show ¬ c.toNat ≤ 57 by omega, show ¬ 97 ≤ c.toNat by omega] at h
  exact dif_neg hnot

theorem hexDigits_cons {c : Char} (hc : isHex c = true) (cs : List Char) (v : Option Nat) :
    hexDigits (c :: cs) v = hexDigits cs (some (16 * v.getD 0 + (hexValue c).getD 0)) := by
  have hne : c ≠ '_' := by
    rintro rfl
    exact absurd hc (by decide)
  obtain ⟨d, hd⟩ := Option.isSome_iff_exists.mp hc
  rw [hexDigits.eq_3 _ _ _ fun _ _ _ _ heq _ => hne heq, toLower_of_isHex hc, hd, Option.bind_some, Option.getD_some]

theorem hexDigits_some {cs : List Char} (h : ∀ c ∈ cs, isHex c = true) (v : Nat) :
    hexDigits cs (some v) = some (cs.foldl (fun n c => 16 * n + (hexValue c).getD 0) v) := by
  induction cs generalizing v with
  | nil => simp [hexDigits]
  | cons c cs ih =>
      rw [hexDigits_cons (h c List.mem_cons_self), ih fun d hd => h d (List.mem_cons_of_mem c hd), List.foldl_cons,
        Option.getD_some]

theorem intHex_hexWord (v : UInt32) : intHex (hexWord v) = .ok v.toNat := by
  have hhex : ∀ c ∈ hexPad 8 v.toNat, isHex c = true := isHex_of_mem_hexPad
  have hround := ofHex_hexPad 8 v.toNat
  obtain ⟨c, cs, hcs⟩ := List.exists_cons_of_length_pos (hexPad_length_pos 8 v.toNat)
  have hc : c ≠ '_' := by
    rintro rfl
    exact absurd (hhex '_' (by simp [hcs])) (by decide)
  have hdigits : hexDigits (hexPad 8 v.toNat) none = some v.toNat := by
    rw [hcs] at hhex hround ⊢
    rw [hexDigits_cons (hhex c List.mem_cons_self), hexDigits_some fun d hd => hhex d (List.mem_cons_of_mem c hd)]
    exact congrArg some hround
  have hdrop : (hexWord v).drop 2 = hexPad 8 v.toNat := by simp [hexWord]
  rw [intHex, hdrop, if_neg (by simp [hcs, hc]), hdigits]

/-- What a reader of one line makes of a row. -/
theorem find_register_line {r : Row} (h : r.Ok) : (words r.line).find? isRegister = some (hexWord r.cfg0) := by
  rw [Row.line, words_unwords (word_words h), find_isRegister_words]

namespace Touchwatch

theorem pad_table {t : Table} (h : t.Ok) (n : Nat) :
    pad n (some t.text) = .ok ((t.rows.find? (·.pin = n)).map (·.cfg0.toNat)) := by
  have hrows : ∀ rows : List Row, (∀ r ∈ rows, r.Ok) →
      padLines n (rows.map Row.line) = .ok ((rows.find? (·.pin = n)).map (·.cfg0.toNat)) := by
    intro rows hok
    induction rows with
    | nil => rfl
    | cons r rows ih =>
        rw [List.map_cons, padLines]
        by_cases hpin : r.pin = n
        · rw [if_pos ((pinPrefix_line n r).mpr hpin), find_register_line (hok r List.mem_cons_self),
            List.find?_cons_of_pos (by simp [hpin])]
          dsimp only
          rw [intHex_hexWord]
          rfl
        · rw [if_neg (by rw [pinPrefix_line]; exact hpin), List.find?_cons_of_neg (by simp [hpin])]
          exact ih fun s hs => hok s (List.mem_cons_of_mem r hs)
  have hpreamble : ∀ ls : List (List Char), (∀ l ∈ ls, ∀ c ∈ l.head?, c ≠ 'p' ∧ isSpace c = false) →
      padLines n (ls ++ t.rows.map Row.line) = padLines n (t.rows.map Row.line) := by
    intro ls hls
    induction ls with
    | nil => rw [List.nil_append]
    | cons l ls ih =>
        rw [List.cons_append, padLines, if_neg (by simp [not_pinPrefix_preamble n (hls l List.mem_cons_self)])]
        exact ih fun k hk => hls k (List.mem_cons_of_mem l hk)
  rw [pad, (lines_text h).2, hpreamble t.preamble fun l hl => (h.preamble l hl).2, hrows t.rows h.rows]

end Touchwatch

namespace Cswatch

theorem watched_line {r : Row} (h : r.Ok) (ps : List Nat) (out : Nat → Option Nat) :
    ps.foldlM (fun out p => padLine r.line p out) out =
      .ok fun q => if q ∈ ps ∧ r.pin = q then some r.cfg0.toNat else out q := by
  induction ps generalizing out with
  | nil => simp [pure, Except.pure]
  | cons p ps ih =>
      have hline : padLine r.line p out = .ok fun q => if r.pin = p ∧ q = p then some r.cfg0.toNat else out q := by
        rw [padLine]
        by_cases hpin : r.pin = p
        · rw [if_pos ((pinPrefix_line p r).mpr hpin), find_register_line h]
          dsimp only
          rw [intHex_hexWord]
          simp [Except.map, hpin]
        · rw [if_neg (by rw [pinPrefix_line]; exact hpin)]
          simp [hpin]
      rw [List.foldlM_cons, hline]
      refine (ih _).trans (congrArg Except.ok (funext fun q => ?_))
      by_cases hq : r.pin = q
      · by_cases hqp : q = p
        · simp [hq, hqp]
        · simp [hq, hqp]
      · by_cases hqp : q = p
        · simp [hqp, show r.pin ≠ p from hqp ▸ hq]
        · simp [hq, hqp]

theorem watched_preamble {l : List Char} (h : ∀ c ∈ l.head?, c ≠ 'p' ∧ isSpace c = false) (ps : List Nat)
    (out : Nat → Option Nat) : ps.foldlM (fun out p => padLine l p out) out = .ok out := by
  induction ps with
  | nil => rfl
  | cons p ps ih =>
      rw [List.foldlM_cons, padLine, if_neg (by simp [not_pinPrefix_preamble p h])]
      exact ih

theorem readPads_table {t : Table} (h : t.Ok) :
    readPads (some t.text) = .ok fun q => if q ∈ WATCH then (t.rows.find? (·.pin = q)).map (·.cfg0.toNat) else none := by
  have hrows : ∀ rows : List Row, (∀ r ∈ rows, r.Ok) → (rows.map Row.pin).Nodup → ∀ out, padLines (rows.map Row.line) out =
      .ok fun q => if q ∈ WATCH then ((rows.find? (·.pin = q)).map (·.cfg0.toNat)).or (out q) else out q := by
    intro rows hok hpins
    induction rows with
    | nil =>
        intro out
        simp [padLines, pure, Except.pure]
    | cons r rows ih =>
        intro out
        rw [List.map_cons, List.nodup_cons] at hpins
        rw [List.map_cons, padLines, List.foldlM_cons, watched_line (hok r List.mem_cons_self)]
        refine (ih (fun s hs => hok s (List.mem_cons_of_mem r hs)) hpins.2 _).trans (congrArg Except.ok (funext fun q => ?_))
        by_cases hq : q ∈ WATCH
        · by_cases hpin : r.pin = q
          · have hnone : rows.find? (·.pin = q) = none := by
              rw [List.find?_eq_none]
              intro s hs hsq
              refine hpins.1 (List.mem_map.mpr ⟨s, hs, ?_⟩)
              rw [hpin]
              simpa using hsq
            simp [hq, hpin, hnone]
          · simp [hq, hpin]
        · simp [hq]
  have hpreamble : ∀ ls : List (List Char), (∀ l ∈ ls, ∀ c ∈ l.head?, c ≠ 'p' ∧ isSpace c = false) → ∀ out,
      padLines (ls ++ t.rows.map Row.line) out = padLines (t.rows.map Row.line) out := by
    intro ls hls out
    induction ls with
    | nil => rw [List.nil_append]
    | cons l ls ih =>
        rw [List.cons_append, padLines, List.foldlM_cons, watched_preamble (hls l List.mem_cons_self)]
        exact ih fun k hk => hls k (List.mem_cons_of_mem l hk)
  rw [readPads, (lines_text h).2, hpreamble t.preamble fun l hl => (h.preamble l hl).2, hrows t.rows h.rows h.pins]
  simp

end Cswatch

/-- **The readers agree.** Of a table in order `board.py` reads every pad, in order and with everything in it, and `touchwatch.py` and `cswatch.py` find the configuration word of the pad they look for. -/
theorem pad_readers_agree {t : Table} (h : t.Ok) :
    Board.readPads [some t.text] = t.rows.map Row.pad ∧
      (∀ n, Touchwatch.pad n (some t.text) = .ok ((t.rows.find? (·.pin = n)).map (·.cfg0.toNat))) ∧
      Cswatch.readPads (some t.text) =
        .ok fun n => if n ∈ Cswatch.WATCH then (t.rows.find? (·.pin = n)).map (·.cfg0.toNat) else none :=
  ⟨Board.readPads_table h, Touchwatch.pad_table h, Cswatch.readPads_table h⟩

/-! ### What is accepted -/

namespace Board

/-- A pad has a line exactly when it has a chip, whose label is a word; its name ends before a parenthesis, and its configuration word has 32 bits. -/
structure Sound (p : Pad) : Prop where
  line : p.line.isSome = p.chip.isSome
  nonneg : ∀ l ∈ p.line, 0 ≤ l
  chip : ∀ chip ∈ p.chip, Word chip.toList
  name : ')' ∉ p.name.toList
  cfg0 : ∀ v ∈ p.cfg0, v < 2 ^ 32

theorem searchHex_lt {cs : List Char} {v : Nat} (h : searchHex cs = some v) : v < 2 ^ 32 := by
  induction cs with
  | nil => exact absurd h (by simp [searchHex])
  | cons c cs ih =>
      rw [searchHex] at h
      by_cases hat : hexAt (c :: cs) = true
      · rw [if_pos hat] at h
        simp only [hexAt, Bool.and_eq_true, decide_eq_true_eq, List.all_eq_true] at hat
        obtain ⟨⟨-, hlength⟩, hhex⟩ := hat
        have hlt := ofHex_lt hhex
        rw [hlength] at hlt
        obtain rfl := Option.some.inj h
        exact hlt
      · rw [if_neg hat] at h
        exact ih h

theorem gpioGroup_word {cs : List Char} : ∀ g ∈ (gpioGroup cs).1, Word g.2 := by
  intro g hg
  rw [gpioGroup] at hg
  split at hg
  · next gpio chip _ =>
      split at hg
      · exact absurd hg (by simp)
      · next hne =>
          obtain rfl := Option.some.inj hg
          refine ⟨hne, fun c hc => ?_⟩
          simpa using List.mem_takeWhile_imp hc
  · exact absurd hg (by simp)

theorem nameGroup_some {cs name rest : List Char} (h : nameGroup cs = some (name, rest)) : ')' ∉ name := by
  rw [nameGroup.eq_def] at h
  split at h
  · next cs =>
      split at h
      · exact absurd h (by simp)
      · obtain ⟨rfl, -⟩ := Prod.mk.inj (Option.some.inj h)
        intro hmem
        simpa using List.mem_takeWhile_imp hmem
  · exact absurd h (by simp)

theorem padRe_some {line : List Char} {m : PadMatch} (h : padRe line = some m) :
    (∀ g ∈ m.gpio, Word g.2) ∧ ')' ∉ m.name := by
  rw [padRe.eq_def] at h
  split at h
  · simp only [bind, Option.bind_eq_some_iff, pure, Option.some.injEq] at h
    obtain ⟨cs₁, -, ⟨pin, cs₂⟩, -, cs₃, -, ⟨name, cs₄⟩, hname, cs₅, -, rfl⟩ := h
    exact ⟨gpioGroup_word, nameGroup_some hname⟩
  · exact absurd h (by simp)

/-- **Whatever text is read, the pads that are accepted are sound.** -/
theorem readPads_sound (files : List (Option (List Char))) : ∀ p ∈ readPads files, Sound p := by
  intro p hp
  obtain ⟨file, -, hp⟩ := List.mem_flatMap.mp hp
  cases file with
  | none => exact absurd hp List.not_mem_nil
  | some text =>
      obtain ⟨line, -, hline⟩ := List.mem_filterMap.mp hp
      obtain ⟨m, hm, rfl⟩ := Option.map_eq_some_iff.mp hline
      obtain ⟨hgpio, hname⟩ := padRe_some hm
      refine ⟨by simp [padOf], ?_, ?_, by simpa [padOf] using hname, fun v hv => searchHex_lt hv⟩
      · intro l hl
        obtain ⟨g, -, rfl⟩ := Option.map_eq_some_iff.mp hl
        omega
      · intro chip hchip
        obtain ⟨g, hg, rfl⟩ := Option.map_eq_some_iff.mp hchip
        rw [String.toList_ofList]
        exact hgpio g hg

end Board

/-- The interrupt's pad and the chip select's. -/
def twoPads : Table where
  preamble := [['r', 'e', 'g', 'i', 's', 't', 'e', 'r', 'e', 'd', ' ', 'p', 'i', 'n', 's', ':', ' ', '2']]
  rows :=
    [ ⟨41, ['G', 'S', 'P', 'I', '0', '_', 'C', 'L', 'K'], some (48, ['I', 'N', 'T', '3', '4', 'B', 'B', ':', '0', '0']), none,
        0x40100102, [0x40, 0x10], [['[', 'L', 'O', 'C', 'K', 'E', 'D'], ['f', 'u', 'l', 'l', ']']]⟩,
      ⟨44, ['G', 'S', 'P', 'I', '1', '_', 'C', 'S', '0', 'B'], none, some 1, 0x44000700, [], []⟩ ]

theorem twoPads_ok : twoPads.Ok where
  preamble := by simp [twoPads, isBreak, isSpace]
  rows := by
    intro r hr
    simp only [twoPads, List.mem_cons, List.not_mem_nil, or_false] at hr
    rcases hr with rfl | rfl
    · refine ⟨by simp [isSpace], ?_, ?_⟩
      · intro g hg
        cases hg
        decide
      · simp only [List.mem_cons, List.not_mem_nil, or_false]
        rintro w (rfl | rfl)
        · exact ⟨by decide, by decide⟩
        · exact ⟨by decide, by decide⟩
    · exact ⟨by simp [isSpace], by simp, by simp⟩
  pins := by decide

theorem pad_readers_agree_twoPads :
    Board.readPads [some twoPads.text] = twoPads.rows.map Row.pad ∧
      Touchwatch.pad 41 (some twoPads.text) = .ok (some 0x40100102) ∧
      ∃ m, Cswatch.readPads (some twoPads.text) = .ok m ∧ m 44 = some 0x44000700 ∧ m 41 = none := by
  obtain ⟨hboard, htouch, hcs⟩ := pad_readers_agree twoPads_ok
  exact ⟨hboard, htouch 41, _, hcs, rfl, rfl⟩

theorem readPads_sound_twoPads :
    ∃ p, p ∈ Board.readPads [some twoPads.text] ∧ p.line = some 48 ∧ p.chip.isSome = true ∧ Board.Sound p := by
  have hp : Row.pad (twoPads.rows.get ⟨0, by decide⟩) ∈ Board.readPads [some twoPads.text] := by
    rw [Board.readPads_table twoPads_ok]
    exact List.mem_map_of_mem (List.get_mem _ _)
  exact ⟨_, hp, rfl, rfl, Board.readPads_sound _ _ hp⟩

end GoodixSpi.Tools
