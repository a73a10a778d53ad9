import Mathlib.Algebra.Group.Nat.Defs
import Mathlib.Data.List.Basic
import Mathlib.Data.List.Induction

/-!
# Hexadecimal in text

What `%02x` and its like print, and reading it back. A text is a list of characters. Reading stops at the first character that is no digit, so a numeral is read back from in front of anything that does not begin with one.
-/

namespace Text

/-- The value of a lower-case digit. -/
def hexValue (c : Char) : Option Nat :=
  if 48 ≤ c.toNat ∧ c.toNat ≤ 57 then some (c.toNat - 48)
  else if 97 ≤ c.toNat ∧ c.toNat ≤ 102 then some (c.toNat - 87) else none

def isHex (c : Char) : Bool := (hexValue c).isSome

def ofHex (cs : List Char) : Nat := cs.foldl (fun n c => 16 * n + (hexValue c).getD 0) 0

/-- `"%0wx" % n`. -/
def hexPad (w n : Nat) : List Char := List.replicate (w - (Nat.toDigits 16 n).length) '0' ++ Nat.toDigits 16 n

/-- The numeral at the front. -/
def readHex (cs : List Char) : Nat := ofHex (cs.takeWhile isHex)

theorem hexValue_digitChar : ∀ d < 16, hexValue d.digitChar = some d := by decide

theorem isHex_digitChar {d : Nat} (hd : d < 16) : isHex d.digitChar = true := by
  rw [isHex, hexValue_digitChar d hd, Option.isSome_some]

theorem isHex_of_mem_toDigits (n : Nat) : ∀ c ∈ Nat.toDigits 16 n, isHex c = true := by
  induction n using Nat.strongRecOn with
  | ind n ih =>
      rw [Nat.toDigits_eq_if (by decide)]
      by_cases hn : n < 16
      · simpa [hn] using isHex_digitChar hn
      · intro c hc
        rw [if_neg hn, List.mem_append, List.mem_singleton] at hc
        rcases hc with hc | rfl
        · exact ih (n / 16) (by omega) c hc
        · exact isHex_digitChar (Nat.mod_lt n (by decide))

theorem ofHex_append_singleton (cs : List Char) (c : Char) : ofHex (cs ++ [c]) = 16 * ofHex cs + (hexValue c).getD 0 := by
  simp [ofHex]

theorem ofHex_toDigits (n : Nat) : ofHex (Nat.toDigits 16 n) = n := by
  induction n using Nat.strongRecOn with
  | ind n ih =>
      rw [Nat.toDigits_eq_if (by decide)]
      by_cases hn : n < 16
      · simp [hn, ofHex, hexValue_digitChar n hn]
      · rw [if_neg hn, ofHex_append_singleton, ih (n / 16) (by omega),
          hexValue_digitChar _ (Nat.mod_lt n (by decide)), Option.getD_some]
        omega

theorem hexValue_lt {c : Char} (h : isHex c = true) : (hexValue c).getD 0 < 16 := by
  obtain ⟨d, hd⟩ := Option.isSome_iff_exists.mp h
  rw [hd, Option.getD_some]
  rw [hexValue] at hd
  split at hd
  · obtain rfl := Option.some.inj hd
    omega
  · split at hd
    · obtain rfl := Option.some.inj hd
      omega
    · exact absurd hd (by simp)

theorem ofHex_lt {cs : List Char} (h : ∀ c ∈ cs, isHex c = true) : ofHex cs < 16 ^ cs.length := by
  induction cs using List.reverseRecOn with
  | nil => simp [ofHex]
  | append_singleton cs c ih =>
      have hcs := ih fun d hd => h d (List.mem_append_left [c] hd)
      have hc := hexValue_lt (h c (by simp))
      rw [ofHex_append_singleton, List.length_append, List.length_singleton, Nat.pow_succ]
      omega

theorem isHex_of_mem_hexPad {w n : Nat} : ∀ c ∈ hexPad w n, isHex c = true := by
  intro c hc
  rcases List.mem_append.mp hc with hc | hc
  · rw [List.eq_of_mem_replicate hc]
    rfl
  · exact isHex_of_mem_toDigits n c hc

theorem ofHex_hexPad (w n : Nat) : ofHex (hexPad w n) = n := by
  have hzeros (k : Nat) : (List.replicate k '0').foldl (fun n c => 16 * n + (hexValue c).getD 0) 0 = 0 := by
    induction k with
    | zero => rfl
    | succ k ih =>
        rw [List.replicate_succ, List.foldl_cons]
        exact ih
  rw [ofHex, hexPad, List.foldl_append, hzeros]
  exact ofHex_toDigits n

theorem hexPad_length {w n : Nat} (hw : 0 < w) (hn : n < 16 ^ w) : (hexPad w n).length = w := by
  have hle := (Nat.length_toDigits_le_iff (b := 16) (by decide) hw).mpr hn
  rw [hexPad, List.length_append, List.length_replicate]
  omega

theorem hexPad_length_pos (w n : Nat) : 0 < (hexPad w n).length := by
  rw [hexPad, List.length_append]
  exact Nat.add_pos_right _ Nat.length_toDigits_pos

theorem takeWhile_hexPad (w n : Nat) {rest : List Char} (hrest : ∀ c ∈ rest.head?, isHex c = false) :
    (hexPad w n ++ rest).takeWhile isHex = hexPad w n := by
  rw [List.takeWhile_append_of_pos isHex_of_mem_hexPad]
  cases rest with
  | nil => simp
  | cons c rest => simp [hrest c rfl]

theorem dropWhile_hexPad (w n : Nat) {rest : List Char} (hrest : ∀ c ∈ rest.head?, isHex c = false) :
    (hexPad w n ++ rest).dropWhile isHex = rest := by
  rw [List.dropWhile_append_of_pos isHex_of_mem_hexPad]
  cases rest with
  | nil => rfl
  | cons c rest => simp [hrest c rfl]

/-- **Round trip.** -/
theorem readHex_hexPad (w n : Nat) {rest : List Char} (hrest : ∀ c ∈ rest.head?, isHex c = false) :
    readHex (hexPad w n ++ rest) = n := by
  rw [readHex, takeWhile_hexPad w n hrest, ofHex_hexPad]

end Text
