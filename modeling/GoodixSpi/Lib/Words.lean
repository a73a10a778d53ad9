import Mathlib.Data.List.Infix

/-!
# Words and lines of a text

A text, a list of characters in ASCII, cut into lines and words as Python's `str` methods cut it, and words put together with single spaces. What is put together is cut apart again, and a pattern without a space is found in the whole exactly when it is found in a word.
-/

namespace Text

/-- `str.isspace`. -/
def isSpace (c : Char) : Bool := (9 ≤ c.toNat && c.toNat ≤ 13) || (28 ≤ c.toNat && c.toNat ≤ 32)

/-- Where `str.splitlines` ends a line. -/
def isBreak (c : Char) : Bool := (10 ≤ c.toNat && c.toNat ≤ 13) || (28 ≤ c.toNat && c.toNat ≤ 30)

/-- The pieces between the characters that end one, `cur` being the beginning of the first; what is left at the end is a piece when it is not empty. -/
def cutFrom (ends : Char → Bool) (cur : List Char) : List Char → List (List Char)
  | [] => if cur = [] then [] else [cur]
  | c :: cs => if ends c then cur :: cutFrom ends [] cs else cutFrom ends (cur ++ [c]) cs

def cut (ends : Char → Bool) (text : List Char) : List (List Char) := cutFrom ends [] text

/-- `text.split()`. -/
def words (text : List Char) : List (List Char) := (cut isSpace text).filter (· ≠ [])

/-- `text.strip()`. -/
def strip (text : List Char) : List Char := ((text.dropWhile isSpace).reverse.dropWhile isSpace).reverse

/-- The newlines of a file that is read as text. -/
def universal : List Char → List Char
  | [] => []
  | '\r' :: '\n' :: cs => '\n' :: universal cs
  | c :: cs => (if c = '\r' then '\n' else c) :: universal cs

/-- The words with a space between any two. -/
def unwords : List (List Char) → List Char
  | [] => []
  | [w] => w
  | w :: w' :: ws => w ++ ' ' :: unwords (w' :: ws)

structure Word (w : List Char) : Prop where
  nonempty : w ≠ []
  solid : ∀ c ∈ w, isSpace c = false

theorem word_iff {w : List Char} : Word w ↔ w ≠ [] ∧ (w.any isSpace) = false := by
  simp only [List.any_eq_false, Bool.not_eq_true]
  exact ⟨fun h => ⟨h.nonempty, h.solid⟩, fun h => ⟨h.1, h.2⟩⟩

instance decidableWord (w : List Char) : Decidable (Word w) := decidable_of_iff _ word_iff.symm

theorem Word.no_blank {w : List Char} (h : Word w) : ' ' ∉ w := fun hmem => absurd (h.solid ' ' hmem) (by decide)

/-! ### Cutting -/

section Cut

variable {ends : Char → Bool}

theorem cutFrom_append (cur : List Char) {w : List Char} (hw : ∀ c ∈ w, ends c = false) {c : Char} (hc : ends c = true)
    (rest : List Char) : cutFrom ends cur (w ++ c :: rest) = (cur ++ w) :: cut ends rest := by
  induction w generalizing cur with
  | nil => simp [cutFrom, hc, cut]
  | cons d w ih =>
      rw [List.cons_append, cutFrom, if_neg (by simp [hw d List.mem_cons_self]), ih _ fun c h => hw c (List.mem_cons_of_mem d h)]
      simp

theorem cut_append {w : List Char} (hw : ∀ c ∈ w, ends c = false) {c : Char} (hc : ends c = true) (rest : List Char) :
    cut ends (w ++ c :: rest) = w :: cut ends rest := by
  rw [cut, cutFrom_append [] hw hc, List.nil_append]

theorem cutFrom_solid (cur : List Char) {w : List Char} (hw : ∀ c ∈ w, ends c = false) :
    cutFrom ends cur w = if cur ++ w = [] then [] else [cur ++ w] := by
  induction w generalizing cur with
  | nil => simp [cutFrom]
  | cons d w ih =>
      rw [cutFrom, if_neg (by simp [hw d List.mem_cons_self]), ih _ fun c h => hw c (List.mem_cons_of_mem d h)]
      simp

theorem cut_lines {c : Char} (hc : ends c = true) {lines : List (List Char)} (h : ∀ l ∈ lines, ∀ x ∈ l, ends x = false) :
    cut ends (lines.flatMap (· ++ [c])) = lines := by
  induction lines with
  | nil => simp [cut, cutFrom]
  | cons l lines ih =>
      rw [List.flatMap_cons, List.append_assoc, List.singleton_append, cut_append (h l List.mem_cons_self) hc,
        ih fun l' hl' => h l' (List.mem_cons_of_mem l hl')]

end Cut

theorem words_unwords {ws : List (List Char)} (h : ∀ w ∈ ws, Word w) : words (unwords ws) = ws := by
  induction ws with
  | nil => simp [unwords, words, cut, cutFrom]
  | cons w ws ih =>
      have hw := h w List.mem_cons_self
      cases ws with
      | nil => simp [unwords, words, cut, cutFrom_solid [] hw.solid, hw.nonempty]
      | cons w' ws =>
          have hrest := ih fun v hv => h v (List.mem_cons_of_mem w hv)
          rw [words] at hrest ⊢
          rw [unwords, cut_append hw.solid (show isSpace ' ' = true by decide), List.filter_cons_of_pos (by simp [hw.nonempty]),
            hrest]

theorem universal_eq {text : List Char} (h : '\r' ∉ text) : universal text = text := by
  induction text with
  | nil => simp [universal]
  | cons c cs ih =>
      obtain ⟨hc, hcs⟩ := List.ne_and_not_mem_of_not_mem_cons h
      rw [universal.eq_3 _ _ (fun _ heq _ => hc heq.symm), if_neg (Ne.symm hc), ih hcs]

/-! ### Both ends -/

theorem dropWhile_of_head {p : Char → Bool} {cs : List Char} (h : ∀ c ∈ cs.head?, p c = false) : cs.dropWhile p = cs := by
  cases cs with
  | nil => simp
  | cons c cs => simp [h c rfl]

/-- What a character that fails the test ends. -/
theorem takeWhile_append_cons {p : Char → Bool} {w : List Char} (hw : ∀ x ∈ w, p x = true) {c : Char} (hc : p c = false)
    (cs : List Char) : (w ++ c :: cs).takeWhile p = w := by
  rw [List.takeWhile_append_of_pos hw, List.takeWhile_cons_of_neg (by simp [hc]), List.append_nil]

theorem dropWhile_append_cons {p : Char → Bool} {w : List Char} (hw : ∀ x ∈ w, p x = true) {c : Char} (hc : p c = false)
    (cs : List Char) : (w ++ c :: cs).dropWhile p = c :: cs := by
  rw [List.dropWhile_append_of_pos hw, List.dropWhile_cons_of_neg (by simp [hc])]

theorem strip_prefix (text : List Char) : strip text <+: text.dropWhile isSpace := by
  rw [strip, ← List.reverse_suffix, List.reverse_reverse]
  exact List.dropWhile_suffix _

theorem strip_eq {text : List Char} (hhead : ∀ c ∈ text.head?, isSpace c = false)
    (hlast : ∀ c ∈ text.getLast?, isSpace c = false) : strip text = text := by
  rw [strip, dropWhile_of_head hhead, dropWhile_of_head (by rwa [List.head?_reverse]), List.reverse_reverse]

theorem head?_unwords {w : List Char} (hw : w ≠ []) (ws : List (List Char)) : (unwords (w :: ws)).head? = w.head? := by
  cases ws with
  | nil => rw [unwords]
  | cons w' ws => rw [unwords, List.head?_append_of_ne_nil _ hw]

theorem unwords_ne_nil {ws : List (List Char)} (h : ∀ w ∈ ws, Word w) (hne : ws ≠ []) : unwords ws ≠ [] := by
  obtain ⟨w, ws, rfl⟩ := List.exists_cons_of_ne_nil hne
  have hw := (h w List.mem_cons_self).nonempty
  have hhead := head?_unwords hw ws
  intro heq
  rw [heq] at hhead
  exact hw (by simpa using hhead.symm)

theorem getLast?_unwords {ws : List (List Char)} (h : ∀ w ∈ ws, Word w) :
    ∀ c ∈ (unwords ws).getLast?, isSpace c = false := by
  induction ws with
  | nil => simp [unwords]
  | cons w ws ih =>
      have hw := h w List.mem_cons_self
      cases ws with
      | nil => exact fun c hc => hw.solid c (List.mem_of_getLast? hc)
      | cons w' ws =>
          have hrest := ih fun v hv => h v (List.mem_cons_of_mem w hv)
          have hne := unwords_ne_nil (fun v hv => h v (List.mem_cons_of_mem w hv)) (List.cons_ne_nil w' ws)
          rw [unwords, List.getLast?_append_of_ne_nil _ (List.cons_ne_nil _ _), List.getLast?_cons_of_ne_nil hne]
          exact hrest

theorem strip_unwords {ws : List (List Char)} (h : ∀ w ∈ ws, Word w) : strip (unwords ws) = unwords ws := by
  refine strip_eq ?_ (getLast?_unwords h)
  cases ws with
  | nil => simp [unwords]
  | cons w ws =>
      have hw := h w List.mem_cons_self
      rw [head?_unwords hw.nonempty]
      exact fun c hc => hw.solid c (List.mem_of_mem_head? hc)

/-! ### Looking for a pattern -/

theorem prefix_append_cons {α : Type} {pat u v : List α} {sep : α} (hsep : sep ∉ pat) :
    pat <+: u ++ sep :: v ↔ pat <+: u := by
  induction u generalizing pat with
  | nil =>
      cases pat with
      | nil => simp
      | cons p pat =>
          have hne : p ≠ sep := fun heq => hsep (heq ▸ List.mem_cons_self)
          simp [hne]
  | cons c u ih =>
      cases pat with
      | nil => simp
      | cons p pat =>
          rw [List.cons_append, List.cons_prefix_cons, List.cons_prefix_cons, ih fun h => hsep (List.mem_cons_of_mem p h)]

theorem infix_append_cons {α : Type} {pat u v : List α} {sep : α} (hne : pat ≠ []) (hsep : sep ∉ pat) :
    pat <:+: u ++ sep :: v ↔ pat <:+: u ∨ pat <:+: v := by
  induction u with
  | nil =>
      have hprefix : ¬ pat <+: sep :: v := by
        have hiff := prefix_append_cons (u := []) (v := v) hsep
        rw [List.nil_append] at hiff
        simpa [hiff] using hne
      rw [List.nil_append, List.infix_cons_iff, List.infix_nil]
      exact ⟨fun h => Or.inr (h.resolve_left hprefix), fun h => Or.inr (h.resolve_left hne)⟩
  | cons c u ih =>
      rw [List.cons_append, List.infix_cons_iff, List.infix_cons_iff, ih, ← List.cons_append, prefix_append_cons hsep, or_assoc]

/-- A pattern without a space is found in a word or not at all. -/
theorem infix_unwords {pat : List Char} (hne : pat ≠ []) (hblank : ' ' ∉ pat) (ws : List (List Char)) :
    pat <:+: unwords ws ↔ ∃ w ∈ ws, pat <:+: w := by
  induction ws with
  | nil => simp [unwords, hne]
  | cons w ws ih =>
      cases ws with
      | nil => simp [unwords]
      | cons w' ws => simp only [unwords, infix_append_cons hne hblank, ih, List.mem_cons, exists_eq_or_imp]

theorem infix_append_of_head {α : Type} {p : α} {pat w u : List α} (h : p ∉ w) : p :: pat <:+: w ++ u ↔ p :: pat <:+: u := by
  induction w with
  | nil => rw [List.nil_append]
  | cons c w ih =>
      obtain ⟨hc, hw⟩ := List.ne_and_not_mem_of_not_mem_cons h
      rw [List.cons_append, List.infix_cons_iff, ih hw, List.cons_prefix_cons]
      exact ⟨fun hor => hor.resolve_left fun hand => hc hand.1, Or.inr⟩

theorem append_prefix_append {α : Type} {g w u : List α} {sep : α} (hg : sep ∉ g) (hw : sep ∉ w) :
    g ++ [sep] <+: w ++ sep :: u ↔ g = w := by
  induction g generalizing w with
  | nil =>
      cases w with
      | nil => simp
      | cons c w => simp [List.cons_prefix_cons, (List.ne_and_not_mem_of_not_mem_cons hw).1]
  | cons d g ih =>
      obtain ⟨hd, hg⟩ := List.ne_and_not_mem_of_not_mem_cons hg
      cases w with
      | nil => simp [List.cons_prefix_cons, Ne.symm hd]
      | cons c w =>
          rw [List.cons_append, List.cons_append, List.cons_prefix_cons, ih hg (List.ne_and_not_mem_of_not_mem_cons hw).2,
            List.cons.injEq]

/-- A word between spaces is found where it is a word. -/
theorem padded_infix_unwords {g : List Char} (hg : ' ' ∉ g) {ws : List (List Char)} (h : ∀ w ∈ ws, ' ' ∉ w) (hne : ws ≠ []) :
    ' ' :: (g ++ [' ']) <:+: ' ' :: (unwords ws ++ [' ']) ↔ g ∈ ws := by
  have hfirst {w u : List Char} (hw : ' ' ∉ w) :
      ' ' :: (g ++ [' ']) <:+: ' ' :: (w ++ ' ' :: u) ↔ g = w ∨ ' ' :: (g ++ [' ']) <:+: ' ' :: u := by
    rw [List.infix_cons_iff, List.cons_prefix_cons, append_prefix_append hg hw, infix_append_of_head hw]
    simp
  induction ws with
  | nil => exact absurd rfl hne
  | cons w ws ih =>
      have hw := h w List.mem_cons_self
      cases ws with
      | nil =>
          have hshort : ¬ ' ' :: (g ++ [' ']) <:+: [' '] := fun hinfix => by simpa using hinfix.length_le
          rw [unwords, hfirst hw, List.mem_singleton]
          exact ⟨fun hor => hor.resolve_right hshort, Or.inl⟩
      | cons w' ws =>
          have hrest := ih (fun v hv => h v (List.mem_cons_of_mem w hv)) (List.cons_ne_nil w' ws)
          rw [unwords, List.append_assoc, List.cons_append, hfirst hw, List.mem_cons]
          exact or_congr_right hrest

end Text
