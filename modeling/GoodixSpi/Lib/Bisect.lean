import GoodixSpi.Lib.Loop
import Mathlib.Data.List.Pairwise
import Mathlib.Order.Lattice

/-!
# Binary search

`bisect_right` as a loop over the part of the list where the insertion point still may be. On a sorted list the insertion point of `x` parts the members up to `x` from those beyond it. So among intervals without overlaps that are sorted by their starts, the one before the insertion point is the only one that can have `x`.
-/

namespace Bisect

/-- The half-open part of a list of length `n` that is still searched. -/
structure Span (n : Nat) where
  lo : Nat
  hi : Nat
  ordered : lo ≤ hi
  bound : hi ≤ n

theorem Span.mid_lt {n : Nat} {s : Span n} (h : s.lo < s.hi) : (s.lo + s.hi) / 2 < s.hi := by omega

def Span.lower {n : Nat} (s : Span n) : Span n where
  lo := s.lo
  hi := (s.lo + s.hi) / 2
  ordered := by have := s.ordered; omega
  bound := by have := s.ordered; have := s.bound; omega

def Span.upper {n : Nat} (s : Span n) (h : s.lo < s.hi) : Span n where
  lo := (s.lo + s.hi) / 2 + 1
  hi := s.hi
  ordered := Span.mid_lt h
  bound := s.bound

variable {α : Type} [LinearOrder α]

def bisectTurn (a : List α) (x : α) (s : Span a.length) : Nat ⊕ Span a.length :=
  if h : s.lo < s.hi then
    if x < a.get ⟨(s.lo + s.hi) / 2, Nat.lt_of_lt_of_le (Span.mid_lt h) s.bound⟩ then .inr s.lower
    else .inr (s.upper h)
  else .inl s.lo

theorem bisectTurn_go {a : List α} {x : α} {s s' : Span a.length} (h : bisectTurn a x s = .inr s') :
    ∃ (hlt : s.lo < s.hi) (hmid : (s.lo + s.hi) / 2 < a.length),
      (x < a[(s.lo + s.hi) / 2] ∧ s' = s.lower) ∨ (a[(s.lo + s.hi) / 2] ≤ x ∧ s' = s.upper hlt) := by
  rw [bisectTurn] at h
  split at h
  · rename_i hlt
    refine ⟨hlt, Nat.lt_of_lt_of_le (Span.mid_lt hlt) s.bound, ?_⟩
    split at h
    · rename_i hx
      exact .inl ⟨hx, (Sum.inr.inj h).symm⟩
    · rename_i hx
      exact .inr ⟨not_lt.mp hx, (Sum.inr.inj h).symm⟩
  · exact absurd h (by simp)

theorem bisectTurn_leave {a : List α} {x : α} {s : Span a.length} {i : Nat} (h : bisectTurn a x s = .inl i) :
    i = s.lo ∧ i = s.hi := by
  rw [bisectTurn] at h
  split at h
  · split at h <;> exact absurd h (by simp)
  · have := s.ordered
    obtain rfl := Sum.inl.inj h
    exact ⟨rfl, by omega⟩

def bisectLoop (a : List α) (x : α) : BoundedLoop (Span a.length) Nat where
  turn := bisectTurn a x
  rank s := s.hi - s.lo
  falls {s s'} h := by
    obtain ⟨hlt, -, ⟨-, rfl⟩ | ⟨-, rfl⟩⟩ := bisectTurn_go h
    · simp only [Span.lower]
      omega
    · simp only [Span.upper]
      omega

/-- `bisect.bisect_right(a, x)`. -/
def bisectRight (a : List α) (x : α) : Nat := (bisectLoop a x).run ⟨0, a.length, Nat.zero_le _, Nat.le_refl _⟩

/-- Left of the span are members up to `x`, and right of it members beyond `x`. -/
structure Narrowed (a : List α) (x : α) (s : Span a.length) : Prop where
  left : ∀ k (h : k < a.length), k < s.lo → a[k] ≤ x
  right : ∀ k (h : k < a.length), s.hi ≤ k → x < a[k]

theorem Narrowed.turn {a : List α} (ha : a.Pairwise (· ≤ ·)) {x : α} {s s' : Span a.length} (hs : Narrowed a x s)
    (hturn : bisectTurn a x s = .inr s') : Narrowed a x s' := by
  have hmono : ∀ j k (hj : j ≤ k) (hk : k < a.length), a[j] ≤ a[k] := by
    intro j k hj hk
    rcases Nat.eq_or_lt_of_le hj with rfl | hlt
    · exact le_refl _
    · exact List.pairwise_iff_getElem.mp ha j k _ hk hlt
  obtain ⟨hlt, hmid, ⟨hx, rfl⟩ | ⟨hx, rfl⟩⟩ := bisectTurn_go hturn
  · exact ⟨hs.left, fun k hk hle => lt_of_lt_of_le hx (hmono _ k hle hk)⟩
  · exact ⟨fun k hk hlt => le_trans (hmono k _ (Nat.le_of_lt_succ hlt) hmid) hx, hs.right⟩

theorem bisectRight_le (a : List α) (x : α) : bisectRight a x ≤ a.length := by
  apply BoundedLoop.run_spec (L := bisectLoop a x) (I := fun _ => True) (Q := fun i => i ≤ a.length)
  · intro s s' hs hturn
    trivial
  · intro s i hs hturn
    rw [(bisectTurn_leave hturn).2]
    exact s.bound
  · trivial

/-- **The insertion point parts a sorted list.** -/
theorem lt_bisectRight_iff {a : List α} (ha : a.Pairwise (· ≤ ·)) (x : α) :
    ∀ k (h : k < a.length), k < bisectRight a x ↔ a[k] ≤ x := by
  apply BoundedLoop.run_spec (L := bisectLoop a x) (I := Narrowed a x)
    (Q := fun i => ∀ k (h : k < a.length), k < i ↔ a[k] ≤ x)
  · intro s s' hs hturn
    exact hs.turn ha hturn
  · intro s i hs hturn k hk
    obtain ⟨hlo, hhi⟩ := bisectTurn_leave hturn
    constructor
    · intro hlt
      exact hs.left k hk (hlo ▸ hlt)
    · intro hle
      by_contra hge
      exact absurd (hs.right k hk (hhi ▸ Nat.not_lt.mp hge)) (not_lt.mpr hle)
  · exact ⟨fun k hk hlt => absurd hlt (Nat.not_lt_zero k), fun k hk hge => absurd hk (Nat.not_lt.mpr hge)⟩

/-! ### Intervals -/

variable {ι : Type} {items : List ι} {start : ι → α}

/-- The item at `bisect_right([start(p) for p in items], x) - 1`, if that is not negative. -/
def lastFrom (items : List ι) (start : ι → α) (x : α) : Option ι :=
  if bisectRight (items.map start) x = 0 then none else items[bisectRight (items.map start) x - 1]?

theorem lt_bisectRight_map_iff (hsorted : items.Pairwise fun p q => start p ≤ start q) (x : α) {k : Nat}
    (hk : k < items.length) : k < bisectRight (items.map start) x ↔ start items[k] ≤ x := by
  have hstarts : (items.map start).Pairwise (· ≤ ·) := List.pairwise_map.mpr hsorted
  have hlen : k < (items.map start).length := by rwa [List.length_map]
  rw [lt_bisectRight_iff hstarts x k hlen, List.getElem_map]

theorem lastFrom_start_le (hsorted : items.Pairwise fun p q => start p ≤ start q) {x : α} {p : ι}
    (h : lastFrom items start x = some p) : p ∈ items ∧ start p ≤ x := by
  rw [lastFrom] at h
  split at h
  · exact absurd h (by simp)
  · obtain ⟨hk, rfl⟩ := List.getElem?_eq_some_iff.mp h
    exact ⟨List.getElem_mem hk, (lt_bisectRight_map_iff hsorted x hk).mp (by omega)⟩

/-- **Among sorted intervals without overlaps, only the last that begins at `x` or before it can have `x`.** -/
theorem lastFrom_eq_some (stop : ι → α) (hsorted : items.Pairwise fun p q => start p ≤ start q)
    (hapart : items.Pairwise fun p q => ∀ y, ¬ ((start p ≤ y ∧ y < stop p) ∧ start q ≤ y ∧ y < stop q))
    (hproper : ∀ p ∈ items, start p < stop p) {x : α} {p : ι} (hp : p ∈ items) (hx : start p ≤ x ∧ x < stop p) :
    lastFrom items start x = some p := by
  obtain ⟨k, hk, rfl⟩ := List.mem_iff_getElem.mp hp
  have hlt := (lt_bisectRight_map_iff hsorted x hk).mpr hx.1
  have hlast : bisectRight (items.map start) x - 1 < items.length := by
    have hle := bisectRight_le (items.map start) x
    rw [List.length_map] at hle
    omega
  rw [lastFrom, if_neg (by omega), List.getElem?_eq_some_iff]
  refine ⟨hlast, ?_⟩
  -- A later item that also begins at `x` or before it would begin inside `items[k]`.
  rcases Nat.eq_or_lt_of_le (Nat.le_sub_one_of_lt hlt) with heq | hbefore
  · simp only [← heq]
  · exfalso
    have hstart := (lt_bisectRight_map_iff hsorted x hlast).mp (by omega)
    have hle := List.pairwise_iff_getElem.mp hsorted k _ hk hlast hbefore
    have hoverlap := List.pairwise_iff_getElem.mp hapart k _ hk hlast hbefore
    exact hoverlap _ ⟨⟨hle, lt_of_le_of_lt hstart hx.2⟩, le_refl _, hproper _ (List.getElem_mem hlast)⟩

end Bisect
