import Mathlib.Data.Nat.Bitwise
import Mathlib.Tactic.Ring

/-!
# Byte strings, little-endian fields and modular sums

What a byte-oriented wire format rests on: the two bytes of a 16-bit field and the value they carry back, sums of bytes, and the masks and shifts a source writes for them. Nothing here knows of a particular protocol.
-/

namespace Wire

abbrev Bytes := List UInt8

/-- The sum of the bytes as unbounded integers. -/
def total (b : Bytes) : Nat := (b.map UInt8.toNat).sum

/-- `x & 0xFF` of a possibly negative integer, as a byte. -/
def low8 (x : Int) : UInt8 := UInt8.ofNat (x % 256).toNat

/-- The half-open slice `b[start:stop]`, clamped to the string as slices are. -/
def slice (b : Bytes) (start stop : Nat) : Bytes := (b.take stop).drop start

/-- The value of a little-endian 16-bit field. -/
def le16 (lo hi : UInt8) : Nat := lo.toNat + 256 * hi.toNat

/-- The value of a little-endian field of any width. -/
def fromLittle (b : Bytes) : Nat := b.foldr (fun x n => x.toNat + 256 * n) 0

/-- The field of `n` bytes at `off`, if it lies inside the string. -/
def unpack (n : Nat) (b : Bytes) (off : Nat) : Option Nat :=
  if off + n ≤ b.length then some (fromLittle (slice b off (off + n))) else none

@[simp] theorem total_nil : total [] = 0 := rfl

@[simp] theorem total_cons (x : UInt8) (b : Bytes) : total (x :: b) = x.toNat + total b := by
  simp [total]

theorem total_set {b : Bytes} {i : Nat} {x y : UInt8} (hi : b[i]? = some y) :
    total (b.set i x) + y.toNat = total b + x.toNat := by
  induction b generalizing i with
  | nil => exact absurd hi (by simp)
  | cons z b ih =>
      cases i with
      | zero =>
          obtain rfl : z = y := by simpa using hi
          simp only [List.set_cons_zero, total_cons]
          omega
      | succ i =>
          have hrest := ih (i := i) (by simpa using hi)
          simp only [List.set_cons_succ, total_cons]
          omega

/-! ### Masks and shifts -/

theorem and_ff (n : Nat) : n &&& 0xFF = n % 256 := Nat.and_two_pow_sub_one_eq_mod n 8

theorem and_0f (n : Nat) : n &&& 0x0F = n % 16 := Nat.and_two_pow_sub_one_eq_mod n 4

theorem and_07 (n : Nat) : n &&& 7 = n % 8 := Nat.and_two_pow_sub_one_eq_mod n 3

theorem shiftRight_8 (n : Nat) : n >>> 8 = n / 256 := Nat.shiftRight_eq_div_pow n 8

/-- Two adjacent bit fields packed by a shift and an or are their weighted sum. -/
theorem shiftLeft_or {k low : Nat} (high : Nat) (hlow : low < 2 ^ k) :
    (high <<< k) ||| low = 2 ^ k * high + low := by
  rw [← Nat.shiftLeft_add_eq_or_of_lt hlow, Nat.shiftLeft_eq, Nat.mul_comm]

/-- The field as a C or Python source reads it, `lo | (hi << 8)`. -/
theorem or_shiftLeft_8 (lo hi : UInt8) : lo.toNat ||| (hi.toNat <<< 8) = le16 lo hi := by
  rw [Nat.or_comm, shiftLeft_or hi.toNat lo.toNat_lt, le16]
  omega

/-! ### Bytes of integers -/

@[simp] theorem toNat_ofNat_mod (n : Nat) : (UInt8.ofNat n).toNat = n % 256 := UInt8.toNat_ofNat'

theorem ofNat_congr {m n : Nat} (h : m % 256 = n % 256) : UInt8.ofNat m = UInt8.ofNat n := by
  apply UInt8.toNat_inj.mp
  rw [toNat_ofNat_mod, toNat_ofNat_mod, h]

theorem ofNat_eq_iff {n : Nat} {x : UInt8} : UInt8.ofNat n = x ↔ n % 256 = x.toNat := by
  rw [← UInt8.toNat_inj, toNat_ofNat_mod]

@[simp] theorem toNat_low8 (x : Int) : (low8 x).toNat = (x % 256).toNat := by
  have hlt : (x % 256).toNat < 256 := by omega
  rw [low8, toNat_ofNat_mod, Nat.mod_eq_of_lt hlt]

theorem low8_congr {x y : Int} (h : x % 256 = y % 256) : low8 x = low8 y := by
  rw [low8, low8, h]

theorem low8_eq_iff {x y : Int} : low8 x = low8 y ↔ x % 256 = y % 256 := by
  refine ⟨fun h => ?_, low8_congr⟩
  have hnat := congrArg UInt8.toNat h
  rw [toNat_low8, toNat_low8] at hnat
  omega

theorem zero_eq_low8_iff {x : Int} : 0 = low8 x ↔ x % 256 = 0 := by
  rw [show (0 : UInt8) = low8 0 from rfl, low8_eq_iff]
  omega

theorem le16_lt (lo hi : UInt8) : le16 lo hi < 65536 := by
  have := lo.toNat_lt
  have := hi.toNat_lt
  simp only [le16]
  omega

theorem le16_split (n : Nat) : le16 (UInt8.ofNat (n % 256)) (UInt8.ofNat (n / 256 % 256)) = n % 65536 := by
  simp only [le16, toNat_ofNat_mod]
  omega

theorem le16_inj {lo hi lo' hi' : UInt8} (h : le16 lo hi = le16 lo' hi') : lo = lo' ∧ hi = hi' := by
  have := lo.toNat_lt
  have := lo'.toNat_lt
  simp only [le16] at h
  exact ⟨UInt8.toNat_inj.mp (by omega), UInt8.toNat_inj.mp (by omega)⟩

/-! ### Slices -/

theorem slice_length (b : Bytes) (start stop : Nat) :
    (slice b start stop).length = min stop b.length - start := by
  simp [slice]

theorem fromLittle_lt (b : Bytes) : fromLittle b < 256 ^ b.length := by
  induction b with
  | nil => decide
  | cons x b ih =>
      have hx := x.toNat_lt
      have hcons : fromLittle (x :: b) = x.toNat + 256 * fromLittle b := rfl
      rw [hcons, List.length_cons, Nat.pow_succ]
      omega

theorem unpack_eq_some {b : Bytes} (n off : Nat) (h : off + n ≤ b.length) :
    ∃ v, unpack n b off = some v ∧ v < 256 ^ n := by
  have hlen : (slice b off (off + n)).length = n := by
    rw [slice_length]
    omega
  have hlt := fromLittle_lt (slice b off (off + n))
  rw [hlen] at hlt
  exact ⟨_, if_pos h, hlt⟩

theorem slice_eq_nil (b : Bytes) {start stop : Nat} (h : stop ≤ start) : slice b start stop = [] := by
  apply List.drop_eq_nil_of_le
  rw [List.length_take]
  omega

end Wire
