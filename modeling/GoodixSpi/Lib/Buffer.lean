import GoodixSpi.Lib.Bytes

/-!
# Buffers of a fixed size

A C buffer: its size never changes, a load or a store covers a range, and what a store puts outside the allocation is lost. Whether the range was inside the allocation is a separate question, `InRange`, which an index-safety argument answers for every access.
-/

namespace Wire

structure Buffer (size : Nat) where
  bytes : Bytes
  length_eq : bytes.length = size

/-- Every index of the range `off .. off + len` is inside an allocation of `size` bytes. -/
def InRange (size off len : Nat) : Prop := ∀ i < len, off + i < size

instance (size off len : Nat) : Decidable (InRange size off len) := inferInstanceAs (Decidable (∀ i < len, _))

theorem inRange_of_le {size off len : Nat} (h : off + len ≤ size) : InRange size off len := by
  intro i hi
  omega

namespace Buffer

variable {size : Nat}

@[ext] theorem ext {a b : Buffer size} (h : a.bytes = b.bytes) : a = b := by
  cases a
  cases b
  simpa using h

def zeros (size : Nat) : Buffer size := ⟨List.replicate size 0, List.length_replicate⟩

/-- The bytes of a range, as far as they are inside. -/
def load (b : Buffer size) (off len : Nat) : Bytes := slice b.bytes off (off + len)

/-- Overwrite the range that starts at `off`, as far as it is inside. -/
def store (b : Buffer size) (off : Nat) (new : Bytes) : Buffer size where
  bytes := (b.bytes.take off ++ new ++ b.bytes.drop (off + new.length)).take size
  length_eq := by
    have := b.length_eq
    simp only [List.length_take, List.length_append, List.length_drop]
    omega

theorem load_length {b : Buffer size} {off len : Nat} (h : off + len ≤ size) : (b.load off len).length = len := by
  have := b.length_eq
  rw [load, slice_length]
  omega

@[simp] theorem load_zero_len (b : Buffer size) (off : Nat) : b.load off 0 = [] :=
  slice_eq_nil _ (Nat.le_refl _)

@[simp] theorem store_nil (b : Buffer size) (off : Nat) : b.store off [] = b := by
  apply ext
  have := b.length_eq
  simp only [store, List.append_nil, List.length_nil, Nat.add_zero, List.take_append_drop]
  exact List.take_of_length_le (by omega)

/-- A buffer written from the front: what was written, and zeros. -/
def Filled (b : Buffer size) (front : Bytes) : Prop :=
  b.bytes = front ++ List.replicate (size - front.length) 0

theorem filled_zeros : Filled (zeros size) [] := rfl

/-- A store at the end of the written part extends it. -/
theorem Filled.store {b : Buffer size} {front new : Bytes} {off : Nat} (h : Filled b front)
    (hoff : front.length = off) (hfits : off + new.length ≤ size) : Filled (b.store off new) (front ++ new) := by
  subst hoff
  have hsplit : size - front.length = new.length + (size - (front ++ new).length) := by
    rw [List.length_append]
    omega
  have htake : b.bytes.take front.length = front := by
    rw [h, List.take_left]
  have hdrop : b.bytes.drop (front.length + new.length) = List.replicate (size - (front ++ new).length) 0 := by
    rw [h, List.drop_append, List.drop_eq_nil_of_le (by omega), hsplit, List.drop_replicate]
    simp
  simp only [Filled, Buffer.store, htake, hdrop]
  apply List.take_of_length_le
  simp only [List.length_append, List.length_replicate] at hsplit ⊢
  omega

/-- A zero at the end of the written part is as good as unwritten. -/
theorem Filled.trim {b : Buffer size} {front : Bytes} (h : Filled b (front ++ [0])) (hfits : front.length < size) :
    Filled b front := by
  have hsplit : size - front.length = (size - (front ++ [0]).length) + 1 := by
    rw [List.length_append, List.length_singleton]
    omega
  rw [Filled, h, hsplit, List.replicate_succ, List.append_assoc]
  rfl

theorem Filled.bytes_eq {b : Buffer size} {front : Bytes} (h : Filled b front) (hlen : front.length = size) :
    b.bytes = front := by
  rw [h, hlen, Nat.sub_self, List.replicate_zero, List.append_nil]

theorem load_store {b : Buffer size} {off : Nat} {new : Bytes} (h : off + new.length ≤ size) :
    (b.store off new).load off new.length = new := by
  have := b.length_eq
  have hoff : (b.bytes.take off).length = off := by
    rw [List.length_take]
    omega
  rw [load, store, slice, List.take_take, Nat.min_eq_left h, List.append_assoc, List.take_append, hoff,
    List.take_of_length_le (by omega), Nat.add_sub_cancel_left, List.take_left' rfl]
  exact List.drop_left' hoff

theorem store_bytes {b : Buffer size} {off : Nat} {new : Bytes} (h : off + new.length ≤ size) :
    (b.store off new).bytes = b.bytes.take off ++ new ++ b.bytes.drop (off + new.length) := by
  have := b.length_eq
  apply List.take_of_length_le
  simp only [List.length_append, List.length_take, List.length_drop]
  omega

theorem store_store {b : Buffer size} {off : Nat} {x : UInt8} {xs : Bytes} (h : off + 1 + xs.length ≤ size) :
    (b.store off [x]).store (off + 1) xs = b.store off (x :: xs) := by
  have hlen := b.length_eq
  have hfirst : (b.store off [x]).bytes = b.bytes.take off ++ [x] ++ b.bytes.drop (off + 1) :=
    store_bytes (by simp only [List.length_singleton]; omega)
  have hwhole : (b.store off (x :: xs)).bytes = b.bytes.take off ++ x :: xs ++ b.bytes.drop (off + (xs.length + 1)) :=
    store_bytes (by simp only [List.length_cons]; omega)
  have hfront : (b.bytes.take off ++ [x]).length = off + 1 := by
    rw [List.length_append, List.length_take, List.length_singleton]
    omega
  have hrest : (b.bytes.take off ++ [x] ++ b.bytes.drop (off + 1)).drop (off + 1 + xs.length) =
      b.bytes.drop (off + (xs.length + 1)) := by
    rw [List.drop_append, hfront, List.drop_eq_nil_of_le (by omega), List.nil_append, List.drop_drop]
    congr 1
    omega
  apply ext
  rw [store_bytes h, hfirst, hrest, hwhole, List.take_left' hfront, List.append_assoc (b.bytes.take off)]
  rfl

theorem load_zero (b : Buffer size) (len : Nat) : b.load 0 len = b.bytes.take len := by
  rw [load, slice, List.drop_zero, Nat.zero_add]

theorem load_all (b : Buffer size) : b.load 0 size = b.bytes := by
  rw [load_zero, List.take_of_length_le (Nat.le_of_eq b.length_eq)]

/-- The first `m` bytes of two buffers are the same. -/
def AgreeTo (m : Nat) (a b : Buffer size) : Prop := a.bytes.take m = b.bytes.take m

theorem AgreeTo.mono {m n : Nat} {a b : Buffer size} (h : AgreeTo m a b) (hle : n ≤ m) : AgreeTo n a b := by
  have hm := congrArg (List.take n) h
  rwa [List.take_take, List.take_take, Nat.min_eq_left hle] at hm

theorem AgreeTo.load_eq {m len : Nat} {a b : Buffer size} (h : AgreeTo m a b) (hle : len ≤ m) :
    a.load 0 len = b.load 0 len := by
  rw [load_zero, load_zero]
  exact h.mono hle

theorem AgreeTo.store {m off : Nat} {a b : Buffer size} (h : AgreeTo m a b) (hoff : off ≤ m) (new : Bytes) :
    AgreeTo (off + new.length) (a.store off new) (b.store off new) := by
  have hab : a.bytes.take off = b.bytes.take off := h.mono hoff
  have ha := a.length_eq
  have hb := b.length_eq
  rw [AgreeTo, Buffer.store, Buffer.store, List.take_take, List.take_take, hab]
  by_cases hin : off ≤ size
  · have hlen : min (off + new.length) size ≤ (b.bytes.take off ++ new).length := by
      rw [List.length_append, List.length_take]
      omega
    rw [List.take_append_of_le_length hlen, List.take_append_of_le_length hlen]
  · rw [List.drop_eq_nil_of_le (by omega), List.drop_eq_nil_of_le (by omega)]

end Buffer

end Wire
