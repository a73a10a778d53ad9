import GoodixSpi.Proof.IndexSafety

/-!
# What `raw` prints

`gxfp_raw_read` renders the first `rxlen` bytes of the receive buffer, two digits and a blank each, and a newline. Each `sprintf` also writes a NUL, which the next one overwrites and the newline overwrites last.
-/

namespace GoodixSpi.Kernel

open Wire Interaction

/-- The characters of one printed byte. -/
def hexItem (b : UInt8) : Bytes := hex2 b ++ [32]

def hexDump (bs : Bytes) : Bytes := bs.flatMap hexItem ++ [10]

theorem isspace_hexDigit : ∀ n < 16, isspace (hexDigit n) = false := by decide

theorem hexItem_length (b : UInt8) : (hexItem b).length = 3 := rfl

theorem flatMap_hexItem_length (bs : Bytes) : (bs.flatMap hexItem).length = 3 * bs.length := by
  induction bs with
  | nil => rfl
  | cons b bs ih =>
      rw [List.flatMap_cons, List.length_append, ih, hexItem_length, List.length_cons]
      omega

/-- The contract of a reader of the shared state: what it reads are the given receive buffer and length, and an allocation fails only if `oom` says so. -/
def reading (rxbuf : Buffer GXFP_BUF_MAX) (rxlen : Nat) (oom : Prop) : Contract Req Ans Unit where
  may _ r := match r with
    | .spi _ | .setRxlen _ | .txStore _ _ => False
    | _ => True
  rely _ r a := match r, a with
    | .getRxlen, n => n = rxlen
    | .rxLoad off len, bs => bs = rxbuf.load off len
    | .kmalloc _, ok => ok = false → oom
    | _, _ => True
  next _ _ _ := ()

theorem reading_ignoresPlain (rxbuf : Buffer GXFP_BUF_MAX) (rxlen : Nat) (oom : Prop) :
    IgnoresPlain (reading rxbuf rxlen oom) := by
  intro _ r hr
  refine ⟨?_, fun _ => rfl⟩
  cases r with
  | spi x => exact absurd hr id
  | setRxlen n => exact absurd hr id
  | txStore off new => exact absurd hr id
  | _ => trivial

variable {rxbuf : Buffer GXFP_BUF_MAX} {rxlen : Nat} {oom : Prop}

theorem reading_printByte {size i : Nat} {out : Buffer size} (hi : i < GXFP_BUF_MAX) (hsize : 3 * i + 4 ≤ size)
    (hout : out.Filled ((rxbuf.bytes.take i).flatMap hexItem)) :
    wp (reading rxbuf rxlen oom) (printByte out i) () fun _ out' =>
      out'.Filled ((rxbuf.bytes.take (i + 1)).flatMap hexItem) := by
  have hlen := rxbuf.length_eq
  have hbyte : rxbuf.load i 1 = [rxbuf.bytes[i]] := by
    rw [Buffer.load, slice, List.drop_take, Nat.add_sub_cancel_left, List.drop_eq_getElem_cons (by omega)]
    rfl
  have htake : (rxbuf.bytes.take (i + 1)).flatMap hexItem =
      (rxbuf.bytes.take i).flatMap hexItem ++ hexItem rxbuf.bytes[i] := by
    rw [List.take_succ_eq_append_getElem (by omega), List.flatMap_append, List.flatMap_singleton]
  have hfront : ((rxbuf.bytes.take i).flatMap hexItem).length = 3 * i := by
    rw [flatMap_hexItem_length, List.length_take]
    omega
  apply wp_perform_bind trivial
  intro bs hbs
  rw [show bs = [rxbuf.bytes[i]] from hbs.trans hbyte]
  apply wp_store (reading_ignoresPlain rxbuf rxlen oom).touch hsize
  rw [htake]
  apply Buffer.Filled.trim
  · rw [List.append_assoc]
    exact hout.store hfront hsize
  · rw [List.length_append, hfront, hexItem_length]
    omega

/-- Cutting a text short in its buffer, as `simple_read_from_buffer` does, is cutting the text. -/
theorem load_text {size : Nat} {b : Buffer size} {text rest : Bytes} (hb : b.bytes = text ++ rest) (len off : Nat) :
    b.load off (min len (text.length - off)) = slice text off (off + len) := by
  rw [Buffer.load, slice, slice, hb]
  by_cases hoff : off ≤ text.length
  · rw [List.take_append_of_le_length (by omega)]
    by_cases hlen : off + len ≤ text.length
    · rw [Nat.min_eq_left (by omega)]
    · rw [Nat.min_eq_right (by omega), List.take_of_length_le (l := text) (i := off + len) (by omega),
        List.take_of_length_le (by omega)]
  · rw [List.drop_eq_nil_of_le (by rw [List.length_take]; omega),
      List.drop_eq_nil_of_le (by rw [List.length_take]; omega)]

theorem reading_gxfpRawRead (len off : Nat) (hlen : rxlen ≤ GXFP_BUF_MAX) :
    wp (reading rxbuf rxlen oom) (gxfpRawRead len off) () fun _ r =>
      let text := slice (hexDump (rxbuf.load 0 rxlen)) off (off + len)
      (oom ∧ r = { ret := -ENOMEM }) ∨ r = { ret := text.length, out := text } := by
  have hC := reading_ignoresPlain rxbuf rxlen oom
  have hsize := rxbuf.length_eq
  apply wp_perform_bind trivial
  intro _ _
  apply wp_perform_bind trivial
  intro n hn
  obtain rfl : n = rxlen := hn
  apply wp_perform_bind trivial
  intro ok hmem
  by_cases hok : ok = false
  · rw [if_pos hok]
    exact wp_perform_bind trivial fun _ _ => Or.inl ⟨hmem hok, rfl⟩
  · rw [if_neg hok]
    have hloop := wp_fold_range (C := reading rxbuf n oom) (f := @printByte (n * 3 + 2)) n
      (I := fun i _ out => out.Filled ((rxbuf.bytes.take i).flatMap hexItem))
      (fun i hi _ out hout => reading_printByte (by omega) (by omega) hout) (m := ()) Buffer.filled_zeros
    apply wp_bind hloop
    intro _ out hout
    have hfront : ((rxbuf.bytes.take n).flatMap hexItem).length = 3 * n := by
      rw [flatMap_hexItem_length, List.length_take]
      omega
    apply wp_store_bind hC.touch (by simp only [List.length_singleton]; omega)
    apply wp_perform_bind trivial
    intro _ _
    apply wp_load_bind hC.touch
    · intro i hi
      omega
    · right
      have hbytes : ∃ rest, (out.store (3 * n) [10]).bytes = hexDump (rxbuf.load 0 n) ++ rest := by
        rw [Buffer.load_zero]
        exact ⟨_, hout.store hfront (by simp only [List.length_singleton]; omega)⟩
      obtain ⟨rest, hbytes⟩ := hbytes
      have htext : (hexDump (rxbuf.load 0 n)).length = n * 3 + 1 := by
        rw [hexDump, List.length_append, Buffer.load_zero, hfront, List.length_singleton]
        omega
      rw [← htext, load_text hbytes len off]

variable {ε : Type}

/-- **Reading `raw`** returns the requested part of the text of the first `rxlen` received bytes, unless the text could not be allocated, and does not change what was received. -/
theorem runOp_rawRead (E : Env ε) (P : Setup) (w : World ε) (len off : Nat) (hlen : w.g.rxlen ≤ GXFP_BUF_MAX) :
    let text := slice (hexDump (w.g.rxbuf.load 0 w.g.rxlen)) off (off + len)
    let out := runOp E P (.rawRead len off) w
    (((∃ size e, (E.kmalloc size e).1 = false) ∧ out.1 = { ret := -ENOMEM }) ∨
        out.1 = { ret := text.length, out := text }) ∧
      out.2.g.rxbuf = w.g.rxbuf ∧ out.2.g.rxlen = w.g.rxlen := by
  have hstep : ∀ (_ : Unit) (w' : World ε) r, (w'.g.rxbuf = w.g.rxbuf ∧ w'.g.rxlen = w.g.rxlen) →
      (reading w.g.rxbuf w.g.rxlen (∃ size e, (E.kmalloc size e).1 = false)).may () r →
      (reading w.g.rxbuf w.g.rxlen (∃ size e, (E.kmalloc size e).1 = false)).rely () r (handle E 0 r w').1 ∧
        ((handle E 0 r w').2.g.rxbuf = w.g.rxbuf ∧ (handle E 0 r w').2.g.rxlen = w.g.rxlen) := by
    intro _ w' r hw' hmay
    obtain ⟨hbuf, hlen'⟩ := hw'
    cases r with
    | spi x => exact absurd hmay id
    | setRxlen n => exact absurd hmay id
    | txStore off new => exact absurd hmay id
    | getRxlen => exact ⟨hlen', hbuf, hlen'⟩
    | rxLoad off len =>
        refine ⟨?_, hbuf, hlen'⟩
        rw [handle_fst, answer, hbuf]
        rfl
    | kmalloc size => exact ⟨fun hfail => ⟨size, w'.env, hfail⟩, hbuf, hlen'⟩
    | _ => exact ⟨trivial, hbuf, hlen'⟩
  obtain ⟨_, hkept, hout⟩ := wp_run hstep (reading_gxfpRawRead len off hlen) ⟨rfl, rfl⟩
  exact ⟨hout, hkept⟩

end GoodixSpi.Kernel
