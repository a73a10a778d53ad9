import GoodixSpi.Lib.Bytes

/-!
# The text helpers the debugfs files rest on

`strim`, `strsep` and `kstrtouint` as the Linux library has them, on the bytes of a NUL-terminated string. A `strsep` cursor is the list of fields still to be handed out: `NULL` is the empty list, and a string is never without a first field.
-/

namespace GoodixSpi.Kernel

open Wire

/-- The C string in a NUL-terminated copy of `b`. -/
def cString (b : Bytes) : Bytes := b.takeWhile (· ≠ 0)

/-- `isspace` of the kernel's Latin-1 table: blank, tab to carriage return, and the no-break space. -/
def isspace (c : UInt8) : Bool := c = 32 || (9 ≤ c && c ≤ 13) || c = 160

def strim (s : Bytes) : Bytes := ((s.reverse.dropWhile isspace).reverse).dropWhile isspace

def isBlank (c : UInt8) : Bool := c = 32 || c = 9

/-- `strsep(&p, " \t")`: the token and the new cursor, `none` being `NULL`. -/
def strsep : Option Bytes → Option Bytes × Option Bytes
  | none => (none, none)
  | some s =>
      (some (s.takeWhile fun c => !isBlank c),
        match s.dropWhile fun c => !isBlank c with
        | [] => none
        | _ :: rest => some rest)

/-- The tokens successive `strsep` calls hand out, empty ones included. -/
def fields : Bytes → List Bytes
  | [] => [[]]
  | c :: s =>
      if isBlank c then [] :: fields s
      else
        match fields s with
        | [] => [[c]]
        | tok :: toks => (c :: tok) :: toks

/-- The list of fields is what `strsep` walks through. -/
theorem fields_eq_strsep (s : Bytes) :
    ∃ tok, (strsep (some s)).1 = some tok ∧
      fields s = tok :: (match (strsep (some s)).2 with | none => [] | some rest => fields rest) := by
  induction s with
  | nil => exact ⟨[], rfl, rfl⟩
  | cons c s ih =>
      obtain ⟨tok, htok, hfields⟩ := ih
      by_cases hc : isBlank c
      · exact ⟨[], by simp [strsep, hc], by simp [strsep, fields, hc]⟩
      · refine ⟨c :: tok, ?_, ?_⟩
        · simp only [strsep, Option.some.injEq] at htok ⊢
          rw [List.takeWhile_cons_of_pos (by simp [hc]), htok]
        · rw [fields, if_neg (by simpa using hc), hfields]
          simp only [strsep]
          rw [List.dropWhile_cons_of_pos (by simp [hc])]

def hexValue (c : UInt8) : Option Nat :=
  if 48 ≤ c ∧ c ≤ 57 then some (c.toNat - 48)
  else if 97 ≤ (c ||| 0x20) ∧ (c ||| 0x20) ≤ 102 then some ((c ||| 0x20).toNat - 97 + 10)
  else none

/-- The digits `_parse_integer` consumes and what it leaves. -/
def parseInteger : Bytes → List Nat × Bytes
  | [] => ([], [])
  | c :: s =>
      match hexValue c with
      | none => ([], c :: s)
      | some v => (v :: (parseInteger s).1, (parseInteger s).2)

def hexNumber (digits : List Nat) : Nat := digits.foldl (fun acc v => 16 * acc + v) 0

def EINVAL : Int := 22
def ERANGE : Int := 34

/-- `kstrtouint(s, 16, &res)`: an optional sign, an optional `0x`, digits, an optional newline, and a value of 32 bits. -/
def kstrtouint (s : Bytes) : Except Int Nat :=
  let s := match s with
    | 43 :: rest => rest
    | _ => s
  let s := match s with
    | 48 :: x :: rest => if x ||| 0x20 = 120 then rest else s
    | _ => s
  let (digits, rest) := parseInteger s
  let value := hexNumber digits
  if 2 ^ 64 ≤ value then .error (-ERANGE)
  else if digits = [] then .error (-EINVAL)
  else if ¬ (rest = [] ∨ rest = [10]) then .error (-EINVAL)
  else if 2 ^ 32 ≤ value then .error (-ERANGE)
  else .ok value

def hexDigit (n : Nat) : UInt8 := if n < 10 then UInt8.ofNat (48 + n) else UInt8.ofNat (87 + n)

def hex2 (x : UInt8) : Bytes := [hexDigit (x.toNat / 16), hexDigit (x.toNat % 16)]

end GoodixSpi.Kernel
