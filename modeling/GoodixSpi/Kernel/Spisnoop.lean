import GoodixSpi.Kernel.Machine

/-!
# `spisnoop/spisnoop.c`: watching the chip-select register

`snap_show` samples three registers for a window of time, and prints what it counted and a verdict. What it reads of the clock and of the registers is given to the model, turn by turn. `unsigned long` has 64 bits, and the counters wrap.
-/

namespace GoodixSpi.Kernel.Spisnoop

def SSCR0_SSE : UInt32 := (1 : UInt32) <<< 7
def SSSR_BSY : UInt32 := (1 : UInt32) <<< 4
def CS_STATE : UInt32 := (1 : UInt32) <<< 1
def MAX_EVENTS : Nat := 64
def ENOMEM : Int := 12

/-- What a turn of the loop reads. The registers are read only while the window is open. -/
structure Reading where
  now : UInt64
  cs : UInt32
  sscr0 : UInt32
  sssr : UInt32
  deriving DecidableEq, Repr

structure Ev where
  t_ns : UInt64
  cs : UInt32
  sscr0 : UInt32
  sssr : UInt32
  deriving DecidableEq, Repr

/-- The local variables. `nev` is the length of the log. -/
structure Locals where
  last_cs : UInt32
  samples : UInt64
  sse_on : UInt64
  bsy_on : UInt64
  cs_low : UInt64
  ev : List Ev
  bound : ev.length ≤ MAX_EVENTS

def Locals.init (cs : UInt32) : Locals := ⟨cs, 0, 0, 0, 0, [], Nat.zero_le _⟩

/-- Another entry of the log, if there is room for it. -/
def Locals.log (l : Locals) (t0 : UInt64) (r : Reading) : Locals :=
  if h : r.cs ≠ l.last_cs ∧ l.ev.length < MAX_EVENTS then
    { l with
      ev := l.ev ++ [⟨r.now - t0, r.cs, r.sscr0, r.sssr⟩]
      last_cs := r.cs
      bound := by rw [List.length_append]; exact h.2 }
  else l

def Locals.sample (l : Locals) (t0 : UInt64) (r : Reading) : Locals :=
  let l := { l with samples := l.samples + 1 }
  let l := if r.sscr0 &&& SSCR0_SSE ≠ 0 then { l with sse_on := l.sse_on + 1 } else l
  let l := if r.sssr &&& SSSR_BSY ≠ 0 then { l with bsy_on := l.bsy_on + 1 } else l
  let l := if r.cs &&& CS_STATE = 0 then { l with cs_low := l.cs_low + 1 } else l
  l.log t0 r

/-- `now - t0 < (u64)ms * 1000000ULL`. -/
def inWindow (ms : UInt32) (t0 : UInt64) (r : Reading) : Bool := r.now - t0 < ms.toUInt64 * 1000000

/-- The loop, which has not ended where the readings have. -/
def samplingLoop (ms : UInt32) (t0 : UInt64) : Locals → List Reading → Option Locals
  | _, [] => none
  | l, r :: readings => if inWindow ms t0 r then samplingLoop ms t0 (l.sample t0 r) readings else some l

/-- `seq_printf`, or `seq_puts` without arguments. -/
abbrev Print := String × List UInt64

def NO_TRAFFIC : String := "no traffic seen at all - was anything driving the bus?\n"
def NEVER_ASSERTED : String := "*** traffic ran but CS NEVER ASSERTED - chip select is not being driven ***\n"
def HELD_ASSERTED : String := "*** CS held asserted the whole time - never deasserted ***\n"
def TOGGLING : String := "CS is toggling normally around transfers.\n"

def Locals.verdict (l : Locals) : String :=
  if l.sse_on = 0 ∧ l.bsy_on = 0 then NO_TRAFFIC
  else if l.ev.length = 0 ∧ l.cs_low = 0 then NEVER_ASSERTED
  else if l.ev.length = 0 ∧ l.cs_low = l.samples then HELD_ASSERTED
  else TOGGLING

/-- `n * 100 / samples`, or 0 without samples. -/
def Locals.percent (l : Locals) (n : UInt64) : UInt64 := if l.samples ≠ 0 then n * 100 / l.samples else 0

def Locals.report (l : Locals) (ms : UInt32) : List Print :=
  [ ("window        %u ms\n", [ms.toUInt64]),
    ("samples       %lu  (%lu/ms)\n", [l.samples, if ms ≠ 0 then l.samples / ms.toUInt64 else 0]),
    ("\n", []),
    ("SSCR0.SSE set (controller enabled)  : %lu  (%lu%%)\n", [l.sse_on, l.percent l.sse_on]),
    ("SSSR.BSY set  (transfer in flight)  : %lu  (%lu%%)\n", [l.bsy_on, l.percent l.bsy_on]),
    ("CS asserted   (CS_CONTROL bit1 = 0) : %lu  (%lu%%)\n", [l.cs_low, l.percent l.cs_low]),
    ("\n", []),
    ("CS_CONTROL transitions observed: %u\n", [UInt64.ofNat l.ev.length]) ] ++
  (l.ev.map fun e => ("  t=%9llu ns  CS_CONTROL=0x%08x  SSCR0=0x%08x  SSSR=0x%08x\n",
    [e.t_ns, e.cs.toUInt64, e.sscr0.toUInt64, e.sssr.toUInt64])) ++
  [ ("\nverdict: ", []), (l.verdict, []) ]

/-- `snap_show`: what it returns and prints, if `ioremap` and `kcalloc` go as given, the register is `cs` at first and the clock is `t0`. -/
def snapShow (mapped allocated : Bool) (ms cs : UInt32) (t0 : UInt64) (readings : List Reading) :
    Option (Int × List Print) :=
  if mapped = false then some (0, [("ioremap failed\n", [])])
  else if allocated = false then some (-ENOMEM, [])
  else (samplingLoop ms t0 (Locals.init cs) readings).map fun l => (0, l.report ms)

end GoodixSpi.Kernel.Spisnoop
