import GoodixSpi.Lib.Hex
import GoodixSpi.Lib.Words
import GoodixSpi.Tools.Board

/-!
# The readers of the pinctrl table

`read_pads` of `tools/board.py`, which takes every line apart with a regular expression, `pad` of `tools/touchwatch.py` and `read_pads` of `tools/cswatch.py`, which look for the first word of a line that could be a register. A file is its text in ASCII, or nothing when reading it raises `OSError`.
-/

namespace GoodixSpi.Tools

open Text

namespace Board

structure PadMatch where
  pin : List Char
  name : List Char
  gpio : Option (List Char × List Char)
  rest : List Char
  deriving DecidableEq, Repr

/-- `\s+` -/
def spaces (cs : List Char) : Option (List Char) := if (cs.takeWhile isSpace) = [] then none else some (cs.dropWhile isSpace)

/-- `(\d+)` -/
def digitGroup (cs : List Char) : Option (List Char × List Char) :=
  if cs.takeWhile Char.isDigit = [] then none else some (cs.takeWhile Char.isDigit, cs.dropWhile Char.isDigit)

/-- `\(([^)]*)\)` -/
def nameGroup : List Char → Option (List Char × List Char)
  | '(' :: cs =>
      match cs.dropWhile (· ≠ ')') with
      | [] => none
      | _ :: rest => some (cs.takeWhile (· ≠ ')'), rest)
  | _ => none

/-- `(?:(\d+):(\S+))?` -/
def gpioGroup (cs : List Char) : Option (List Char × List Char) × List Char :=
  match digitGroup cs with
  | some (gpio, ':' :: chip) =>
      if (chip.takeWhile (!isSpace ·)) = [] then (none, cs)
      else (some (gpio, chip.takeWhile (!isSpace ·)), chip.dropWhile (!isSpace ·))
  | _ => (none, cs)

/-- `PAD_RE.match`, of a line in ASCII. No group can end anywhere else than where it first does, so nothing is tried twice. -/
def padRe (line : List Char) : Option PadMatch :=
  match line with
  | 'p' :: 'i' :: 'n' :: cs => do
      let cs ← spaces cs
      let (pin, cs) ← digitGroup cs
      let cs ← spaces cs
      let (name, cs) ← nameGroup cs
      let cs ← spaces cs
      let (gpio, cs) := gpioGroup cs
      pure { pin := pin, name := name, gpio := gpio, rest := cs.dropWhile isSpace }
  | _ => none

/-- Eight hexadecimal digits behind `0x`. -/
def hexAt (cs : List Char) : Bool :=
  ['0', 'x'].isPrefixOf cs && ((cs.drop 2).take 8).length = 8 && ((cs.drop 2).take 8).all isHex

/-- `re.search(r"0x([0-9a-f]{8})", rest)` -/
def searchHex : List Char → Option Nat
  | [] => none
  | c :: cs => if hexAt (c :: cs) then some (ofHex (((c :: cs).drop 2).take 8)) else searchHex cs

def padOf (m : PadMatch) : Pad where
  pin := (digits m.pin none).getD 0
  name := String.ofList m.name
  line := m.gpio.map fun g => (((digits g.1 none).getD 0 : Nat) : Int)
  chip := m.gpio.map fun g => String.ofList g.2
  cfg0 := searchHex m.rest
  acpi := ['A', 'C', 'P', 'I'] <:+: m.rest
  gpioMode := [' ', 'G', 'P', 'I', 'O', ' '] <:+: ' ' :: (m.rest ++ [' ']) ∨ ['G', 'P', 'I', 'O'] <+: m.rest

def readPads (files : List (Option (List Char))) : List Pad :=
  files.flatMap fun file =>
    match file with
    | none => []
    | some text => (cut isBreak (universal text)).filterMap fun line => (padRe (strip line)).map padOf

end Board

def hexDigits : List Char → Option Nat → Option Nat
  | [], value => value
  | '_' :: c :: cs, some value => (hexValue c.toLower).bind fun d => hexDigits cs (some (16 * value + d))
  | c :: cs, value => (hexValue c.toLower).bind fun d => hexDigits cs (some (16 * value.getD 0 + d))

/-- `int(tok, 16)` of a token that begins with `0x`, behind which an underscore may stand. -/
def intHex (tok : List Char) : Except Board.PyError Nat :=
  match hexDigits (if (tok.drop 2).head? = some '_' then tok.drop 3 else tok.drop 2) none with
  | some n => .ok n
  | none => .error .valueError

def isRegister (tok : List Char) : Bool := ['0', 'x'].isPrefixOf tok && tok.length = 10

def pinPrefix (pin : Nat) : List Char := ['p', 'i', 'n', ' '] ++ Nat.toDigits 10 pin ++ [' ']

def fileLines (text : List Char) : List (List Char) := cut (· = '\n') (universal text)

namespace Touchwatch

def padLines (pin : Nat) : List (List Char) → Except Board.PyError (Option Nat)
  | [] => .ok none
  | ln :: lns =>
      if (pinPrefix pin).isPrefixOf ln then
        match (words ln).find? isRegister with
        | some tok => (intHex tok).map some
        | none => padLines pin lns
      else padLines pin lns

def pad (pin : Nat) : Option (List Char) → Except Board.PyError (Option Nat)
  | none => .ok none
  | some text => padLines pin (fileLines text)

end Touchwatch

namespace Cswatch

def WATCH : List Nat := [44, 45, 46, 47]

def padLine (ln : List Char) (p : Nat) (out : Nat → Option Nat) : Except Board.PyError (Nat → Option Nat) :=
  if (pinPrefix p).isPrefixOf ln then
    match (words ln).find? isRegister with
    | some tok => (intHex tok).map fun v q => if q = p then some v else out q
    | none => .ok out
  else .ok out

def padLines (lns : List (List Char)) (out : Nat → Option Nat) : Except Board.PyError (Nat → Option Nat) :=
  lns.foldlM (fun out ln => WATCH.foldlM (fun out p => padLine ln p out) out) out

def readPads : Option (List Char) → Except Board.PyError (Nat → Option Nat)
  | none => .ok fun _ => none
  | some text => padLines (fileLines text) fun _ => none

end Cswatch

end GoodixSpi.Tools
