import GoodixSpi.Lib.Loop
import GoodixSpi.Lib.Raise
import GoodixSpi.Tools.Host

/-!
# `tools/extract_firmware.py`: the firmware images in a driver binary

An image sits in the binary behind a marker, the length of its name and the name. `find_records` lists what follows every marker; `main` takes the first and writes as many bytes as the image is known to have, whether or not they have the known digest. SHA-256 is a parameter: a function to the hex digest. So is what the calls that reach the system do: each returns, or raises and ends the program, for nothing catches it.
-/

namespace GoodixSpi.Tools.ExtractFirmware

open Wire Interaction

structure Meta where
  size : Nat
  sha256 : String
  mcu : String
  note : String

def KNOWN : List (String × Meta) :=
  [ ("GF_ST411SEC_APP_14115",
      { size := 85994
        sha256 := "6e6cc79bedfbd51cf02f92a00cf3d42a0f1083c134e919b60b265f93f8f37aa4"
        mcu := "STM32 (ST411) - flash @0x08000000, image base 0x08020000"
        note := "this is the image our MateBook 13's sensor actually runs" }),
    ("GF_HC460SEC_APP_14104",
      { size := 84150
        sha256 := "7c752777ea13741d8e7c8ceb45f814f485bbe8de5fc7134685ad2d9b2a650699"
        mcu := "HDSC HC32 (HC460) - flash @0x00000000"
        note := "the alternate MCU vendor; needs a different IAP command set" }) ]

/-- `str.encode()`, to UTF-8. -/
def encode (s : String) : Bytes := s.toList.flatMap String.utf8EncodeChar

/-- `bytes.find(marker, start)`: the least match at or after `start`. -/
def find (blob marker : Bytes) (start : Nat) : Option Nat :=
  (List.range' start (blob.length + 1 - start)).find? fun p => marker <+: blob.drop p

theorem find_eq_some_iff {blob marker : Bytes} {start p : Nat} :
    find blob marker start = some p ↔
      marker <+: blob.drop p ∧ start ≤ p ∧ p ≤ blob.length ∧ ∀ q, start ≤ q → q < p → ¬ marker <+: blob.drop q := by
  rw [find, List.find?_range'_eq_some, decide_eq_true_iff, List.mem_range'_1]
  constructor
  · intro h
    obtain ⟨hmatch, ⟨hstart, hlt⟩, hleast⟩ := h
    refine ⟨hmatch, hstart, by omega, ?_⟩
    intro q hq hqp
    have hnone := hleast q hq hqp
    rwa [Bool.not_eq_true', decide_eq_false_iff_not] at hnone
  · intro h
    obtain ⟨hmatch, hstart, hle, hleast⟩ := h
    refine ⟨hmatch, ⟨hstart, by omega⟩, ?_⟩
    intro q hq hqp
    rw [Bool.not_eq_true', decide_eq_false_iff_not]
    exact hleast q hq hqp

/-- A turn of the loop of `find_records`, from where the next search starts and the hits so far. -/
def searchTurn (blob marker : Bytes) (s : Nat × List Nat) : List Nat ⊕ Nat × List Nat :=
  match find blob marker s.1 with
  | none => .inl s.2
  | some p => .inr (p + 1, s.2 ++ [p + marker.length])

theorem searchTurn_go {blob marker : Bytes} {s s' : Nat × List Nat} (h : searchTurn blob marker s = .inr s') :
    ∃ p, find blob marker s.1 = some p ∧ s' = (p + 1, s.2 ++ [p + marker.length]) := by
  rw [searchTurn] at h
  split at h
  · exact absurd h (by simp)
  · rename_i p hfind
    exact ⟨p, hfind, (Sum.inr.inj h).symm⟩

theorem searchTurn_leave {blob marker : Bytes} {s : Nat × List Nat} {hits : List Nat}
    (h : searchTurn blob marker s = .inl hits) : find blob marker s.1 = none ∧ hits = s.2 := by
  rw [searchTurn] at h
  split at h
  · rename_i hfind
    exact ⟨hfind, (Sum.inl.inj h).symm⟩
  · exact absurd h (by simp)

theorem searchTurn_falls {blob marker : Bytes} {s s' : Nat × List Nat} (h : searchTurn blob marker s = .inr s') :
    blob.length + 1 - s'.1 < blob.length + 1 - s.1 := by
  obtain ⟨p, hfind, rfl⟩ := searchTurn_go h
  obtain ⟨-, hstart, hle, -⟩ := find_eq_some_iff.mp hfind
  dsimp only
  omega

def searchLoop (blob marker : Bytes) : BoundedLoop (Nat × List Nat) (List Nat) where
  turn := searchTurn blob marker
  rank s := blob.length + 1 - s.1
  falls := searchTurn_falls

/-- `bytes([len(name)]) + name.encode()`, which raises for a name of more than 255 characters. -/
def marker (name : String) : Option Bytes :=
  if name.length ≤ 255 then some (UInt8.ofNat name.length :: encode name) else none

/-- The offset of the image behind every record of `name`. -/
def findRecords (blob : Bytes) (name : String) : Option (List Nat) :=
  (marker name).map fun m => (searchLoop blob m).run (0, [])

/-- `os.path.join(outdir, name)` for a name that is no absolute path. -/
def joinPath (outdir name : String) : String :=
  if outdir = "" ∨ outdir.endsWith "/" then outdir ++ name else outdir ++ "/" ++ name

def outPath (outdir name : String) : String := joinPath outdir (name ++ ".bin")

/-- The calls that can raise. `save` is `open(path, "wb")` and the write; the file is whole when it returns. -/
inductive Call where
  | print (fmt : String) (args : List Shown)
  | makedirs (path : String)
  | save (path : String) (img : Bytes)
  deriving DecidableEq

inductive Exn where
  | valueError
  | raised (e : String)
  | systemExit (msg : String)
  deriving DecidableEq

abbrev ExtractM := Raise Call (fun _ => Unit) Exn

def ask (c : Call) : ExtractM Unit := Raise.call c

def print (fmt : String) (args : List Shown := []) : ExtractM Unit := ask (.print fmt args)

def report (sha256 : Bytes → String) (name : String) (info : Meta) (starts : List Nat) (start : Nat) (img : Bytes)
    (out : String) : List (String × List Shown) :=
  [ ("  %s", [.str name]),
    ("     copies embedded : %d", [.num (some starts.length)]),
    ("     offset in file  : 0x%x  (first copy)", [.num (some start)]),
    ("     size            : %d bytes", [.num (some info.size)]),
    ("     sha256          : %s  %s",
      [.str (sha256 img), .str (if sha256 img = info.sha256 then "OK" else "MISMATCH")]),
    ("     Cortex-M vectors: initial SP 0x%08x, reset 0x%08x",
      [.num (some (fromLittle (slice img 0 4))), .num (some (fromLittle (slice img 4 8)))]),
    ("     MCU             : %s", [.str info.mcu]),
    ("     note            : %s", [.str info.note]),
    ("     written to      : %s", [.str out]),
    ("", []) ]

def extract (sha256 : Bytes → String) (blob : Bytes) (outdir : String) (found : Nat) (x : String × Meta) : ExtractM Nat :=
  match findRecords blob x.1 with
  | none => Raise.raise .valueError
  | some [] => do
      print "  %-24s NOT FOUND" [.str x.1]
      pure found
  | some (start :: rest) => do
      let img := slice blob start (start + x.2.size)
      let out := outPath outdir x.1
      ask (.save out img)
      Raise.each (fun _ (l : String × List Shown) => print l.1 l.2) () (report sha256 x.1 x.2 (start :: rest) start img out)
      pure (found + 1)

/-- `main`, of a binary that has been read. -/
def main (sha256 : Bytes → String) (dll : String) (blob : Bytes) (outdir : String) : ExtractM Unit := do
  print "%s  (%d bytes)" [.str dll, .num (some blob.length)]
  print "sha256 %s" [.str (sha256 blob)]
  print ""
  ask (.makedirs outdir)
  let found ← Raise.each (extract sha256 blob outdir) 0 KNOWN
  if found = 0 then
    Raise.raise (.systemExit "no firmware records found -- is this really gfspi.dll?")
  else
    print "extracted %d image(s)" [.num (some found)]

/-- A call after those in `done`, where `raises` says what it raises, if it does. -/
def handle (raises : List Call → Call → Option String) (c : Call) (done : List Call) : Except Exn Unit × List Call :=
  match raises done c with
  | some e => (.error (.raised e), done)
  | none => (.ok (), done ++ [c])

/-- How the program ends, and the calls that returned. -/
def run (raises : List Call → Call → Option String) (sha256 : Bytes → String) (dll : String) (blob : Bytes)
    (outdir : String) : Except Exn Unit × List Call :=
  Prog.run (handle raises) (main sha256 dll blob outdir) []

def Call.saved : Call → Option (String × Bytes)
  | .save path img => some (path, img)
  | _ => none

/-- The content of a file after some calls: the last that was written to its path. -/
def fileAfter (done : List Call) (path : String) : Option Bytes :=
  (((done.filterMap Call.saved).reverse).find? fun f => f.1 = path).map Prod.snd

end GoodixSpi.Tools.ExtractFirmware
