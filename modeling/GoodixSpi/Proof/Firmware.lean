import GoodixSpi.Tools.ExtractFirmware
import Mathlib.Data.List.TakeWhile

/-!
# Which image the extractor writes

`find_records` finds every record: each search starts one byte after the last match, so no overlapping one is skipped, and it ends because the start moves on. The extractor then takes the first record it found and reports its digest, so it writes the genuine image exactly when it gets so far, with no call raising before, and no other occurrence of the marker comes before all genuine ones.
-/

namespace GoodixSpi.Tools.ExtractFirmware

open Wire Interaction

/-! ### The search -/

theorem find_eq_none_iff {blob marker : Bytes} {start : Nat} (hmarker : marker ≠ []) :
    find blob marker start = none ↔ ∀ p, start ≤ p → ¬ marker <+: blob.drop p := by
  rw [find, List.find?_eq_none]
  constructor
  · intro hnone p hp hmatch
    by_cases hle : p ≤ blob.length
    · have hin : p ∈ List.range' start (blob.length + 1 - start) := List.mem_range'_1.mpr ⟨hp, by omega⟩
      exact hnone p hin (decide_eq_true hmatch)
    · rw [List.drop_eq_nil_of_le (by omega), List.prefix_nil] at hmatch
      exact hmarker hmatch
  · intro hnone p hp hmatch
    exact hnone p (List.mem_range'_1.mp hp).1 (of_decide_eq_true hmatch)

/-- The hits are the records that start before `at`, in order. -/
structure Searched (blob marker : Bytes) (at' : Nat) (hits : List Nat) : Prop where
  increasing : hits.Pairwise (· < ·)
  exact : ∀ o, o ∈ hits ↔ ∃ p < at', marker <+: blob.drop p ∧ o = p + marker.length

theorem Searched.step {blob marker : Bytes} {at' p : Nat} {hits : List Nat} (h : Searched blob marker at' hits)
    (hfind : find blob marker at' = some p) : Searched blob marker (p + 1) (hits ++ [p + marker.length]) := by
  obtain ⟨hmatch, hstart, -, hleast⟩ := find_eq_some_iff.mp hfind
  constructor
  · rw [List.pairwise_append]
    refine ⟨h.increasing, List.pairwise_singleton _ _, ?_⟩
    intro o ho o' ho'
    obtain ⟨q, hq, -, rfl⟩ := (h.exact o).mp ho
    rw [List.mem_singleton.mp ho']
    omega
  · intro o
    rw [List.mem_append, List.mem_singleton, h.exact]
    constructor
    · intro h
      rcases h with ⟨q, hq, hrest⟩ | rfl
      · exact ⟨q, by omega, hrest⟩
      · exact ⟨p, by omega, hmatch, rfl⟩
    · intro h
      obtain ⟨q, hq, hqmatch, rfl⟩ := h
      by_cases hbefore : q < at'
      · exact Or.inl ⟨q, hbefore, hqmatch, rfl⟩
      · by_cases hqp : q < p
        · exact absurd hqmatch (hleast q (by omega) hqp)
        · obtain rfl : q = p := by omega
          exact Or.inr rfl

theorem searchLoop_run (blob : Bytes) {marker : Bytes} (hmarker : marker ≠ []) :
    ((searchLoop blob marker).run (0, [])).Pairwise (· < ·) ∧
      ∀ o, o ∈ (searchLoop blob marker).run (0, []) ↔ ∃ p, marker <+: blob.drop p ∧ o = p + marker.length := by
  apply BoundedLoop.run_spec (L := searchLoop blob marker) (I := fun s : Nat × List Nat => Searched blob marker s.1 s.2)
    (Q := fun hits : List Nat =>
      hits.Pairwise (· < ·) ∧ ∀ o, o ∈ hits ↔ ∃ p, marker <+: blob.drop p ∧ o = p + marker.length)
  · intro s s' hs hturn
    obtain ⟨p, hfind, rfl⟩ := searchTurn_go hturn
    exact hs.step hfind
  · intro s hits hs hturn
    obtain ⟨hfind, rfl⟩ := searchTurn_leave hturn
    refine ⟨hs.increasing, fun o => ?_⟩
    rw [hs.exact]
    constructor
    · intro ho
      obtain ⟨p, -, hmatch, hplace⟩ := ho
      exact ⟨p, hmatch, hplace⟩
    · intro ho
      obtain ⟨p, hmatch, hplace⟩ := ho
      by_cases hlt : p < s.1
      · exact ⟨p, hlt, hmatch, hplace⟩
      · exact absurd hmatch ((find_eq_none_iff hmarker).mp hfind p (by omega))
  · refine ⟨List.Pairwise.nil, fun o => iff_of_false List.not_mem_nil fun ho => ?_⟩
    obtain ⟨p, hlt, -⟩ := ho
    exact Nat.not_lt_zero p hlt

theorem searchLoop_leaves (blob marker : Bytes) (s : Nat × List Nat) :
    ∃ more, (searchLoop blob marker).run s = s.2 ++ more ∧
      (searchLoop blob marker).Leaves more.length s ((searchLoop blob marker).run s) := by
  induction s using (searchLoop blob marker).turns_induction with
  | hleave s hits hturn =>
      rw [BoundedLoop.run_leave hturn]
      refine ⟨[], ?_, hturn⟩
      rw [(searchTurn_leave hturn).2, List.append_nil]
  | hgo s s' hturn ih =>
      obtain ⟨more, hrun, hleaves⟩ := ih
      obtain ⟨p, -, hs'⟩ := searchTurn_go hturn
      refine ⟨(p + marker.length) :: more, ?_, ?_⟩
      · rw [BoundedLoop.run_go hturn, hrun, hs', List.append_assoc, List.singleton_append]
      · rw [BoundedLoop.run_go hturn]
        exact ⟨s', hturn, hleaves⟩

/-! ### The records of a name -/

/-- The byte `len(name)` and the name, one byte for each character. -/
def recordMark (name : String) : Bytes :=
  UInt8.ofNat name.length :: name.toList.map fun c => UInt8.ofNat c.toNat

/-- A name that goes into a record: ASCII, and no longer than its length byte can say. -/
def Recordable (name : String) : Prop := name.length ≤ 255 ∧ ∀ c ∈ name.toList, c.toNat < 128

instance (name : String) : Decidable (Recordable name) :=
  @instDecidableAnd _ _ inferInstance (List.decidableBAll (fun c => c.toNat < 128) name.toList)

theorem encode_eq_map {name : String} (h : ∀ c ∈ name.toList, c.toNat < 128) :
    encode name = name.toList.map fun c => UInt8.ofNat c.toNat := by
  rw [encode]
  generalize name.toList = cs at h ⊢
  induction cs with
  | nil => rfl
  | cons c cs ih =>
      have hc : c.toNat ≤ 127 := Nat.le_of_lt_succ (h c List.mem_cons_self)
      have hone : String.utf8EncodeChar c = [UInt8.ofNat c.toNat] := if_pos hc
      rw [List.flatMap_cons, hone, ih fun d hd => h d (List.mem_cons_of_mem c hd)]
      rfl

theorem marker_eq_recordMark {name : String} (h : Recordable name) : marker name = some (recordMark name) := by
  rw [marker, if_pos h.1, encode_eq_map h.2, recordMark]

theorem recordMark_length (name : String) : (recordMark name).length = name.length + 1 := by
  rw [recordMark, List.length_cons, List.length_map, String.length_toList]

theorem recordMark_ne_nil (name : String) : recordMark name ≠ [] := List.cons_ne_nil _ _

theorem findRecords_hits (blob : Bytes) {name : String} (hname : Recordable name) :
    ∃ hits, findRecords blob name = some hits ∧ (searchLoop blob (recordMark name)).run (0, []) = hits ∧
      hits.Pairwise (· < ·) ∧ ∀ o, o ∈ hits ↔ ∃ p, recordMark name <+: blob.drop p ∧ o = p + name.length + 1 := by
  obtain ⟨hincreasing, hexact⟩ := searchLoop_run blob (recordMark_ne_nil name)
  refine ⟨_, ?_, rfl, hincreasing, ?_⟩
  · rw [findRecords, marker_eq_recordMark hname, Option.map_some]
  · intro o
    rw [hexact, recordMark_length]
    rfl

/-- **`find_records` ends, and returns exactly the records**, in increasing order, after one turn of its loop for each. -/
theorem findRecords_exact (blob : Bytes) (name : String) (hname : Recordable name) :
    ∃ hits, findRecords blob name = some hits ∧
      (searchLoop blob (recordMark name)).Leaves hits.length (0, []) hits ∧
      hits.Pairwise (· < ·) ∧ ∀ o, o ∈ hits ↔ ∃ p, recordMark name <+: blob.drop p ∧ o = p + name.length + 1 := by
  obtain ⟨hits, hfound, hrun, hincreasing, hexact⟩ := findRecords_hits blob hname
  obtain ⟨more, hmore, hleaves⟩ := searchLoop_leaves blob (recordMark name) (0, [])
  rw [List.nil_append, hrun] at hmore
  rw [hrun, ← hmore] at hleaves
  exact ⟨hits, hfound, hleaves, hincreasing, hexact⟩

theorem findRecords_exact_overlapping :
    ∃ hits, findRecords [1, 1, 1] "\x01" = some hits ∧ 2 ∈ hits ∧ 3 ∈ hits := by
  obtain ⟨hits, hfound, -, -, hexact⟩ := findRecords_exact [1, 1, 1] "\x01" (by decide)
  exact ⟨hits, hfound, (hexact 2).mpr ⟨0, by decide, rfl⟩, (hexact 3).mpr ⟨1, by decide, rfl⟩⟩

/-! ### The image behind a record -/

/-- What `main` reads behind a record at `p`. -/
def imageAt (blob : Bytes) (name : String) (size p : Nat) : Bytes :=
  slice blob (p + name.length + 1) (p + name.length + 1 + size)

/-- No record of `name` comes before `p`. -/
def Foremost (blob : Bytes) (name : String) (p : Nat) : Prop := ∀ q, recordMark name <+: blob.drop q → p ≤ q

theorem findRecords_head {blob : Bytes} {name : String} (hname : Recordable name) {p : Nat}
    (hmatch : recordMark name <+: blob.drop p) :
    ∃ first rest, findRecords blob name = some ((first + name.length + 1) :: rest) ∧
      recordMark name <+: blob.drop first ∧ Foremost blob name first := by
  obtain ⟨hits, hfound, -, hincreasing, hexact⟩ := findRecords_hits blob hname
  cases hits with
  | nil => exact absurd ((hexact _).mpr ⟨p, hmatch, rfl⟩) List.not_mem_nil
  | cons o rest =>
      obtain ⟨first, hfirst, rfl⟩ := (hexact o).mp List.mem_cons_self
      refine ⟨first, rest, hfound, hfirst, ?_⟩
      intro q hq
      rcases List.mem_cons.mp ((hexact _).mpr ⟨q, hq, rfl⟩) with heq | hlater
      · omega
      · have hlt := (List.pairwise_cons.mp hincreasing).1 _ hlater
        omega

/-! ### The calls of a run -/

def script {α : Type} : List Call → Except Exn α → ExtractM α
  | [], r => Raise.done r
  | c :: cs, r => ask c >>= fun _ => script cs r

theorem script_bind {α β : Type} {cs ds : List Call} {a : α} {r : Except Exn β} {f : α → ExtractM β}
    (hf : f a = script ds r) : (script cs (.ok a) >>= f) = script (cs ++ ds) r := by
  induction cs with
  | nil => exact hf
  | cons c cs ih =>
      rw [script, Raise.bind_assoc, ih]
      rfl

theorem ask_bind_script {α : Type} {c : Call} {ds : List Call} {r : Except Exn α} {f : Unit → ExtractM α}
    (hf : f () = script ds r) : (ask c >>= f) = script (c :: ds) r := by
  rw [script]
  congr 1
  funext u
  exact hf

theorem ask_eq_script (c : Call) : ask c = script [c] (.ok ()) := (Raise.bind_pure (ask c)).symm

theorem prints_eq_script (lines : List (String × List Shown)) :
    Raise.each (fun _ (l : String × List Shown) => print l.1 l.2) () lines =
      script (lines.map fun l => .print l.1 l.2) (.ok ()) := by
  induction lines with
  | nil => rfl
  | cons l lines ih => exact ask_bind_script ih

/-- The calls of one turn of the loop: first the file, if there is a record. -/
def turnCalls (sha256 : Bytes → String) (blob : Bytes) (outdir : String) (x : String × Meta) : List Call :=
  match findRecords blob x.1 with
  | some (start :: rest) =>
      let img := slice blob start (start + x.2.size)
      let out := outPath outdir x.1
      .save out img :: (report sha256 x.1 x.2 (start :: rest) start img out).map fun l => .print l.1 l.2
  | _ => [.print "  %-24s NOT FOUND" [.str x.1]]

theorem extract_eq_script (sha256 : Bytes → String) (blob : Bytes) (outdir : String) (found : Nat) {x : String × Meta}
    (hname : Recordable x.1) : ∃ found', extract sha256 blob outdir found x =
      script (turnCalls sha256 blob outdir x) (.ok found') := by
  obtain ⟨hits, hfound, -, -, -⟩ := findRecords_hits blob hname
  rw [extract, turnCalls, hfound]
  cases hits with
  | nil => exact ⟨found, rfl⟩
  | cons start rest =>
      refine ⟨found + 1, ?_⟩
      refine ask_bind_script ?_
      rw [prints_eq_script]
      have hend : (pure (found + 1) : ExtractM Nat) = script [] (.ok (found + 1)) := rfl
      refine (script_bind (a := ()) (f := fun _ => pure (found + 1)) hend).trans ?_
      rw [List.append_nil]

theorem extractEach_eq_script (sha256 : Bytes → String) (blob : Bytes) (outdir : String) {known : List (String × Meta)}
    (hknown : ∀ x ∈ known, Recordable x.1) (found : Nat) :
    ∃ found', Raise.each (extract sha256 blob outdir) found known =
      script (known.flatMap (turnCalls sha256 blob outdir)) (.ok found') := by
  induction known generalizing found with
  | nil => exact ⟨found, rfl⟩
  | cons x known ih =>
      obtain ⟨next, hturn⟩ := extract_eq_script sha256 blob outdir found (hknown x List.mem_cons_self)
      obtain ⟨last, hrest⟩ := ih (fun y hy => hknown y (List.mem_cons_of_mem x hy)) next
      refine ⟨last, ?_⟩
      rw [Raise.each, hturn, List.flatMap_cons]
      exact script_bind hrest

/-- What comes before the loop. -/
def openingCalls (sha256 : Bytes → String) (dll : String) (blob : Bytes) (outdir : String) : List Call :=
  [ .print "%s  (%d bytes)" [.str dll, .num (some blob.length)],
    .print "sha256 %s" [.str (sha256 blob)],
    .print "" [],
    .makedirs outdir ]

theorem known_recordable : ∀ x ∈ KNOWN, Recordable x.1 := by decide

/-- **The program is a list of calls**, whatever they do; after the loop it writes no file. -/
theorem main_eq_script (sha256 : Bytes → String) (dll : String) (blob : Bytes) (outdir : String) :
    ∃ last r, main sha256 dll blob outdir =
        script (openingCalls sha256 dll blob outdir ++ (KNOWN.flatMap (turnCalls sha256 blob outdir) ++ last)) r ∧
      ∀ c ∈ last, c.saved = none := by
  obtain ⟨found, hloop⟩ := extractEach_eq_script sha256 blob outdir known_recordable 0
  by_cases hfound : found = 0
  · refine ⟨[], .error (.systemExit "no firmware records found -- is this really gfspi.dll?"), ?_, by simp⟩
    refine ask_bind_script (ask_bind_script (ask_bind_script (ask_bind_script ?_)))
    rw [hloop]
    exact script_bind (if_pos hfound)
  · refine ⟨[.print "extracted %d image(s)" [.num (some found)]], .ok (), ?_, by simp [Call.saved]⟩
    refine ask_bind_script (ask_bind_script (ask_bind_script (ask_bind_script ?_)))
    rw [hloop]
    exact script_bind ((if_neg hfound).trans (ask_eq_script _))

/-! ### Calls that return -/

/-- Each of the calls returns, after those in `done`. -/
def Returns (raises : List Call → Call → Option String) : List Call → List Call → Prop
  | _, [] => True
  | done, c :: cs => raises done c = none ∧ Returns raises (done ++ [c]) cs

/-- The calls before the first that raises. -/
def carried (raises : List Call → Call → Option String) : List Call → List Call → List Call
  | _, [] => []
  | done, c :: cs =>
      match raises done c with
      | some _ => []
      | none => c :: carried raises (done ++ [c]) cs

section Calls

variable {raises : List Call → Call → Option String} {done cs ds : List Call} {c : Call}

theorem run_script {α : Type} (cs : List Call) (r : Except Exn α) (done : List Call) :
    (Prog.run (handle raises) (script cs r) done).2 = done ++ carried raises done cs := by
  induction cs generalizing done with
  | nil =>
      cases r with
      | ok a => exact (List.append_nil done).symm
      | error e => exact (List.append_nil done).symm
  | cons c cs ih =>
      show (Prog.run (handle raises) (Raise.andThen _ (handle raises c done).1) (handle raises c done).2).2 = _
      rw [carried, handle]
      cases raises done c with
      | some e => exact (List.append_nil done).symm
      | none => exact (ih (done ++ [c])).trans (List.append_cons done c _).symm

theorem carried_isPrefix : carried raises done cs <+: cs := by
  induction cs generalizing done with
  | nil => exact List.prefix_refl []
  | cons c cs ih =>
      rw [carried]
      split
      · exact List.nil_prefix
      · exact (List.prefix_cons_inj c).mpr ih

theorem Returns.carried_append (h : Returns raises done cs) :
    carried raises done (cs ++ ds) = cs ++ carried raises (done ++ cs) ds := by
  induction cs generalizing done with
  | nil => simp
  | cons c cs ih => simp [carried, h.1, ih h.2]

/-- A call that is not reached, or raises, is not carried out, nor is any after it. -/
theorem carried_stop (h : ¬ Returns raises done (cs ++ [c])) : carried raises done (cs ++ c :: ds) <+: cs := by
  induction cs generalizing done with
  | nil =>
      have hraises : raises done c ≠ none := fun hnone => h ⟨hnone, trivial⟩
      obtain ⟨e, he⟩ := Option.ne_none_iff_exists'.mp hraises
      simp [carried, he]
  | cons c' cs ih =>
      rw [List.cons_append, carried]
      split
      · exact List.nil_prefix
      · next hnone => exact (List.prefix_cons_inj c').mpr (ih fun hrest => h ⟨hnone, hrest⟩)

end Calls

/-! ### What the extractor writes -/

theorem saved_eq_some {c : Call} {path : String} {img : Bytes} : c.saved = some (path, img) ↔ c = .save path img := by
  cases c <;> simp [Call.saved]

theorem turnCalls_save (sha256 : Bytes → String) (blob : Bytes) (outdir : String) {x : String × Meta}
    (hname : Recordable x.1) {path : String} {img : Bytes}
    (h : .save path img ∈ turnCalls sha256 blob outdir x) : path = outPath outdir x.1 ∧
      ∃ first, recordMark x.1 <+: blob.drop first ∧ Foremost blob x.1 first ∧ img = imageAt blob x.1 x.2.size first := by
  obtain ⟨hits, hfound, -, -, hexact⟩ := findRecords_hits blob hname
  rw [turnCalls, hfound] at h
  cases hits with
  | nil => simp at h
  | cons o rest =>
      obtain ⟨p, hp, -⟩ := (hexact o).mp List.mem_cons_self
      obtain ⟨first, rest', hhead, hfirst, hforemost⟩ := findRecords_head hname hp
      obtain ⟨rfl, rfl⟩ := List.cons.inj (Option.some.inj (hfound.symm.trans hhead))
      simp only [List.mem_cons, Call.save.injEq, List.mem_map, reduceCtorEq, and_false, exists_false, or_false] at h
      exact ⟨h.1, first, hfirst, hforemost, h.2⟩

theorem turnCalls_head (sha256 : Bytes → String) (blob : Bytes) (outdir : String) {x : String × Meta}
    (hname : Recordable x.1) {first : Nat} (hfirst : recordMark x.1 <+: blob.drop first)
    (hforemost : Foremost blob x.1 first) :
    ∃ lines, turnCalls sha256 blob outdir x = .save (outPath outdir x.1) (imageAt blob x.1 x.2.size first) :: lines := by
  obtain ⟨first', rest, hhead, hfirst', hforemost'⟩ := findRecords_head hname hfirst
  obtain rfl := Nat.le_antisymm (hforemost first' hfirst') (hforemost' first hfirst)
  rw [turnCalls, hhead]
  exact ⟨_, rfl⟩

theorem fileAfter_eq_some {done : List Call} {path : String} {img : Bytes} (hmem : .save path img ∈ done)
    (hunique : ∀ img', .save path img' ∈ done → img' = img) : fileAfter done path = some img := by
  have hsaved {f : String × Bytes} (hf : f ∈ done.filterMap Call.saved) : .save f.1 f.2 ∈ done := by
    obtain ⟨c, hc, hcf⟩ := List.mem_filterMap.mp hf
    exact saved_eq_some.mp hcf ▸ hc
  rw [fileAfter]
  cases hfind : (done.filterMap Call.saved).reverse.find? fun f => f.1 = path with
  | none =>
      have hin : (path, img) ∈ done.filterMap Call.saved := List.mem_filterMap.mpr ⟨_, hmem, rfl⟩
      have hnone := List.find?_eq_none.mp hfind (path, img) (List.mem_reverse.mpr hin)
      exact absurd (decide_eq_true rfl) hnone
  | some f =>
      have hpath : f.1 = path := of_decide_eq_true (List.find?_some (p := fun f : String × Bytes => decide (f.1 = path)) hfind)
      have hf := hsaved (List.mem_reverse.mp (List.mem_of_find?_eq_some hfind))
      rw [Option.map_some]
      exact congrArg some (hunique f.2 (hpath ▸ hf))

theorem fileAfter_eq_none {done : List Call} {path : String} (h : ∀ img, .save path img ∉ done) :
    fileAfter done path = none := by
  rw [fileAfter, Option.map_eq_none_iff, List.find?_eq_none]
  intro f hf hpath
  obtain ⟨c, hc, hcf⟩ := List.mem_filterMap.mp (List.mem_reverse.mp hf)
  obtain rfl := of_decide_eq_true hpath
  exact h f.2 (saved_eq_some.mp hcf ▸ hc)

theorem outPath_inj {outdir name name' : String} (h : outPath outdir name = outPath outdir name') : name = name' := by
  have hlist := congrArg String.toList h
  rw [outPath, outPath, joinPath, joinPath] at hlist
  apply String.toList_inj.mp
  split at hlist <;> simpa using hlist

theorem known_unique {name : String} {info info' : Meta} (h : (name, info) ∈ KNOWN) (h' : (name, info') ∈ KNOWN) :
    info = info' := by
  simp only [KNOWN, List.mem_cons, Prod.mk.injEq, List.not_mem_nil, or_false] at h h'
  rcases h with ⟨rfl, rfl⟩ | ⟨rfl, rfl⟩ <;> rcases h' with ⟨hname, rfl⟩ | ⟨hname, rfl⟩
  · rfl
  · exact absurd hname (by decide)
  · exact absurd hname (by decide)
  · rfl

/-- The calls up to the one that writes the file of `name`, if the binary has a record of it. -/
def callsUpTo (sha256 : Bytes → String) (dll : String) (blob : Bytes) (outdir name : String) (info : Meta) : List Call :=
  openingCalls sha256 dll blob outdir ++ (KNOWN.takeWhile fun x => x.1 ≠ name).flatMap (turnCalls sha256 blob outdir) ++
    (turnCalls sha256 blob outdir (name, info)).take 1

theorem known_split {name : String} {info : Meta} (hknown : (name, info) ∈ KNOWN) :
    ∃ later, KNOWN = (KNOWN.takeWhile fun x => x.1 ≠ name) ++ (name, info) :: later := by
  have hne : (KNOWN.dropWhile fun x => x.1 ≠ name) ≠ [] := by
    intro hnil
    have hall := List.dropWhile_eq_nil_iff.mp hnil _ hknown
    exact of_decide_eq_true hall rfl
  obtain ⟨x, later, hx⟩ := List.exists_cons_of_ne_nil hne
  have hsplit := List.takeWhile_append_dropWhile (p := fun x : String × Meta => decide (x.1 ≠ name)) (l := KNOWN)
  have hname : x.1 = name := by
    have hhead := List.head_dropWhile_not (fun x : String × Meta => decide (x.1 ≠ name)) hne
    simp only [hx, List.head_cons, decide_eq_false_iff_not] at hhead
    exact not_not.mp hhead
  rw [hx] at hsplit
  have hin : x ∈ KNOWN := by
    rw [← hsplit]
    exact List.mem_append_right _ List.mem_cons_self
  obtain ⟨name', info'⟩ := x
  obtain rfl : name' = name := hname
  obtain rfl := known_unique hknown hin
  exact ⟨later, hsplit.symm⟩

section Written

variable (raises : List Call → Call → Option String) (sha256 : Bytes → String) (dll : String) (blob : Bytes)
  (outdir : String) {name : String} {info : Meta} (hknown : (name, info) ∈ KNOWN) {first : Nat}
  (hfirst : recordMark name <+: blob.drop first) (hforemost : Foremost blob name first)

include hknown hfirst hforemost

/-- Only the turn of the name writes its file. -/
theorem save_mem_turnCalls {x : String × Meta} (hx : x ∈ KNOWN) {img : Bytes}
    (himg : .save (outPath outdir name) img ∈ turnCalls sha256 blob outdir x) :
    x = (name, info) ∧ img = imageAt blob name info.size first := by
  obtain ⟨hpath, first', hfirst', hforemost', rfl⟩ := turnCalls_save sha256 blob outdir (known_recordable x hx) himg
  obtain ⟨name', info'⟩ := x
  obtain rfl := outPath_inj hpath
  obtain rfl := known_unique hknown hx
  exact ⟨rfl, by rw [Nat.le_antisymm (hforemost' first hfirst) (hforemost first' hfirst')]⟩

theorem run_split : ∃ before after,
    callsUpTo sha256 dll blob outdir name info = before ++ [.save (outPath outdir name) (imageAt blob name info.size first)] ∧
      (run raises sha256 dll blob outdir).2 =
        carried raises [] (before ++ .save (outPath outdir name) (imageAt blob name info.size first) :: after) ∧
      (∀ img, .save (outPath outdir name) img ∉ before) ∧
      ∀ img, .save (outPath outdir name) img ∈ after → img = imageAt blob name info.size first := by
  obtain ⟨last, r, hmain, hlast⟩ := main_eq_script sha256 dll blob outdir
  obtain ⟨later, hsplit⟩ := known_split hknown
  obtain ⟨lines, hlines⟩ := turnCalls_head sha256 blob outdir (known_recordable _ hknown) hfirst hforemost
  have hsaved {x : String × Meta} (hx : x ∈ KNOWN) {img : Bytes}
      (himg : .save (outPath outdir name) img ∈ turnCalls sha256 blob outdir x) :=
    save_mem_turnCalls sha256 blob outdir hknown hfirst hforemost hx himg
  refine ⟨openingCalls sha256 dll blob outdir ++ (KNOWN.takeWhile fun x => x.1 ≠ name).flatMap (turnCalls sha256 blob outdir),
    lines ++ (later.flatMap (turnCalls sha256 blob outdir) ++ last), ?_, ?_, fun img himg => ?_, fun img himg => ?_⟩
  · rw [callsUpTo, hlines]
    rfl
  · rw [run, hmain, run_script, List.nil_append]
    congr 1
    conv_lhs => rw [hsplit]
    rw [List.flatMap_append, List.flatMap_cons, hlines]
    simp only [List.append_assoc, List.cons_append]
  · rcases List.mem_append.mp himg with himg | himg
    · simp [openingCalls] at himg
    · obtain ⟨x, hx, himg⟩ := List.mem_flatMap.mp himg
      obtain ⟨rfl, -⟩ := hsaved ((List.takeWhile_subset _) hx) himg
      have hne := List.mem_takeWhile_imp (p := fun x : String × Meta => decide (x.1 ≠ name)) hx
      exact of_decide_eq_true hne rfl
  · rcases List.mem_append.mp himg with himg | himg
    · exact (hsaved hknown (hlines ▸ List.mem_cons_of_mem _ himg)).2
    rcases List.mem_append.mp himg with himg | himg
    · obtain ⟨x, hx, himg⟩ := List.mem_flatMap.mp himg
      exact (hsaved (hsplit ▸ List.mem_append_right _ (List.mem_cons_of_mem _ hx)) himg).2
    · exact absurd (hlast _ himg) (by simp [Call.saved])

/-- **What the run writes.** The file of a known name holds what is behind the first record of the name, if the run gets so far, and is not written otherwise. -/
theorem run_file :
    (Returns raises [] (callsUpTo sha256 dll blob outdir name info) →
      fileAfter (run raises sha256 dll blob outdir).2 (outPath outdir name) = some (imageAt blob name info.size first)) ∧
    (¬ Returns raises [] (callsUpTo sha256 dll blob outdir name info) →
      fileAfter (run raises sha256 dll blob outdir).2 (outPath outdir name) = none) := by
  obtain ⟨before, after, hupTo, hrun, hbefore, hafter⟩ := run_split raises sha256 dll blob outdir hknown hfirst hforemost
  rw [hupTo, hrun]
  constructor
  · intro hreturns
    apply fileAfter_eq_some
    · rw [List.append_cons, hreturns.carried_append]
      simp
    · intro img himg
      rcases List.mem_append.mp (carried_isPrefix.subset himg) with himg | himg
      · exact absurd himg (hbefore img)
      rcases List.mem_cons.mp himg with himg | himg
      · exact (Call.save.inj himg).2
      · exact hafter img himg
  · intro hstops
    apply fileAfter_eq_none
    intro img himg
    exact hbefore img ((carried_stop hstops).subset himg)

end Written

/-- The record at `p` has an image behind it with the known digest. -/
def Genuine (sha256 : Bytes → String) (blob : Bytes) (name : String) (info : Meta) (p : Nat) : Prop :=
  recordMark name <+: blob.drop p ∧ p + name.length + 1 + info.size ≤ blob.length ∧
    sha256 (imageAt blob name info.size p) = info.sha256

/-- What is behind the record at `p` has another digest. -/
def Decoy (sha256 : Bytes → String) (blob : Bytes) (name : String) (info : Meta) (p : Nat) : Prop :=
  recordMark name <+: blob.drop p ∧ sha256 (imageAt blob name info.size p) ≠ info.sha256

/-- The run writes the file of the name to the end, with bytes of the known digest. -/
def Extracts (raises : List Call → Call → Option String) (sha256 : Bytes → String) (dll : String) (blob : Bytes)
    (outdir name : String) (info : Meta) : Prop :=
  ∃ img, fileAfter (run raises sha256 dll blob outdir).2 (outPath outdir name) = some img ∧ sha256 img = info.sha256

/-- Of the records, the first alone decides. -/
theorem extracts_iff (raises : List Call → Call → Option String) (sha256 : Bytes → String) (dll : String) (blob : Bytes)
    (outdir : String) {name : String} {info : Meta} (hknown : (name, info) ∈ KNOWN) {first : Nat}
    (hfirst : recordMark name <+: blob.drop first) (hforemost : Foremost blob name first) :
    Extracts raises sha256 dll blob outdir name info ↔
      Returns raises [] (callsUpTo sha256 dll blob outdir name info) ∧
        sha256 (imageAt blob name info.size first) = info.sha256 := by
  obtain ⟨hwritten, hmissing⟩ := run_file raises sha256 dll blob outdir hknown hfirst hforemost
  constructor
  · intro hextracts
    obtain ⟨img, hfile, hdigest⟩ := hextracts
    have hreturns : Returns raises [] (callsUpTo sha256 dll blob outdir name info) := by
      by_contra hstops
      rw [hmissing hstops] at hfile
      exact absurd hfile (by simp)
    rw [hwritten hreturns] at hfile
    exact ⟨hreturns, Option.some.inj hfile ▸ hdigest⟩
  · intro h
    exact ⟨_, hwritten h.1, h.2⟩

/-- **The extractor writes the genuine image exactly when it gets so far and no decoy comes first**: for every binary, every output directory, every known name, any digest function, and whatever the calls do. -/
theorem extracts_genuine_iff (raises : List Call → Call → Option String) (sha256 : Bytes → String) (dll : String)
    (blob : Bytes) (outdir : String) {name : String} {info : Meta} (hknown : (name, info) ∈ KNOWN) :
    ((∃ p, Genuine sha256 blob name info p) → Extracts raises sha256 dll blob outdir name info) ↔
      ((∃ p, Genuine sha256 blob name info p) →
        Returns raises [] (callsUpTo sha256 dll blob outdir name info) ∧
          ¬ ∃ p, Decoy sha256 blob name info p ∧ Foremost blob name p) := by
  apply imp_congr_right
  intro hgenuine
  obtain ⟨p, hmatch, -, -⟩ := hgenuine
  obtain ⟨first, -, -, hfirst, hforemost⟩ := findRecords_head (known_recordable _ hknown) hmatch
  rw [extracts_iff raises sha256 dll blob outdir hknown hfirst hforemost]
  apply and_congr_right
  intro _
  constructor
  · intro hdigest hfirstDecoy
    obtain ⟨q, ⟨hq, hdecoy⟩, hqforemost⟩ := hfirstDecoy
    rw [Nat.le_antisymm (hqforemost first hfirst) (hforemost q hq)] at hdecoy
    exact hdecoy hdigest
  · intro hquiet
    by_contra hdecoy
    exact hquiet ⟨first, ⟨hfirst, hdecoy⟩, hforemost⟩

/-! ### With and without a decoy -/

def quiet : List Call → Call → Option String := fun _ _ => none

theorem returns_quiet (done cs : List Call) : Returns quiet done cs := by
  induction cs generalizing done with
  | nil => trivial
  | cons c cs ih => exact ⟨rfl, ih _⟩

def zeroImage : Bytes := List.replicate 85994 0

def zeroDigest (b : Bytes) : String :=
  if b = zeroImage then "6e6cc79bedfbd51cf02f92a00cf3d42a0f1083c134e919b60b265f93f8f37aa4" else ""

def recorded : Bytes := recordMark "GF_ST411SEC_APP_14115" ++ zeroImage

theorem recorded_length : recorded.length = 86016 := by
  rw [recorded, zeroImage, List.length_append, List.length_replicate, recordMark_length]
  rfl

theorem genuine_recorded (pre : Bytes) (info : Meta) (hsize : info.size = 85994)
    (hdigest : info.sha256 = "6e6cc79bedfbd51cf02f92a00cf3d42a0f1083c134e919b60b265f93f8f37aa4") :
    Genuine zeroDigest (pre ++ recorded) "GF_ST411SEC_APP_14115" info pre.length := by
  have hname : "GF_ST411SEC_APP_14115".length = 21 := rfl
  have hstop : pre.length + 21 + 1 + 85994 = (pre ++ recorded).length := by
    have := recorded_length
    rw [List.length_append]
    omega
  have himage : imageAt (pre ++ recorded) "GF_ST411SEC_APP_14115" 85994 pre.length = zeroImage := by
    rw [imageAt, hname, slice, hstop, List.take_length, Nat.add_assoc pre.length 21 1, ← List.drop_drop,
      List.drop_left, recorded]
    exact List.drop_left' rfl
  refine ⟨?_, ?_, ?_⟩
  · rw [List.drop_left]
    exact List.prefix_append _ _
  · rw [hsize, hname, hstop]
  · rw [hsize, himage, hdigest, zeroDigest, if_pos rfl]

theorem extracts_genuine_recorded :
    ∃ info, ("GF_ST411SEC_APP_14115", info) ∈ KNOWN ∧
      Extracts quiet zeroDigest "gfspi.dll" recorded "." "GF_ST411SEC_APP_14115" info := by
  refine ⟨_, List.mem_cons_self, ?_⟩
  have hgenuine := genuine_recorded [] (KNOWN.head (by decide)).2 rfl rfl
  refine (extracts_genuine_iff quiet zeroDigest "gfspi.dll" recorded "." List.mem_cons_self).mpr ?_ ⟨0, hgenuine⟩
  refine fun _ => ⟨returns_quiet _ _, ?_⟩
  intro hfirstDecoy
  obtain ⟨p, ⟨-, hdecoy⟩, hforemost⟩ := hfirstDecoy
  obtain rfl : p = 0 := Nat.le_zero.mp (hforemost 0 hgenuine.1)
  exact hdecoy hgenuine.2.2

def decoyed : Bytes := recordMark "GF_ST411SEC_APP_14115" ++ recorded

/-- The genuine image is in the binary, at its second marker, and the extractor writes what is behind the first. -/
theorem decoy_extracted :
    ¬ ∀ (sha256 : Bytes → String) (dll : String) (blob : Bytes) (outdir name : String) (info : Meta),
      (name, info) ∈ KNOWN → (∃ p, Genuine sha256 blob name info p) →
        Extracts quiet sha256 dll blob outdir name info := by
  intro h
  have hknown : ("GF_ST411SEC_APP_14115", (KNOWN.head (by decide)).2) ∈ KNOWN := List.mem_cons_self
  have hgenuine := genuine_recorded (recordMark "GF_ST411SEC_APP_14115") (KNOWN.head (by decide)).2 rfl rfl
  have hextracts := h zeroDigest "gfspi.dll" decoyed "." _ _ hknown ⟨_, hgenuine⟩
  have hfirst : recordMark "GF_ST411SEC_APP_14115" <+: decoyed.drop 0 := List.prefix_append _ _
  have hforemost : Foremost decoyed "GF_ST411SEC_APP_14115" 0 := fun _ _ => Nat.zero_le _
  obtain ⟨-, hdigest⟩ := (extracts_iff quiet zeroDigest "gfspi.dll" decoyed "." hknown hfirst hforemost).mp hextracts
  have hother : imageAt decoyed "GF_ST411SEC_APP_14115" 85994 0 ≠ zeroImage := by
    intro heq
    have hhead := congrArg (fun b => b[0]?) heq
    change ((decoyed.take 86016).drop 22)[0]? = zeroImage[0]? at hhead
    have hrecorded : decoyed.drop 22 = recorded := List.drop_left' rfl
    rw [List.getElem?_drop, List.getElem?_take_of_lt (by omega), ← List.getElem?_drop (j := 0), hrecorded] at hhead
    exact absurd hhead (by decide)
  change zeroDigest (imageAt decoyed "GF_ST411SEC_APP_14115" 85994 0) = _ at hdigest
  rw [zeroDigest, if_neg hother] at hdigest
  exact absurd hdigest (by decide)

end GoodixSpi.Tools.ExtractFirmware
