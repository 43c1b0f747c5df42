import IndexFeed.Proofs.Program.Printing

/-!
# Sizes of batches and buffers

The sizes on the command line decide how much memory a run asks for, and nothing that can be seen of a
run that gets it.  Such a run prints what it prints with batches of one and the usual buffer, and ends
with the same code.  The memory is asked for once the database is open and before anything is printed.
A run that does not get it crashes or is aborted, with nothing printed and nothing reported, whatever is
in the database.  Which sizes get it is up to the machine, which has at least the memory for the usual
ones.
-/

set_option autoImplicit false

namespace IndexFeed.Program

variable {m : Memory} {files : FileTree} {path : String} {content : Bytes}
  {batchSize bufferSize : Nat} {ending : Ending}

/-! ## Memory -/

/-- The machine has memory for a batch and for the read buffer. -/
def Fits (m : Memory) (batchSize bufferSize : Nat) : Prop :=
  bufferSize ≤ m.octets ∧ batchSize * commandOctets ≤ m.octets

instance : Decidable (Fits m batchSize bufferSize) := inferInstanceAs (Decidable (_ ∧ _))

/-- Every machine has the memory for a batch of one and the usual buffer. -/
theorem fits_usual (m : Memory) :
    Fits m (1 : UInt64).toNat CommandLine.Invocation.usualBufferSize.toNat :=
  ⟨m.usual, Nat.le_trans (by decide) m.usual⟩

/-- What becomes of an action that asks for its read buffer and then for a batch, unless it gets
both. -/
def shortage? (m : Memory) (batchSize bufferSize : Nat) : Option Ending :=
  allocationEnding? m bufferSize <|> allocationEnding? m (batchSize * commandOctets)

theorem allocationEnding?_eq_none_iff {n : Nat} :
    allocationEnding? m n = none ↔ n ≤ m.octets := by
  unfold allocationEnding?
  split
  · next hlarge =>
    exact iff_of_false nofun (Nat.not_le.2 (Nat.lt_of_le_of_lt m.addressable hlarge))
  · split
    · next hn => exact iff_of_false nofun (Nat.not_le.2 hn)
    · next hn => exact iff_of_true rfl (Nat.not_lt.1 hn)

/-- Without the memory that it asks for, an action crashes or is aborted. -/
theorem eq_of_allocationEnding? {n : Nat} (h : allocationEnding? m n = some ending) :
    ending = .crashed ∨ ending = .aborted := by
  unfold allocationEnding? at h
  split at h
  · cases h
    exact .inl rfl
  · split at h
    · cases h
      exact .inr rfl
    · cases h

theorem shortage?_eq_none_iff :
    shortage? m batchSize bufferSize = none ↔ Fits m batchSize bufferSize := by
  rw [shortage?, Option.orElse_eq_orElse, Option.orElse_eq_or, Option.or_eq_none_iff]
  exact and_congr allocationEnding?_eq_none_iff allocationEnding?_eq_none_iff

theorem eq_of_shortage? (h : shortage? m batchSize bufferSize = some ending) :
    ending = .crashed ∨ ending = .aborted := by
  rw [shortage?, Option.orElse_eq_orElse, Option.orElse_eq_or, Option.or_eq_some_iff] at h
  rcases h with h | ⟨-, h⟩
  · exact eq_of_allocationEnding? h
  · exact eq_of_allocationEnding? h

theorem exists_shortage (h : ¬ Fits m batchSize bufferSize) :
    ∃ ending, shortage? m batchSize bufferSize = some ending :=
  Option.ne_none_iff_exists'.1 (mt shortage?_eq_none_iff.1 h)

/-! ## The action -/

/-- An action that does not get its memory ends when it asks for it. -/
theorem parse_of_shortage (split : Bool) (hfile : files.find path = .ok (.file content))
    (h : shortage? m batchSize bufferSize = some ending) :
    ∃ events, parse m files path batchSize bufferSize split = { events, ending } := by
  obtain ⟨file, events, hopen, -⟩ := openAt_of_file hfile
  rw [shortage?] at h
  exact ⟨events, by simp only [parse, hopen, h]⟩

/-- Where there is no database, the sizes do not come into it. -/
theorem parse_of_no_file (split : Bool) (hfile : ∀ content, files.find path ≠ .ok (.file content))
    (batchSize' bufferSize' : Nat) : parse m files path batchSize bufferSize split =
      parse m files path batchSize' bufferSize' split := by
  have hopen : ∃ e events, Database.File.openAt files path = (.error e, events) := by
    unfold Database.File.openAt
    split
    · exact ⟨_, _, rfl⟩
    · next content hcontent => exact absurd hcontent (hfile content)
    · exact ⟨_, _, rfl⟩
  obtain ⟨e, events, hopen⟩ := hopen
  simp only [parse, hopen]

/-- With memory for its sizes, the action comes to what one pass over the document comes to. -/
theorem parse_spec_of_fits (split : Bool) (hfile : files.find path = .ok (.file content))
    (hfits : Fits m batchSize bufferSize) :
    let single := ({ source := .ofBytes content content.length } : Database.Reader).delivery
    (parse m files path batchSize bufferSize split).output =
        linesOf split (Database.Collector.wellFormed single.2.2) ∧
      (parse m files path batchSize bufferSize split).ending =
        endingBehind path (Database.Collector.wellFormed single.2.2).length single.1 :=
  parse_spec split hfile (allocationEnding?_eq_none_iff.2 hfits.1)
    (allocationEnding?_eq_none_iff.2 hfits.2)

/-- With memory for them, all sizes come to the same. -/
theorem parse_of_fits (split : Bool) (hfile : files.find path = .ok (.file content))
    (hfits : Fits m batchSize bufferSize) {batchSize' bufferSize' : Nat}
    (hfits' : Fits m batchSize' bufferSize') :
    (parse m files path batchSize bufferSize split).output =
        (parse m files path batchSize' bufferSize' split).output ∧
      (parse m files path batchSize bufferSize split).ending =
        (parse m files path batchSize' bufferSize' split).ending := by
  obtain ⟨houtput, hending⟩ := parse_spec_of_fits split hfile hfits
  obtain ⟨houtput', hending'⟩ := parse_spec_of_fits split hfile hfits'
  exact ⟨houtput.trans houtput'.symm, hending.trans hending'.symm⟩

/-- With memory for the sizes, the action ends with a code of its own. -/
theorem code_of_fits (split : Bool) (hfile : files.find path = .ok (.file content))
    (hfits : Fits m batchSize bufferSize) :
    (parse m files path batchSize bufferSize split).ending.code = some 0 ∨
      (parse m files path batchSize bufferSize split).ending.code = some 1 := by
  obtain ⟨-, hending⟩ := parse_spec_of_fits split hfile hfits
  rw [hending]
  cases (Database.Reader.delivery _).1 with
  | error e => exact .inr rfl
  | ok outcome => exact .inl rfl

/-! ## The run -/

/-- A run opens its log and its database. -/
def Opens (s : Log.Settings) (now : Log.Moment) (w : World) (path : String) : Prop :=
  ∃ files content, openLog s now w.files = .ok files ∧ s.fault? ≠ some .insideCharacter ∧
    files.find path = .ok (.file content)

section Run

open CommandLine (Invocation)
open CommandLine.Invocation (usualBufferSize)

variable {words words' : List String} {env : Environment} {now : Log.Moment} {w : World}
  {i : Invocation} {batchSize bufferSize batchSize' bufferSize' : UInt64} {split : Bool}

/-- The sizes are no part of how a run logs. -/
theorem logSettings_of_parse (haction : i.action = .parse path batchSize bufferSize split) :
    ({ i with action := .parse path batchSize' bufferSize' split } : Invocation).logSettings env =
      i.logSettings env := by
  unfold CommandLine.Invocation.logSettings
  rw [haction]
  rfl

/-- A run that does not come to its database does not depend on the sizes. -/
theorem run_of_not_opens (hread : Invocation.read env words = .ok i)
    (haction : i.action = .parse path batchSize bufferSize split)
    (hread' : Invocation.read env words' =
      .ok { i with action := .parse path batchSize' bufferSize' split })
    (hopens : ¬ Opens (i.logSettings env) now w path) :
    run words env now w m = run words' env now w m := by
  simp only [run, hread, hread', logSettings_of_parse haction, haction, perform]
  cases hlog : openLog (i.logSettings env) now w.files with
  | error e => rfl
  | ok files =>
    dsimp only
    split
    · rfl
    · next hfilter =>
      rw [parse_of_no_file split fun content hfile => hopens ⟨files, content, hlog, hfilter, hfile⟩]

/-- A run that comes to its database ends and prints as the action does. -/
theorem run_of_opens (hread : Invocation.read env words = .ok i)
    (haction : i.action = .parse path batchSize bufferSize split)
    (hlog : openLog (i.logSettings env) now w.files = .ok files)
    (hfilter : (i.logSettings env).fault? ≠ some .insideCharacter) :
    (run words env now w m).code =
        (parse m files path batchSize.toNat bufferSize.toNat split).ending.code ∧
      (run words env now w m).output =
        (parse m files path batchSize.toNat bufferSize.toNat split).output := by
  rw [run_of_parse hread haction hlog hfilter]
  exact ⟨rfl, rfl⟩

/-- **The sizes that a run gets memory for make no difference, and no others will do.**  Take a run that
prints a database, on any machine, and the run that differs from it in having batches of one and the
usual buffer.  The two print the same and end with the same code if and only if there is memory for the
sizes of the first or it does not come to its database at all.  If it does, a run that gets its memory
ends with the code 0 or 1, and one that does not prints nothing, and crashes or is aborted. -/
theorem sizes_make_no_difference_iff (hread : Invocation.read env words = .ok i)
    (haction : i.action = .parse path batchSize bufferSize split)
    (hplain : Invocation.read env words' =
      .ok { i with action := .parse path 1 usualBufferSize split }) :
    let outcome := run words env now w m
    let plain := run words' env now w m
    let opens := Opens (i.logSettings env) now w path
    let fits := Fits m batchSize.toNat bufferSize.toNat
    (outcome.code = plain.code ∧ outcome.output = plain.output ↔ (opens → fits)) ∧
      (opens → fits → outcome.code = some 0 ∨ outcome.code = some 1) ∧
      (opens → ¬ fits → outcome.output = "" ∧ ∃ ending, (ending = .crashed ∨ ending = .aborted) ∧
        shortage? m batchSize.toNat bufferSize.toNat = some ending ∧ outcome.code = ending.code) := by
  intro outcome plain opens fits
  by_cases hopens : opens
  · have ⟨files, content, hlog, hfilter, hfile⟩ : Opens (i.logSettings env) now w path := hopens
    obtain ⟨hcode, houtput⟩ : outcome.code = _ ∧ outcome.output = _ :=
      run_of_opens hread haction hlog hfilter
    obtain ⟨hcode', houtput'⟩ : plain.code = _ ∧ plain.output = _ :=
      run_of_opens hplain rfl (by rwa [logSettings_of_parse haction])
        (by rwa [logSettings_of_parse haction])
    rw [hcode, houtput, hcode', houtput']
    by_cases hfits : fits
    · obtain ⟨hout, hending⟩ := parse_of_fits split hfile hfits (fits_usual m)
      exact ⟨iff_of_true ⟨congrArg Ending.code hending, hout⟩ fun _ => hfits,
        fun _ _ => code_of_fits split hfile hfits, fun _ hshort => absurd hfits hshort⟩
    · obtain ⟨ending, hshort⟩ := exists_shortage hfits
      obtain ⟨events, hparse⟩ := parse_of_shortage split hfile hshort
      have hends := eq_of_shortage? hshort
      rw [hparse]
      refine ⟨iff_of_false (fun hsame => ?_) fun hneeds => hfits (hneeds hopens),
        fun _ hfits' => absurd hfits' hfits, fun _ _ => ⟨rfl, ending, hends, hshort, rfl⟩⟩
      -- the plain run has a code of its own, which no crash and no abort has
      have hown := code_of_fits split hfile (fits_usual m)
      rw [← hsame.1] at hown
      rcases hends with rfl | rfl <;> simp [Ending.code] at hown
  · have hsame : outcome = plain := run_of_not_opens hread haction hplain hopens
    exact ⟨iff_of_true ⟨congrArg Outcome.code hsame, congrArg Outcome.output hsame⟩
      fun h => absurd h hopens, fun h => absurd h hopens, fun h => absurd h hopens⟩

/-- Over a database that breaks off behind two commands, sizes of zero make no difference, and the
largest buffer crashes the run, so that neither command is printed. -/
theorem sizes_over_broken_database :
    let c : CompileCommand := { directory := "/a", file := "x.c", command := some "cc x.c" }
    let entry := Utf8.encodeChars c.toJson.chars ++ [Octet.comma]
    let content := Octet.openBracket :: (entry ++ entry ++ [Octet.closeBracket])
    let w : World := { files := ⟨[([], .directory), (["db"], .file content)], []⟩ }
    let outcome := fun size =>
      run ["parse", "db", "-n", "0", "--buffer-size", size] [] ⟨2026, 1, 1, 0⟩ w
    let plain := run ["parse", "db", "-n", "1"] [] ⟨2026, 1, 1, 0⟩ w
    plain.output = linesOf false [c, c] ∧ plain.code = some 1 ∧
      (outcome "0").code = plain.code ∧ (outcome "0").output = plain.output ∧
      (outcome "18446744073709551615").code = some 101 ∧
      (outcome "18446744073709551615").output = "" := by
  intro c entry content w outcome plain
  have hread : Invocation.read [] ["parse", "db", "-n", "0", "--buffer-size", "0"] =
      .ok ⟨0, false, none, .parse "db" 0 0 false⟩ := rfl
  have hlarge :
      Invocation.read [] ["parse", "db", "-n", "0", "--buffer-size", "18446744073709551615"] =
        .ok ⟨0, false, none, .parse "db" 0 18446744073709551615 false⟩ := rfl
  have hplain : Invocation.read [] ["parse", "db", "-n", "1"] =
      .ok ⟨0, false, none, .parse "db" 1 usualBufferSize false⟩ := rfl
  have hopens : Opens {} ⟨2026, 1, 1, 0⟩ w "db" := ⟨w.files, _, rfl, by decide, rfl⟩
  obtain ⟨hsame, -, -⟩ := sizes_make_no_difference_iff (w := w) (m := {}) hread rfl hplain
  obtain ⟨-, -, hlacks⟩ := sizes_make_no_difference_iff (w := w) (m := {}) hlarge rfl hplain
  obtain ⟨hcode, houtput⟩ := hsame.2 fun _ => by decide
  obtain ⟨hnothing, ending, -, hshort, hcrash⟩ := hlacks hopens (by decide)
  have hending : ending = .crashed := (Option.some.inj hshort).symm
  have hprinted : plain.output = linesOf false [c, c] ∧ plain.code = some 1 := by decide +kernel
  exact ⟨hprinted.1, hprinted.2, hcode, houtput, hcrash.trans (congrArg Ending.code hending),
    hnothing⟩

/-- The largest batch that there is, over a database with one command. -/
theorem largest_batch_crashes :
    let c : CompileCommand := { directory := "/a", file := "x.c", command := some "cc x.c" }
    let content := Octet.openBracket :: (Utf8.encodeChars c.toJson.chars ++ [Octet.closeBracket])
    let w : World := { files := ⟨[([], .directory), (["db"], .file content)], []⟩ }
    let outcome := fun size => run ["parse", "db", "-n", size] [] ⟨2026, 1, 1, 0⟩ w
    (outcome "1").code = some 0 ∧ (outcome "1").output = linesOf false [c] ∧
      (outcome "18446744073709551615").code = some 101 ∧
      (outcome "18446744073709551615").output = "" := by
  decide +kernel

end Run

end IndexFeed.Program
