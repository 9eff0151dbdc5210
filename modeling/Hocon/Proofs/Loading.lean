import Hocon.Options.File
import Hocon.Proofs.Octets
import Hocon.Proofs.OptionEntries
import Hocon.Proofs.SectionNames

/-!
# Which option files are forgiven

Whatever a directory holds, and whichever library reads TOML, loading options comes to one of four
ends.

| the option file | the table that is read | the options that are loaded |
|---|---|---|
| is not known, because it cannot be told whether the path leads to a directory | | none, an error |
| has no table (`Hocon.Directory.HasNoTable`) | the empty one | the base, with no diagnostic |
| is given up (`Hocon.Directory.GivesUp`) | none, an error | none, the same error |
| is any other | that of the file | what its section sets, over the base |

A file has no table if it cannot be read or if the library says that it is no TOML. The loader gives
up on octets that are no text and on a library that fails in another way, although such a file is no
better or worse: the library that runs takes a key that is spoken of again for no TOML without a
header above it, and fails with one (`Hocon.loadOptions_gives_up`). In the last row a warning
without words still stands in the way (`Hocon.Warning.Reported`).
-/

namespace Hocon

/-! ### Empty tables -/

/-- An empty table sets nothing and leaves no warning. -/
theorem Layer.ofTable_nil : Layer.ofTable [] = ({}, []) := by
  rw [Layer.ofTable, Entries.sectionAt_nil]
  rfl

namespace Directory

variable {lib : Toml.Library} {d : Directory} {path file : FilePath}

/-! ### The table of a file -/

/-- **Files that have no table.** -/
inductive HasNoTable (lib : Toml.Library) (d : Directory) (file : FilePath) : Prop
  /-- The file is missing, or something else that cannot be read. A null character in its name is
  another matter. -/
  | unreadable {e : FileError} (octets : d.octets file = .error e) (asked : e ≠ .nullInside)
  /-- The text of the file is no TOML. -/
  | malformed {text words : String} (octets : d.octets file = .ok (octetsOfText text))
      (refused : lib.read (withLineFeeds text.toList) = .error (.malformed words))

/-- **Files that are given up.** -/
inductive GivesUp (lib : Toml.Library) (d : Directory) (file : FilePath) : Prop
  /-- There is a null character in the name of the file. -/
  | nullInside (octets : d.octets file = .error .nullInside)
  /-- The file holds the octets of no text. -/
  | notUtf8 {octets : List UInt8} (holds : d.octets file = .ok octets)
      (noText : ∀ text, octets ≠ octetsOfText text)
  /-- The library fails. -/
  | failure {text : String} {f : Failure} (octets : d.octets file = .ok (octetsOfText text))
      (fails : lib.read (withLineFeeds text.toList) = .error (.failure f))

/-- Octets of no text are an error. -/
theorem outcome_readTable_of_noText {octets : List UInt8} (hfile : d.octets file = .ok octets)
    (hnone : ∀ text, octets ≠ octetsOfText text) :
    ∃ e, (d.readTable lib file).outcome = .error e := by
  obtain ⟨fault, hfault⟩ := Utf8.exists_fault_iff.mpr hnone
  refine ⟨.notUtf8 fault, ?_⟩
  rw [readTable, hfile]
  dsimp only
  rw [textOfOctets, hfault, Attempt.outcome_bind]
  rfl

/-- A text is read as the library reads it. -/
theorem outcome_readTable_of_text {octets : List UInt8} {cs : List Char}
    (hfile : d.octets file = .ok octets) (htext : textOfOctets octets = .ok cs) :
    (d.readTable lib file).outcome = match lib.read cs with
      | .ok table => .ok table
      | .error (.failure f) => .error (.failure f)
      | .error (.malformed _) => .ok [] := by
  rw [readTable, hfile]
  dsimp only
  rw [htext, Attempt.outcome_bind]
  cases hread : lib.read cs with
  | ok table => simp [Except.mapError, hread]
  | error refusal => cases refusal <;> simp [Except.mapError, hread, recordMissing]

/-- **A file that has no table** is read as the empty one. -/
theorem HasNoTable.outcome_readTable (h : d.HasNoTable lib file) :
    (d.readTable lib file).outcome = .ok [] := by
  cases h with
  | @unreadable e hfile hasked =>
    have hrecord : (do
        d.recordMissing file "loading" (e.message (d.nameOf file))
        return [] : Attempt LoadError Entries).outcome = .ok [] := by
      rw [Attempt.outcome_bind, recordMissing, Attempt.outcome_record]
      rfl
    rw [readTable, hfile]
    cases e with
    | nullInside => exact absurd rfl hasked
    | _ => exact hrecord
  | malformed hfile hread => rw [outcome_readTable_of_text hfile (textOfOctets_octets _), hread]

/-- **A file that is given up** is an error. -/
theorem GivesUp.outcome_readTable (h : d.GivesUp lib file) :
    ∃ e, (d.readTable lib file).outcome = .error e := by
  cases h with
  | nullInside hfile =>
    rw [readTable, hfile]
    exact ⟨_, rfl⟩
  | notUtf8 hfile hnone => exact outcome_readTable_of_noText hfile hnone
  | failure hfile hread =>
    rw [outcome_readTable_of_text hfile (textOfOctets_octets _), hread]
    exact ⟨_, rfl⟩

/-- A file that is not given up is read as some table. -/
theorem exists_table_of_not_givesUp (h : ¬d.GivesUp lib file) :
    ∃ table, (d.readTable lib file).outcome = .ok table := by
  cases hfile : d.octets file with
  | error e =>
    by_cases hasked : e = .nullInside
    · exact absurd (.nullInside (hasked ▸ hfile)) h
    · exact ⟨[], (HasNoTable.unreadable hfile hasked).outcome_readTable⟩
  | ok octets =>
    by_cases hnone : ∀ text, octets ≠ octetsOfText text
    · exact absurd (.notUtf8 hfile hnone) h
    · obtain ⟨text, rfl⟩ := not_forall_not.mp hnone
      rw [outcome_readTable_of_text hfile (textOfOctets_octets text)]
      cases hread : lib.read (withLineFeeds text.toList) with
      | ok table => exact ⟨table, rfl⟩
      | error refusal =>
        cases refusal with
        | malformed words => exact ⟨[], rfl⟩
        | failure f => exact absurd (.failure hfile hread) h

/-! ### The options of a file -/

/-- A name of too many octets cannot be looked for, in whatever directory that may be searched. -/
theorem optionFile_of_longName {entries : List (String × FileTree)} {readable : Bool}
    {name : String} (hdirectory : d.tree = .directory entries readable)
    (hnull : '\x00' ∉ name.toList) (hlong : maxNameOctets < name.utf8ByteSize)
    (hpath : (d.nameOf [name]).utf8ByteSize ≤ maxPathOctets) :
    d.optionFile [name] = .error .tooLong := by
  have hfind : d.find [name] = .error .tooLong := by
    rw [find, if_neg (by simpa using hnull), if_neg (by omega), hdirectory, FileTree.find,
      if_neg (by simp), if_pos hlong]
  rw [optionFile, isDirectory, hfind]
  rfl

/-- What is loaded, if all that the loading still depends on is whether the warnings have words. -/
def loaded (result : Diagnostics × Except Failure Options) :
    Diagnostics × Except LoadError Options :=
  (result.1, result.2.mapError .failure)

variable (base : Options) (ds : Diagnostics)

/-- Where the file is not known, loading ends with what stands in the way. -/
theorem value_loadOptions_of_unknown {e : FileError} (hfile : d.optionFile path = .error e) :
    (d.loadOptions lib path base ds).value = (ds, .error (.file e)) := by
  have hread : (ExceptT.run (d.readOptions lib path)).value = .error (.file e) := by
    rw [readOptions, hfile]
    rfl
  rw [loadOptions, Logged.value_bind, hread]
  rfl

/-- Of the file, the part is read that is the table form of options. -/
theorem value_readOptions (hfile : d.optionFile path = .ok file) :
    (ExceptT.run (d.readOptions lib path)).value =
      (d.readTable lib file).outcome.map fun table => (file, optionsIn file table) := by
  change (d.readOptions lib path).outcome = _
  rw [readOptions, hfile, Attempt.outcome_bind, Attempt.outcome_ofExcept]
  change (do let table ← d.readTable lib file; pure (file, optionsIn file table) :
    Attempt LoadError _).outcome = _
  rw [Attempt.outcome_bind]
  cases (d.readTable lib file).outcome <;> rfl

/-- Loading passes on the error of a table. -/
theorem value_loadOptions_of_error {e : LoadError} (hfile : d.optionFile path = .ok file)
    (h : (d.readTable lib file).outcome = .error e) :
    (d.loadOptions lib path base ds).value = (ds, .error e) := by
  rw [loadOptions, Logged.value_bind, value_readOptions hfile, h]
  rfl

/-- Loading completes the layer that the options of a file set, and reports their warnings. -/
theorem value_loadOptions_of_table {table : Entries} (hfile : d.optionFile path = .ok file)
    (h : (d.readTable lib file).outcome = .ok table) :
    ∃ result, Warning.Reported (Layer.ofTable (optionsIn file table)).2 ds
        ((Layer.ofTable (optionsIn file table)).1.resolve base) result ∧
      (d.loadOptions lib path base ds).value = loaded result := by
  refine ⟨_, (Layer.reported_load (optionsIn file table) ds).map (·.resolve base), ?_⟩
  rw [loadOptions, Logged.value_bind, value_readOptions hfile, h]
  rcases hload : (Layer.load (optionsIn file table) ds).value with ⟨ds', f | layer⟩
  · simp [hload, loaded, Except.map, Except.mapError]
  · simp [hload, loaded, Except.map, Except.mapError, Layer.value_freeze]

/-- **Which option files are forgiven.** Where it cannot be told whether the path leads to a
directory, loading ends with what stands in the way. Otherwise the option file is known. If it has
no table, it is read as the empty one, and the options are those of the base with no diagnostic. If
it is given up, there is an error, and the same one for the table and for the options. Any other
file is read as a table, and the options are what this table sets, over the base, if the warnings of
its settings can be put into words. -/
theorem loadOptions_forgives (lib : Toml.Library) (d : Directory) (path : FilePath)
    (base : Options) (ds : Diagnostics) :
    (∀ e, d.optionFile path = .error e →
      (d.loadOptions lib path base ds).value = (ds, .error (.file e))) ∧
    ∀ file, d.optionFile path = .ok file →
      (d.HasNoTable lib file → (d.readTable lib file).outcome = .ok [] ∧
        (d.loadOptions lib path base ds).value = (ds, .ok base)) ∧
      (d.GivesUp lib file → ∃ e, (d.readTable lib file).outcome = .error e ∧
        (d.loadOptions lib path base ds).value = (ds, .error e)) ∧
      (¬d.GivesUp lib file → ∃ table result, (d.readTable lib file).outcome = .ok table ∧
        Warning.Reported (Layer.ofTable (optionsIn file table)).2 ds
          ((Layer.ofTable (optionsIn file table)).1.resolve base) result ∧
        (d.loadOptions lib path base ds).value = loaded result) := by
  refine ⟨fun e he => value_loadOptions_of_unknown base ds he, fun file hfile =>
    ⟨fun h => ⟨h.outcome_readTable, ?_⟩, fun h => ?_, fun h => ?_⟩⟩
  · have hempty : optionsIn file [] = [] := by
      rw [optionsIn, Entries.sectionAt_nil, ite_self]
    obtain ⟨result, hresult, hload⟩ :=
      value_loadOptions_of_table base ds hfile h.outcome_readTable
    rw [hempty, Layer.ofTable_nil] at hresult
    rw [hload, hresult.eq_of_wordedAs (show Warning.WordedAs [] [] from rfl), List.append_nil]
    rfl
  · obtain ⟨e, he⟩ := h.outcome_readTable
    exact ⟨e, he, value_loadOptions_of_error base ds hfile he⟩
  · obtain ⟨table, htable⟩ := exists_table_of_not_givesUp h
    obtain ⟨result, hresult, hload⟩ := value_loadOptions_of_table base ds hfile htable
    exact ⟨table, result, htable, hresult, hload⟩

end Directory

/-- What is an error behind a map is an error before it. -/
theorem eq_error_of_map {ε α β : Type} {f : α → β} {x : Except ε α} {e : ε}
    (h : x.map f = .error e) : x = .error e := by
  cases x with
  | error e' => exact congrArg Except.error (Except.error.inj h)
  | ok a => cases h

/-- A directory with one option file. -/
def directoryWith (octets : List UInt8) : Directory where
  name := "."
  tree := .directory [(optionFileName, .file octets)]

theorem optionFile_directoryWith (octets : List UInt8) :
    (directoryWith octets).optionFile [] = .ok [optionFileName] := rfl

/-- A text that sets an option twice. -/
def doubledText : String := "indent = 1\nindent = 2\n"

/-- The two lines are no TOML. Without a header they are forgiven. -/
theorem loadOptions_of_doubledText :
    (directoryWith (octetsOfText doubledText)).optionFile [] = .ok [optionFileName] ∧
      (directoryWith (octetsOfText doubledText)).HasNoTable .standard [optionFileName] ∧
      ((directoryWith (octetsOfText doubledText)).loadOptions .standard [] { indent := 8 }
        []).value = ([], .ok { indent := 8 }) := by
  have hfile := optionFile_directoryWith (octetsOfText doubledText)
  have hread : (Toml.Library.standard.read (withLineFeeds doubledText.toList)).map (fun _ => ()) =
      .error (.malformed "Key \"indent\" already exists.") := by decide +kernel
  have hnone : (directoryWith (octetsOfText doubledText)).HasNoTable .standard [optionFileName] :=
    .malformed rfl (eq_error_of_map hread)
  exact ⟨hfile, hnone,
    (((directoryWith _).loadOptions_forgives .standard [] _ []).2 _ hfile).1 hnone |>.2⟩

/-- A name of so many letters has as many octets. -/
theorem utf8ByteSize_letters (n : ℕ) :
    (String.ofList (List.replicate n 'a')).utf8ByteSize = n := by
  induction n with
  | zero => rfl
  | succ n ih =>
    rw [List.replicate_succ, String.ofList_cons, String.utf8ByteSize_append, ih,
      String.utf8ByteSize_singleton, show Char.utf8Size 'a' = 1 from rfl, Nat.add_comm]

/-- **Bad files that are not forgiven**: an octet that starts no character, the two lines below a
header, and a path with a name that is too long to ask for. -/
theorem loadOptions_gives_up :
    (∃ e, ((directoryWith [0xff]).loadOptions .standard [] {} []).value = ([], .error e) ∧
      e.message optionFileName =
        "'utf-8' codec can't decode byte 0xff in position 0: invalid start byte") ∧
    (∃ e, ((directoryWith (octetsOfText ("[render]\n" ++ doubledText))).loadOptions .standard [] {}
      []).value = ([], .error e) ∧
        e.message optionFileName = "Key \"indent\" already exists.") ∧
    ((directoryWith []).loadOptions .standard [String.ofList (List.replicate 256 'a')] {}
      []).value = ([], .error (.file .tooLong)) := by
  have hoctet : ((directoryWith [0xff]).loadOptions .standard [] {} []).value =
      ([], .error (.notUtf8 { position := 0, first := 0xff, count := 1, flaw := .start })) := by
    decide +kernel
  have hread : (Toml.Library.standard.read
      (withLineFeeds ("[render]\n" ++ doubledText).toList)).map (fun _ => ()) = .error (.failure
        ⟨.other "KeyAlreadyPresent" false, "Key \"indent\" already exists."⟩) := by decide +kernel
  have htable : ((directoryWith (octetsOfText ("[render]\n" ++ doubledText))).readTable .standard
      [optionFileName]).outcome = .error (.failure
        ⟨.other "KeyAlreadyPresent" false, "Key \"indent\" already exists."⟩) := by
    rw [Directory.outcome_readTable_of_text rfl (textOfOctets_octets _), eq_error_of_map hread]
  have hdoubled := Directory.value_loadOptions_of_error {} [] (optionFile_directoryWith _) htable
  have hname : (directoryWith []).optionFile [String.ofList (List.replicate 256 'a')] =
      .error .tooLong := by
    have hsize := utf8ByteSize_letters 256
    refine Directory.optionFile_of_longName rfl ?_ ?_ ?_
    · rw [String.toList_ofList, List.mem_replicate]
      simp
    · rw [hsize]
      decide
    · rw [Directory.nameOf, String.intercalate_cons_cons, String.utf8ByteSize_append,
        String.utf8ByteSize_append, String.intercalate_singleton, hsize]
      decide
  exact ⟨⟨_, hoctet, by decide +kernel⟩, ⟨_, hdoubled, rfl⟩,
    Directory.value_loadOptions_of_unknown {} [] hname⟩

end Hocon
