import Hocon.Proofs.Loading
import Hocon.Proofs.OptionEntries
import Hocon.Proofs.Toml.Sections
import Hocon.Proofs.Tree

/-!
# Option files are read back

Options that are written to a file of their own, or to the file of a project, are loaded from there
as they were, over whatever base (`Hocon.loadOptions_of_fileTable`). The exception is a negative
count: the writer writes it and the loader refuses it, so the base keeps its own and a warning says
so. Options with a count of too many digits have no text, so there is nothing to load.

The way from the options to the file and back has four stages, and each is undone on its own. Of the
library for TOML, only what `Hocon.Toml.Library.Restores` says is asked.

| stage | written by | read back by | theorem |
|---|---|---|---|
| entries | `Options.toTable` | `Layer.ofTable` | `Hocon.Options.ofTable_toTable` |
| sections | `Entries.nest` | `Entries.sectionAt` | `Hocon.Entries.sectionAt_nest` |
| text | `Toml.Library.write` | `Toml.Library.read` | `Hocon.Toml.Library.Restores.restored` |
| octets | `octetsOfText` | `textOfOctets` | `Hocon.textOfOctets_octetsOfText` |

Only the first of them knows the ten options. It needs that the keys of the options differ, that the
entry of an option is read under the key that it is written under, and that the key of a member
means that member, which is a property of the closed set (`Hocon.Choice.Lawful`).
-/

namespace Hocon

/-! ### Members and their keys -/

/-- A closed set in which the key of a member means that member. -/
class Choice.Lawful (α : Type) [Choice α] : Prop where
  /-- The key of a member means that member. -/
  ofWord?_key (m : α) : Choice.ofWord? (Choice.key m) = some m

instance : Choice.Lawful SeparatorCharacter where
  ofWord?_key m := by cases m <;> decide +kernel

instance : Choice.Lawful ObjectSeparator where
  ofWord?_key m := by cases m <;> decide +kernel

instance : Choice.Lawful Quoting where
  ofWord?_key m := by cases m <;> decide +kernel

instance : Choice.Lawful IndentCharacter where
  ofWord?_key m := by cases m <;> decide +kernel

instance : Choice.Lawful CommentStyle where
  ofWord?_key m := by cases m <;> decide +kernel

instance : Choice.Lawful LineSeparator where
  ofWord?_key m := by cases m <;> decide +kernel

theorem Reading.choice_key {α : Type} [Choice α] [Choice.Lawful α] (location : String) (m : α) :
    Reading.choice α location (.str (Choice.key m)) = { value := some m } := by
  rw [Reading.choice, Choice.Lawful.ofWord?_key]

/-- A member in the place of a setting is written by its key. -/
theorem Setting.toValue_eq {α : Type} [Choice α] {s : Setting α} {m : α} (h : s = .member m) :
    s.toValue = .str (Choice.key m) := by
  rw [h]
  rfl

/-! ### The entries of the options -/

namespace Options

/-- What is written for the options: the key and the value of each. -/
def pairs (o : Options) : List (String × Value) :=
  Field.all.map fun f => (f.tableKey, o.fieldValue f)

theorem toTable_eq (o : Options) : o.toTable = (Entries.ofPairs o.pairs).nest [renderSection] := by
  rw [Entries.nest, Entries.nest, Entries.ofPairs, pairs, List.map_map]
  rfl

theorem nodup_pairs (o : Options) : (o.pairs.map Prod.fst).Nodup := by
  rw [pairs, List.map_map]
  exact Field.nodup_tableKey

theorem isFlat_of_mem_pairs {o : Options} {e : String × Value} (h : e ∈ o.pairs) :
    Toml.IsFlat e.2 := by
  obtain ⟨f, -, rfl⟩ := List.mem_map.mp h
  cases f <;> constructor

/-- The value of an option is found under its key. -/
theorem value_pairs (o : Options) (f : Field) :
    (Entries.ofPairs o.pairs).value f.tableKey = o.fieldValue f := by
  have hmem : (f.tableKey, o.fieldValue f) ∈ o.pairs := List.mem_map.mpr ⟨f, f.mem_all, rfl⟩
  rw [Entries.value, Entries.lookup_ofPairs o.nodup_pairs hmem, Option.getD_some]

theorem unknownKeys_pairs (o : Options) : unknownKeys (Entries.ofPairs o.pairs) = [] := by
  rw [unknownKeys, List.map_eq_nil_iff, List.filter_eq_nil_iff]
  intro e he
  obtain ⟨f, -, rfl⟩ : ∃ f ∈ Field.all, (Value.str f.tableKey, o.fieldValue f) = e := by
    simpa [Entries.ofPairs, pairs] using he
  rw [Bool.not_eq_true', Bool.not_eq_false]
  exact isOptionKey_iff.mpr ⟨f, rfl⟩

/-! ### Counts -/

/-- The options that are counts, with their values. -/
def counts (o : Options) : List (Field × ℤ) :=
  [(.spacesBefore, o.spacesBefore), (.spacesAfter, o.spacesAfter), (.indent, o.indent)]

/-- Options with counts that have texts are made of texts and of integers that have. -/
theorem isAtom_of_mem_pairs {o : Options} (hcounts : ∀ c ∈ o.counts, hasDecimal c.2 = true)
    {e : String × Value} (h : e ∈ o.pairs) : Toml.IsAtom e.2 := by
  simp only [counts, List.forall_mem_cons] at hcounts
  obtain ⟨hbefore, hafter, hindent, -⟩ := hcounts
  obtain ⟨f, -, rfl⟩ := List.mem_map.mp h
  cases f with
  | spacesBefore => exact .int _ hbefore
  | spacesAfter => exact .int _ hafter
  | indent => exact .int _ hindent
  | _ => exact .str _

/-- A count that has no text is one of the values. -/
theorem exists_not_isAtom {o : Options} (h : ∃ c ∈ o.counts, hasDecimal c.2 = false) :
    ∃ e ∈ o.pairs, ¬Toml.IsAtom e.2 := by
  have hcount : ∀ f n, o.fieldValue f = .int n → hasDecimal n = false →
      ∃ e ∈ o.pairs, ¬Toml.IsAtom e.2 := by
    intro f n hvalue hn
    refine ⟨_, List.mem_map.mpr ⟨f, f.mem_all, rfl⟩, fun hatom => ?_⟩
    rw [hvalue] at hatom
    cases hatom with
    | int _ htext => rw [hn] at htext; cases htext
  obtain ⟨c, hc, hlong⟩ := h
  simp only [counts, List.mem_cons, List.not_mem_nil, or_false] at hc
  rcases hc with rfl | rfl | rfl
  · exact hcount .spacesBefore _ rfl hlong
  · exact hcount .spacesAfter _ rfl hlong
  · exact hcount .indent _ rfl hlong

/-- The warnings of the counts that are negative: one for each, in the order of the options. -/
def negativeCounts (o : Options) : List Warning :=
  (o.counts.filter fun c => c.2 < 0).map fun c =>
    .negative (renderPlace ++ "." ++ c.1.tableKey) c.2

/-- Counts that have texts can be warned of. -/
theorem exists_wordedAs_negativeCounts {o : Options}
    (hcounts : ∀ c ∈ o.counts, hasDecimal c.2 = true) :
    ∃ added, Warning.WordedAs o.negativeCounts added := by
  rcases Warning.exists_wordedAs_or o.negativeCounts with hall | ⟨before, w, rest, _, heq, -, hw⟩
  · exact hall
  · have hmem : w ∈ o.negativeCounts := by rw [heq]; simp
    obtain ⟨c, hc, rfl⟩ := List.mem_map.mp hmem
    rw [Warning.message, decimal?, if_pos (hcounts c (List.mem_of_mem_filter hc))] at hw
    cases hw

/-- Options with the counts of a base in the place of those that are negative. -/
def withCounts (o base : Options) : Options :=
  { o with
    spacesBefore := if o.spacesBefore < 0 then base.spacesBefore else o.spacesBefore
    spacesAfter := if o.spacesAfter < 0 then base.spacesAfter else o.spacesAfter
    indent := if o.indent < 0 then base.indent else o.indent }

/-! ### Entries are read back -/

variable {o : Options}

theorem readInt_pairs (f : Field) {n : ℤ} (h : o.fieldValue f = .int n) :
    (Entries.ofPairs o.pairs).readInt renderPlace f.tableKey =
      if n < 0 then { warning := some (.negative (renderPlace ++ "." ++ f.tableKey) n) }
      else { value := some n } := by
  rw [Entries.readInt, value_pairs, h, Reading.int]

theorem readChoice_pairs {α : Type} [Choice α] [Choice.Lawful α] (f : Field) {m : α}
    (h : o.fieldValue f = .str (Choice.key m)) :
    (Entries.ofPairs o.pairs).readChoice α renderPlace f.tableKey = { value := some m } := by
  rw [Entries.readChoice, value_pairs, h, Reading.choice_key]

/-- What the entries of options set: every option apart from the negative counts, which are warned
of. -/
theorem ofEntries_pairs (ho : o.HasMembers) :
    Layer.ofEntries (Entries.ofPairs o.pairs) =
      ({ o.toLayer with
          spacesBefore := if o.spacesBefore < 0 then none else some o.spacesBefore
          spacesAfter := if o.spacesAfter < 0 then none else some o.spacesAfter
          indent := if o.indent < 0 then none else some o.indent }, o.negativeCounts) := by
  obtain ⟨⟨object, hobject⟩, ⟨string, hstring⟩, ⟨key, hkey⟩⟩ := ho
  simp only [Layer.ofEntries, o.unknownKeys_pairs,
    readChoice_pairs .separatorCharacter (m := o.separatorCharacter) rfl,
    readChoice_pairs .objectSeparator (Setting.toValue_eq hobject),
    readChoice_pairs .stringQuoting (Setting.toValue_eq hstring),
    readChoice_pairs .keyQuoting (Setting.toValue_eq hkey),
    readInt_pairs .spacesBefore (n := o.spacesBefore) rfl,
    readInt_pairs .spacesAfter (n := o.spacesAfter) rfl,
    readChoice_pairs .indentCharacter (m := o.indentCharacter) rfl,
    readInt_pairs .indent (n := o.indent) rfl,
    readChoice_pairs .commentStyle (m := o.commentStyle) rfl,
    readChoice_pairs .lineSeparator (m := o.lineSeparator) rfl]
  rw [toLayer, negativeCounts, counts, hobject, hstring, hkey]
  by_cases hbefore : o.spacesBefore < 0 <;> by_cases hafter : o.spacesAfter < 0 <;>
    by_cases hindent : o.indent < 0 <;> simp [hbefore, hafter, hindent]

/-- **Options are read back from their table**, apart from negative counts. -/
theorem ofTable_toTable (ho : o.HasMembers) (base : Options) :
    (Layer.ofTable o.toTable).1.resolve base = o.withCounts base ∧
      (Layer.ofTable o.toTable).2 = o.negativeCounts := by
  have hsection : o.toTable.sectionAt renderSection = Entries.ofPairs o.pairs := by
    rw [toTable_eq]
    exact Entries.sectionAt_nest renderSection _
  have hcount : ∀ n m : ℤ, (if n < 0 then none else some n : Option ℤ).getD m =
      if n < 0 then m else n := by
    intro n m
    split <;> rfl
  rw [Layer.ofTable, hsection, ofEntries_pairs ho]
  refine ⟨?_, rfl⟩
  rw [Layer.resolve, withCounts, toLayer]
  simp only [hcount, Option.getD_some]

end Options

/-! ### Files -/

namespace Directory

variable {lib : Toml.Library} {d : Directory} {path : FilePath}

/-- The octets of a file are only found where there is no directory. -/
theorem optionFile_of_octets {octets : List UInt8} (h : d.octets path = .ok octets) :
    d.optionFile path = .ok path := by
  rw [Directory.octets] at h
  obtain ⟨found, hfound, h⟩ := Attempt.exists_of_bind_eq_ok h
  rw [optionFile, isDirectory, hfound]
  cases found with
  | file octets readable => rfl
  | directory entries readable searchable => cases h

/-- **A file that holds the text of a table is read as the table.** -/
theorem outcome_readTable {text : String} {table : Entries}
    (hfile : d.octets path = .ok (octetsOfText text)) (hbreaks : '\r' ∉ text.toList)
    (htable : lib.read text.toList = .ok table) :
    (d.readTable lib path).outcome = .ok table := by
  rw [outcome_readTable_of_text hfile (textOfOctets_octetsOfText hbreaks), htable]

end Directory

/-! ### The round trip -/

/-- The name of the file that options are kept in. -/
def fileNameFor (inProject : Bool) : String :=
  if inProject then projectFileName else optionFileName

/-- The keys of the tables around the table form of options. -/
def keysAround (inProject : Bool) : List String :=
  if inProject then sectionKeys projectSection else []

/-- The table of a file is the table of the options' entries, inside of others. -/
theorem Options.fileTable_eq {o : Options} (ho : o.HasMembers) (inProject : Bool) :
    o.fileTable inProject =
      .ok ((Entries.ofPairs o.pairs).nest (keysAround inProject ++ [renderSection])) := by
  obtain ⟨⟨object, hobject⟩, ⟨string, hstring⟩, ⟨key, hkey⟩⟩ := ho
  have hwrite : o.writeTable = .ok o.toTable := by
    rw [writeTable, hobject, hstring, hkey]
    rfl
  rw [fileTable, hwrite, Attempt.ok_bind, toTable_eq, Entries.nest_append]
  cases inProject <;> rfl

/-- The name of a file says where in it the options are. -/
theorem optionsIn_nest_keysAround (folder : FilePath) (inProject : Bool) (table : Entries) :
    Directory.optionsIn (folder ++ [fileNameFor inProject])
      (table.nest (keysAround inProject)) = table := by
  rw [Directory.optionsIn, List.getLast?_concat]
  cases inProject with
  | false =>
    rw [if_neg (by decide)]
    rfl
  | true =>
    have hname : some (fileNameFor true) = some projectFileName := rfl
    rw [if_pos hname]
    exact Entries.sectionAt_nest projectSection table

/-- **An option file is read back as it was written**, by every library that restores tables of
texts and integers. Options with members have a table, for either kind of file. If one of their
counts has too many digits, there is no text for it. Otherwise there is one, and wherever a file
with that name holds the octets of that text, loading it over any base yields the options again, but
for the counts that are negative, which are those of the base; and the diagnostics get one warning
for each of these and nothing else. -/
theorem loadOptions_of_fileTable {lib : Toml.Library} (hlib : lib.Restores) {o : Options}
    (ho : o.HasMembers) (inProject : Bool) :
    ∃ table, o.fileTable inProject = .ok table ∧
      ((∃ c ∈ o.counts, hasDecimal c.2 = false) →
        (table.toToml lib).outcome = .error .tooManyDigits) ∧
      ((∀ c ∈ o.counts, hasDecimal c.2 = true) → ∃ text added,
        (table.toToml lib).outcome = .ok text ∧ Warning.WordedAs o.negativeCounts added ∧
          ∀ (d : Directory) (folder : FilePath),
            d.octets (folder ++ [fileNameFor inProject]) = .ok (octetsOfText text) →
            ∀ (base : Options) (ds : Diagnostics),
              (d.loadOptions lib (folder ++ [fileNameFor inProject]) base ds).value =
                (ds ++ added, .ok (o.withCounts base))) := by
  have hflat : ∀ e ∈ o.pairs, Toml.IsFlat e.2 := fun e => Options.isFlat_of_mem_pairs
  obtain ⟨key, keys, hkeys⟩ : ∃ key keys, keysAround inProject ++ [renderSection] = key :: keys :=
    List.exists_cons_of_ne_nil (by simp)
  refine ⟨_, o.fileTable_eq ho inProject, fun hlong => ?_, fun hcounts => ?_⟩
  · rw [outcome_toToml_nest lib hflat o.nodup_pairs, hkeys]
    exact hlib.refused hflat o.nodup_pairs (Options.exists_not_isAtom hlong) key keys
  · obtain ⟨text, htext, hbreaks, hread⟩ := hlib.restored
      (fun e => Options.isAtom_of_mem_pairs hcounts) o.nodup_pairs key keys
    -- a count that can be written can be shown, so nothing keeps the warnings from being told
    obtain ⟨added, hadded⟩ := Options.exists_wordedAs_negativeCounts hcounts
    rw [← hkeys] at htext hread
    refine ⟨text, added, (outcome_toToml_nest lib hflat o.nodup_pairs _).trans htext, hadded,
      fun d folder hfile base ds => ?_⟩
    rw [Entries.nest_append, ← o.toTable_eq] at hread
    obtain ⟨hresolve, hwarnings⟩ := Options.ofTable_toTable ho base
    obtain ⟨result, hresult, hload⟩ := Directory.value_loadOptions_of_table base ds
      (Directory.optionFile_of_octets hfile) (Directory.outcome_readTable hfile hbreaks hread)
    rw [optionsIn_nest_keysAround, hresolve, hwarnings] at hresult
    rw [hload, hresult.eq_of_wordedAs hadded]
    rfl

/-- Options with a count that is negative. -/
def negativeIndent : Options where
  separatorCharacter := .equals
  spacesBefore := 1
  indentCharacter := .tab
  indent := -1

/-- A directory with one file, which describes a project. -/
def projectWith (text : String) : Directory where
  name := "project"
  tree := .directory [(projectFileName, .file (octetsOfText text))]

/-- The negative count is the one of the base, and all else is read back. -/
theorem loadOptions_of_negativeIndent :
    Toml.Library.standard.Restores ∧ negativeIndent.HasMembers ∧
    (∀ c ∈ negativeIndent.counts, hasDecimal c.2 = true) ∧
    ∃ table text, negativeIndent.fileTable true = .ok table ∧
      (table.toToml .standard).outcome = .ok text ∧
      (projectWith text).octets [projectFileName] = .ok (octetsOfText text) ∧
      ((projectWith text).loadOptions .standard [projectFileName] { indent := 2 } []).value =
        ([{ level := .warning, message :=
          "Expected non-negative int in [render].indent, got -1" }],
          .ok { negativeIndent with indent := 2 }) := by
  have hlib := Toml.Library.restores_standard
  have ho : negativeIndent.HasMembers := ⟨⟨_, rfl⟩, ⟨_, rfl⟩, ⟨_, rfl⟩⟩
  have hcounts : ∀ c ∈ negativeIndent.counts, hasDecimal c.2 = true := by decide +kernel
  obtain ⟨table, htable, -, hload⟩ := loadOptions_of_fileTable hlib ho true
  obtain ⟨text, added, htext, hadded, hload⟩ := hload hcounts
  have hfile : (projectWith text).octets [projectFileName] = .ok (octetsOfText text) := rfl
  have hread := hload (projectWith text) [] hfile { indent := 2 } []
  have hwith : negativeIndent.withCounts { indent := 2 } = { negativeIndent with indent := 2 } :=
    by decide
  have hwords : Warning.WordedAs negativeIndent.negativeCounts
      [{ level := .warning, message := "Expected non-negative int in [render].indent, got -1" }] :=
    by decide +kernel
  rw [hadded.unique hwords, hwith] at hread
  exact ⟨hlib, ho, hcounts, table, text, htable, htext, hfile, hread⟩

end Hocon
