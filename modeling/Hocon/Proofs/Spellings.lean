import Hocon.Proofs.OptionEntries
import Mathlib.Logic.Basic

/-!
# Words for the members of a closed set

A word is read as a member of a closed set by one of two rules. Where the members stand for a piece
of text, a word means a member if it is one of its aliases as it stands, or if it has the normal
form of one of its spellings (`Hocon.Choice.StandsFor`); where they only switch a rule on or off, a
word means the member whose key is its normal form (`Hocon.Choice.HasKey`).

The reader of the first rule looks twice: for an alias, and then for a normal form, each time
through the members in their order. The one thing to know about it is that neither the order nor the
number of looks matters. That is a property of the spellings and not of the words, of which there
are too many to look at: two members share no spelling and no normal form that is not empty
(`Hocon.Choice.Apart`), which is decided by going through a handful of spellings. A word that is an
alias has the normal form of that alias, so what holds of spellings holds of words
(`Hocon.Choice.StandsFor.unique`).

Aliases such as a blank, a tab or a line break have no normal form at all. They mean something only
as they stand, and words without a normal form that are no alias mean nothing.
-/

namespace Hocon

/-- What is read without a warning goes through. -/
theorem Reading.value_report_of_none {α : Type} (m : Option α) (ds : Diagnostics)
    (source : Log.Source) :
    (Reading.report { value := m } ds source).value = (ds, .ok m) := by
  simp [report, Diagnostics.addWarnings, Except.map]

/-- A warning with words is added, and nothing else comes of it. -/
theorem Reading.value_report_of_words {α : Type} {w : Warning} {d : Diagnostic}
    (hw : w.diagnostic? = some d) (ds : Diagnostics) (source : Log.Source) :
    (Reading.report { warning := some w } ds source).value =
      (ds ++ [d], .ok (none : Option α)) := by
  have hwords : [w].map Warning.diagnostic? = [d].map some := by
    rw [List.map_singleton, hw, List.map_singleton]
  have hadd : (ds.addWarnings source [w]).value = (ds ++ [d], .ok ()) :=
    ds.value_addWarnings source hwords
  simp [report, hadd, Except.map]

namespace Choice

/-! ### Looking for the only member -/

/-- The only member with a property is found wherever it stands. -/
theorem find?_eq_some_of_unique {α : Type} {p : α → Bool} {members : List α} {m : α}
    (hmem : m ∈ members) (hm : p m = true) (hunique : ∀ m', p m' = true → m' = m) :
    members.find? p = some m := by
  obtain ⟨m', hfound⟩ := Option.isSome_iff_exists.mp (List.find?_isSome.mpr ⟨m, hmem, hm⟩)
  rw [hfound, hunique m' (List.find?_some hfound)]

/-! ### Words and spellings -/

section Spellings

variable {α : Type} [Choice.Spelled α]

/-- The spellings of a member: its key, its name and its aliases. -/
def spellings (m : α) : List String := key m :: name m :: Spelled.aliases m

/-- **The words that stand for a member.** -/
inductive StandsFor (word : String) (m : α) : Prop
  /-- The word is an alias as it stands. -/
  | verbatim (isAlias : word ∈ Spelled.aliases m)
  /-- The word has a normal form, which is that of a spelling. -/
  | normal {spelling : String} (spells : spelling ∈ spellings m) (given : normalSpelling word ≠ [])
      (same : normalSpelling word = normalSpelling spelling)

/-- **A closed set whose members are kept apart by their spellings.** -/
class Apart (α : Type) [Choice.Spelled α] : Prop where
  /-- No member is left out. -/
  mem_members (m : α) : m ∈ members
  /-- A word is read by its spelling. -/
  ofWord?_eq (word : String) :
    ofWord? word = ofSpelling? (α := α) members key name Spelled.aliases word
  /-- Two spellings that are the same, or have the same normal form, are spellings of one member. -/
  eq_of_spellings (m m' : α) : ∀ s ∈ spellings m, ∀ s' ∈ spellings m',
    s = s' ∨ normalSpelling s ≠ [] ∧ normalSpelling s = normalSpelling s' → m = m'

instance : Apart SeparatorCharacter where
  mem_members m := by cases m <;> decide
  ofWord?_eq _ := rfl
  eq_of_spellings m m' := by cases m <;> cases m' <;> decide +kernel

instance : Apart IndentCharacter where
  mem_members m := by cases m <;> decide
  ofWord?_eq _ := rfl
  eq_of_spellings m m' := by cases m <;> cases m' <;> decide +kernel

instance : Apart CommentStyle where
  mem_members m := by cases m <;> decide
  ofWord?_eq _ := rfl
  eq_of_spellings m m' := by cases m <;> cases m' <;> decide +kernel

instance : Apart LineSeparator where
  mem_members m := by cases m <;> decide
  ofWord?_eq _ := rfl
  eq_of_spellings m m' := by cases m <;> cases m' <;> decide +kernel

theorem mem_spellings_of_mem_aliases {word : String} {m : α} (h : word ∈ Spelled.aliases m) :
    word ∈ spellings m :=
  List.mem_cons_of_mem _ (List.mem_cons_of_mem _ h)

/-- Whether a word has the normal form of one of the spellings. -/
theorem any_spellings_iff {word : String} {m : α} :
    ((spellings m).any fun spelling => normalSpelling spelling == normalSpelling word) = true ↔
      ∃ spelling ∈ spellings m, normalSpelling word = normalSpelling spelling := by
  simp only [List.any_eq_true, beq_iff_eq, eq_comm (a := normalSpelling word)]

namespace StandsFor

variable {word word' : String} {m m' : α}

/-- **No word stands for two members.** -/
theorem unique [Apart α] (h : StandsFor word m) (h' : StandsFor word m') : m = m' := by
  cases h with
  | verbatim halias =>
    have hword := mem_spellings_of_mem_aliases halias
    cases h' with
    | verbatim halias' =>
      exact Apart.eq_of_spellings m m' _ hword _ (mem_spellings_of_mem_aliases halias') (.inl rfl)
    | normal hspells' hgiven hsame' =>
      exact Apart.eq_of_spellings m m' _ hword _ hspells' (.inr ⟨hgiven, hsame'⟩)
  | normal hspells hgiven hsame =>
    cases h' with
    | verbatim halias' =>
      refine Apart.eq_of_spellings m m' _ hspells _ (mem_spellings_of_mem_aliases halias') (.inr ?_)
      exact ⟨hsame ▸ hgiven, hsame.symm⟩
    | normal hspells' _ hsame' =>
      refine Apart.eq_of_spellings m m' _ hspells _ hspells' (.inr ?_)
      exact ⟨hsame ▸ hgiven, hsame.symm.trans hsame'⟩

/-- **A word with a normal form stands for what any other one with that normal form stands for**,
even if one of them is an alias and the other is not. -/
theorem congr (hgiven : normalSpelling word ≠ [])
    (hsame : normalSpelling word = normalSpelling word') (h : StandsFor word m) :
    StandsFor word' m := by
  have hgiven' : normalSpelling word' ≠ [] := hsame ▸ hgiven
  cases h with
  | verbatim halias =>
    exact .normal (mem_spellings_of_mem_aliases halias) hgiven' hsame.symm
  | normal hspells _ hspelling => exact .normal hspells hgiven' (hsame.symm.trans hspelling)

end StandsFor

/-- **The reader finds just the member that a word stands for**, whatever the order in which it goes
through the members. -/
theorem ofSpelling?_eq_some_iff [Apart α] {members' : List α} (hmembers : ∀ m, m ∈ members')
    {word : String} {m : α} :
    ofSpelling? members' key name Spelled.aliases word = some m ↔ StandsFor word m := by
  have hspelling : ∀ m : α, ((key m :: name m :: Spelled.aliases m).any fun spelling =>
      normalSpelling spelling == normalSpelling word) = true ↔
      ∃ spelling ∈ spellings m, normalSpelling word = normalSpelling spelling :=
    fun m => any_spellings_iff
  rw [ofSpelling?]
  cases hfirst : members'.find? fun m => (Spelled.aliases m).contains word with
  | some m' =>
    have halias := List.find?_some hfirst
    have hm' : StandsFor word m' := .verbatim (List.contains_iff_mem.mp halias)
    constructor
    · intro h
      obtain rfl : m' = m := Option.some_inj.mp h
      exact hm'
    · intro h
      exact congrArg some (hm'.unique h)
  | none =>
    -- the word is no alias, so it stands for a member by its normal form if it stands for one
    have hnoAlias : ∀ m : α, word ∉ Spelled.aliases m := by
      intro m halias
      exact List.find?_eq_none.mp hfirst m (hmembers m) (List.contains_iff_mem.mpr halias)
    constructor
    · intro h
      simp only at h
      split_ifs at h with hempty
      have hfound := List.find?_some h
      obtain ⟨spelling, hspells, hsame⟩ := (hspelling m).mp hfound
      exact .normal hspells (mt List.isEmpty_iff.mpr hempty) hsame
    · rintro (halias | ⟨hspells, hgiven, hsame⟩)
      · exact absurd halias (hnoAlias m)
      · have hempty : ¬(normalSpelling word).isEmpty = true := mt List.isEmpty_iff.mp hgiven
        simp only [if_neg hempty]
        refine find?_eq_some_of_unique (hmembers m) ((hspelling m).mpr ⟨_, hspells, hsame⟩) ?_
        intro m' hm'
        obtain ⟨spelling', hspells', hsame'⟩ := (hspelling m').mp hm'
        exact StandsFor.unique (.normal hspells' hgiven hsame') (.normal hspells hgiven hsame)

theorem ofWord?_eq_some_iff_standsFor [Apart α] {word : String} {m : α} :
    ofWord? word = some m ↔ StandsFor word m := by
  rw [Apart.ofWord?_eq, ofSpelling?_eq_some_iff Apart.mem_members]

-- a tab is an alias; with a blank in front of it, it is no alias and has no normal form
example : ofWord? "\t" = some IndentCharacter.tab ∧
    (ofWord? " \t" : Option IndentCharacter) = none := by
  decide +kernel

end Spellings

/-! ### Words and keys -/

section Keys

variable {α : Type} [Choice α]

/-- **The words that have a member for their key**: the normal form of the word is the key. -/
def HasKey (word : String) (m : α) : Prop := normalKey word = (key m).toList

/-- A closed set whose members are known by their keys only. -/
class Keyed (α : Type) [Choice α] : Prop where
  /-- No member is left out. -/
  mem_members (m : α) : m ∈ members
  /-- A word is read by its key. -/
  ofWord?_eq (word : String) : ofWord? word = ofKey? (α := α) members key word
  /-- Members with the same key are the same. -/
  key_injective (m m' : α) : key m = key m' → m = m'

instance : Keyed ObjectSeparator where
  mem_members m := by cases m <;> decide
  ofWord?_eq _ := rfl
  key_injective m m' := by cases m <;> cases m' <;> decide

instance : Keyed Quoting where
  mem_members m := by cases m <;> decide
  ofWord?_eq _ := rfl
  key_injective m m' := by cases m <;> cases m' <;> decide

theorem HasKey.unique [Keyed α] {word : String} {m m' : α} (h : HasKey word m)
    (h' : HasKey word m') : m = m' :=
  Keyed.key_injective m m' (String.toList_inj.mp (h.symm.trans h'))

theorem ofWord?_eq_some_iff_hasKey [Keyed α] {word : String} {m : α} :
    ofWord? word = some m ↔ HasKey word m := by
  have hkey : ∀ m : α, ((key m).toList == normalKey word) = true ↔ HasKey word m := by
    intro m
    rw [beq_iff_eq, HasKey, eq_comm]
  rw [Keyed.ofWord?_eq, ofKey?]
  constructor
  · intro h
    have hfound := List.find?_some h
    exact (hkey m).mp hfound
  · intro h
    refine find?_eq_some_of_unique (Keyed.mem_members m) ((hkey m).mpr h) fun m' hm' => ?_
    exact HasKey.unique ((hkey m').mp hm') h

end Keys

/-! ### Entries -/

/-- **A closed set is read by a rule** that says which words mean which members. -/
structure ReadBy (α : Type) [Choice α] (means : String → α → Prop) : Prop where
  /-- A word is read as a member if it means that member. -/
  ofWord?_iff : ∀ word m, ofWord? word = some m ↔ means word m
  /-- No word means two members. -/
  unique : ∀ word m m', means word m → means word m' → m = m'
  /-- The entry of a table that holds a word either sets the member that the word means and adds no
  diagnostic, or it sets nothing, because the word means no member, and adds just the warning that
  says so. -/
  entry : ∀ (table : Entries) (place key word : String) (ds : Diagnostics) (source : Log.Source),
    table.value key = .str word →
    Xor (∃ m, means word m ∧
        ((table.readChoice α place key).report ds source).value = (ds, .ok (some m)))
      ((∀ m, ¬means word m) ∧ ∃ d : Diagnostic,
        (Warning.notAllowed (place ++ "." ++ key) word (allowed α)).diagnostic? = some d ∧
          ((table.readChoice α place key).report ds source).value = (ds ++ [d], .ok none))

/-- A set is read by a rule if its words are: the entries follow. -/
theorem readBy_of_ofWord?_iff {α : Type} [Choice α] {means : String → α → Prop}
    (h : ∀ word m, ofWord? word = some m ↔ means word m)
    (hunique : ∀ word m m', means word m → means word m' → m = m') : ReadBy α means := by
  refine ⟨h, hunique, fun table place key word ds source hvalue => ?_⟩
  rw [Entries.readChoice, hvalue, Reading.choice]
  cases hword : (ofWord? word : Option α) with
  | some m =>
    refine .inl ⟨⟨m, (h word m).mp hword, Reading.value_report_of_none (some m) ds source⟩, ?_⟩
    rintro ⟨hnone, -⟩
    exact hnone m ((h word m).mp hword)
  | none =>
    have hnone : ∀ m, ¬means word m := by
      intro m hm
      rw [(h word m).mpr hm] at hword
      cases hword
    refine .inr ⟨⟨hnone, _, rfl, Reading.value_report_of_words rfl ds source⟩, ?_⟩
    rintro ⟨m, hm, -⟩
    exact hnone m hm

theorem readBy_standsFor (α : Type) [Choice.Spelled α] [Apart α] :
    ReadBy α StandsFor :=
  readBy_of_ofWord?_iff (fun _ _ => ofWord?_eq_some_iff_standsFor) fun _ _ _ => StandsFor.unique

theorem readBy_hasKey (α : Type) [Choice α] [Keyed α] : ReadBy α HasKey :=
  readBy_of_ofWord?_iff (fun _ _ => ofWord?_eq_some_iff_hasKey) fun _ _ _ => HasKey.unique

/-- **A closed set in which only the normal form of a word counts**, where it has one. -/
structure ReadByForm (α : Type) [Choice.Spelled α] : Prop where
  /-- Going through the members in another order finds the same. -/
  order_free : ∀ members' : List α, members'.Perm members → ∀ word,
    ofSpelling? members' key name Spelled.aliases word = ofWord? word
  /-- Words with the same normal form are read alike. -/
  alike : ∀ word word', normalSpelling word ≠ [] → normalSpelling word = normalSpelling word' →
    (ofWord? word : Option α) = ofWord? word'

theorem readByForm (α : Type) [Choice.Spelled α] [Apart α] : ReadByForm α := by
  constructor
  · intro members' hperm word
    refine Option.ext fun m => ?_
    have hmembers : ∀ m, m ∈ members' := fun m => hperm.mem_iff.mpr (Apart.mem_members m)
    rw [ofSpelling?_eq_some_iff hmembers, ofWord?_eq_some_iff_standsFor]
  · intro word word' hgiven hsame
    refine Option.ext fun m => ?_
    rw [ofWord?_eq_some_iff_standsFor, ofWord?_eq_some_iff_standsFor]
    exact ⟨.congr hgiven hsame, .congr (hsame ▸ hgiven) hsame.symm⟩

end Choice

end Hocon
