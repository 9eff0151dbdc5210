import Hocon.Options.Table
import Hocon.Proofs.Tree
import Mathlib.Data.Int.Notation
import Mathlib.Data.List.Nodup
import Mathlib.Data.List.ReduceOption

/-!
# Entries of an option section are judged one by one

An option section may hold anything under any key. What an entry sets and what it is warned of is
decided by its own value (`Hocon.Field.judge`), and nothing that another entry holds has a say in
it.

The warnings are reported in order, and this may break off, at the first one for which there are no
words (`Hocon.Warning.Reported`). Then nothing is set at all, so the entries are judged one by one
but not forgiven one by one (`Hocon.Layer.load_breaks_off`).

What is to be decided is told by rules that do not mention the reader.

| value of an entry | rule for what it sets | rule for the warning |
|---|---|---|
| of a count | `Hocon.Value.Counts` | `Hocon.NoCount` |
| of a member of a closed set | `Hocon.Value.Spells` | `Hocon.NoMember` |

A value follows at most one of the two, and just one of them unless it is null
(`Hocon.Field.exists_refuses_iff`). The ten options differ only in their rules, so what is said of a
section is said of all of them at once (`Hocon.Layer.EntryByEntry`); and what two sections have in
common but for one entry is read alike but for that entry, if both are read to the end
(`Hocon.Layer.AlikeBut`).
-/

namespace Hocon

/-! ### Fields -/

theorem Field.mem_all (f : Field) : f ∈ Field.all := by
  cases f <;> decide

/-- No two options have the same key. -/
theorem Field.nodup_tableKey : (Field.all.map Field.tableKey).Nodup := by decide

/-- The key of an option names it. -/
theorem Field.tableKey_injective : Function.Injective Field.tableKey := by
  intro f g h
  exact List.inj_on_of_nodup_map Field.nodup_tableKey f.mem_all g.mem_all h

/-- What the field of an option holds where it is set. -/
abbrev Field.Content : Field → Type
  | .separatorCharacter => SeparatorCharacter
  | .objectSeparator => Setting ObjectSeparator
  | .stringQuoting => Setting Quoting
  | .keyQuoting => Setting Quoting
  | .spacesBefore => ℤ
  | .spacesAfter => ℤ
  | .indentCharacter => IndentCharacter
  | .indent => ℤ
  | .commentStyle => CommentStyle
  | .lineSeparator => LineSeparator

/-- The field of an option in a layer. -/
def Layer.get (layer : Layer) : (f : Field) → Option f.Content
  | .separatorCharacter => layer.separatorCharacter
  | .objectSeparator => layer.objectSeparator
  | .stringQuoting => layer.stringQuoting
  | .keyQuoting => layer.keyQuoting
  | .spacesBefore => layer.spacesBefore
  | .spacesAfter => layer.spacesAfter
  | .indentCharacter => layer.indentCharacter
  | .indent => layer.indent
  | .commentStyle => layer.commentStyle
  | .lineSeparator => layer.lineSeparator

/-! ### The rules -/

/-- **A usable count** is an integer that is not negative. A truth value is no integer. -/
inductive Value.Counts : Value → ℤ → Prop
  /-- The integer counts as itself, whatever its size. -/
  | int {n : ℤ} (nonneg : 0 ≤ n) : Counts (.int n) n

/-- **Why a value is no count**, for an entry at a location. Null is not asked. -/
inductive NoCount (location : String) : Value → Warning → Prop
  /-- The value is something else than an integer. -/
  | kind {v : Value} (given : v ≠ .null) (kind : ∀ n, v ≠ .int n) :
      NoCount location v (.notAnInt location v)
  /-- The integer is negative. -/
  | negative {n : ℤ} (negative : n < 0) : NoCount location (.int n) (.negative location n)

/-- **A usable word** is a text that means a member. -/
inductive Value.Spells {α : Type} [Choice α] : Value → α → Prop
  /-- The text stands for the member that it means. -/
  | word {word : String} {m : α} (means : Choice.ofWord? word = some m) : Spells (.str word) m

/-- A usable word where a setting is to be chosen: the setting is the member. -/
inductive Value.SpellsSetting {α : Type} [Choice α] : Value → Setting α → Prop
  /-- The text stands for the member that it means. -/
  | member {v : Value} {m : α} (spells : v.Spells m) : SpellsSetting v (.member m)

/-- **Why a value is no member** of a closed set, for an entry at a location. Null is not asked. -/
inductive NoMember (α : Type) [Choice α] (location : String) : Value → Warning → Prop
  /-- The value is something else than a text. -/
  | kind {v : Value} (given : v ≠ .null) (kind : ∀ word, v ≠ .str word) :
      NoMember α location v (.notAWord location v)
  /-- The text means no member. -/
  | spelling {word : String} (unknown : (Choice.ofWord? word : Option α) = none) :
      NoMember α location (.str word) (.notAllowed location word (Choice.allowed α))

theorem Value.exists_spellsSetting_iff {α : Type} [Choice α] {v : Value} :
    (∃ s : Setting α, v.SpellsSetting s) ↔ ∃ m : α, v.Spells m := by
  constructor
  · rintro ⟨_, ⟨hspells⟩⟩
    exact ⟨_, hspells⟩
  · rintro ⟨m, hspells⟩
    exact ⟨_, .member hspells⟩

/-- A value is no count if it is neither null nor a usable count. -/
theorem exists_noCount_iff {location : String} {v : Value} :
    (∃ w, NoCount location v w) ↔ v ≠ .null ∧ ¬∃ n, v.Counts n := by
  constructor
  · rintro ⟨_, ⟨hgiven, hkind⟩ | hnegative⟩
    · refine ⟨hgiven, ?_⟩
      rintro ⟨_, ⟨⟩⟩
      exact hkind _ rfl
    · refine ⟨by simp, ?_⟩
      rintro ⟨_, ⟨hnonneg⟩⟩
      omega
  · rintro ⟨hnull, hcounts⟩
    cases v with
    | null => exact absurd rfl hnull
    | int n => exact ⟨_, .negative (Int.not_le.mp fun hnonneg => hcounts ⟨n, .int hnonneg⟩)⟩
    | _ => exact ⟨_, .kind hnull (by simp)⟩

/-- A value is no member if it is neither null nor a usable word. -/
theorem exists_noMember_iff {α : Type} [Choice α] {location : String} {v : Value} :
    (∃ w, NoMember α location v w) ↔ v ≠ .null ∧ ¬∃ m : α, v.Spells m := by
  constructor
  · rintro ⟨_, ⟨hgiven, hkind⟩ | hunknown⟩
    · refine ⟨hgiven, ?_⟩
      rintro ⟨_, ⟨⟩⟩
      exact hkind _ rfl
    · refine ⟨by simp, ?_⟩
      rintro ⟨_, ⟨hmeans⟩⟩
      rw [hunknown] at hmeans
      cases hmeans
  · rintro ⟨hnull, hspells⟩
    cases v with
    | null => exact absurd rfl hnull
    | str word =>
      refine ⟨_, .spelling (Option.eq_none_iff_forall_ne_some.mpr fun m hm => ?_)⟩
      exact hspells ⟨m, .word hm⟩
    | _ => exact ⟨_, .kind hnull (by simp)⟩

namespace Field

/-- Where a warning says that the entry of an option is. -/
def location (f : Field) : String := renderPlace ++ "." ++ f.tableKey

/-- What a value is taken as, as the entry of an option. -/
def Takes : (f : Field) → Value → f.Content → Prop
  | .separatorCharacter => Value.Spells
  | .objectSeparator => Value.SpellsSetting
  | .stringQuoting => Value.SpellsSetting
  | .keyQuoting => Value.SpellsSetting
  | .spacesBefore => Value.Counts
  | .spacesAfter => Value.Counts
  | .indentCharacter => Value.Spells
  | .indent => Value.Counts
  | .commentStyle => Value.Spells
  | .lineSeparator => Value.Spells

/-- What is warned of when a value is refused, as the entry of an option. -/
def Refuses (f : Field) : Value → Warning → Prop :=
  match f with
  | .separatorCharacter => NoMember SeparatorCharacter f.location
  | .objectSeparator => NoMember ObjectSeparator f.location
  | .stringQuoting | .keyQuoting => NoMember Quoting f.location
  | .spacesBefore | .spacesAfter | .indent => NoCount f.location
  | .indentCharacter => NoMember IndentCharacter f.location
  | .commentStyle => NoMember CommentStyle f.location
  | .lineSeparator => NoMember LineSeparator f.location

/-- **A value is refused if it is neither null nor taken as anything.** -/
theorem exists_refuses_iff (f : Field) (v : Value) :
    (∃ w, f.Refuses v w) ↔ v ≠ .null ∧ ¬∃ x, f.Takes v x := by
  cases f with
  | objectSeparator | stringQuoting | keyQuoting =>
    rw [Takes, Value.exists_spellsSetting_iff]
    exact exists_noMember_iff
  | spacesBefore | spacesAfter | indent => exact exists_noCount_iff
  | _ => exact exists_noMember_iff

end Field

/-! ### Readings follow the rules -/

namespace Reading

variable {α : Type}

/-- A reading that sets what it is to take, and warns as it is to refuse. -/
structure Follows (r : Reading α) (takes : α → Prop) (refuses : Warning → Prop) : Prop where
  /-- What is set is what is taken. -/
  value_iff : ∀ x, r.value = some x ↔ takes x
  /-- What is warned of is why it is refused. -/
  warning_iff : ∀ w, r.warning = some w ↔ refuses w

variable {takes : α → Prop} {refuses : Warning → Prop}

theorem follows_nothing (htakes : ∀ x, ¬takes x) (hrefuses : ∀ w, ¬refuses w) :
    Follows {} takes refuses :=
  ⟨fun x => iff_of_false (by simp) (htakes x), fun w => iff_of_false (by simp) (hrefuses w)⟩

theorem follows_value {x : α} (htakes : ∀ y, takes y ↔ x = y) (hrefuses : ∀ w, ¬refuses w) :
    Follows { value := some x } takes refuses :=
  ⟨fun y => by rw [htakes, Option.some_inj], fun w => iff_of_false (by simp) (hrefuses w)⟩

theorem follows_warning {w : Warning} (htakes : ∀ x, ¬takes x) (hrefuses : ∀ u, refuses u ↔ w = u) :
    Follows { warning := some w } takes refuses :=
  ⟨fun x => iff_of_false (by simp) (htakes x), fun u => by rw [hrefuses, Option.some_inj]⟩

/-- What is not null and no integer is no count. -/
theorem follows_notAnInt (location : String) {v : Value} (hnull : v ≠ .null)
    (hint : ∀ n, v ≠ .int n) :
    Follows { warning := some (.notAnInt location v) } v.Counts (NoCount location v) := by
  refine follows_warning ?_ fun w => ⟨?_, ?_⟩
  · rintro _ ⟨⟩
    exact hint _ rfl
  · rintro (_ | _)
    · rfl
    · exact absurd rfl (hint _)
  · rintro rfl
    exact .kind hnull hint

/-- **A count is read by the rules.** -/
theorem follows_int (location : String) (v : Value) :
    (Reading.int location v).Follows v.Counts (NoCount location v) := by
  cases v with
  | null =>
    refine follows_nothing (by rintro _ ⟨⟩) ?_
    rintro _ (⟨hnull, -⟩ | _)
    exact hnull rfl
  | int n =>
    rw [Reading.int]
    split_ifs with hn
    · refine follows_warning ?_ fun w => ⟨?_, ?_⟩
      · rintro _ ⟨hnonneg⟩
        exact absurd hn (Int.not_lt.mpr hnonneg)
      · rintro (⟨-, hint⟩ | _)
        · exact absurd rfl (hint n)
        · rfl
      · rintro rfl
        exact .negative hn
    · refine follows_value (fun m => ⟨?_, ?_⟩) ?_
      · rintro ⟨-⟩
        rfl
      · rintro rfl
        exact .int (Int.not_lt.mp hn)
      · rintro w (⟨-, hint⟩ | hnegative)
        · exact hint n rfl
        · exact hn hnegative
  | _ => exact follows_notAnInt location (by simp) (by simp)

/-- What is not null and no text is no member. -/
theorem follows_notAWord [Choice α] (location : String) {v : Value} (hnull : v ≠ .null)
    (hstr : ∀ word, v ≠ .str word) :
    Follows { warning := some (.notAWord location v) } (v.Spells : α → Prop)
      (NoMember α location v) := by
  refine follows_warning ?_ fun w => ⟨?_, ?_⟩
  · rintro _ ⟨⟩
    exact hstr _ rfl
  · rintro (_ | _)
    · rfl
    · exact absurd rfl (hstr _)
  · rintro rfl
    exact .kind hnull hstr

/-- **A member is read by the rules.** -/
theorem follows_choice [Choice α] (location : String) (v : Value) :
    (Reading.choice α location v).Follows v.Spells (NoMember α location v) := by
  cases v with
  | null =>
    refine follows_nothing (by rintro _ ⟨⟩) ?_
    rintro _ (⟨hnull, -⟩ | _)
    exact hnull rfl
  | str word =>
    rw [Reading.choice]
    cases hm : (Choice.ofWord? word : Option α) with
    | none =>
      refine follows_warning ?_ fun w => ⟨?_, ?_⟩
      · rintro m ⟨hmeans⟩
        rw [hm] at hmeans
        cases hmeans
      · rintro (⟨-, hstr⟩ | _)
        · exact absurd rfl (hstr word)
        · rfl
      · rintro rfl
        exact .spelling hm
    | some m =>
      refine follows_value (fun m' => ⟨?_, ?_⟩) ?_
      · rintro ⟨hmeans⟩
        exact Option.some_inj.mp (hm.symm.trans hmeans)
      · rintro rfl
        exact .word hm
      · rintro w (⟨-, hstr⟩ | hunknown)
        · exact hstr word rfl
        · rw [hm] at hunknown
          cases hunknown
  | _ => exact follows_notAWord location (by simp) (by simp)

/-- A member as a setting. -/
def asSetting (r : Reading α) : Reading (Setting α) where
  value := r.value.map .member
  warning := r.warning

theorem Follows.asSetting [Choice α] {r : Reading α} {v : Value} (h : r.Follows v.Spells refuses) :
    r.asSetting.Follows v.SpellsSetting refuses := by
  refine ⟨fun s => ⟨fun hs => ?_, ?_⟩, h.warning_iff⟩
  · obtain ⟨m, hm, rfl⟩ := Option.map_eq_some_iff.mp hs
    exact .member ((h.value_iff m).mp hm)
  · rintro ⟨hspells⟩
    exact Option.map_eq_some_iff.mpr ⟨_, (h.value_iff _).mpr hspells, rfl⟩

end Reading

/-- What the entry of an option sets, and what it warns of. -/
def Field.judge (f : Field) : Value → Reading f.Content :=
  match f with
  | .separatorCharacter => Reading.choice SeparatorCharacter f.location
  | .objectSeparator => fun v => (Reading.choice ObjectSeparator f.location v).asSetting
  | .stringQuoting => fun v => (Reading.choice Quoting f.location v).asSetting
  | .keyQuoting => fun v => (Reading.choice Quoting f.location v).asSetting
  | .spacesBefore => Reading.int f.location
  | .spacesAfter => Reading.int f.location
  | .indentCharacter => Reading.choice IndentCharacter f.location
  | .indent => Reading.int f.location
  | .commentStyle => Reading.choice CommentStyle f.location
  | .lineSeparator => Reading.choice LineSeparator f.location

/-- **Each entry is read by the rules of its option.** -/
theorem Field.follows_judge (f : Field) (v : Value) :
    (f.judge v).Follows (f.Takes v) (f.Refuses v) := by
  cases f with
  | objectSeparator | stringQuoting | keyQuoting => exact (Reading.follows_choice _ v).asSetting
  | spacesBefore | spacesAfter | indent => exact Reading.follows_int _ v
  | _ => exact Reading.follows_choice _ v

/-! ### Sections -/

/-- The keys of the options are the known ones. -/
theorem isOptionKey_iff {k : Value} : isOptionKey k = true ↔ ∃ f : Field, k = .str f.tableKey := by
  constructor
  · intro h
    cases k with
    | str key =>
      obtain ⟨f, -, hf⟩ := List.any_eq_true.mp h
      exact ⟨f, congrArg Value.str (beq_iff_eq.mp hf).symm⟩
    | _ => cases h
  · rintro ⟨f, rfl⟩
    exact List.any_eq_true.mpr ⟨f, f.mem_all, beq_self_eq_true _⟩

/-- The section that holds the options is one step below the table. -/
theorem Entries.sectionAt_renderSection (table : Entries) :
    table.sectionAt renderSection = (table.value renderSection).entries :=
  rfl

/-- **What a section says that is judged entry by entry.** A refusal is the warning that an option's
entry leaves, if it leaves one. -/
structure Layer.EntryByEntry (table : Entries) (refusal : Field → Option Warning) (layer : Layer)
    (warnings : List Warning) : Prop where
  /-- An option is set if its own entry is usable, and to what that entry is taken as. -/
  get_iff : ∀ f x, layer.get f = some x ↔ f.Takes (table.value f.tableKey) x
  /-- An entry is refused if it is neither missing nor null and cannot be used. -/
  refusal_isSome_iff : ∀ f, (refusal f).isSome = true ↔
    table.value f.tableKey ≠ .null ∧ ¬∃ x, f.Takes (table.value f.tableKey) x
  /-- It is refused for what is wrong with it. -/
  refusal_iff : ∀ f w, refusal f = some w ↔ f.Refuses (table.value f.tableKey) w
  /-- There is a warning for each unknown key in the order of the section, and then one for each
  refused entry in the order of the options. -/
  warnings_eq : warnings = unknownKeys table ++ Field.all.filterMap refusal

/-! ### Reports -/

namespace Warning

/-- **Warnings as diagnostics**: each of them has words, and these make the diagnostics. -/
def WordedAs (ws : List Warning) (added : Diagnostics) : Prop :=
  ws.map diagnostic? = added.map some

instance (ws : List Warning) (added : Diagnostics) : Decidable (WordedAs ws added) :=
  inferInstanceAs (Decidable (_ = _))

/-- Warnings can all be put into words, or there is a first one that cannot. -/
theorem exists_wordedAs_or (ws : List Warning) :
    (∃ added, WordedAs ws added) ∨ ∃ before w rest added,
      ws = before ++ w :: rest ∧ WordedAs before added ∧ w.message = none := by
  induction ws with
  | nil => exact .inl ⟨[], rfl⟩
  | cons w ws ih =>
    cases hw : w.message with
    | none => exact .inr ⟨[], w, ws, [], rfl, rfl, hw⟩
    | some message =>
      have hcons : ∀ {us added}, WordedAs us added →
          WordedAs (w :: us) ({ level := .warning, message } :: added) := by
        intro us added h
        rw [WordedAs, List.map_cons, List.map_cons, diagnostic?, hw, ← h]
        rfl
      rcases ih with ⟨added, hadded⟩ | ⟨before, u, rest, added, rfl, hadded, hu⟩
      · exact .inl ⟨_, hcons hadded⟩
      · exact .inr ⟨w :: before, u, rest, _, rfl, hcons hadded, hu⟩

/-- **How the report of warnings ends**, behind given diagnostics and with something to be returned.
-/
inductive Reported {α : Type} (ws : List Warning) (ds : Diagnostics) (a : α) :
    Diagnostics × Except Failure α → Prop
  /-- All warnings are told. -/
  | told {added : Diagnostics} (words : WordedAs ws added) : Reported ws ds a (ds ++ added, .ok a)
  /-- The first warning without words breaks the report off. Those in front of it are told. -/
  | brokenOff {before rest : List Warning} {w : Warning} {added : Diagnostics}
      (split : ws = before ++ w :: rest) (words : WordedAs before added)
      (wordless : w.message = none) : Reported ws ds a (ds ++ added, .error .tooManyDigits)

variable {α β : Type} {ws : List Warning} {ds : Diagnostics} {a : α}

theorem Reported.map {result : Diagnostics × Except Failure α} (h : Reported ws ds a result)
    (f : α → β) : Reported ws ds (f a) (result.1, result.2.map f) := by
  cases h with
  | told words => exact .told words
  | brokenOff split words wordless => exact .brokenOff split words wordless

/-- A warning that has been put into words has some. -/
theorem WordedAs.message_ne_none {added : Diagnostics} (h : WordedAs ws added) {w : Warning}
    (hw : w ∈ ws) : w.message ≠ none := by
  intro hnone
  have hmem : w.diagnostic? ∈ added.map some := h ▸ List.mem_map_of_mem hw
  rw [diagnostic?, hnone] at hmem
  simp at hmem

/-- The words for warnings are the only ones. -/
theorem WordedAs.unique {added added' : Diagnostics} (h : WordedAs ws added)
    (h' : WordedAs ws added') : added = added' := by
  have hsame : added.map some = added'.map some := h.symm.trans h'
  exact List.map_injective_iff.mpr (fun _ _ => Option.some.inj) hsame

/-- Warnings that all have words are all told. -/
theorem Reported.eq_of_wordedAs {result : Diagnostics × Except Failure α} {added : Diagnostics}
    (h : Reported ws ds a result) (hws : WordedAs ws added) : result = (ds ++ added, .ok a) := by
  cases h with
  | told words => rw [hws.unique words]
  | brokenOff split _ wordless =>
    exact absurd wordless (hws.message_ne_none (split ▸ List.mem_append_cons_self))

/-- A report that comes to its end has told all warnings. -/
theorem Reported.eq_of_ok {ds' : Diagnostics} {b : α} (h : Reported ws ds a (ds', .ok b)) :
    b = a ∧ ∃ added, WordedAs ws added ∧ ds' = ds ++ added := by
  cases h with
  | told words => exact ⟨rfl, _, words, rfl⟩

end Warning

/-- **Warnings are reported** one after the other. -/
theorem Diagnostics.reported_addWarnings (ds : Diagnostics) (source : Log.Source)
    (ws : List Warning) : Warning.Reported ws ds () (ds.addWarnings source ws).value := by
  rcases Warning.exists_wordedAs_or ws with
    ⟨added, hadded⟩ | ⟨before, w, rest, added, rfl, hadded, hw⟩
  · rw [ds.value_addWarnings source hadded]
    exact .told hadded
  · rw [ds.value_addWarnings_of_none source hadded hw]
    exact .brokenOff rfl hadded hw

namespace Layer

variable (table : Entries)

/-- A section sets each option as its entry says. -/
theorem get_ofEntries (f : Field) :
    (ofEntries table).1.get f = (f.judge (table.value f.tableKey)).value := by
  cases f <;> rfl

/-- A section warns of its unknown keys, and of each option as its entry says. -/
theorem warnings_ofEntries :
    (ofEntries table).2 = unknownKeys table ++
      Field.all.filterMap fun f => (f.judge (table.value f.tableKey)).warning :=
  rfl

theorem value_load (ds : Diagnostics) :
    (load table ds).value = ((ds.addWarnings .loading (ofTable table).2).value.1,
      (ds.addWarnings .loading (ofTable table).2).value.2.map fun _ => (ofTable table).1) :=
  rfl

/-- Loading reports the warnings of a table, and returns the layer that it sets. -/
theorem reported_load (ds : Diagnostics) :
    Warning.Reported (ofTable table).2 ds (ofTable table).1 (load table ds).value :=
  (ds.reported_addWarnings .loading (ofTable table).2).map fun _ => (ofTable table).1

/-- **A section is judged entry by entry.** -/
theorem entryByEntry_ofEntries :
    EntryByEntry table (fun f => (f.judge (table.value f.tableKey)).warning) (ofEntries table).1
      (ofEntries table).2 := by
  have hfollows : ∀ f : Field, (f.judge (table.value f.tableKey)).Follows _ _ :=
    fun f => f.follows_judge (table.value f.tableKey)
  refine ⟨fun f x => ?_, fun f => ?_, fun f => (hfollows f).warning_iff, rfl⟩
  · rw [get_ofEntries, (hfollows f).value_iff]
  · rw [← f.exists_refuses_iff, Option.isSome_iff_exists]
    exact exists_congr (hfollows f).warning_iff

end Layer

/-! ### One entry more, less or other -/

/-- **Sections that differ in one entry**: under the key stands one value in the first and another
one in the second, and in either there may be none. -/
inductive Entries.DifferAt (k : Value) : Entries → Entries → Prop
  /-- What stands before the entry and behind it is the same. -/
  | intro (before after : Entries) (old new : Option Value) :
      DifferAt k (before ++ (old.toList.map (k, ·) ++ after))
        (before ++ (new.toList.map (k, ·) ++ after))

/-- Whether a warning is about the entry under a key. -/
def Warning.IsAbout (k : Value) : Warning → Prop
  | unknownKey location key => location = renderPlace ∧ key = k
  | notAnInt location _ | negative location _ | notAWord location _ | notAllowed location _ _ =>
    ∃ key, k = .str key ∧ location = renderPlace ++ "." ++ key

/-- **Warnings that are alike but for one entry**: there may be a warning about it in either list,
at the same place. -/
inductive Warning.AlikeBut (k : Value) : List Warning → List Warning → Prop
  /-- The warnings before it and behind it are the same. -/
  | intro (before after : List Warning) {w w' : Option Warning} (first : ∀ u ∈ w, u.IsAbout k)
      (second : ∀ u ∈ w', u.IsAbout k) :
      AlikeBut k (before ++ (w.toList ++ after)) (before ++ (w'.toList ++ after))

namespace Entries

variable {k : Value} {s s' : Entries}

theorem lookup_append (key : String) (s s' : Entries) :
    lookup key (s ++ s') = (lookup key s).or (lookup key s') := by
  induction s with
  | nil => rfl
  | cons e rest ih =>
    obtain ⟨k, v⟩ := e
    cases k with
    | str name =>
      rw [List.cons_append, lookup, lookup, ih]
      split_ifs <;> rfl
    | _ => exact ih

theorem lookup_toList_map {key : String} (h : k ≠ .str key) (v : Option Value) :
    lookup key (v.toList.map (k, ·)) = none := by
  cases v with
  | none => rfl
  | some v =>
    cases k with
    | str name => exact if_neg fun hname => h (congrArg Value.str hname)
    | _ => rfl

/-- Under any other key stands the same. -/
theorem DifferAt.value_eq (h : DifferAt k s s') {key : String} (hkey : k ≠ .str key) :
    s.value key = s'.value key := by
  obtain ⟨before, after, old, new⟩ := h
  simp only [value, lookup_append, lookup_toList_map hkey]

end Entries

section UnknownKeys

variable {k : Value}

theorem unknownKeys_append (s s' : Entries) :
    unknownKeys (s ++ s') = unknownKeys s ++ unknownKeys s' := by
  rw [unknownKeys, List.filter_append, List.map_append]
  rfl

/-- The entry of an option is no unknown key. -/
theorem unknownKeys_toList_map_of_isOptionKey (h : isOptionKey k = true) (v : Option Value) :
    unknownKeys (v.toList.map (k, ·)) = [] := by
  cases v <;> simp [unknownKeys, h]

/-- An entry under a key that is no option is an unknown key. -/
theorem unknownKeys_toList_map (h : isOptionKey k = false) (v : Option Value) :
    unknownKeys (v.toList.map (k, ·)) =
      (v.map fun _ => Warning.unknownKey renderPlace k).toList := by
  cases v <;> simp [unknownKeys, h]

end UnknownKeys

namespace Warning.AlikeBut

variable {k : Value} {ws ws' : List Warning}

theorem append_left (h : AlikeBut k ws ws') (before : List Warning) :
    AlikeBut k (before ++ ws) (before ++ ws') := by
  obtain ⟨inner, after, hfirst, hsecond⟩ := h
  simpa only [List.append_assoc] using intro (before ++ inner) after hfirst hsecond

theorem append_right (h : AlikeBut k ws ws') (after : List Warning) :
    AlikeBut k (ws ++ after) (ws' ++ after) := by
  obtain ⟨before, inner, hfirst, hsecond⟩ := h
  simp only [List.append_assoc]
  exact .intro before (inner ++ after) hfirst hsecond

end Warning.AlikeBut

/-- What an option's entry is warned of is about that entry. -/
theorem Field.Refuses.isAbout {f : Field} {v : Value} {w : Warning} (h : f.Refuses v w) :
    w.IsAbout (.str f.tableKey) := by
  cases f <;> cases h <;> exact ⟨_, rfl, rfl⟩

/-- Warnings of the options are alike but for one, if only its entry differs. -/
theorem Field.alikeBut_filterMap (f : Field) {r r' : Field → Option Warning}
    (hsame : ∀ g, g ≠ f → r g = r' g) (hfirst : ∀ w ∈ r f, w.IsAbout (.str f.tableKey))
    (hsecond : ∀ w ∈ r' f, w.IsAbout (.str f.tableKey)) :
    Warning.AlikeBut (.str f.tableKey) (Field.all.filterMap r) (Field.all.filterMap r') := by
  obtain ⟨before, after, hall⟩ := List.append_of_mem f.mem_all
  have hnodup : Field.all.Nodup := by decide
  rw [hall, List.nodup_middle, List.nodup_cons, List.mem_append, not_or] at hnodup
  have hbefore : before.filterMap r = before.filterMap r' :=
    List.filterMap_congr fun g hg => hsame g fun hgf => hnodup.1.1 (hgf ▸ hg)
  have hafter : after.filterMap r = after.filterMap r' :=
    List.filterMap_congr fun g hg => hsame g fun hgf => hnodup.1.2 (hgf ▸ hg)
  have hcons : ∀ q : Field → Option Warning,
      (f :: after).filterMap q = (q f).toList ++ after.filterMap q := by
    intro q
    rw [List.filterMap_cons]
    cases q f <;> rfl
  rw [hall, List.filterMap_append, List.filterMap_append, hcons, hcons, hbefore, hafter]
  exact .intro _ _ hfirst hsecond

/-- **What two sections come to that differ in one entry**: the same, but for the field of that
entry and one warning about it. -/
structure Layer.AlikeBut (k : Value) (ds : Diagnostics) (a b : Layer × Diagnostics) : Prop where
  /-- All options but the one with that key are set alike. -/
  get_eq : ∀ f : Field, k ≠ .str f.tableKey → a.1.get f = b.1.get f
  /-- The same warnings are added, but for one about the entry. -/
  diagnostics : ∃ ws ws' added added', Warning.AlikeBut k ws ws' ∧
    Warning.WordedAs ws added ∧ a.2 = ds ++ added ∧
    Warning.WordedAs ws' added' ∧ b.2 = ds ++ added'

namespace Layer

variable {k : Value} {s s' : Entries}

/-- The warnings of two sections that differ in one entry are alike but for one about it. -/
theorem alikeBut_warnings (h : Entries.DifferAt k s s') :
    Warning.AlikeBut k (ofEntries s).2 (ofEntries s').2 := by
  rw [warnings_ofEntries, warnings_ofEntries]
  -- the key is that of one option or an unknown one, and the other half of the warnings is the same
  cases hknown : isOptionKey k with
  | true =>
    obtain ⟨f, rfl⟩ := isOptionKey_iff.mp hknown
    have hunknown : unknownKeys s = unknownKeys s' := by
      obtain ⟨before, after, old, new⟩ := h
      simp only [unknownKeys_append, unknownKeys_toList_map_of_isOptionKey hknown]
    rw [hunknown]
    refine (f.alikeBut_filterMap (fun g hg => ?_) (fun w hw => ?_) fun w hw => ?_).append_left _
    · have hkey : Value.str f.tableKey ≠ .str g.tableKey :=
        fun heq => hg (Field.tableKey_injective (Value.str.inj heq)).symm
      rw [h.value_eq hkey]
    · exact (((f.follows_judge _).warning_iff w).mp hw).isAbout
    · exact (((f.follows_judge _).warning_iff w).mp hw).isAbout
  | false =>
    have hsame : ∀ f : Field, s.value f.tableKey = s'.value f.tableKey := by
      intro f
      refine h.value_eq ?_
      rintro rfl
      exact absurd (isOptionKey_iff.mpr ⟨f, rfl⟩) (by simp [hknown])
    simp only [hsame]
    refine Warning.AlikeBut.append_right ?_ _
    obtain ⟨before, after, old, new⟩ := h
    simp only [unknownKeys_append, unknownKeys_toList_map hknown]
    refine .intro _ _ ?_ ?_
    all_goals
      intro u hu
      obtain ⟨-, -, rfl⟩ := Option.map_eq_some_iff.mp hu
      exact ⟨rfl, rfl⟩

/-- **Entries are judged one by one.** Whatever a table is, and whatever stands under the key of the
option section, there is a warning for each unknown key of the section and for each entry that is
refused, and no other, and an option is set as its own entry says. The warnings are added to the
diagnostics one after the other. If all of them have words, the layer is returned; the first one
without words breaks the reading off.

So a section that differs in one entry – added, removed or changed – changes at most what that entry
sets and the one warning about it, if both sections are read to the end. -/
theorem load_entryByEntry (table : Entries) (ds : Diagnostics) :
    (∃ refusal layer warnings,
      EntryByEntry (table.value renderSection).entries refusal layer warnings ∧
      Warning.Reported warnings ds layer (load table ds).value) ∧
    ∀ (table' : Entries) (k : Value), Entries.DifferAt k (table.value renderSection).entries
      (table'.value renderSection).entries →
        ∀ (layer layer' : Layer) (ds₁ ds₂ : Diagnostics), (load table ds).value = (ds₁, .ok layer) →
          (load table' ds).value = (ds₂, .ok layer') →
            AlikeBut k ds (layer, ds₁) (layer', ds₂) := by
  have htable : ∀ t : Entries, ofTable t = ofEntries (t.value renderSection).entries :=
    fun t => by rw [ofTable, Entries.sectionAt_renderSection]
  refine ⟨⟨_, _, _, entryByEntry_ofEntries _, ?_⟩, ?_⟩
  · rw [← htable]
    exact reported_load table ds
  · intro table' k hdiffer layer layer' ds₁ ds₂ hfirst hsecond
    have hends := reported_load table ds
    have hends' := reported_load table' ds
    rw [hfirst, htable] at hends
    rw [hsecond, htable] at hends'
    obtain ⟨rfl, added, hadded, rfl⟩ := hends.eq_of_ok
    obtain ⟨rfl, added', hadded', rfl⟩ := hends'.eq_of_ok
    refine ⟨fun f hf => ?_, _, _, added, added', alikeBut_warnings hdiffer, hadded, rfl, hadded',
      rfl⟩
    rw [get_ofEntries, get_ofEntries, hdiffer.value_eq hf]

end Layer

/-- A table with an option section of all sorts: an alias, a null, a negative count, a list, two
keys that are no option, and one entry to be chosen. -/
def mixedTable (indent : Value) : Entries :=
  [(.str "render", .map [(.str "separator", .str "="), (.str "tabs", .null),
    (.str "indent", indent), (.str "spaces_before_separator", .int (-1)),
    (.str "line_separator", .null), (.int 3, .bool false), (.str "comment_style", .list [])])]

/-- The diagnostics of the table: those of the unknown keys and of the count, those of the chosen
entry, and that of the list. -/
def mixedDiagnostics (ofIndent : List String) : Diagnostics :=
  (["Unknown key in [render]: tabs", "Unknown key in [render]: 3",
    "Expected non-negative int in [render].spaces_before_separator, got -1"] ++ ofIndent ++
    ["Expected string enum value in [render].comment_style, got list: []"]).map
      fun message => { level := .warning, message }

/-- A truth value is no count. With a number in its place, the number is set and one warning is
gone. -/
theorem Layer.load_mixedTable :
    Entries.DifferAt (.str "indent") ((mixedTable (.bool true)).value renderSection).entries
        ((mixedTable (.int 2)).value renderSection).entries ∧
      (load (mixedTable (.bool true)) []).value =
        (mixedDiagnostics ["Expected int in [render].indent, got bool: True"],
          .ok { separatorCharacter := some .equals }) ∧
      (load (mixedTable (.int 2)) []).value =
        (mixedDiagnostics [], .ok { separatorCharacter := some .equals, indent := some 2 }) ∧
      AlikeBut (.str "indent") [] ({ separatorCharacter := some .equals },
          mixedDiagnostics ["Expected int in [render].indent, got bool: True"])
        ({ separatorCharacter := some .equals, indent := some 2 }, mixedDiagnostics []) := by
  have hdiffer : Entries.DifferAt (.str "indent")
      ((mixedTable (.bool true)).value renderSection).entries
      ((mixedTable (.int 2)).value renderSection).entries :=
    .intro [(.str "separator", .str "="), (.str "tabs", .null)] _ (some (.bool true))
      (some (.int 2))
  have hbool : (load (mixedTable (.bool true)) []).value =
      (mixedDiagnostics ["Expected int in [render].indent, got bool: True"],
        .ok { separatorCharacter := some .equals }) := by decide +kernel
  have hint : (load (mixedTable (.int 2)) []).value =
      (mixedDiagnostics [], .ok { separatorCharacter := some .equals, indent := some 2 }) := by
    decide +kernel
  exact ⟨hdiffer, hbool, hint, (load_entryByEntry _ []).2 _ _ hdiffer _ _ _ _ hbool hint⟩

/-- A table with an integer of too many digits where a word should be, and a usable count. -/
def unshownTable : Entries :=
  [(.str "render", .map [(.str "separator", Value.longInteger), (.str "indent", .int 2)])]

/-- **An entry that is not forgiven.** The integer cannot be shown in its warning, so nothing is
read and nothing is told; the count beside it is lost as well. -/
theorem Layer.load_breaks_off : (load unshownTable []).value = ([], .error .tooManyDigits) := by
  have hwarnings : (ofTable unshownTable).2 =
      [.notAWord "[render].separator" Value.longInteger] := rfl
  have hwordless : (Warning.notAWord "[render].separator" Value.longInteger).message = none := by
    rw [Warning.message, Warning.found, Value.display_longInteger]
    rfl
  have hreport : ∀ w : Warning, w.message = none →
      (Diagnostics.addWarnings [] .loading [w]).value = ([], .error .tooManyDigits) :=
    fun w hw => by simp [Diagnostics.addWarnings, Warning.diagnostic?, hw]
  rw [value_load, hwarnings, hreport _ hwordless]
  rfl

end Hocon
