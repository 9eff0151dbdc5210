import Hocon.Section
import Mathlib.Logic.ExistsUnique

/-!
# Descending to a section and nesting under it

A section name stands for a chain of keys, and there is just one such chain
(`Hocon.sectionKeys_eq_iff`): texts without points that, joined by points, are the name. The one
thing to know about names is that a point between two of them puts the second chain behind the first
(`Hocon.sectionKeys_append`). So what is said of chains, by induction on the first one, holds of
names.

| along a chain of keys | along two chains, one behind the other |
|---|---|
| `Hocon.Value.follow` descends | `Hocon.Value.follow_append` |
| `Hocon.Entries.nest` builds | `Hocon.Entries.nest_append` |
| descending undoes building: `Hocon.Value.follow_nest` | |

Descending to a section stops for good at a key that is missing and at a value that is no table, and
what it finds there is an empty table. Going on from the empty table finds the empty table again, so
it makes no difference at which point of a name the way is broken off.
-/

namespace Hocon

/-! ### The keys of a name -/

/-- **The keys that a section name stands for**: texts without points that, joined by points, are
the name. -/
structure NamesSection (name : String) (keys : List String) : Prop where
  /-- There is a key, if only an empty one. -/
  ne_nil : keys ≠ []
  /-- The points of the name stand between the keys. -/
  notMem : ∀ key ∈ keys, '.' ∉ key.toList
  /-- The keys make up the name. -/
  joined : ".".intercalate keys = name

/-- **A name stands for one chain of keys.** -/
theorem sectionKeys_eq_iff {name : String} {keys : List String} :
    sectionKeys name = keys ↔ NamesSection name keys := by
  have hkeys : (keys.map String.toList).map String.ofList = keys := by
    rw [List.map_map]
    exact List.map_id'' (fun key => String.ofList_toList) keys
  have hparts : ∀ parts : List (List Char),
      (parts.map String.ofList).map String.toList = parts := by
    intro parts
    rw [List.map_map]
    exact List.map_id'' (fun part => String.toList_ofList) parts
  have hjoined : ".".intercalate keys = name ↔
      ['.'].intercalate (keys.map String.toList) = name.toList := by
    rw [← String.toList_inj, String.toList_intercalate]
    exact Iff.rfl
  have hsplit : sectionKeys name = keys ↔ splitOn '.' name.toList = keys.map String.toList := by
    constructor
    · rintro rfl
      exact (hparts _).symm
    · intro h
      rw [sectionKeys, h, hkeys]
  rw [hsplit, splitOn_eq_iff, ← hjoined]
  constructor
  · rintro ⟨hne, hmark, hname⟩
    exact ⟨by simpa using hne, by simpa using hmark, hname⟩
  · rintro ⟨hne, hmark, hname⟩
    exact ⟨by simpa using hne, by simpa using hmark, hname⟩

theorem namesSection_sectionKeys (name : String) : NamesSection name (sectionKeys name) :=
  sectionKeys_eq_iff.mp rfl

/-- **A point between two names puts the keys of the second behind those of the first.** -/
theorem sectionKeys_append (a b : String) :
    sectionKeys (a ++ "." ++ b) = sectionKeys a ++ sectionKeys b := by
  have hpoint : (a ++ "." ++ b).toList = a.toList ++ '.' :: b.toList := by
    simp
  rw [sectionKeys, hpoint, splitOn_append, List.map_append]
  rfl

/-! ### Descending -/

namespace Value

theorem follow_null (keys : List String) : Value.null.follow keys = .null := by
  cases keys <;> rfl

/-- **Two chains are followed one after the other.** -/
theorem follow_append (keys keys' : List String) (v : Value) :
    v.follow (keys ++ keys') = (v.follow keys).follow keys' := by
  induction keys generalizing v with
  | nil => rfl
  | cons key keys ih =>
    cases v with
    | map entries => exact ih _
    | _ => exact (follow_null keys').symm

/-- The way goes on from a value as from the table of its entries, which is empty if the value is no
table. -/
theorem entries_follow_entries {keys : List String} (h : keys ≠ []) (v : Value) :
    ((Value.map v.entries).follow keys).entries = (v.follow keys).entries := by
  obtain ⟨key, keys, rfl⟩ := List.exists_cons_of_ne_nil h
  cases v with
  | map entries => rfl
  | _ => exact congrArg entries (follow_null keys)

theorem follow_nest (table : Entries) (keys : List String) :
    (Value.map (table.nest keys)).follow keys = .map table := by
  induction keys with
  | nil => rfl
  | cons key keys ih =>
    rw [Entries.nest, Value.follow, Entries.lookup, if_pos rfl]
    exact ih

end Value

namespace Entries

/-- An empty table has only empty sections. -/
theorem sectionAt_nil (name : String) : Entries.sectionAt name [] = [] := by
  rw [Entries.sectionAt]
  cases sectionKeys name with
  | nil => rfl
  | cons key keys =>
    rw [Value.follow, Entries.lookup, Option.getD_none, Value.follow_null]
    rfl

/-- **A section of a section** is the section that both names stand for, with a point between
them. -/
theorem sectionAt_append (table : Entries) (a b : String) :
    table.sectionAt (a ++ "." ++ b) = (table.sectionAt a).sectionAt b := by
  rw [sectionAt, sectionAt, sectionAt, sectionKeys_append, Value.follow_append,
    Value.entries_follow_entries (namesSection_sectionKeys b).ne_nil]

/-- **A section is found where it was put.** -/
theorem sectionAt_nest (name : String) (table : Entries) :
    (table.nest (sectionKeys name)).sectionAt name = table := by
  rw [Entries.sectionAt, Value.follow_nest]
  rfl

/-! ### Nesting -/

theorem nest_append (table : Entries) (keys keys' : List String) :
    table.nest (keys ++ keys') = (table.nest keys').nest keys := by
  induction keys with
  | nil => rfl
  | cons key keys ih =>
    rw [List.cons_append, Entries.nest, ih]
    rfl

theorem nestUnder_of_mem {name : String} (h : "" ∈ sectionKeys name) (table : Entries) :
    table.nestUnder name = .error { name } := by
  rw [nestUnder, List.contains_iff_mem.mpr h]
  rfl

theorem nestUnder_of_notMem {name : String} (h : "" ∉ sectionKeys name) (table : Entries) :
    table.nestUnder name = .ok (table.nest (sectionKeys name)) := by
  rw [nestUnder, Bool.eq_false_iff.mpr (mt List.contains_iff_mem.mp h)]
  rfl

theorem nestUnder_eq_ok_iff {name : String} {table nested : Entries} :
    table.nestUnder name = .ok nested ↔
      "" ∉ sectionKeys name ∧ table.nest (sectionKeys name) = nested := by
  by_cases h : "" ∈ sectionKeys name
  · simp [nestUnder_of_mem h, h]
  · simp [nestUnder_of_notMem h, h]

/-- The empty name has an empty key, so it need not be excluded on its own. -/
theorem mem_sectionKeys_empty : "" ∈ sectionKeys "" := by decide

/-- **Nesting under a name with a point in it** is nesting under what stands behind the point and
then under what stands before it. -/
theorem nestUnder_append_eq_ok_iff {table nested : Entries} {a b : String} :
    table.nestUnder (a ++ "." ++ b) = .ok nested ↔
      ∃ inner, table.nestUnder b = .ok inner ∧ inner.nestUnder a = .ok nested := by
  simp only [nestUnder_eq_ok_iff, sectionKeys_append, nest_append, List.mem_append, not_or]
  constructor
  · rintro ⟨⟨ha, hb⟩, rfl⟩
    exact ⟨_, ⟨hb, rfl⟩, ha, rfl⟩
  · rintro ⟨_, ⟨hb, rfl⟩, ha, rfl⟩
    exact ⟨⟨ha, hb⟩, rfl⟩

/-- **Nesting under a section and descending to it undo one another, and both go key by key.** Let a
name stand for a chain of keys, as just one chain does.

1. Nesting a table under the name is refused if the name or one of the keys is empty; otherwise it
   succeeds, and the section of that name is the table again.
2. The section under two names with a point between them is the second section of the first, in any
   table, whatever is missing or no table on the way.
3. Nesting under two names with a point between them is nesting under the second and then under the
   first: either both succeed, with the same table, or neither does. -/
theorem nestUnder_sectionAt :
    (∀ name, ∃! keys, NamesSection name keys) ∧
    (∀ (table : Entries) (name : String) (keys : List String), NamesSection name keys →
      (table.nestUnder name = .error { name } ↔ name = "" ∨ "" ∈ keys) ∧
      (¬(name = "" ∨ "" ∈ keys) →
        ∃ nested, table.nestUnder name = .ok nested ∧ nested.sectionAt name = table)) ∧
    (∀ (table : Entries) (a b : String),
      table.sectionAt (a ++ "." ++ b) = (table.sectionAt a).sectionAt b) ∧
    ∀ (table nested : Entries) (a b : String), table.nestUnder (a ++ "." ++ b) = .ok nested ↔
      ∃ inner, table.nestUnder b = .ok inner ∧ inner.nestUnder a = .ok nested := by
  refine ⟨fun name => ?_, fun table name keys hname => ?_, sectionAt_append,
    fun _ _ _ _ => nestUnder_append_eq_ok_iff⟩
  · exact ⟨_, namesSection_sectionKeys name, fun keys h => (sectionKeys_eq_iff.mpr h).symm⟩
  · obtain rfl := sectionKeys_eq_iff.mpr hname
    have hempty : name = "" ∨ "" ∈ sectionKeys name ↔ "" ∈ sectionKeys name := by
      rw [or_iff_right_iff_imp]
      rintro rfl
      exact mem_sectionKeys_empty
    rw [hempty]
    constructor
    · by_cases h : "" ∈ sectionKeys name
      · exact iff_of_true (nestUnder_of_mem h table) h
      · exact iff_of_false (by simp [nestUnder_of_notMem h]) h
    · intro h
      exact ⟨_, nestUnder_of_notMem h table, sectionAt_nest name table⟩

/-- A table for each tool of a project, one of them without settings of its own. -/
def toolTable : Entries :=
  [(.str "tool", .map [(.str "lint", .bool true), (.str "format", .map [(.str "width", .int 80)])])]

/-- A name with two keys, a way that is broken off at a value that is no table, and a name with an
empty key. -/
theorem nestUnder_sectionAt_of_toolTable :
    NamesSection "tool.format" ["tool", "format"] ∧ NamesSection "tool." ["tool", ""] ∧
      (∃ nested, toolTable.nestUnder "tool.format" = .ok nested ∧
        nested.sectionAt "tool.format" = toolTable) ∧
      toolTable.nestUnder "tool." = .error { name := "tool." } ∧
      toolTable.sectionAt "tool.lint.width" = (toolTable.sectionAt "tool").sectionAt "lint.width" ∧
      toolTable.sectionAt "tool.lint.width" = [] := by
  have hformat : NamesSection "tool.format" ["tool", "format"] :=
    sectionKeys_eq_iff.mp (by decide)
  have hpoint : NamesSection "tool." ["tool", ""] := sectionKeys_eq_iff.mp (by decide)
  obtain ⟨-, hnest, hsection, -⟩ := nestUnder_sectionAt
  refine ⟨hformat, hpoint, (hnest _ _ _ hformat).2 (by decide),
    (hnest _ _ _ hpoint).1.mpr (by decide), ?_, by decide⟩
  exact hsection toolTable "tool" "lint.width"

end Entries

end Hocon
