import Hocon.Proofs.Toml.Lines
import Hocon.Section
import Hocon.Toml.Library

/-!
# Reading a TOML document of one table

A table of texts and integers that stands inside of other tables, each of them with nothing else in
it, is written as a header and one line for each entry, and that document is read as the same table
inside of the same tables. Keys and texts may hold anything; an integer with too many digits has no
text, and then neither has the table. This is what is asked of a library for TOML
(`Hocon.Toml.Library.Restores`), and the one that runs is such a library
(`Hocon.Toml.Library.restores_standard`).

| | the tables around it | its entries |
|---|---|---|
| as a table | `Hocon.Entries.nest` | `Hocon.Entries.ofPairs` |
| as text | `Hocon.Toml.headerText` | `Hocon.Toml.lineText` |
| written | `Hocon.Toml.assemble_nest` | `Hocon.Toml.assemble_ofPairs` |
| read | `Hocon.Toml.itemEntries_under` | `Hocon.Toml.Reader.run_document_lines` |

The writer gives no header to the tables around, because all that they hold are tables. So the one
header has the full name, and what its section says reaches the outermost table as tables that the
name implies. The entries go through the reader one by one, and what carries the induction is the
section so far: a line with a new key adds its entry at the end of it.
-/

namespace Hocon

/-! ### Tables given by pairs -/

/-- The table with the given values under the given texts. -/
def Entries.ofPairs (es : List (String × Value)) : Entries :=
  es.map fun e => (.str e.1, e.2)

/-- What was put under a key is found under it. -/
theorem Entries.lookup_ofPairs {es : List (String × Value)} (hkeys : (es.map Prod.fst).Nodup)
    {e : String × Value} (he : e ∈ es) : (Entries.ofPairs es).lookup e.1 = some e.2 := by
  induction es with
  | nil => cases he
  | cons e' es ih =>
    rw [List.map_cons, List.nodup_cons] at hkeys
    change (if e'.1 = e.1 then some e'.2 else (Entries.ofPairs es).lookup e.1) = some e.2
    rcases List.mem_cons.mp he with rfl | he
    · rw [if_pos rfl]
    · have hne : e'.1 ≠ e.1 := fun h => hkeys.1 (List.mem_map.mpr ⟨e, he, h.symm⟩)
      rw [if_neg hne, ih hkeys.2 he]

/-- Nothing is found under a key that nothing was put under. -/
theorem Entries.lookup_ofPairs_of_notMem {es : List (String × Value)} {key : String}
    (h : key ∉ es.map Prod.fst) : (Entries.ofPairs es).lookup key = none := by
  induction es with
  | nil => rfl
  | cons e es ih =>
    rw [List.map_cons, List.mem_cons, not_or] at h
    change (if e.1 = key then some e.2 else (Entries.ofPairs es).lookup key) = none
    rw [if_neg (Ne.symm h.1), ih h.2]

/-- The entry of a text key that is not null is kept, with what is left of its value. -/
theorem Value.entriesWithoutNulls_cons {v : Value} (hv : v ≠ null) (key : String) (rest : Entries) :
    entriesWithoutNulls ((.str key, v) :: rest) = (do
      let v ← v.withoutNulls
      return Entries.addBefore key v (← entriesWithoutNulls rest)) := by
  cases v with
  | null => exact absurd rfl hv
  | _ => rfl

/-- **A table with different keys is kept as it is** if each of its values is, and none is null. -/
theorem Value.entriesWithoutNulls_ofPairs {es : List (String × Value)}
    (hkeys : (es.map Prod.fst).Nodup) (hes : ∀ e ∈ es, e.2 ≠ null ∧ e.2.withoutNulls = pure e.2) :
    entriesWithoutNulls (Entries.ofPairs es) = pure (Entries.ofPairs es) := by
  induction es with
  | nil => rfl
  | cons e es ih =>
    obtain ⟨key, v⟩ := e
    rw [List.map_cons, List.nodup_cons] at hkeys
    obtain ⟨⟨hv, hkept⟩, hes⟩ := List.forall_mem_cons.mp hes
    have hcons : Entries.ofPairs ((key, v) :: es) = (.str key, v) :: Entries.ofPairs es := rfl
    rw [hcons, entriesWithoutNulls_cons hv, hkept, Attempt.pure_bind, ih hkeys.2 hes,
      Attempt.pure_bind, Entries.addBefore, Entries.lookup_ofPairs_of_notMem hkeys.1]

namespace Toml

variable {es : List (String × Value)}

/-! ### Writing -/

/-- A text or an integer, of any size. -/
inductive IsFlat : Value → Prop
  | str (s : String) : IsFlat (.str s)
  | int (n : ℤ) : IsFlat (.int n)

/-- Whether a value is neither null nor a map nor a list. -/
def isKept : Value → Bool
  | .null | .map _ | .list _ => false
  | _ => true

theorem IsFlat.isKept {v : Value} (h : IsFlat v) : isKept v = true := by
  cases h <;> rfl

theorem IsAtom.isFlat {v : Value} (h : IsAtom v) : IsFlat v := by
  cases h <;> constructor

/-- An integer that is no atom has too many digits to be written. -/
theorem IsFlat.inlineValue {v : Value} (h : IsFlat v) (hlong : ¬IsAtom v) :
    inlineValue false v = .error .tooManyDigits := by
  cases h with
  | str s => exact absurd (.str s) hlong
  | int n =>
    rw [Toml.inlineValue, if_neg]
    exact fun hn => hlong (.int n hn)

theorem allWritten_ok (texts : List (List Char)) : allWritten (texts.map .ok) = .ok texts := by
  induction texts with
  | nil => rfl
  | cons text texts ih =>
    rw [allWritten] at ih
    rw [allWritten, List.map_cons, List.mapM_cons, ih]
    rfl

/-- If all that can go wrong with parts is one thing, and it does, then it is what is wrong. -/
theorem allWritten_error {parts : List Written} {f : Failure}
    (hall : ∀ p ∈ parts, (∃ text, p = .ok text) ∨ p = .error f) (hmem : .error f ∈ parts) :
    allWritten parts = .error f := by
  induction parts with
  | nil => cases hmem
  | cons p parts ih =>
    rw [List.forall_mem_cons] at hall
    rw [allWritten, List.mapM_cons]
    rcases hall.1 with ⟨text, rfl⟩ | rfl
    · have hrest : parts.mapM id = .error f := ih hall.2 (by simpa using hmem)
      rw [id, Attempt.ok_bind, hrest]
      rfl
    · rfl

/-- Parts without a mark stay as they are. -/
theorem markedLast_unmarked {α : Type} (items : List α) :
    markedLast (items.map fun a => (false, a)) = items := by
  simp [markedLast, List.filter_map, Function.comp_def]

/-- The line of a text or an integer, if it can be written. -/
def writtenLine (e : String × Value) : Written :=
  (inlineValue false e.2).map fun text => keyText e.1 ++ [' ', '=', ' '] ++ text ++ ['\n']

theorem IsAtom.writtenLine {e : String × Value} (h : IsAtom e.2) :
    writtenLine e = .ok (lineText e) := by
  rw [Toml.writtenLine, h.inlineValue]
  rfl

/-- The part that a text or an integer makes. -/
def linePart (e : String × Value) : Part :=
  ⟨.line, fun _ => writtenLine e⟩

theorem IsFlat.group {v : Value} (h : IsFlat v) : Group.of v = .line := by
  cases h <;> rfl

/-- A table of texts and integers has a header, even if it is empty. -/
theorem needsHeader_ofPairs (hes : ∀ e ∈ es, IsFlat e.2) :
    needsHeader (Entries.ofPairs es) = true := by
  cases es with
  | nil => rfl
  | cons e es => simp [needsHeader, Entries.ofPairs, (hes e List.mem_cons_self).group]

theorem IsFlat.entryText {v : Value} (h : IsFlat v) (key : String) (name : List Char)
    (blank : Bool) : entryText (.str key) name blank v = writtenLine (key, v) := by
  cases h with
  | str s => rfl
  | int n =>
    rw [Toml.entryText, assignment, writtenLine]
    · cases Toml.inlineValue false (.int n) <;> rfl
    all_goals rintro _ ⟨⟩

theorem entryParts_ofPairs (hes : ∀ e ∈ es, IsFlat e.2) (name : List Char) :
    entryParts name (Entries.ofPairs es) = es.map linePart := by
  induction es with
  | nil => rfl
  | cons e es ih =>
    obtain ⟨he, hes⟩ := List.forall_mem_cons.mp hes
    rw [List.map_cons, ← ih hes]
    change Part.mk _ _ :: _ = _
    congr 1
    rw [he.group, linePart]
    congr 1
    funext blank
    rw [he.entryText]
    cases writtenLine e <;> rfl

/-- What goes before a line does not depend on where it stands. -/
theorem placedTexts_lineParts (lines first : Bool) (es : List (String × Value)) :
    placedTexts lines first (es.map linePart) = es.map writtenLine := by
  induction es generalizing first with
  | nil => rfl
  | cons e es ih =>
    rw [List.map_cons, placedTexts, ih]
    rfl

/-- The lines of texts and integers are written one after the other. -/
theorem assemble_ofPairs (hes : ∀ e ∈ es, IsAtom e.2) (name : List Char) :
    assemble (entryParts name (Entries.ofPairs es)) = .ok (es.flatMap lineText) := by
  have htexts : es.map writtenLine = (es.map lineText).map .ok := by
    rw [List.map_map]
    exact List.map_congr_left fun e he => (hes e he).writtenLine
  have hzip : ((es.map linePart).map fun p => decide (p.group ≠ .line)).zip (es.map lineText) =
      (es.map lineText).map fun text => (false, text) := by
    rw [List.map_map, List.zip_map', List.map_map]
    rfl
  rw [entryParts_ofPairs fun e he => (hes e he).isFlat, assemble, placedTexts_lineParts, htexts,
    allWritten_ok, Attempt.ok_bind, hzip, markedLast_unmarked]
  rfl

/-- There are no lines if one of the integers has too many digits. -/
theorem assemble_ofPairs_error (hes : ∀ e ∈ es, IsFlat e.2) (hlong : ∃ e ∈ es, ¬IsAtom e.2)
    (name : List Char) :
    assemble (entryParts name (Entries.ofPairs es)) = .error .tooManyDigits := by
  have hline : ∀ e ∈ es, ¬IsAtom e.2 → writtenLine e = .error .tooManyDigits := fun e he h => by
    rw [writtenLine, (hes e he).inlineValue h]
    rfl
  have hall : ∀ p ∈ es.map writtenLine, (∃ text, p = .ok text) ∨ p = .error .tooManyDigits := by
    refine List.forall_mem_map.mpr fun e he => ?_
    by_cases h : IsAtom e.2
    · exact .inl ⟨_, h.writtenLine⟩
    · exact .inr (hline e he h)
  obtain ⟨e, he, hatom⟩ := hlong
  have hmem : .error .tooManyDigits ∈ es.map writtenLine :=
    List.mem_map.mpr ⟨e, he, hline e he hatom⟩
  rw [entryParts_ofPairs hes, assemble, placedTexts_lineParts, allWritten_error hall hmem]
  rfl

/-- A table that is alone in another one is written without a blank line in front of it. -/
theorem assemble_table (name : List Char) (key : String) (entries : Entries) :
    assemble (entryParts name [(.str key, .map entries)]) =
      entryText (.str key) (qualified name (keyText key)) false (.map entries) := by
  have hsingle : ∀ p : Part, p.group = .table → assemble [p] = p.text false := by
    intro p hp
    simp [assemble, placedTexts, hp, allWritten, markedLast]
  refine (hsingle _ rfl).trans ?_
  change (entryText _ (qualified name (keyText key)) false (.map entries)).bind Except.ok = _
  cases entryText (.str key) (qualified name (keyText key)) false (.map entries) <;> rfl

theorem qualified_of_ne_nil {parent : List Char} (h : parent ≠ []) (key : List Char) :
    qualified parent key = parent ++ '.' :: key := by
  simp [qualified, h]

/-- **A table inside of others is written with one header**, which has its full name. -/
theorem assemble_nest (hes : ∀ e ∈ es, IsFlat e.2) {body : Written}
    (hbody : ∀ name, assemble (entryParts name (Entries.ofPairs es)) = body) (name : List Char)
    (key : String) (keys : List String) :
    assemble (entryParts name ((Entries.ofPairs es).nest (key :: keys))) =
      body.map ('[' :: (qualified name (keyText key) ++ furtherText keys) ++ [']', '\n'] ++ ·) := by
  -- only the innermost table has a header; on the way to it, its name grows
  induction keys generalizing name key with
  | nil =>
    rw [Entries.nest, Entries.nest, assemble_table, entryText, hbody,
      if_pos (needsHeader_ofPairs hes)]
    cases body <;> simp [blankLine, furtherText, Except.map]
  | cons key' keys ih =>
    have hname : qualified name (keyText key) ≠ [] := by
      obtain ⟨c, cs, hcs, -⟩ := exists_keyText_cons key
      rw [qualified, hcs]
      split_ifs <;> simp
    rw [Entries.nest, assemble_table, entryText, ih, qualified_of_ne_nil hname, furtherText_cons]
    cases body <;> simp [blankLine, needsHeader, Entries.nest, Group.of, Except.map]

/-- **The document of a table inside of others** is its header and its lines. -/
theorem write_nest (hes : ∀ e ∈ es, IsAtom e.2) (key : String) (keys : List String) :
    write ((Entries.ofPairs es).nest (key :: keys)) =
      .ok (String.ofList (headerText key keys ++ es.flatMap lineText)) := by
  rw [write, assemble_nest (fun e he => (hes e he).isFlat) (assemble_ofPairs hes)]
  simp [headerText, nameText, qualified, Except.map]

/-- **There is no document** if one of the integers has too many digits. -/
theorem write_nest_error (hes : ∀ e ∈ es, IsFlat e.2) (hlong : ∃ e ∈ es, ¬IsAtom e.2)
    (key : String) (keys : List String) :
    write ((Entries.ofPairs es).nest (key :: keys)) = .error .tooManyDigits := by
  rw [write, assemble_nest hes (assemble_ofPairs_error hes hlong)]
  rfl

/-! ### Reading -/

/-- What a table says of a key for the first time comes last. -/
theorem Table.alter_of_notMem {key : String} {table : Table} (h : key ∉ table.map Prod.fst)
    (change : Option Item → Except Redefinition Item) :
    Table.alter key change table = (change none).map fun item => table ++ [(key, item)] := by
  induction table with
  | nil =>
    rw [Table.alter]
    cases change none <;> rfl
  | cons e table ih =>
    rw [List.map_cons, List.mem_cons, not_or] at h
    rw [Table.alter, if_neg (Ne.symm h.1), ih h.2]
    cases change none <;> rfl

theorem Table.add_of_notMem {key : String} {table : Table} (h : key ∉ table.map Prod.fst)
    (item : Item) : table.add .second key item = .ok (table ++ [(key, item)]) := by
  rw [Table.add, Table.addAll, Table.alter_of_notMem h]
  rfl

/-- The items of a table of values. -/
def valueItems (es : List (String × Value)) : Table :=
  es.map fun e => (e.1, .value e.2)

theorem itemEntries_valueItems (es : List (String × Value)) :
    itemEntries (valueItems es) = Entries.ofPairs es := by
  induction es with
  | nil => rfl
  | cons e es ih =>
    rw [valueItems, List.map_cons, itemEntries, ← valueItems, ih]
    rfl

/-- The items on the way to a table are the tables around it. -/
theorem itemEntries_under (key : String) (keys : List String) (table : Table) :
    itemEntries [(key, .under .implied keys (.table .header table))] =
      Entries.nest (itemEntries table) (key :: keys) := by
  induction keys generalizing key with
  | nil => rfl
  | cons key' keys ih =>
    rw [itemEntries, Entries.nest, ← ih]
    rfl

namespace Reader

/-- A statement that is read changes the draft, and the document goes on behind its line. -/
theorem run_document_succ {line rest rest' : List Char} {draft draft' : Draft} {s : Statement}
    (hne : line ≠ []) (hspace : skipSpace.run line = .ok ((), line))
    (hstatement : (statement .second).run line = .ok (s, rest))
    (hdraft : draft.apply .second s = .ok draft')
    (hend : (endOfLine s).run rest = .ok ((), rest')) (count : ℕ) :
    (document .second (count + 1) draft).run line =
      (document .second count draft').run rest' := by
  simp [document, hspace, hne, hstatement, hdraft, hend]

/-- A line adds its entry to the innermost section. -/
theorem run_document_line {e : String × Value} (he : IsAtom e.2) {s : Section}
    (hkey : e.1 ∉ s.entries.map Prod.fst) (count : ℕ) (root : Table) (outer : List Section)
    (rest : List Char) :
    (document .second (count + 1) ⟨root, s :: outer⟩).run (lineText e ++ rest) =
      (document .second count
        ⟨root, { s with entries := s.entries ++ [(e.1, .value e.2)] } :: outer⟩).run rest := by
  have hline : lineText e ++ rest =
      keyText e.1 ++ ([' ', '=', ' '] ++ atomText e.2 ++ '\n' :: rest) := by
    simp [lineText]
  have hspace : skipSpace.run (lineText e ++ rest) = .ok ((), lineText e ++ rest) := by
    rw [hline]
    exact run_skipSpace_keyText _ _
  have hdraft : Draft.apply .second ⟨root, s :: outer⟩ (.entry e.1 [] e.2) =
      .ok ⟨root, { s with entries := s.entries ++ [(e.1, .value e.2)] } :: outer⟩ := by
    rw [Draft.apply, Draft.add, Section.add, Item.under, List.foldr_nil,
      Table.add_of_notMem hkey]
    rfl
  exact run_document_succ (by simp [lineText]) hspace (run_statement_line he rest) hdraft rfl count

/-- **The lines behind a header are read back**, as what the section says. -/
theorem run_document_lines (hes : ∀ e ∈ es, IsAtom e.2) {s : Section}
    (hkeys : (s.entries.map Prod.fst ++ es.map Prod.fst).Nodup) {count : ℕ}
    (hcount : es.length < count) (root : Table) (outer : List Section) :
    (document .second count ⟨root, s :: outer⟩).run (es.flatMap lineText) =
      .ok (⟨root, { s with entries := s.entries ++ valueItems es } :: outer⟩, []) := by
  induction es generalizing s count with
  | nil =>
    obtain ⟨count, rfl⟩ := Nat.exists_eq_succ_of_ne_zero (Nat.ne_zero_of_lt hcount)
    simp [document, valueItems, skipSpace, withoutSpace]
    rfl
  | cons e es ih =>
    obtain ⟨count, rfl⟩ := Nat.exists_eq_succ_of_ne_zero (Nat.ne_zero_of_lt hcount)
    obtain ⟨he, hes⟩ := List.forall_mem_cons.mp hes
    have hkey : e.1 ∉ s.entries.map Prod.fst := by
      intro hmem
      exact (List.nodup_append.mp hkeys).2.2 _ hmem _ List.mem_cons_self rfl
    -- the key moves from the lines that are left to the section
    rw [List.flatMap_cons, run_document_line he hkey,
      ih hes (by simpa using hkeys) (Nat.lt_of_succ_lt_succ hcount)]
    simp [valueItems]

end Reader

theorem length_le_flatMap_lineText (es : List (String × Value)) :
    es.length ≤ (es.flatMap lineText).length := by
  induction es with
  | nil => exact Nat.le_refl 0
  | cons e es ih =>
    simp only [List.flatMap_cons, List.length_append, List.length_cons, lineText]
    omega

/-- **A document of one section is read back.** -/
theorem read_section (hes : ∀ e ∈ es, IsAtom e.2) (hkeys : (es.map Prod.fst).Nodup) (key : String)
    (keys : List String) :
    read .second (headerText key keys ++ es.flatMap lineText) =
      .ok ((Entries.ofPairs es).nest (key :: keys)) := by
  have hspace : Reader.skipSpace.run (headerText key keys ++ es.flatMap lineText) =
      .ok ((), headerText key keys ++ es.flatMap lineText) :=
    Reader.run_skipSpace (by decide) (by decide) (by decide) _
  have hdraft : Draft.apply .second {} (.header false key keys) =
      .ok ⟨[], [{ name := key :: keys, key, keys, earlier := none }]⟩ := rfl
  have hheader := Reader.run_document_succ (by simp [headerText]) hspace
    (Reader.run_statement_header key keys _) hdraft (Reader.run_endOfLine_header key keys _)
    (headerText key keys ++ es.flatMap lineText).length
  have hcount : es.length < (headerText key keys ++ es.flatMap lineText).length := by
    have := length_le_flatMap_lineText es
    rw [List.length_append, headerText]
    simp only [List.cons_append, List.length_cons]
    omega
  rw [Reader.run_document_lines hes (by simpa using hkeys) hcount] at hheader
  rw [read, hheader, Attempt.ok_bind]
  have hleave : Draft.leave .second (fun _ => false) []
      none [⟨key :: keys, key, keys, none, valueItems es⟩] =
      .ok ⟨[(key, .under .implied keys (.table .header (valueItems es)))], []⟩ := by
    rw [Draft.leave]
    simp [Draft.leave, Draft.add, Section.item, Table.add_of_notMem]
    rfl
  -- at the end of the document the section is closed
  change (do
    let draft ← Draft.leave .second (fun _ => false) []
      none [⟨key :: keys, key, keys, none, valueItems es⟩]
    return draft.root.toEntries : Except ReadError Entries) = _
  rw [hleave, ← itemEntries_valueItems, ← itemEntries_under]
  rfl

/-! ### Nulls -/

/-- There are no nulls in a table of such values, and none in the tables around it. -/
theorem entriesWithoutNulls_nest (hes : ∀ e ∈ es, isKept e.2 = true)
    (hkeys : (es.map Prod.fst).Nodup) (keys : List String) :
    Value.entriesWithoutNulls ((Entries.ofPairs es).nest keys) =
      pure ((Entries.ofPairs es).nest keys) := by
  induction keys with
  | nil =>
    refine Value.entriesWithoutNulls_ofPairs hkeys fun e he => ?_
    have hkept := hes e he
    cases hvalue : e.2 with
    | null | map | list => rw [hvalue] at hkept; cases hkept
    | _ => exact ⟨by rintro ⟨⟩, rfl⟩
  | cons key keys ih =>
    rw [Entries.nest, Value.entriesWithoutNulls_cons (by rintro ⟨⟩), Value.withoutNulls, ih]
    rfl

/-! ### Line breaks -/

/-- What is written holds nothing that is forbidden except the ends of its lines. -/
theorem eq_of_isForbidden (hes : ∀ e ∈ es, IsAtom e.2) (key : String) (keys : List String)
    {c : Char} (hc : c ∈ headerText key keys ++ es.flatMap lineText)
    (h : isForbidden c = true) : c = '\n' := by
  have hkey : ∀ key, c ∉ keyText key := fun key hmem => by
    simp [isForbidden_of_mem_keyText hmem] at h
  have hmark : ∀ d, isForbidden d = false → c ≠ d := by
    rintro d hd rfl
    simp [hd] at h
  rcases List.mem_append.mp hc with hc | hc
  · simp only [headerText, nameText, furtherText, List.cons_append, List.mem_cons, List.mem_append,
      List.mem_flatMap, List.not_mem_nil, or_false] at hc
    rcases hc with hc | (hc | ⟨key, -, hc | hc⟩) | hc | hc
    · exact absurd hc (hmark _ (by decide))
    · exact absurd hc (hkey _)
    · exact absurd hc (hmark _ (by decide))
    · exact absurd hc (hkey _)
    · exact absurd hc (hmark _ (by decide))
    · exact hc
  · obtain ⟨e, he, hc⟩ := List.mem_flatMap.mp hc
    simp only [lineText, List.mem_append, List.mem_cons, List.not_mem_nil, or_false] at hc
    rcases hc with ((hc | hc | hc | hc) | hc) | hc
    · exact absurd hc (hkey _)
    · exact absurd hc (hmark _ (by decide))
    · exact absurd hc (hmark _ (by decide))
    · exact absurd hc (hmark _ (by decide))
    · simp [(hes e he).isForbidden_of_mem hc] at h
    · exact hc

/-! ### Libraries -/

/-- **What is asked of a library**, of a table of texts and integers with different keys that stands
inside of other tables. -/
structure Library.Restores (lib : Library) : Prop where
  /-- If the integers have texts, then so has the table, its lines end with line feeds, and what is
  read from it is the table again. -/
  restored {es : List (String × Value)} (hes : ∀ e ∈ es, IsAtom e.2)
    (hkeys : (es.map Prod.fst).Nodup) (key : String) (keys : List String) :
    ∃ text, lib.write ((Entries.ofPairs es).nest (key :: keys)) = .ok text ∧
      '\r' ∉ text.toList ∧ lib.read text.toList = .ok ((Entries.ofPairs es).nest (key :: keys))
  /-- If one of the integers has no text, then neither has the table. -/
  refused {es : List (String × Value)} (hes : ∀ e ∈ es, IsFlat e.2)
    (hkeys : (es.map Prod.fst).Nodup) (hlong : ∃ e ∈ es, ¬IsAtom e.2) (key : String)
    (keys : List String) :
    lib.write ((Entries.ofPairs es).nest (key :: keys)) = .error .tooManyDigits

/-- **The library that runs restores such tables.** -/
theorem Library.restores_standard : Library.standard.Restores where
  restored {es} hes hkeys key keys := by
    refine ⟨String.ofList (headerText key keys ++ es.flatMap lineText), write_nest hes key keys,
      ?_, ?_⟩
    · rw [String.toList_ofList]
      exact fun h => absurd (eq_of_isForbidden hes key keys h (by decide)) (by decide)
    · rw [String.toList_ofList]
      change (Toml.read .second (headerText key keys ++ es.flatMap lineText)).mapError _ = _
      rw [read_section hes hkeys]
      rfl
  refused hes _ hlong key keys := write_nest_error hes hlong key keys

end Toml

/-- A table of texts and integers has no nulls, so what is written for it is what the library writes
for it. -/
theorem outcome_toToml_nest (lib : Toml.Library) {es : List (String × Value)}
    (hes : ∀ e ∈ es, Toml.IsFlat e.2) (hkeys : (es.map Prod.fst).Nodup) (keys : List String) :
    (((Entries.ofPairs es).nest keys).toToml lib).outcome =
      lib.write ((Entries.ofPairs es).nest keys) := by
  rw [Entries.toToml, Entries.dropNulls,
    Toml.entriesWithoutNulls_nest (fun e he => (hes e he).isKept) hkeys, Attempt.pure_bind,
    Attempt.outcome_ofExcept]

end Hocon
