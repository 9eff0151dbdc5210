import Hocon.Proofs.Listing
import Hocon.Proofs.OptionFile

/-!
# What is left without the nulls

Before a table is written, the nulls in it are left out (`Hocon.Value.withoutNulls`). This module
says that they all are, and that nothing else is touched.

The walk that does this may fail, at a key that has no text, and it leaves records. What it ends
with if it does not fail is written down without either (`Hocon.Value.stripped`), and both are
joined to it at the end: the outcome (`Hocon.Value.endsStripped`,
`Hocon.Value.HasTextKeys.outcome_withoutNulls`) and the log
(`Hocon.Value.HasTextKeys.log_withoutNulls`).

The one thing to know is how "nothing else" is said: by the marks of a value
(`Hocon.Value.listing`). Leaving out the nulls is a `filter` of them.

| what is said of what is left | of which values | theorem |
|---|---|---|
| nothing in it is null any more | all | `Hocon.Value.not_within_null` |
| its maps have different texts as keys | all | `Hocon.Value.hasTextKeys_stripped` |
| its marks are those that are no null | with text keys | `Hocon.Value.listing_eq_filter_iff` |
| it is the same just if nothing was null | with text keys | `Hocon.Value.stripped_eq_self_iff` |

A key that is no text turns into one, and may then meet another key, so the last two ask for texts
as keys. The first two do not, and by them a second pass has nothing to do.
-/

namespace Hocon

namespace Value

/-! ### Values with text keys -/

/-- **A value of maps, lists and leaves** in which the keys of a map are different texts. -/
inductive HasTextKeys : Value → Prop
  /-- A map of such values. -/
  | map {es : List (String × Value)} (nodup : (es.map Prod.fst).Nodup)
      (values : ∀ e ∈ es, HasTextKeys e.2) : HasTextKeys (map (Entries.ofPairs es))
  /-- A list of such values. -/
  | list {items : List Value} (items_hasTextKeys : ∀ v ∈ items, HasTextKeys v) :
      HasTextKeys (list items)
  /-- Anything else. -/
  | leaf {v : Value} (isLeaf : v.isLeaf = true) : HasTextKeys v

/-! ### What is left -/

mutual

/-- **What is left of a value**, if the keys that stay all have a text. -/
def stripped : Value → Value
  | map entries => map (strippedEntries entries)
  | list items => list (strippedItems items)
  | v => v

/-- What is left of the entries of a map. -/
def strippedEntries : List (Value × Value) → Entries
  | [] => []
  | (_, null) :: rest => strippedEntries rest
  | (k, v) :: rest => Entries.addBefore (k.plain.getD "") (stripped v) (strippedEntries rest)

/-- What is left of the elements of a list. -/
def strippedItems : List Value → List Value
  | [] => []
  | null :: rest => strippedItems rest
  | v :: rest => stripped v :: strippedItems rest

end

/-- What is left of the value of an entry or of an element of a list: nothing if it is null. -/
def kept? : Value → Option Value
  | null => none
  | v => some v.stripped

theorem kept?_eq_some_iff {v w : Value} : v.kept? = some w ↔ v ≠ .null ∧ v.stripped = w := by
  cases v <;> simp [kept?]

theorem strippedEntries_cons {v : Value} (hv : v ≠ null) (k : Value) (rest : Entries) :
    strippedEntries ((k, v) :: rest) =
      Entries.addBefore (k.plain.getD "") v.stripped (strippedEntries rest) := by
  cases v with
  | null => exact absurd rfl hv
  | _ => rfl

theorem strippedItems_cons {v : Value} (hv : v ≠ null) (rest : List Value) :
    strippedItems (v :: rest) = v.stripped :: strippedItems rest := by
  cases v with
  | null => exact absurd rfl hv
  | _ => rfl

theorem stripped_of_isLeaf {v : Value} (h : v.isLeaf = true) : v.stripped = v := by
  cases v with
  | map | list => cases h
  | _ => rfl

/-- Only null itself is left as null. -/
theorem stripped_eq_null_iff {v : Value} : v.stripped = null ↔ v = null := by
  cases v <;> simp [stripped]

/-- **What is left of a table with different keys** are the entries that are not null, in order and
under their keys. -/
theorem strippedEntries_ofPairs {es : List (String × Value)} (hkeys : (es.map Prod.fst).Nodup) :
    strippedEntries (Entries.ofPairs es) =
      Entries.ofPairs (es.filterMap fun e => e.2.kept?.map fun v => (e.1, v)) := by
  induction es with
  | nil => rfl
  | cons e es ih =>
    obtain ⟨key, v⟩ := e
    rw [List.map_cons, List.nodup_cons] at hkeys
    by_cases hv : v = null
    · subst hv
      exact ih hkeys.2
    · have hcons : strippedEntries (Entries.ofPairs ((key, v) :: es)) =
          Entries.addBefore key v.stripped (strippedEntries (Entries.ofPairs es)) :=
        strippedEntries_cons hv _ _
      have hkept : v.kept? = some v.stripped := kept?_eq_some_iff.mpr ⟨hv, rfl⟩
      -- what is left of the later entries has no new keys
      have hkey : key ∉ (es.filterMap fun e => e.2.kept?.map fun v => (e.1, v)).map Prod.fst := by
        simp only [List.mem_map, List.mem_filterMap, Option.map_eq_some_iff]
        rintro ⟨e, ⟨e', he', w, -, rfl⟩, hfst⟩
        exact hkeys.1 (List.mem_map.mpr ⟨e', he', hfst⟩)
      rw [hcons, ih hkeys.2, Entries.addBefore, Entries.lookup_ofPairs_of_notMem hkey,
        List.filterMap_cons, hkept]
      rfl

theorem strippedItems_eq (items : List Value) : strippedItems items = items.filterMap kept? := by
  induction items with
  | nil => rfl
  | cons v rest ih =>
    cases v with
    | null => exact ih
    | _ => simp [strippedItems, kept?, ih]

/-- To add an entry in front of others with different keys gives entries with different keys, and
brings in no value but its own. -/
theorem exists_addBefore_eq {ps : List (String × Value)} (hkeys : (ps.map Prod.fst).Nodup)
    (key : String) (value : Value) :
    ∃ ps' : List (String × Value),
      Entries.addBefore key value (Entries.ofPairs ps) = Entries.ofPairs ps' ∧
      (ps'.map Prod.fst).Nodup ∧ ∀ p ∈ ps', p.2 = value ∨ ∃ q ∈ ps, q.2 = p.2 := by
  rw [Entries.addBefore]
  by_cases hmem : key ∈ ps.map Prod.fst
  -- the key stands further behind as well, and it is the value there that counts
  · obtain ⟨q, hq, rfl⟩ := List.mem_map.mp hmem
    refine ⟨q :: ps.filter fun p => p.1 != q.1, ?_, ?_, fun p hp => ?_⟩
    · rw [Entries.lookup_ofPairs hkeys hq, Entries.ofPairs, Entries.ofPairs, List.filter_map]
      rfl
    · rw [List.map_cons, List.nodup_cons]
      refine ⟨?_, hkeys.sublist (List.filter_sublist.map Prod.fst)⟩
      simp
    · rcases List.mem_cons.mp hp with rfl | hp
      · exact Or.inr ⟨p, hq, rfl⟩
      · exact Or.inr ⟨p, List.mem_of_mem_filter hp, rfl⟩
  · refine ⟨(key, value) :: ps, ?_, List.nodup_cons.mpr ⟨hmem, hkeys⟩, fun p hp => ?_⟩
    · rw [Entries.lookup_ofPairs_of_notMem hmem]
      rfl
    · rcases List.mem_cons.mp hp with rfl | hp
      · exact Or.inl rfl
      · exact Or.inr ⟨p, hp, rfl⟩

/-- **What is left of the entries of a map**, whatever their keys: entries under different texts,
and the value of each is what is left of a value that is not null. -/
theorem exists_strippedEntries_eq (es : List (Value × Value)) :
    ∃ ps : List (String × Value), strippedEntries es = Entries.ofPairs ps ∧
      (ps.map Prod.fst).Nodup ∧ ∀ p ∈ ps, ∃ e ∈ es, e.2.kept? = some p.2 := by
  induction es with
  | nil => exact ⟨[], rfl, List.nodup_nil, by simp⟩
  | cons e es ih =>
    obtain ⟨k, v⟩ := e
    obtain ⟨ps, hps, hkeys, hvalues⟩ := ih
    by_cases hv : v = null
    · subst hv
      refine ⟨ps, hps, hkeys, fun p hp => ?_⟩
      obtain ⟨e, he, hkept⟩ := hvalues p hp
      exact ⟨e, List.mem_cons_of_mem _ he, hkept⟩
    · obtain ⟨ps', hps', hkeys', hvalues'⟩ := exists_addBefore_eq hkeys (k.plain.getD "") v.stripped
      refine ⟨ps', ?_, hkeys', fun p hp => ?_⟩
      · rw [strippedEntries_cons hv, hps, hps']
      · rcases hvalues' p hp with hvalue | ⟨q, hq, hvalue⟩
        · exact ⟨(k, v), List.mem_cons_self, kept?_eq_some_iff.mpr ⟨hv, hvalue.symm⟩⟩
        · obtain ⟨e, he, hkept⟩ := hvalues q hq
          exact ⟨e, List.mem_cons_of_mem _ he, hvalue ▸ hkept⟩

/-- A member of what is left is what is left of a member that is not null. -/
theorem exists_of_mem_members {v w : Value} (h : w ∈ v.stripped.members) :
    ∃ u ∈ v.members, u.kept? = some w := by
  induction v using induction_containers with
  | map es _ =>
    obtain ⟨ps, hps, -, hvalues⟩ := exists_strippedEntries_eq es
    rw [stripped, hps, members, Entries.ofPairs, List.map_map] at h
    obtain ⟨p, hp, rfl⟩ := List.mem_map.mp h
    obtain ⟨e, he, hkept⟩ := hvalues p hp
    exact ⟨e.2, List.mem_map_of_mem he, hkept⟩
  | list items _ =>
    rw [stripped, strippedItems_eq] at h
    exact List.mem_filterMap.mp h
  | leaf v hv =>
    rw [stripped_of_isLeaf hv, members_of_isLeaf hv] at h
    cases h

/-- **No null is left**, at any depth. -/
theorem not_within_null (v : Value) : ¬Within null v.stripped := by
  induction v using induction_members with
  | step v ih =>
    intro h
    -- a member of the result comes from a member that is not null, and so does what is in it
    cases h with
    | member hmem =>
      obtain ⟨u, -, hkept⟩ := exists_of_mem_members hmem
      obtain ⟨hne, hu⟩ := kept?_eq_some_iff.mp hkept
      exact hne (stripped_eq_null_iff.mp hu)
    | deeper hmem hwithin =>
      obtain ⟨u, hu, hkept⟩ := exists_of_mem_members hmem
      obtain ⟨-, rfl⟩ := kept?_eq_some_iff.mp hkept
      exact ih u hu hwithin

/-- **What is left has different texts as keys**, whatever the keys were. -/
theorem hasTextKeys_stripped (v : Value) : HasTextKeys v.stripped := by
  induction v using induction_containers with
  | map es ih =>
    obtain ⟨ps, hps, hkeys, hvalues⟩ := exists_strippedEntries_eq es
    rw [stripped, hps]
    refine .map hkeys fun p hp => ?_
    obtain ⟨e, he, hkept⟩ := hvalues p hp
    rw [← (kept?_eq_some_iff.mp hkept).2]
    exact ih e he
  | list items ih =>
    rw [stripped, strippedItems_eq]
    refine .list fun w hw => ?_
    obtain ⟨u, hu, hkept⟩ := List.mem_filterMap.mp hw
    rw [← (kept?_eq_some_iff.mp hkept).2]
    exact ih u hu
  | leaf v hv =>
    rw [stripped_of_isLeaf hv]
    exact .leaf hv

/-! ### Nulls in a listing -/

/-- What is said of a value: of its marks those are left that are no null, unless it is null. -/
def Sheds (v : Value) : Prop :=
  v ≠ null → ∀ key, v.stripped.marks key = (v.marks key).filter fun m => !m.isNull

/-- Of the marks of members those are left that are no null. -/
theorem keyedMarks_kept? {us : List (Option Value × Value)} (hus : ∀ u ∈ us, u.2.Sheds) :
    keyedMarks (us.filterMap fun u => u.2.kept?.map fun v => (u.1, v)) =
      (keyedMarks us).filter fun m => !m.isNull := by
  induction us with
  | nil => rfl
  | cons u us ih =>
    obtain ⟨key, v⟩ := u
    obtain ⟨hu, hrest⟩ := List.forall_mem_cons.mp hus
    have hcons : keyedMarks ((key, v) :: us) = v.marks key ++ keyedMarks us := rfl
    -- the member is dropped on both sides, or its marks are filtered by themselves
    by_cases hv : v = null
    · subst hv
      exact ih hrest
    · rw [hcons, List.filter_append, ← ih hrest, ← hu hv,
        List.filterMap_cons_some (by rw [kept?_eq_some_iff.mpr ⟨hv, rfl⟩, Option.map_some])]
      rfl

/-- **A value with text keys sheds the marks of its nulls**, wherever it stands. -/
theorem HasTextKeys.sheds {v : Value} (h : v.HasTextKeys) : v.Sheds := by
  induction h with
  | @map es hkeys _ ih =>
    intro _ key
    have hmembers : (strippedEntries (Entries.ofPairs es)).map (fun e => (some e.1, e.2)) =
        ((Entries.ofPairs es).map fun e => (some e.1, e.2)).filterMap fun u =>
          u.2.kept?.map fun v => (u.1, v) := by
      rw [strippedEntries_ofPairs hkeys]
      simp [Entries.ofPairs, List.map_filterMap, List.filterMap_map, Function.comp_def]
    have hsheds : ∀ u ∈ (Entries.ofPairs es).map fun e => (some e.1, e.2), u.2.Sheds := by
      rw [Entries.ofPairs, List.map_map]
      exact List.forall_mem_map.mpr ih
    rw [stripped, marks_map, marks_map, hmembers, keyedMarks_kept? hsheds]
    simp [Mark.isNull]
  | @list items _ ih =>
    intro _ key
    have hmembers : (strippedItems items).map (fun v => ((none : Option Value), v)) =
        (items.map fun v => ((none : Option Value), v)).filterMap fun u =>
          u.2.kept?.map fun v => (u.1, v) := by
      simp [strippedItems_eq, List.map_filterMap, List.filterMap_map]
    rw [stripped, marks_list, marks_list, hmembers,
      keyedMarks_kept? (List.forall_mem_map.mpr ih)]
    simp [Mark.isNull]
  | @leaf v hleaf =>
    intro hne key
    rw [stripped_of_isLeaf hleaf, marks_of_isLeaf hleaf]
    cases v with
    | null => exact absurd rfl hne
    | _ => rfl

/-- **The marks that are left are those that are no null**, and they say what is left. -/
theorem listing_eq_filter_iff {v w : Value} (hv : v.HasTextKeys) (hne : v ≠ null) :
    w.listing = v.listing.filter (fun m => !m.isNull) ↔ w = v.stripped := by
  have hmarks : v.stripped.listing = v.listing.filter fun m => !m.isNull := hv.sheds hne none
  rw [← hmarks]
  exact ⟨listing_injective, congrArg listing⟩

/-- **A value stays as it is just if there is no null in it.** -/
theorem stripped_eq_self_iff {v : Value} (hv : v.HasTextKeys) :
    v.stripped = v ↔ ¬Within null v := by
  constructor
  · intro h
    rw [← h]
    exact not_within_null v
  · intro h
    by_cases hne : v = null
    · subst hne
      rfl
    · refine ((listing_eq_filter_iff hv hne).mp ?_).symm
      refine (List.filter_eq_self.mpr fun m hm => ?_).symm
      rw [isNull_of_not_within h hne hm, Bool.not_false]

/-! ### The walk -/

/-- The walk through the entries of a map, at one that is not null. -/
theorem outcome_entriesWithoutNulls_cons {v : Value} (hv : v ≠ null) (k : Value) (rest : Entries) :
    (entriesWithoutNulls ((k, v) :: rest)).outcome = (do
      let key ← k.spelling
      let w ← v.withoutNulls.outcome
      return Entries.addBefore key w (← (entriesWithoutNulls rest).outcome)) := by
  cases v with
  | null => exact absurd rfl hv
  | _ => simp only [entriesWithoutNulls, Attempt.outcome_bind, Attempt.outcome_ofExcept]; rfl

/-- The walk through the elements of a list, at one that is not null. -/
theorem itemsWithoutNulls_cons {v : Value} (hv : v ≠ null) (rest : List Value) :
    itemsWithoutNulls (v :: rest) = (do
      let w ← v.withoutNulls
      return w :: (← itemsWithoutNulls rest)) := by
  cases v with
  | null => exact absurd rfl hv
  | _ => rfl

theorem outcome_itemsWithoutNulls_cons {v : Value} (hv : v ≠ null) (rest : List Value) :
    (itemsWithoutNulls (v :: rest)).outcome = (do
      let w ← v.withoutNulls.outcome
      return w :: (← (itemsWithoutNulls rest).outcome)) := by
  rw [itemsWithoutNulls_cons hv]
  simp only [Attempt.outcome_bind]
  rfl

theorem plain_getD_of_spelling {k : Value} {key : String} (h : k.spelling = .ok key) :
    k.plain.getD "" = key := by
  rw [spelling] at h
  cases hplain : k.plain with
  | none => rw [hplain] at h; cases h
  | some s => rw [hplain] at h; exact Except.ok.inj h

/-- What is said of a value: if the walk through it comes to its end, then with what is left. -/
def EndsStripped (v : Value) : Prop :=
  ∀ w, v.withoutNulls.outcome = .ok w → w = v.stripped

theorem strippedEntries_of_outcome {es : Entries} (hes : ∀ e ∈ es, e.2.EndsStripped)
    {ps : Entries} (h : (entriesWithoutNulls es).outcome = .ok ps) : ps = strippedEntries es := by
  induction es generalizing ps with
  | nil => exact (Except.ok.inj h).symm
  | cons e es ih =>
    obtain ⟨k, v⟩ := e
    obtain ⟨hv, hrest⟩ := List.forall_mem_cons.mp hes
    by_cases hnull : v = null
    · subst hnull
      rw [entriesWithoutNulls, Attempt.outcome_bind] at h
      exact ih hrest h
    -- the key has a text, and the walks through the value and the later entries come to their ends
    · rw [outcome_entriesWithoutNulls_cons hnull] at h
      obtain ⟨key, hkey, h⟩ := Attempt.exists_of_bind_eq_ok h
      obtain ⟨w, hw, h⟩ := Attempt.exists_of_bind_eq_ok h
      obtain ⟨qs, hqs, h⟩ := Attempt.exists_of_bind_eq_ok h
      rw [strippedEntries_cons hnull, plain_getD_of_spelling hkey, ← hv w hw, ← ih hrest hqs]
      exact (Except.ok.inj h).symm

theorem strippedItems_of_outcome {items : List Value} (hitems : ∀ v ∈ items, v.EndsStripped)
    {ws : List Value} (h : (itemsWithoutNulls items).outcome = .ok ws) :
    ws = strippedItems items := by
  induction items generalizing ws with
  | nil => exact (Except.ok.inj h).symm
  | cons v items ih =>
    obtain ⟨hv, hrest⟩ := List.forall_mem_cons.mp hitems
    by_cases hnull : v = null
    · subst hnull
      exact ih hrest h
    · rw [outcome_itemsWithoutNulls_cons hnull] at h
      obtain ⟨w, hw, h⟩ := Attempt.exists_of_bind_eq_ok h
      obtain ⟨us, hus, h⟩ := Attempt.exists_of_bind_eq_ok h
      rw [strippedItems_cons hnull, ← hv w hw, ← ih hrest hus]
      exact (Except.ok.inj h).symm

theorem withoutNulls_of_isLeaf {v : Value} (h : v.isLeaf = true) : v.withoutNulls = pure v := by
  cases v with
  | map | list => cases h
  | _ => rfl

/-- **If the walk comes to its end, then with what is left.** -/
theorem endsStripped (v : Value) : v.EndsStripped := by
  induction v using induction_containers with
  | map es ih =>
    intro w h
    rw [withoutNulls, Attempt.outcome_bind] at h
    obtain ⟨ps, hps, h⟩ := Attempt.exists_of_bind_eq_ok h
    rw [stripped, ← strippedEntries_of_outcome ih hps]
    exact (Except.ok.inj h).symm
  | list items ih =>
    intro w h
    rw [withoutNulls, Attempt.outcome_bind] at h
    obtain ⟨ws, hws, h⟩ := Attempt.exists_of_bind_eq_ok h
    rw [stripped, ← strippedItems_of_outcome ih hws]
    exact (Except.ok.inj h).symm
  | leaf v hv =>
    intro w h
    rw [withoutNulls_of_isLeaf hv] at h
    rw [stripped_of_isLeaf hv]
    exact (Except.ok.inj h).symm

theorem outcome_entriesWithoutNulls {es : List (String × Value)}
    (hes : ∀ e ∈ es, e.2.withoutNulls.outcome = .ok e.2.stripped) :
    (entriesWithoutNulls (Entries.ofPairs es)).outcome =
      .ok (strippedEntries (Entries.ofPairs es)) := by
  induction es with
  | nil => rfl
  | cons e es ih =>
    obtain ⟨key, v⟩ := e
    rw [List.forall_mem_cons] at hes
    have hrest := ih hes.2
    change (entriesWithoutNulls ((.str key, v) :: Entries.ofPairs es)).outcome =
      .ok (strippedEntries ((.str key, v) :: Entries.ofPairs es))
    by_cases hnull : v = null
    · subst hnull
      rw [entriesWithoutNulls, Attempt.outcome_bind]
      exact hrest
    · rw [outcome_entriesWithoutNulls_cons hnull, hes.1, hrest, strippedEntries_cons hnull]
      rfl

theorem outcome_itemsWithoutNulls {items : List Value}
    (hitems : ∀ v ∈ items, v.withoutNulls.outcome = .ok v.stripped) :
    (itemsWithoutNulls items).outcome = .ok (strippedItems items) := by
  induction items with
  | nil => rfl
  | cons v items ih =>
    rw [List.forall_mem_cons] at hitems
    have hrest := ih hitems.2
    by_cases hnull : v = null
    · subst hnull
      exact hrest
    · rw [outcome_itemsWithoutNulls_cons hnull, hitems.1, hrest, strippedItems_cons hnull]
      rfl

/-- **The walk through a value with text keys comes to its end.** -/
theorem HasTextKeys.outcome_withoutNulls {v : Value} (h : v.HasTextKeys) :
    v.withoutNulls.outcome = .ok v.stripped := by
  induction h with
  | map _ _ ih =>
    rw [withoutNulls, Attempt.outcome_bind, outcome_entriesWithoutNulls ih]
    rfl
  | list _ ih =>
    rw [withoutNulls, Attempt.outcome_bind, outcome_itemsWithoutNulls ih]
    rfl
  | leaf hleaf =>
    rw [withoutNulls_of_isLeaf hleaf, stripped_of_isLeaf hleaf]
    rfl

/-! ### What is logged -/

/-- The record of a null that stands under a key with a text. -/
def Mark.nullRecord? : Mark → Option Log.Record
  | .leaf (some k) .null => k.plain.map fun key =>
    { level := Log.debug, source := .writing,
      message := "Ignoring `None` entry in Mapping for key " ++ key }
  | _ => none

theorem Mark.nullRecord?_eq_none {m : Mark} (h : m.isNull = false) : m.nullRecord? = none := by
  cases m with
  | leaf key v =>
    cases v with
    | null => cases h
    | _ => cases key <;> rfl
  | _ => rfl

/-- What is said of a value: the records of the walk are those of the nulls among its marks. A null
itself is recorded where its key is known. -/
def RecordsNulls (v : Value) : Prop :=
  ∀ key, (v = null → key = none) →
    v.withoutNulls.log = (v.marks key).filterMap Mark.nullRecord?

theorem log_entriesWithoutNulls {es : List (String × Value)}
    (hkeys : ∀ e ∈ es, e.2.HasTextKeys) (hes : ∀ e ∈ es, e.2.RecordsNulls) :
    (entriesWithoutNulls (Entries.ofPairs es)).log =
      (entryMarks (Entries.ofPairs es)).filterMap Mark.nullRecord? := by
  induction es with
  | nil => rfl
  | cons e es ih =>
    obtain ⟨key, v⟩ := e
    rw [List.forall_mem_cons] at hkeys hes
    have hrest := ih hkeys.2 hes.2
    change (entriesWithoutNulls ((.str key, v) :: Entries.ofPairs es)).log =
      (entryMarks ((.str key, v) :: Entries.ofPairs es)).filterMap Mark.nullRecord?
    rw [entryMarks, List.filterMap_append, ← hrest]
    by_cases hnull : v = null
    · subst hnull
      rw [entriesWithoutNulls, recordNull, Attempt.log_bind (Attempt.outcome_recordIf ..),
        Attempt.log_recordIf]
      rfl
    · rw [entriesWithoutNulls_cons hnull, Attempt.log_bind hkeys.1.outcome_withoutNulls,
        hes.1 (some (.str key)) (absurd · hnull)]
      congr 1
      rw [Attempt.log_bind (outcome_entriesWithoutNulls fun e he =>
        (hkeys.2 e he).outcome_withoutNulls)]
      exact List.append_nil _

theorem log_itemsWithoutNulls {items : List Value} (hkeys : ∀ v ∈ items, v.HasTextKeys)
    (hitems : ∀ v ∈ items, v.RecordsNulls) :
    (itemsWithoutNulls items).log = (itemMarks items).filterMap Mark.nullRecord? := by
  induction items with
  | nil => rfl
  | cons v items ih =>
    rw [List.forall_mem_cons] at hkeys hitems
    have hrest := ih hkeys.2 hitems.2
    rw [itemMarks, List.filterMap_append, ← hrest, ← hitems.1 none fun _ => rfl]
    by_cases hnull : v = null
    · subst hnull
      rfl
    · rw [itemsWithoutNulls_cons hnull, Attempt.log_bind hkeys.1.outcome_withoutNulls]
      congr 1
      rw [Attempt.log_bind (outcome_itemsWithoutNulls fun v hv =>
        (hkeys.2 v hv).outcome_withoutNulls)]
      exact List.append_nil _

/-- **Each null entry that is left out is logged**, with its key and in order. A null element of a
list is not. -/
theorem HasTextKeys.log_withoutNulls {v : Value} (h : v.HasTextKeys) : v.RecordsNulls := by
  induction h with
  | map _ hkeys ih =>
    intro key _
    rw [withoutNulls, Attempt.log_bind (outcome_entriesWithoutNulls fun e he =>
      (hkeys e he).outcome_withoutNulls), log_entriesWithoutNulls hkeys ih, marks,
      List.cons_append, List.filterMap_cons_none rfl, List.filterMap_append]
    rfl
  | list hkeys ih =>
    intro key _
    rw [withoutNulls, Attempt.log_bind (outcome_itemsWithoutNulls fun v hv =>
      (hkeys v hv).outcome_withoutNulls), log_itemsWithoutNulls hkeys ih, marks,
      List.cons_append, List.filterMap_cons_none rfl, List.filterMap_append]
    rfl
  | @leaf v hleaf =>
    intro key hkey
    rw [withoutNulls_of_isLeaf hleaf, marks_of_isLeaf hleaf]
    cases v with
    | map | list => cases hleaf
    | null =>
      rw [hkey rfl]
      rfl
    | _ => cases key <;> rfl

/-- **A value without nulls is returned as it is**, and nothing is logged. -/
theorem HasTextKeys.withoutNulls_eq_pure {v : Value} (h : v.HasTextKeys)
    (hnull : ¬Within null v) : v.withoutNulls = pure v := by
  refine Attempt.ext ?_ ?_
  · rw [h.outcome_withoutNulls, (stripped_eq_self_iff h).mpr hnull]
    rfl
  · by_cases hne : v = null
    · subst hne
      rfl
    · rw [h.log_withoutNulls none fun _ => rfl, Attempt.log_pure, List.filterMap_eq_nil_iff]
      exact fun m hm => Mark.nullRecord?_eq_none (isNull_of_not_within hnull hne hm)

end Value

/-! ### Tables -/

/-- The table form of options has no null in it, so nothing is left out and nothing is logged. -/
theorem Options.dropNulls_toTable (o : Options) : o.toTable.dropNulls = pure o.toTable := by
  rw [toTable_eq]
  exact Toml.entriesWithoutNulls_nest (fun _ he => (isFlat_of_mem_pairs he).isKept) o.nodup_pairs _

theorem Options.eq_toTable_of_writeTable {o : Options} {table : Entries}
    (h : o.writeTable = .ok table) : table = o.toTable := by
  rw [writeTable] at h
  split at h
  · cases h
  · exact (Except.ok.inj h).symm

/-- **The nulls are left out, and nothing else.** For every value from which the nulls are left out,

1. no entry of a map and no element of a list is null in the result, at any depth;
2. the result is null just if the value is;
3. a second pass changes nothing, and records nothing.

For every value of maps, lists and leaves in which the keys of a map are different texts, there is a
result, and

4. unless the value is null, the result is the one value whose listing is that of the value without
   the marks of its nulls, so all else is in its place;
5. the value comes back as it is just if nothing in it is null.

For all options that have a table form,

6. the table comes back and nothing is recorded, so what is written for the table is what the
   library writes for all of it. -/
theorem Value.withoutNulls_exact :
    (∀ v w : Value, v.withoutNulls.outcome = .ok w →
      ¬Within null w ∧ (w = null ↔ v = null) ∧ w.withoutNulls = pure w) ∧
    (∀ v : Value, v.HasTextKeys → ∃ w, v.withoutNulls.outcome = .ok w ∧
      (v ≠ null → ∀ u : Value, u.listing = v.listing.filter (fun m => !m.isNull) ↔ u = w) ∧
      (w = v ↔ ¬Within null v)) ∧
    ∀ (o : Options) (table : Entries), o.writeTable = .ok table →
      table.dropNulls = pure table ∧
        ∀ lib : Toml.Library, (table.toToml lib).outcome = lib.write table := by
  refine ⟨fun v w h => ?_, fun v hv => ?_, fun o table htable => ?_⟩
  · rw [v.endsStripped w h]
    exact ⟨not_within_null v, stripped_eq_null_iff,
      (hasTextKeys_stripped v).withoutNulls_eq_pure (not_within_null v)⟩
  · exact ⟨v.stripped, hv.outcome_withoutNulls, fun hne u => listing_eq_filter_iff hv hne,
      stripped_eq_self_iff hv⟩
  · obtain rfl := Options.eq_toTable_of_writeTable htable
    refine ⟨o.dropNulls_toTable, fun lib => ?_⟩
    rw [Entries.toToml, o.dropNulls_toTable, Attempt.pure_bind, Attempt.outcome_ofExcept]

/-- Data with nulls in a map, in a list, in a list of a list and in a tuple. -/
def nullsInData : Value :=
  .map [(.str "a", .null), (.str "b", .list [.null, .list [.null], .map [(.str "c", .null)],
    .tuple [.null]]), (.str "d", .int 0)]

/-- The same data without the nulls: containers stay when they are emptied, and a tuple is one
thing. -/
def nullsOutOfData : Value :=
  .map [(.str "b", .list [.list [], .map [], .tuple [.null]]), (.str "d", .int 0)]

theorem Value.hasTextKeys_nullsInData : nullsInData.HasTextKeys := by
  have hempty : HasTextKeys (.map [(.str "c", .null)]) :=
    @HasTextKeys.map [("c", .null)] (by decide) (by simpa using .leaf rfl)
  have hlist : HasTextKeys (.list [.null, .list [.null], .map [(.str "c", .null)],
      .tuple [.null]]) := by
    refine .list ?_
    simp only [List.forall_mem_cons]
    exact ⟨.leaf rfl, .list (by simpa using .leaf rfl), hempty, .leaf rfl, by simp⟩
  refine @HasTextKeys.map [("a", .null), ("b", .list [.null, .list [.null],
    .map [(.str "c", .null)], .tuple [.null]]), ("d", .int 0)] (by decide) ?_
  simp only [List.forall_mem_cons]
  exact ⟨.leaf rfl, hlist, .leaf rfl, by simp⟩

/-- Nulls at three depths are left out, and the table of options with a negative count stays as it
is. -/
theorem Value.withoutNulls_of_nullsInData :
    nullsInData.HasTextKeys ∧ nullsInData ≠ null ∧
      nullsInData.withoutNulls.outcome = .ok nullsOutOfData ∧
      ¬Within null nullsOutOfData ∧ nullsOutOfData.withoutNulls = pure nullsOutOfData ∧
      negativeIndent.writeTable = .ok negativeIndent.toTable ∧
      negativeIndent.toTable.dropNulls = pure negativeIndent.toTable := by
  obtain ⟨hall, hkeys, hoptions⟩ := withoutNulls_exact
  have hne : nullsInData ≠ null := by rintro ⟨⟩
  obtain ⟨w, hw, hlisting, -⟩ := hkeys nullsInData hasTextKeys_nullsInData
  have hout : nullsOutOfData = w := (hlisting hne nullsOutOfData).mp rfl
  obtain ⟨hnull, -, hagain⟩ := hall nullsInData w hw
  rw [← hout] at hw hnull hagain
  have hwrite : negativeIndent.writeTable = .ok negativeIndent.toTable := rfl
  exact ⟨hasTextKeys_nullsInData, hne, hw, hnull, hagain, hwrite,
    (hoptions negativeIndent _ hwrite).1⟩

end Hocon
