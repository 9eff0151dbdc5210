import Hocon.Proofs.PlainData

/-!
# Values as lists of marks

A value is written down as a list of marks (`Hocon.Value.listing`): a map and a list are opened and
closed again, anything else is a mark of its own, and each mark says where it stands, under a key or
in a list. Order, keys and nesting are all in there, so a listing belongs to one value only
(`Hocon.Value.listing_injective`), and what is done to a value can be told by what is done to its
marks.

The one thing to know is that a value is told by its marks whatever stands behind them
(`Hocon.Value.IsTold`). A member of a map or a list is followed by the next member or by the end,
and no value begins with an end (`Hocon.Value.marks_append_ne`), so the members are told apart one
after the other.

Nulls can be found in both ways: a value has a null in it (`Hocon.Value.Within`) if one of its marks
is that of a null, unless it is null itself (`Hocon.Value.within_null_of_isNull`).
-/

namespace Hocon

namespace Value

/-! ### What is in a value -/

/-- Whether a value is neither a map nor a list. A tuple is one thing here, whatever it holds, and
so is a node. -/
def isLeaf : Value → Bool
  | map _ | list _ => false
  | _ => true

/-- The values of the entries of a map, or the elements of a list. -/
def members : Value → List Value
  | map entries => entries.map Prod.snd
  | list items => items
  | _ => []

/-- **What is in a value, at any depth**: its members, and what is in these. -/
inductive Within (w : Value) : Value → Prop
  /-- A member. -/
  | member {v : Value} (mem : w ∈ v.members) : Within w v
  /-- What is in a member. -/
  | deeper {u v : Value} (mem : u ∈ v.members) (within : Within w u) : Within w v

/-- **Induction over maps and lists**; what is neither is one case. -/
theorem induction_containers {P : Value → Prop}
    (map : ∀ es : List (Value × Value), (∀ e ∈ es, P e.2) → P (.map es))
    (list : ∀ items : List Value, (∀ v ∈ items, P v) → P (.list items))
    (leaf : ∀ v : Value, v.isLeaf = true → P v) (v : Value) : P v := by
  induction v using induction_data with
  | map es ih => exact map es ih
  | list items ih => exact list items ih
  | tuple items _ => exact leaf _ rfl
  | other v hmap hlist _ =>
    refine leaf v ?_
    cases v with
    | map es => exact absurd rfl (hmap es)
    | list items => exact absurd rfl (hlist items)
    | _ => rfl

theorem members_of_isLeaf {v : Value} (h : v.isLeaf = true) : v.members = [] := by
  cases v with
  | map | list => cases h
  | _ => rfl

/-- Induction from the members of a value to the value. -/
theorem induction_members {P : Value → Prop} (step : ∀ v : Value, (∀ u ∈ v.members, P u) → P v)
    (v : Value) : P v := by
  induction v using induction_containers with
  | map es ih => exact step _ (List.forall_mem_map.mpr ih)
  | list items ih => exact step _ ih
  | leaf v hv =>
    refine step v fun u hu => ?_
    rw [members_of_isLeaf hv] at hu
    cases hu

/-! ### Listings -/

/-- What a listing consists of. What begins, and what stands alone, has its key with it if it is the
value of an entry, and none if it is an element of a list or the value as a whole. -/
inductive Mark where
  /-- A map begins. -/
  | opensMap (key : Option Value)
  /-- A list begins. -/
  | opensList (key : Option Value)
  /-- Something that is neither. -/
  | leaf (key : Option Value) (v : Value)
  /-- The innermost map or list that is open ends. -/
  | closes

mutual

/-- The marks of a value that stands under a key or not. -/
def marks (key : Option Value) : Value → List Mark
  | map entries => .opensMap key :: entryMarks entries ++ [.closes]
  | list items => .opensList key :: itemMarks items ++ [.closes]
  | v => [.leaf key v]

/-- The marks of the values of a map, each under its key. -/
def entryMarks : List (Value × Value) → List Mark
  | [] => []
  | (k, v) :: rest => marks (some k) v ++ entryMarks rest

/-- The marks of the elements of a list. -/
def itemMarks : List Value → List Mark
  | [] => []
  | v :: rest => marks none v ++ itemMarks rest

end

/-- **A value as a list of marks**, with all that is in it, in order. -/
def listing (v : Value) : List Mark := v.marks none

/-- The marks of values, each under its key or under none. -/
def keyedMarks (us : List (Option Value × Value)) : List Mark :=
  us.flatMap fun u => u.2.marks u.1

theorem entryMarks_eq (es : List (Value × Value)) :
    entryMarks es = keyedMarks (es.map fun e => (some e.1, e.2)) := by
  induction es with
  | nil => rfl
  | cons e es ih =>
    rw [entryMarks, ih]
    rfl

theorem itemMarks_eq (items : List Value) :
    itemMarks items = keyedMarks (items.map fun v => (none, v)) := by
  induction items with
  | nil => rfl
  | cons v rest ih =>
    rw [itemMarks, ih]
    rfl

theorem marks_map (key : Option Value) (es : List (Value × Value)) :
    (map es).marks key =
      .opensMap key :: keyedMarks (es.map fun e => (some e.1, e.2)) ++ [.closes] := by
  rw [marks, entryMarks_eq]

theorem marks_list (key : Option Value) (items : List Value) :
    (list items).marks key =
      .opensList key :: keyedMarks (items.map fun v => (none, v)) ++ [.closes] := by
  rw [marks, itemMarks_eq]

theorem marks_of_isLeaf {v : Value} (h : v.isLeaf = true) (key : Option Value) :
    v.marks key = [.leaf key v] := by
  cases v with
  | map | list => cases h
  | _ => rfl

/-! ### A listing belongs to one value -/

/-- What is said of a value: its marks tell where it ends, under which key it stands, and which
value it is, whatever comes behind them. -/
def IsTold (v : Value) : Prop :=
  ∀ (w : Value) (key key' : Option Value) (rest rest' : List Mark),
    v.marks key ++ rest = w.marks key' ++ rest' → key = key' ∧ v = w ∧ rest = rest'

/-- No value begins with the end of another. -/
theorem marks_append_ne (v : Value) (key : Option Value) (rest rest' : List Mark) :
    v.marks key ++ rest ≠ .closes :: rest' := by
  cases v <;> simp [marks]

/-- The end of a map or a list tells that there are no more members. -/
theorem eq_of_keyedMarks_append {us us' : List (Option Value × Value)} {rest rest' : List Mark}
    (hus : ∀ u ∈ us, u.2.IsTold)
    (h : keyedMarks us ++ .closes :: rest = keyedMarks us' ++ .closes :: rest') :
    us = us' ∧ rest = rest' := by
  have hcons : ∀ (u : Option Value × Value) (us : List (Option Value × Value)),
      keyedMarks (u :: us) = u.2.marks u.1 ++ keyedMarks us := fun _ _ => rfl
  induction us generalizing us' with
  | nil =>
    cases us' with
    | nil => exact ⟨rfl, (List.cons.inj h).2⟩
    | cons u' us' =>
      rw [hcons, List.append_assoc] at h
      exact absurd h.symm (marks_append_ne _ _ _ _)
  | cons u us ih =>
    obtain ⟨hu, hus⟩ := List.forall_mem_cons.mp hus
    cases us' with
    | nil =>
      rw [hcons, List.append_assoc] at h
      exact absurd h (marks_append_ne _ _ _ _)
    | cons u' us' =>
      rw [hcons, hcons, List.append_assoc, List.append_assoc] at h
      obtain ⟨hkey, hvalue, h⟩ := hu _ _ _ _ _ h
      obtain ⟨rfl, hrest⟩ := ih hus h
      exact ⟨by rw [Prod.ext hkey hvalue], hrest⟩

/-- **All values are told by their marks.** -/
theorem isTold (v : Value) : v.IsTold := by
  -- what comes behind is general, because a member is followed by the next one
  induction v using induction_containers with
  | map es ih =>
    intro w key key' rest rest' h
    cases w with
    | map es' =>
      simp only [marks_map, List.cons_append, List.append_assoc, List.cons.injEq,
        Mark.opensMap.injEq] at h
      obtain ⟨hkey, h⟩ := h
      obtain ⟨hes, hrest⟩ := eq_of_keyedMarks_append (List.forall_mem_map.mpr ih) h
      have hinj : Function.Injective fun e : Value × Value => (some e.1, e.2) := by
        rintro ⟨k, v⟩ ⟨k', v'⟩ heq
        simpa using heq
      exact ⟨hkey, congrArg map (List.map_injective_iff.mpr hinj hes), hrest⟩
    | _ => simp [marks] at h
  | list items ih =>
    intro w key key' rest rest' h
    cases w with
    | list items' =>
      simp only [marks_list, List.cons_append, List.append_assoc, List.cons.injEq,
        Mark.opensList.injEq] at h
      obtain ⟨hkey, h⟩ := h
      obtain ⟨hitems, hrest⟩ := eq_of_keyedMarks_append (List.forall_mem_map.mpr ih) h
      have hinj : Function.Injective fun v : Value => ((none : Option Value), v) :=
        fun _ _ heq => (Prod.ext_iff.mp heq).2
      exact ⟨hkey, congrArg list (List.map_injective_iff.mpr hinj hitems), hrest⟩
    | _ => simp [marks] at h
  | leaf v hv =>
    intro w key key' rest rest' h
    rw [marks_of_isLeaf hv] at h
    cases w with
    | map | list => simp [marks] at h
    | _ =>
      obtain ⟨hmark, hrest⟩ := List.cons.inj h
      obtain ⟨hkey, hvalue⟩ := Mark.leaf.inj hmark
      exact ⟨hkey, hvalue, hrest⟩

/-- **A listing belongs to one value.** -/
theorem listing_injective {v w : Value} (h : v.listing = w.listing) : v = w := by
  have hmarks : v.marks none ++ [] = w.marks none ++ [] := congrArg (· ++ []) h
  exact (isTold v w none none [] [] hmarks).2.1

/-! ### Nulls in a listing -/

/-- Whether a mark is that of a null. -/
def Mark.isNull : Mark → Bool
  | .leaf _ .null => true
  | _ => false

theorem Mark.eq_null_of_isNull {key : Option Value} {v : Value}
    (h : (Mark.leaf key v).isNull = true) : v = null := by
  cases v with
  | null => rfl
  | _ => cases h

/-- The mark of a null is the mark of the value itself, or one of those of a member. -/
theorem mem_marks_cases {v : Value} {key : Option Value} {m : Mark} (hm : m ∈ v.marks key)
    (hnull : m.isNull = true) :
    m = .leaf key v ∨ ∃ u ∈ v.members, ∃ key', m ∈ u.marks key' := by
  cases v with
  | map es =>
    simp only [marks_map, keyedMarks, List.cons_append, List.mem_cons, List.mem_append,
      List.not_mem_nil, or_false, List.mem_flatMap, List.mem_map] at hm
    rcases hm with rfl | ⟨_, ⟨e, he, rfl⟩, hm⟩ | rfl
    · cases hnull
    · exact Or.inr ⟨e.2, List.mem_map_of_mem he, _, hm⟩
    · cases hnull
  | list items =>
    simp only [marks_list, keyedMarks, List.cons_append, List.mem_cons, List.mem_append,
      List.not_mem_nil, or_false, List.mem_flatMap, List.mem_map] at hm
    rcases hm with rfl | ⟨_, ⟨u, hu, rfl⟩, hm⟩ | rfl
    · cases hnull
    · exact Or.inr ⟨u, hu, _, hm⟩
    · cases hnull
  | _ => exact Or.inl (List.mem_singleton.mp hm)

/-- A mark of a null stands for a null in the value, unless all of it is null. -/
theorem within_null_of_isNull {v : Value} {key : Option Value} {m : Mark} (hm : m ∈ v.marks key)
    (hnull : m.isNull = true) (hne : v ≠ null) : Within null v := by
  induction v using induction_members generalizing key with
  | step v ih =>
    rcases mem_marks_cases hm hnull with rfl | ⟨u, hu, key', hm⟩
    · exact absurd (Mark.eq_null_of_isNull hnull) hne
    · by_cases hvalue : u = null
      · exact .member (hvalue ▸ hu)
      · exact .deeper hu (ih u hu hm hvalue)

/-- Where no null is in a value, no mark is that of a null. -/
theorem isNull_of_not_within {v : Value} (h : ¬Within null v) (hne : v ≠ null) {m : Mark}
    (hm : m ∈ v.listing) : m.isNull = false := by
  rw [← Bool.not_eq_true]
  exact fun hnull => h (within_null_of_isNull hm hnull hne)

end Value

end Hocon
