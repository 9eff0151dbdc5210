import Hocon.Proofs.Requoting
import Hocon.Tree

/-!
# Plain data and trees

Plain data is turned into a tree and back by two walks, `Hocon.Value.toNode` and
`Hocon.Value.toData`. A value is open to all sides – data may hold nodes, and a node may hold
anything – so the two are no inverses by themselves. This module says how far they are.

The one thing to know is where each walk stops. On the way to a tree it goes into maps, lists and
tuples and stops at everything else, a node included, so what decides whether there is a tree are
the *parts* of a value outside of its nodes (`Hocon.Value.dataParts`). On the way back it goes into
nodes and stops at what a scalar node holds.

| start | there and back |
|---|---|
| data whose parts all have a node form | the same data, in lists (`Hocon.Value.asData`) |
| data with a part that has none | the first one is reported, if it can be shown |
| a tree of primitive values | the tree without its comments (`Hocon.Value.uncommented`) |

The first two rows are one statement about a walk that either ends with the first part without a
node form or yields a tree (`Hocon.Value.BuildsAs`), which is proved for values, items and entries
in turn.
-/

namespace Hocon

namespace Value

/-! ### Parts of plain data -/

/-- Whether a value is primitive: the null value, a truth value, a number or a text. A number need
not be finite. -/
def isAtomic : Value → Bool
  | null | bool _ | int _ | float _ | str _ => true
  | _ => false

/-- Whether a value is of a kind that has a place in a tree. -/
def hasNodeForm : Value → Bool
  | map _ | list _ | tuple _ => true
  | v => v.isAtomic || v.isNode

mutual

/-- The values that plain data is made of, in order and each before what it holds. What a node
holds is not counted. -/
def dataParts : Value → List Value
  | map entries => map entries :: entryDataParts entries
  | list items => list items :: itemDataParts items
  | tuple items => tuple items :: itemDataParts items
  | v => [v]

/-- The parts of the items of a sequence. -/
def itemDataParts : List Value → List Value
  | [] => []
  | v :: rest => dataParts v ++ itemDataParts rest

/-- The parts of the values of a map. -/
def entryDataParts : List (Value × Value) → List Value
  | [] => []
  | (_, v) :: rest => dataParts v ++ entryDataParts rest

end

mutual

/-- **The data with lists for its tuples and the data of its nodes for these.** To read the data of
a node may fail. -/
def asData : Value → Except Failure Value
  | map entries => do return map (← entriesAsData entries)
  | list items => do return list (← itemsAsData items)
  | tuple items => do return list (← itemsAsData items)
  | v => if v.isNode then v.toData else .ok v

/-- The items of a sequence as data. -/
def itemsAsData : List Value → Except Failure (List Value)
  | [] => .ok []
  | v :: rest => do
    let data ← asData v
    return data :: (← itemsAsData rest)

/-- The values of a map as data, under the same keys. -/
def entriesAsData : List (Value × Value) → Except Failure (List (Value × Value))
  | [] => .ok []
  | (k, v) :: rest => do
    let data ← asData v
    return (k, data) :: (← entriesAsData rest)

end

/-- **Induction over plain data**: what holds of a map, a list or a tuple if it holds of what these
hold, and of whatever is none of them, holds of all values. -/
theorem induction_data {P : Value → Prop} (map : ∀ es, (∀ e ∈ es, P e.2) → P (.map es))
    (list : ∀ items, (∀ v ∈ items, P v) → P (.list items))
    (tuple : ∀ items, (∀ v ∈ items, P v) → P (.tuple items))
    (other : ∀ v : Value, (∀ es, v ≠ .map es) → (∀ items, v ≠ .list items) →
      (∀ items, v ≠ .tuple items) → P v) : ∀ v, P v
  | .map es => map es fun e _ => induction_data map list tuple other e.2
  | .list items => list items fun v _ => induction_data map list tuple other v
  | .tuple items => tuple items fun v _ => induction_data map list tuple other v
  | .null | .bool _ | .int _ | .float _ | .str _ | .bytes _ | .complex .. | .ellipsis | .set _
  | .scalarNode .. | .listNode .. | .mapNode .. => other _ (by simp) (by simp) (by simp)
termination_by v => sizeOf v
decreasing_by
  · have hmem := List.sizeOf_lt_of_mem ‹e ∈ es›
    have he : sizeOf e = 1 + sizeOf e.1 + sizeOf e.2 := rfl
    simp only [Value.map.sizeOf_spec]
    omega
  · have hmem := List.sizeOf_lt_of_mem ‹v ∈ items›
    simp only [Value.list.sizeOf_spec]
    omega
  · have hmem := List.sizeOf_lt_of_mem ‹v ∈ items›
    simp only [Value.tuple.sizeOf_spec]
    omega

/-! ### From data to a tree -/

section Building

variable {α β α' β' γ δ : Type}

/-- The first part without a node form. -/
def firstFormless (vs : List Value) : Option Value := vs.find? fun v => !v.hasNodeForm

/-- **How building a tree ends**: with the first part that has no node form, and otherwise with
something that has the given data. -/
def BuildsAs (formless : Option Value) (built : Except Halt α) (read : α → Except Failure β)
    (data : Except Failure β) : Prop :=
  match formless with
  | some w => built = .error (.ofProblem (.unsupported w none))
  | none => ∃ n, built = .ok n ∧ read n = data

/-- Two walks one after the other end with the first part of the two that has no node form. -/
theorem BuildsAs.append {formless formless' : Option Value} {built : Except Halt α}
    {read : α → Except Failure β} {data : Except Failure β} {built' : Except Halt α'}
    {read' : α' → Except Failure β'} {data' : Except Failure β'} {f : α → α' → γ}
    {g : β → β' → δ} {readJoin : γ → Except Failure δ}
    (h : BuildsAs formless built read data) (h' : BuildsAs formless' built' read' data')
    (hjoin : ∀ n n', readJoin (f n n') =
      (read n >>= fun d => read' n' >>= fun d' => .ok (g d d'))) :
    BuildsAs (formless.or formless') (built >>= fun n => built' >>= fun n' => .ok (f n n'))
      readJoin (data >>= fun d => data' >>= fun d' => .ok (g d d')) := by
  cases formless with
  | some w =>
    rw [show built = .error (.ofProblem (.unsupported w none)) from h]
    rfl
  | none =>
    obtain ⟨n, rfl, rfl⟩ := h
    cases formless' with
    | some w =>
      rw [show built' = .error (.ofProblem (.unsupported w none)) from h']
      rfl
    | none =>
      obtain ⟨n', rfl, rfl⟩ := h'
      exact ⟨f n n', rfl, hjoin n n'⟩

/-- What is made of a walk. -/
theorem BuildsAs.map {formless : Option Value} {built : Except Halt α}
    {read : α → Except Failure β} {data : Except Failure β} {f : α → α'} {g : β → β'}
    {read' : α' → Except Failure β'} (h : BuildsAs formless built read data)
    (hread : ∀ n, read' (f n) = (read n >>= fun d => .ok (g d))) :
    BuildsAs formless (built >>= fun n => .ok (f n)) read' (data >>= fun d => .ok (g d)) := by
  cases formless with
  | some w =>
    rw [show built = .error (.ofProblem (.unsupported w none)) from h]
    rfl
  | none =>
    obtain ⟨n, rfl, rfl⟩ := h
    exact ⟨f n, rfl, hread n⟩

/-- What is said of a value: it builds a tree that has its data. -/
def Builds (v : Value) : Prop := BuildsAs (firstFormless v.dataParts) v.buildNode toData v.asData

theorem builds_items {items : List Value} (h : ∀ v ∈ items, v.Builds) :
    BuildsAs (firstFormless (itemDataParts items)) (buildItems items) itemsToData
      (itemsAsData items) := by
  induction items with
  | nil => exact ⟨[], rfl, rfl⟩
  | cons v rest ih =>
    have hrest := ih fun v hv => h v (List.mem_cons_of_mem _ hv)
    rw [itemDataParts, firstFormless, List.find?_append]
    exact (h v List.mem_cons_self).append hrest fun _ _ => rfl

theorem builds_entries {es : List (Value × Value)} (h : ∀ e ∈ es, e.2.Builds) :
    BuildsAs (firstFormless (entryDataParts es)) (buildEntries es) entriesToData
      (entriesAsData es) := by
  induction es with
  | nil => exact ⟨[], rfl, rfl⟩
  | cons e rest ih =>
    obtain ⟨k, v⟩ := e
    have hrest := ih fun e he => h e (List.mem_cons_of_mem _ he)
    rw [entryDataParts, firstFormless, List.find?_append]
    exact (h _ List.mem_cons_self).append (f := fun n ns => (k, n) :: ns)
      (g := fun d ds => (k, d) :: ds) hrest fun _ _ => rfl

/-- **Data is built into a tree that has the same data**, or else its first part without a node form
is reported. -/
theorem builds (v : Value) : v.Builds := by
  induction v using induction_data with
  | map es ih => exact (builds_entries ih).map fun _ => rfl
  | list items ih => exact (builds_items ih).map fun _ => rfl
  | tuple items ih => exact (builds_items ih).map fun _ => rfl
  | other v hmap hlist htuple =>
    cases v with
    | map es => exact absurd rfl (hmap es)
    | list items => exact absurd rfl (hlist items)
    | tuple items => exact absurd rfl (htuple items)
    | bytes | complex | ellipsis | set => rfl
    | _ => exact ⟨_, rfl, rfl⟩

theorem toData_withComment (comment : String) (v : Value) :
    (v.withComment comment).toData = v.toData := by
  cases v <;> rfl

/-- The comment that is given changes neither of the two. -/
theorem builds_toNode (v : Value) (comment : Option String) :
    BuildsAs (firstFormless v.dataParts) (v.toNode comment) toData v.asData := by
  have h := v.builds
  rw [Builds] at h
  rw [toNode]
  cases hfirst : firstFormless v.dataParts with
  | some w =>
    rw [hfirst] at h
    rw [show v.buildNode = .error (.ofProblem (.unsupported w none)) from h]
    rfl
  | none =>
    rw [hfirst] at h
    obtain ⟨n, hn, hdata⟩ := h
    rw [hn]
    cases comment with
    | none => exact ⟨n, rfl, hdata⟩
    | some s => exact ⟨n.withComment s, rfl, by rw [toData_withComment, hdata]⟩

/-- **The first part without a node form is reported**, unless an integer in it has too many digits
for that. -/
theorem toNode_of_firstFormless {v w : Value} (h : firstFormless v.dataParts = some w)
    (comment : Option String) :
    v.toNode comment = .error (if w.display.isSome = true
      then .error { problem := .unsupported w none }
      else .failure .tooManyDigits) := by
  have hbuilds := v.builds_toNode comment
  rw [h] at hbuilds
  rwa [BuildsAs, Halt.ofProblem_unsupported] at hbuilds

/-- **Data whose parts all have a node form has a tree**, and the tree has its data. -/
theorem exists_toNode {v : Value} (h : ∀ w ∈ v.dataParts, w.hasNodeForm = true)
    (comment : Option String) : ∃ n, v.toNode comment = .ok n ∧ n.toData = v.asData := by
  have hfirst : firstFormless v.dataParts = none := by
    rw [firstFormless, List.find?_eq_none]
    simpa only [Bool.not_eq_true', Bool.not_eq_false] using h
  have hbuilds := v.builds_toNode comment
  rwa [hfirst] at hbuilds

/-- There is no tree just if a part has no node form. -/
theorem exists_toNode_eq_error_iff {v : Value} {comment : Option String} :
    (∃ halt, v.toNode comment = .error halt) ↔ ∃ w ∈ v.dataParts, w.hasNodeForm = false := by
  constructor
  · rintro ⟨halt, hhalt⟩
    by_contra hnone
    have hall : ∀ w ∈ v.dataParts, w.hasNodeForm = true := fun w hw =>
      eq_true_of_ne_false fun hform => hnone ⟨w, hw, hform⟩
    obtain ⟨n, hn, -⟩ := exists_toNode hall comment
    exact absurd (hn.symm.trans hhalt) (by simp)
  · rintro ⟨w, hw, hform⟩
    have hsome : (firstFormless v.dataParts).isSome = true :=
      List.find?_isSome.mpr ⟨w, hw, by rw [hform, Bool.not_false]⟩
    obtain ⟨first, hfirst⟩ := Option.isSome_iff_exists.mp hsome
    exact ⟨_, toNode_of_firstFormless hfirst comment⟩

end Building

/-! ### From a tree to data -/

/-- **A tree in fixed containers**: every child at every depth is a node, every container holds the
same children for good, and what the scalar nodes hold is primitive. -/
inductive IsFixedTree : Value → Prop
  /-- A scalar node that holds a primitive value. -/
  | scalar {v : Value} (comment : Option String) (atomic : v.isAtomic = true) :
      IsFixedTree (scalarNode v comment)
  /-- A list node of such trees. -/
  | list {children : List Value} (comment : Option String)
      (children_isFixedTree : ∀ c ∈ children, IsFixedTree c) :
      IsFixedTree (listNode children none [] comment)
  /-- A map node of such trees. -/
  | map {es : List (Value × Value)} (comment : Option String)
      (children_isFixedTree : ∀ e ∈ es, IsFixedTree e.2) : IsFixedTree (mapNode es none comment)

mutual

/-- A tree without its comments. -/
def uncommented : Value → Value
  | scalarNode value _ => scalarNode value none
  | listNode children failure later _ =>
    listNode (uncommentedItems children) failure (uncommentedPasses later) none
  | mapNode entries failure _ => mapNode (uncommentedEntries entries) failure none
  | v => v

/-- The children of a list without their comments. -/
def uncommentedItems : List Value → List Value
  | [] => []
  | child :: rest => uncommented child :: uncommentedItems rest

/-- The readings of a list without the comments of what is read. -/
def uncommentedPasses : List (Pass Value) → List (Pass Value)
  | [] => []
  | ⟨items, failure⟩ :: rest => ⟨uncommentedItems items, failure⟩ :: uncommentedPasses rest

/-- The children of a map without their comments. -/
def uncommentedEntries : List (Value × Value) → List (Value × Value)
  | [] => []
  | (k, child) :: rest => (k, uncommented child) :: uncommentedEntries rest

end

/-- What is said of a tree: it has data, from which it is built again without its comments. -/
def ComesBack (t : Value) : Prop := ∃ data, t.toData = .ok data ∧ data.buildNode = .ok t.uncommented

theorem comeBack_items {children : List Value} (h : ∀ c ∈ children, c.ComesBack) :
    ∃ items, itemsToData children = .ok items ∧
      buildItems items = .ok (uncommentedItems children) := by
  induction children with
  | nil => exact ⟨[], rfl, rfl⟩
  | cons child rest ih =>
    obtain ⟨data, hdata, hbuild⟩ := h child List.mem_cons_self
    obtain ⟨items, hitems, hrest⟩ := ih fun c hc => h c (List.mem_cons_of_mem _ hc)
    refine ⟨data :: items, ?_, ?_⟩
    · rw [itemsToData, hdata, hitems]
      rfl
    · rw [buildItems, hbuild, hrest]
      rfl

theorem comeBack_entries {es : List (Value × Value)} (h : ∀ e ∈ es, e.2.ComesBack) :
    ∃ entries, entriesToData es = .ok entries ∧
      buildEntries entries = .ok (uncommentedEntries es) := by
  induction es with
  | nil => exact ⟨[], rfl, rfl⟩
  | cons e rest ih =>
    obtain ⟨k, child⟩ := e
    obtain ⟨data, hdata, hbuild⟩ := h _ List.mem_cons_self
    obtain ⟨entries, hentries, hrest⟩ := ih fun e he => h e (List.mem_cons_of_mem _ he)
    refine ⟨(k, data) :: entries, ?_, ?_⟩
    · rw [entriesToData, hdata, hentries]
      rfl
    · rw [buildEntries, hbuild, hrest]
      rfl

/-- **A tree of primitive values is built again from its data**, without its comments. -/
theorem IsFixedTree.comesBack {t : Value} (h : t.IsFixedTree) : t.ComesBack := by
  induction h with
  | @scalar v comment hatomic =>
    refine ⟨v, rfl, ?_⟩
    cases v with
    | null | bool | int | float | str => rfl
    | _ => exact absurd hatomic (by simp [isAtomic])
  | list comment _ ih =>
    obtain ⟨items, hitems, hbuild⟩ := comeBack_items ih
    refine ⟨.list items, ?_, ?_⟩
    · rw [toData, hitems]
      rfl
    · rw [buildNode, hbuild]
      rfl
  | map comment _ ih =>
    obtain ⟨entries, hentries, hbuild⟩ := comeBack_entries ih
    refine ⟨.map entries, ?_, ?_⟩
    · rw [toData, hentries]
      rfl
    · rw [buildNode, hbuild]
      rfl

theorem uncommentedItems_eq_self {children : List Value}
    (h : ∀ c ∈ children, c.uncommented = c) : uncommentedItems children = children := by
  induction children with
  | nil => rfl
  | cons child rest ih =>
    rw [uncommentedItems, h child List.mem_cons_self,
      ih fun c hc => h c (List.mem_cons_of_mem _ hc)]

theorem uncommentedEntries_eq_self {es : List (Value × Value)}
    (h : ∀ e ∈ es, e.2.uncommented = e.2) : uncommentedEntries es = es := by
  induction es with
  | nil => rfl
  | cons e rest ih =>
    obtain ⟨k, child⟩ := e
    rw [uncommentedEntries, show child.uncommented = child from h _ List.mem_cons_self,
      ih fun e he => h e (List.mem_cons_of_mem _ he)]

/-- A tree of which no node has a comment has none to lose. -/
theorem IsFixedTree.uncommented_eq_self {t : Value} (h : t.IsFixedTree)
    (hnone : ∀ n ∈ t.nodes, n.comment = none) : t.uncommented = t := by
  induction h with
  | scalar comment =>
    obtain rfl : comment = none := hnone _ List.mem_cons_self
    rfl
  | list comment _ ih =>
    obtain rfl : comment = none := hnone _ List.mem_cons_self
    have hitems := uncommentedItems_eq_self fun c hc => ih c hc fun n hn =>
      hnone n (mem_nodes_listNode.mpr (Or.inr ⟨c, hc, hn⟩))
    rw [uncommented, hitems]
    rfl
  | map comment _ ih =>
    obtain rfl : comment = none := hnone _ List.mem_cons_self
    have hentries := uncommentedEntries_eq_self fun e he => ih e he fun n hn =>
      hnone n (mem_nodes_mapNode.mpr (Or.inr ⟨e, he, hn⟩))
    rw [uncommented, hentries]

/-! ### There and back -/

/-- Without a comment to attach, the tree is what was built. -/
theorem toNode_none (v : Value) : v.toNode = v.buildNode := by
  rw [toNode]
  cases v.buildNode <;> rfl

/-- **Plain data and trees are turned into each other without loss.** For every value and every
comment,

1. there is no tree just if a part of the value outside of its nodes has no node form;
2. it is the first such part that is reported, if it can be shown; if an integer in it has too many
   digits for that, there is only the failure to write that integer;
3. if there is a tree, its data is the value with lists for its tuples and the data of its nodes for
   these.

For every tree of primitive values in fixed containers,

4. its data is turned into the tree without its comments;
5. so the data renders like the tree, under any options, if no node has a comment. -/
theorem toNode_toData_lossless [Host] :
    (∀ (v : Value) (comment : Option String),
      ((∃ halt, v.toNode comment = .error halt) ↔
        ∃ w ∈ v.dataParts, w.hasNodeForm = false) ∧
      (∀ w, v.dataParts.find? (fun w => !w.hasNodeForm) = some w →
        v.toNode comment = .error (if w.display.isSome = true
          then .error { problem := .unsupported w none }
          else .failure .tooManyDigits)) ∧
      ((∀ w ∈ v.dataParts, w.hasNodeForm = true) →
        ∃ n, v.toNode comment = .ok n ∧ n.toData = v.asData)) ∧
    ∀ t : Value, t.IsFixedTree → ∃ data, t.toData = .ok data ∧
      data.toNode = .ok t.uncommented ∧
      ((∀ n ∈ t.nodes, n.comment = none) → ∀ o, renderValue o data = render o t) := by
  refine ⟨fun v comment => ⟨exists_toNode_eq_error_iff,
    fun w hw => toNode_of_firstFormless hw comment, fun hall => exists_toNode hall comment⟩,
    fun t ht => ?_⟩
  obtain ⟨data, hdata, hbuild⟩ := ht.comesBack
  rw [← toNode_none] at hbuild
  refine ⟨data, hdata, hbuild, fun hnone o => ?_⟩
  rw [renderValue, hbuild, ht.uncommented_eq_self hnone]

/-- Data that holds a tuple, an empty list, and a node that holds what has no place in a tree. -/
def nestedData : Value :=
  .map [(.str "a", .tuple [.int 1, .scalarNode (.bytes [1]) (some "kept")]), (.null, .list [])]

/-- A tree with a number that is none in a list below a map. -/
def nestedTree : Value :=
  .ofEntries [(.str "a", .ofChildren [.scalarNode (.float 0x7ff8000000000000) none])]

theorem isFixedTree_nestedTree : nestedTree.IsFixedTree :=
  .map none (List.forall_mem_singleton.mpr
    (.list none (List.forall_mem_singleton.mpr (.scalar none rfl))))

/-- A set that holds an integer with too many digits cannot be shown. -/
theorem display_set_longInteger : (set [longInteger]).display = none := by
  rw [display, displayItems, display_longInteger]
  · rfl
  · simp

open scoped Unix

/-- What a node holds does no harm, and outside of nodes it is reported, if it can be shown. -/
theorem toNode_toData_of_nested :
    (∀ w ∈ nestedData.dataParts, w.hasNodeForm = true) ∧
      (∃ n, nestedData.toNode (some "c") = .ok n ∧ n.comment = some "c" ∧
        n.toData = .ok (.map [(.str "a", .list [.int 1, .bytes [1]]), (.null, .list [])])) ∧
      (list [nestedData, .bytes [1], .ellipsis]).toNode =
        .error (.error { problem := .unsupported (.bytes [1]) none }) ∧
      (list [nestedData, .set [longInteger], .ellipsis]).toNode =
        .error (.failure .tooManyDigits) ∧
      nestedTree.IsFixedTree ∧ (∀ n ∈ nestedTree.nodes, n.comment = none) ∧
      ∃ data, nestedTree.toData = .ok data ∧ data.toNode = .ok nestedTree ∧
        ∀ o, renderValue o data = render o nestedTree := by
  have hparts : ∀ w ∈ nestedData.dataParts, w.hasNodeForm = true := by
    simp [nestedData, dataParts, entryDataParts, itemDataParts, hasNodeForm, isAtomic, isNode]
  have hnone : ∀ n ∈ nestedTree.nodes, n.comment = none := by
    simp [nestedTree, ofEntries, ofChildren, nodes, nodesBelow, entryNodes, itemNodes, comment]
  obtain ⟨hdata, htree⟩ := toNode_toData_lossless
  obtain ⟨n, hn, hback⟩ := (hdata nestedData (some "c")).2.2 hparts
  obtain ⟨data, hread, hbuild, hrender⟩ := htree nestedTree isFixedTree_nestedTree
  have hcomment : n.comment = some "c" := by
    obtain rfl := Except.ok.inj hn
    rfl
  have hshown := (hdata (list [nestedData, .bytes [1], .ellipsis]) none).2.1 (.bytes [1]) rfl
  have hunshown := (hdata (list [nestedData, .set [longInteger], .ellipsis]) none).2.1
    (.set [longInteger]) rfl
  rw [display_set_longInteger] at hunshown
  exact ⟨hparts, ⟨n, hn, hcomment, hback⟩, hshown, hunshown, isFixedTree_nestedTree, hnone,
    data, hread, hbuild, hrender hnone⟩

/-- **A value without a node form that is not reported**, because it cannot be shown. -/
theorem toNode_unshown_unreported :
    (set [longInteger]).hasNodeForm = false ∧ (set [longInteger]).dataParts = [set [longInteger]] ∧
      (set [longInteger]).toNode = .error (.failure .tooManyDigits) := by
  refine ⟨rfl, rfl, ?_⟩
  have hbuild : (set [longInteger]).buildNode =
      .error (.ofProblem (.unsupported (set [longInteger]) none)) := rfl
  rw [toNode_none, hbuild, Halt.ofProblem_unsupported, display_set_longInteger]
  rfl

end Value

end Hocon
