import Hocon.Proofs.Walk

/-!
# Where a rendering stops

A rendering of any value under any options either completes or is stopped, at one place and for one
reason. This module says which (`Hocon.Completes`, `Hocon.Stops`) without speaking of documents,
levels and logs: everything in front of that place in document order has been rendered, and what is
met there cannot be.

A position is relative to the node of which it is said, so the position of a stop grows by one step
at each container around it. What is made of a stop is another matter: `Hocon.Stop.halt` says how it
is reported, and only there it can get lost where the stop was.

| a stop | at the position of |
|---|---|
| `broken` | the container whose reading is broken off |
| `unspelled` | a map with a key that has no text, when the key is to be written |
| `noComment` | a value that is no node, when it is asked for its comment |
| `notANode` | a value that is no node, when it is to be written |
| `measured` | a scalar node without a literal, when its list is measured |
| `written` | a scalar node without a literal, when it is to be written |

What options ask for before the tree is looked at is left out: counts that do not fit into a machine
word end a rendering before it gets to a stop (`Hocon.Options.CountsFit`).

* `Hocon.completes_or_stops` – every rendering completes or is stopped;
* `Hocon.Completes.outcome_render`, `Hocon.Stops.outcome_render` – what comes of it.
-/

namespace Hocon

/-! ### Stops -/

/-- The two kinds of containers. -/
inductive Container where
  /-- A map. -/
  | map
  /-- A list. -/
  | list
  deriving DecidableEq, Repr

/-- What is wrong when the reading of a container is broken off by a change. -/
def Container.problem : Container → Failure → Problem
  | map => .mapChanged
  | list => .listChanged

/-- How a failure of the container at a path is reported. -/
def Container.halt : Container → Path → Failure → Halt
  | map => Render.haltOfMap
  | list => Render.haltOfList

/-- **What stops a rendering**, apart from where it does. -/
inductive Stop where
  /-- The reading of a container is broken off. -/
  | broken (container : Container) (f : Failure)
  /-- A key has no text. -/
  | unspelled (k : Value)
  /-- A value that is no node is asked for its comment. -/
  | noComment (v : Value)
  /-- A value that is no node is to be written. -/
  | notANode (v : Value)
  /-- A value has no literal, which is found when its list is measured. -/
  | measured (halt : Halt)
  /-- A value has no literal, which is found when it is to be written. -/
  | written (halt : Halt)

/-- **How a stop at a position is reported.** A value that is asked for its comment is reported
without a position, and so is one without a literal that is found by measuring, unless the value
itself is to blame. Whatever there are no words for is reported as the failure to find them. -/
def Stop.halt (path : Path) : Stop → Halt
  | broken container f => container.halt path f
  | unspelled _ => .failure .tooManyDigits
  | noComment v => .ofProblem (.noComment v)
  | notANode v => .ofProblem (.notANode v) path
  | measured (.error e) =>
    .error { e with path := if e.problem.category = .unsupportedValue then path else [] }
  | measured (.failure f) => .failure f
  | written halt => halt.locate path

namespace Layout

variable (o : Options)

/-- **Elements that are measured to the end**, behind others of the length `length`: they are scalar
nodes with literals, and these stay below the limit. -/
structure Measured (length : ℕ) (items : List Value) : Prop where
  /-- Each element has a literal. -/
  hasLiteral : ∀ item ∈ items, ∃ v comment l, item = .scalarNode v comment ∧
    Literal.ofValue o.stringQuoting.policy v = .ok l
  /-- The literals stay below the limit. -/
  below : length + measured (literals o items) < inlineLimit

/-- A reading of a list that is not broken off and finds no reason for a block. -/
def IsPlain (shape : Pass Value) : Prop :=
  shape.failure = none ∧ ∀ item ∈ shape.items, blockReason? item = none

/-- The choice of a layout for a list that has been read once. -/
def Decides (children : List Value) (later : List (Pass Value)) (inline : Bool) : Prop :=
  (isInline o.stringQuoting.policy (Value.pass { items := children } later 1)
    (Value.pass { items := children } later 2)).outcome = .ok inline

end Layout

/-- **A rendering of a node that completes.** -/
inductive Completes (o : Options) : Value → Prop
  /-- A scalar node whose value has a literal. -/
  | scalar {v : Value} {l : Literal} (comment : Option String)
      (literal : Literal.ofValue o.stringQuoting.policy v = .ok l) :
      Completes o (.scalarNode v comment)
  /-- A list of which no reading is broken off, and whose elements complete. -/
  | list {children : List Value} {later : List (Pass Value)} {inline : Bool}
      (comment : Option String) (layout : Layout.Decides o children later inline)
      (elements : ∀ child ∈ children, Completes o child) :
      Completes o (.listNode children none later comment)
  /-- A map whose reading is not broken off, whose keys have texts, and whose entries complete. -/
  | map {es : List (Value × Value)} (comment : Option String)
      (keys : ∀ e ∈ es, (keyText? e.1).isSome = true)
      (elements : ∀ e ∈ es, Completes o e.2) : Completes o (.mapNode es none comment)

/-- **A rendering of a node that is stopped**, at a position below the node. -/
inductive Stops (o : Options) : Value → Path → Stop → Prop
  /-- A value that is no node. -/
  | notANode {v : Value} (node : v.isNode = false) : Stops o v [] (.notANode v)
  /-- A scalar node whose value has no literal. -/
  | scalar {v : Value} {halt : Halt} (comment : Option String)
      (literal : Literal.ofValue o.stringQuoting.policy v = .error halt) :
      Stops o (.scalarNode v comment) [] (.written halt)
  /-- An entry whose key has no text. -/
  | entryKey (before : List (Value × Value)) {k : Value} (child : Value)
      (rest : List (Value × Value)) (failure : Option Failure) (comment : Option String)
      (keys : ∀ e ∈ before, (keyText? e.1).isSome = true)
      (elements : ∀ e ∈ before, Completes o e.2) (key : keyText? k = none) :
      Stops o (.mapNode (before ++ (k, child) :: rest) failure comment) [] (.unspelled k)
  /-- An entry whose child is no node. -/
  | entryComment (before : List (Value × Value)) (k : Value) {child : Value}
      (rest : List (Value × Value)) (failure : Option Failure) (comment : Option String)
      (keys : ∀ e ∈ before, (keyText? e.1).isSome = true)
      (elements : ∀ e ∈ before, Completes o e.2) (key : (keyText? k).isSome = true)
      (node : child.isNode = false) :
      Stops o (.mapNode (before ++ (k, child) :: rest) failure comment) [.key (keyText k)]
        (.noComment child)
  /-- An entry whose child is stopped. -/
  | entry (before : List (Value × Value)) (k : Value) {child : Value} {path : Path} {s : Stop}
      (rest : List (Value × Value)) (failure : Option Failure) (comment : Option String)
      (keys : ∀ e ∈ before, (keyText? e.1).isSome = true)
      (elements : ∀ e ∈ before, Completes o e.2) (key : (keyText? k).isSome = true)
      (node : child.isNode = true) (stops : Stops o child path s) :
      Stops o (.mapNode (before ++ (k, child) :: rest) failure comment) (.key (keyText k) :: path) s
  /-- A map whose reading is broken off behind its entries. -/
  | map {es : List (Value × Value)} (f : Failure) (comment : Option String)
      (keys : ∀ e ∈ es, (keyText? e.1).isSome = true)
      (elements : ∀ e ∈ es, Completes o e.2) :
      Stops o (.mapNode es (some f) comment) [] (.broken .map f)
  /-- A list whose first reading is broken off. -/
  | copy (children : List Value) (f : Failure) (later : List (Pass Value))
      (comment : Option String) :
      Stops o (.listNode children (some f) later comment) [] (.broken .list f)
  /-- A list whose second reading is broken off before it finds a reason for a block. -/
  | shape {children : List Value} {f : Failure} {later : List (Pass Value)}
      (comment : Option String)
      (failure : (Value.pass { items := children } later 1).failure = some f)
      (noReason : ∀ item ∈ (Value.pass { items := children } later 1).items,
        Layout.blockReason? item = none) :
      Stops o (.listNode children none later comment) [] (.broken .list f)
  /-- A list whose third reading is broken off before it reaches the limit. -/
  | length {children : List Value} {f : Failure} {later : List (Pass Value)}
      (comment : Option String)
      (plain : Layout.IsPlain (Value.pass { items := children } later 1))
      (failure : (Value.pass { items := children } later 2).failure = some f)
      (measured : Layout.Measured o 0 (Value.pass { items := children } later 2).items) :
      Stops o (.listNode children none later comment) [] (.broken .list f)
  /-- A list with an element that cannot be measured. -/
  | measured {children : List Value} {later : List (Pass Value)} (before rest : List Value)
      {v : Value} {halt : Halt} (comment inner : Option String)
      (plain : Layout.IsPlain (Value.pass { items := children } later 1))
      (items : (Value.pass { items := children } later 2).items =
        before ++ .scalarNode v inner :: rest)
      (elements : Layout.Measured o 0 before)
      (literal : Literal.ofValue o.stringQuoting.policy v = .error halt) :
      Stops o (.listNode children none later comment) [.index before.length] (.measured halt)
  /-- An element of a block that is no node. -/
  | elementComment (before : List Value) {child : Value} (rest : List Value)
      {later : List (Pass Value)} (comment : Option String)
      (layout : Layout.Decides o (before ++ child :: rest) later false)
      (elements : ∀ c ∈ before, Completes o c) (node : child.isNode = false) :
      Stops o (.listNode (before ++ child :: rest) none later comment) [.index before.length]
        (.noComment child)
  /-- An element that is stopped. -/
  | element (before : List Value) {child : Value} {path : Path} {s : Stop} (rest : List Value)
      {later : List (Pass Value)} {inline : Bool} (comment : Option String)
      (layout : Layout.Decides o (before ++ child :: rest) later inline)
      (elements : ∀ c ∈ before, Completes o c) (node : inline = true ∨ child.isNode = true)
      (stops : Stops o child path s) :
      Stops o (.listNode (before ++ child :: rest) none later comment)
        (.index before.length :: path) s

/-! ### Induction over nodes -/

/-- **Induction over the nodes of a value**: what holds of a node if it holds of its children, and
of whatever is no node, holds of all values. -/
theorem Value.induction_nodes {P : Value → Prop} (other : ∀ v : Value, v.isNode = false → P v)
    (scalar : ∀ v comment, P (.scalarNode v comment))
    (list : ∀ children failure later comment, (∀ c ∈ children, P c) →
      P (.listNode children failure later comment))
    (map : ∀ es failure comment, (∀ e ∈ es, P e.2) → P (.mapNode es failure comment)) :
    ∀ v, P v
  | .scalarNode v comment => scalar v comment
  | .listNode children failure later comment =>
    list children failure later comment fun c _ => induction_nodes other scalar list map c
  | .mapNode es failure comment =>
    map es failure comment fun e _ => induction_nodes other scalar list map e.2
  | .null | .bool _ | .int _ | .float _ | .str _ | .bytes _ | .complex .. | .ellipsis | .set _
  | .tuple _ | .list _ | .map _ => other _ rfl
termination_by v => sizeOf v
decreasing_by
  · have hmem := List.sizeOf_lt_of_mem ‹c ∈ children›
    simp only [listNode.sizeOf_spec]
    omega
  · have hmem := List.sizeOf_lt_of_mem ‹e ∈ es›
    have he : sizeOf e = 1 + sizeOf e.1 + sizeOf e.2 := rfl
    simp only [mapNode.sizeOf_spec]
    omega

/-! ### Values without a literal -/

/-- What a value without a literal ends a rendering with, before its position is known. -/
theorem Literal.halt_cases {setting : Setting Quoting} {v : Value} {halt : Halt}
    (h : Literal.ofValue setting.policy v = .error halt) :
    halt = .failure .tooManyDigits ∨
      (∃ reason, halt = .error { problem := .unsupported v reason }) ∨
      ((∃ s, v = .str s) ∧ halt = .error { problem := .unknownQuoting setting.key }) := by
  have hunsupported : ∀ reason, Literal.ofValue setting.policy v =
      .error (.ofProblem (.unsupported v reason)) →
      halt = .failure .tooManyDigits ∨
        ∃ reason, halt = .error { problem := .unsupported v reason } := by
    intro reason hv
    rw [hv, Halt.ofProblem_unsupported] at h
    split at h
    · exact Or.inr ⟨reason, (Except.error.inj h).symm⟩
    · exact Or.inl (Except.error.inj h).symm
  cases v with
  | str s =>
    refine Or.inr (Or.inr ⟨⟨s, rfl⟩, ?_⟩)
    rw [Literal.ofValue, Setting.policy] at h
    cases hresolve : setting.resolve? with
    | some quoting =>
      rw [hresolve] at h
      cases h
    | none =>
      rw [hresolve] at h
      exact (Except.error.inj h).symm
  | float bits =>
    refine (hunsupported (some "non-finite numbers have no literal form") ?_).imp_right Or.inl
    rw [Literal.ofValue] at h ⊢
    split at h
    · cases h
    · rw [if_neg ‹_›]
  | int n =>
    rw [Literal.ofValue] at h
    split at h
    · cases h
    · exact Or.inl (Except.error.inj h).symm
  | null | bool => cases h
  | _ => exact (hunsupported none rfl).imp_right Or.inl

/-- The only failure of a value to have a literal is that of an integer to be written. -/
theorem Literal.failure_eq_of_ofValue {setting : Setting Quoting} {v : Value} {f : Failure}
    (h : Literal.ofValue setting.policy v = .error (.failure f)) : f = .tooManyDigits := by
  rcases halt_cases h with hf | ⟨reason, hf⟩ | ⟨-, hf⟩ <;> cases hf
  rfl

/-! ### Measuring -/

namespace Layout

variable {o : Options}

theorem Measured.cons {length : ℕ} {v : Value} {comment : Option String} {l : Literal}
    {items : List Value} (hl : Literal.ofValue o.stringQuoting.policy v = .ok l)
    (h : Measured o (length + l.text.length + 1) items) :
    Measured o length (.scalarNode v comment :: items) := by
  have hliteral : o.literal v = l := by rw [Options.literal, hl]
  refine ⟨List.forall_mem_cons.mpr ⟨⟨v, comment, l, rfl, hl⟩, h.hasLiteral⟩, ?_⟩
  have hbelow := h.below
  rw [literals_cons, Value.held_scalarNode, measured_cons, hliteral]
  omega

/-- Measuring goes on behind elements that are measured to the end. -/
theorem Measured.measure_append {length : ℕ} {items : List Value} (h : Measured o length items)
    (failure : Option Failure) (index : ℕ) (rest : List Value) :
    measure o.stringQuoting.policy failure index length (items ++ rest) =
      measure o.stringQuoting.policy failure (index + items.length)
        (length + measured (literals o items)) rest := by
  induction items generalizing index length with
  | nil => rfl
  | cons item items ih =>
    obtain ⟨v, comment, l, rfl, hl⟩ := h.hasLiteral item List.mem_cons_self
    have hliteral : o.literal v = l := by rw [Options.literal, hl]
    have hbelow := h.below
    rw [literals_cons, Value.held_scalarNode, measured_cons, hliteral] at hbelow ⊢
    have hitems : Measured o (length + l.text.length + 1) items :=
      ⟨fun i hi => h.hasLiteral i (List.mem_cons_of_mem _ hi), by omega⟩
    have hlimit : ¬inlineLimit ≤ length + l.text.length + 1 := by omega
    rw [List.cons_append, measure, hl]
    simp only [hlimit, if_false, ih hitems, List.length_cons]
    congr 1 <;> omega

/-- **How measuring ends**: it takes all elements, or meets one without a literal, or finds that
the list does not fit on one line. -/
theorem exists_measured (items : List Value) {length : ℕ} (hlength : length < inlineLimit) :
    ∃ before rest, items = before ++ rest ∧ Measured o length before ∧
      (rest = [] ∨
        (∃ v comment halt rest', rest = .scalarNode v comment :: rest' ∧
          Literal.ofValue o.stringQuoting.policy v = .error halt) ∨
        ∀ failure index, (measure o.stringQuoting.policy failure index
          (length + measured (literals o before)) rest).outcome = .ok false) := by
  have hnil : Measured o length [] := ⟨by simp, hlength⟩
  induction items generalizing length with
  | nil => exact ⟨[], [], rfl, hnil, Or.inl rfl⟩
  | cons item items ih =>
    cases item with
    | scalarNode v comment =>
      cases hl : Literal.ofValue o.stringQuoting.policy v with
      | error halt =>
        exact ⟨[], _, rfl, hnil, Or.inr (Or.inl ⟨v, comment, halt, items, rfl, hl⟩)⟩
      | ok l =>
        by_cases hlimit : inlineLimit ≤ length + l.text.length + 1
        · refine ⟨[], _, rfl, hnil, Or.inr (Or.inr fun failure index => ?_)⟩
          rw [measure, hl]
          simp only [literals_nil, measured, List.foldr_nil, Nat.add_zero, hlimit, if_true]
          rfl
        · obtain ⟨before, rest, hitems, hbefore, hrest⟩ :=
            ih (Nat.not_le.mp hlimit) ⟨by simp, Nat.not_le.mp hlimit⟩
          have hsum : length + measured (literals o (.scalarNode v comment :: before)) =
              length + l.text.length + 1 + measured (literals o before) := by
            have hliteral : o.literal v = l := by rw [Options.literal, hl]
            rw [literals_cons, Value.held_scalarNode, measured_cons, hliteral]
            omega
          exact ⟨_, rest, by rw [hitems, List.cons_append], .cons hl hbefore, by rwa [hsum]⟩
    | _ => exact ⟨[], _, rfl, hnil, Or.inr (Or.inr fun _ _ => rfl)⟩

theorem isInline_of_isPlain {policy : Except Problem Quoting} {shape : Pass Value}
    (h : IsPlain shape) (length : Pass Value) :
    isInline policy shape length = measure policy length.failure 0 0 length.items := by
  rw [isInline, List.findSome?_eq_none_iff.mpr h.2, h.1]

end Layout

/-! ### The walk -/

theorem Completes.isNode {o : Options} {v : Value} (h : Completes o v) : v.isNode = true := by
  cases h <;> rfl

namespace Render

variable {o : Options}

theorem outcome_layoutOf_of_ok (path : Path) {shape length : Pass Value} {inline : Bool}
    (h : (Layout.isInline o.stringQuoting.policy shape length).outcome = .ok inline) :
    (layoutOf o path shape length).outcome = .ok inline := by
  simp only [layoutOf, Attempt.outcome_bind, Attempt.outcome_adapt, h]
  rfl

theorem outcome_layoutOf_of_error (path : Path) {shape length : Pass Value} {halt : Halt}
    (h : (Layout.isInline o.stringQuoting.policy shape length).outcome = .error halt) :
    (layoutOf o path shape length).outcome = .error (haltOfLayout path halt) := by
  simp only [layoutOf, Attempt.outcome_bind, Attempt.outcome_adapt, h]
  rfl

theorem exists_commentAbove {v : Value} (h : v.isNode = true) (level : ℕ) :
    ∃ d, (commentAbove level v).outcome = .ok d := by
  cases v with
  | scalarNode | listNode | mapNode => exact ⟨_, rfl⟩
  | _ => exact absurd h (by simp [Value.isNode])

theorem outcome_commentAbove {v : Value} (h : v.isNode = false) (level : ℕ) :
    (commentAbove level v).outcome = .error (.ofProblem (.noComment v)) := by
  cases v with
  | scalarNode | listNode | mapNode => exact absurd h (by simp [Value.isNode])
  | _ => rfl

theorem outcome_node_of_not_isNode {v : Value} (h : v.isNode = false) (level : ℕ) (path : Path) :
    (node o level path v).outcome = .error (.ofProblem (.notANode v) path) := by
  cases v with
  | scalarNode | listNode | mapNode => exact absurd h (by simp [Value.isNode])
  | _ => simp only [node, Attempt.outcome_throw]

/-- What is said of a node: wherever it stands, it is rendered. -/
def Renders (o : Options) (v : Value) : Prop :=
  v.isNode = true ∧ ∀ level path, ∃ d, (node o level path v).outcome = .ok d

/-- What is said of two walks: the first one ends like the second one, and makes something of its
document. -/
def EndsLike (x y : Attempt Halt Document) : Prop :=
  ∃ f : Document → Document, x.outcome = y.outcome.map f

theorem EndsLike.refl (x : Attempt Halt Document) : EndsLike x x :=
  ⟨id, by cases x.outcome <;> rfl⟩

theorem EndsLike.ok {x y : Attempt Halt Document} (h : EndsLike x y) {d : Document}
    (hy : y.outcome = .ok d) : ∃ d, x.outcome = .ok d := by
  obtain ⟨f, hf⟩ := h
  exact ⟨f d, by rw [hf, hy]; rfl⟩

theorem EndsLike.error {x y : Attempt Halt Document} (h : EndsLike x y) {halt : Halt}
    (hy : y.outcome = .error halt) : x.outcome = .error halt := by
  obtain ⟨f, hf⟩ := h
  rw [hf, hy]
  rfl

/-- The text of a key that has one. -/
theorem outcome_keyTextOf {k : Value} (h : (keyText? k).isSome = true) :
    (keyTextOf k).outcome = .ok (keyText k) := by
  rw [keyTextOf, Value.keyText?_eq_of_isSome h]
  rfl

/-- Behind entries that are rendered, the walk ends as it does over the others. -/
theorem endsLike_entries (level : ℕ) (path : Path) {before : List (Value × Value)}
    (hkeys : ∀ e ∈ before, (keyText? e.1).isSome = true)
    (h : ∀ e ∈ before, Renders o e.2) (rest : List (Value × Value)) :
    EndsLike (entries o level path (before ++ rest)) (entries o level path rest) := by
  induction before with
  | nil => exact .refl _
  | cons e before ih =>
    obtain ⟨k, child⟩ := e
    obtain ⟨hnode, hchild⟩ := h _ List.mem_cons_self
    have hkey := outcome_keyTextOf (hkeys _ List.mem_cons_self)
    obtain ⟨f, hf⟩ := ih (fun e he => hkeys e (List.mem_cons_of_mem _ he))
      fun e he => h e (List.mem_cons_of_mem _ he)
    obtain ⟨above, habove⟩ := exists_commentAbove hnode level
    obtain ⟨body, hbody⟩ := hchild (level + 1) (path ++ [.key (keyText k)])
    refine ⟨fun others => above ++ [.indent level,
      .key (Key.ofText o.keyQuoting (keyText k).toList), separatorBefore o child] ++ body ++
        [.newline] ++ f others, ?_⟩
    simp only [List.cons_append, entries, Attempt.outcome_bind, hkey, Attempt.ok_bind, habove,
      hbody, hf]
    cases (entries o level path rest).outcome <;> rfl

/-- Behind elements that are rendered, the walk over a block ends as it does over the others. -/
theorem endsLike_blockElements (level : ℕ) (path : Path) (index : ℕ) {before : List Value}
    (h : ∀ c ∈ before, Renders o c) (rest : List Value) :
    EndsLike (blockElements o level path index (before ++ rest))
      (blockElements o level path (index + before.length) rest) := by
  induction before generalizing index with
  | nil => exact .refl _
  | cons child before ih =>
    obtain ⟨hnode, hchild⟩ := h _ List.mem_cons_self
    obtain ⟨f, hf⟩ := ih (index + 1) fun c hc => h c (List.mem_cons_of_mem _ hc)
    obtain ⟨above, habove⟩ := exists_commentAbove hnode level
    obtain ⟨body, hbody⟩ := hchild (level + 1) (path ++ [.index index])
    refine ⟨fun others => [.newline] ++ above ++ [.indent level] ++ body ++
      (if (before ++ rest).isEmpty then [] else [.comma]) ++ f others, ?_⟩
    rw [List.length_cons, Nat.add_comm before.length 1, ← Nat.add_assoc]
    simp only [List.cons_append, blockElements, Attempt.outcome_bind, habove, hbody, hf]
    cases (blockElements o level path (index + 1 + before.length) rest).outcome <;> rfl

/-- Behind elements that are rendered, the walk over a line ends as it does over the others. -/
theorem endsLike_inlineElements (path : Path) (index : ℕ) {before : List Value}
    (h : ∀ c ∈ before, Renders o c) (rest : List Value) :
    EndsLike (inlineElements o path index (before ++ rest))
      (inlineElements o path (index + before.length) rest) := by
  induction before generalizing index with
  | nil => exact .refl _
  | cons child before ih =>
    obtain ⟨-, hchild⟩ := h _ List.mem_cons_self
    obtain ⟨f, hf⟩ := ih (index + 1) fun c hc => h c (List.mem_cons_of_mem _ hc)
    obtain ⟨body, hbody⟩ := hchild 0 (path ++ [.index index])
    refine ⟨fun others => [.space] ++ body ++
      (if (before ++ rest).isEmpty then [] else [.comma]) ++ f others, ?_⟩
    rw [List.length_cons, Nat.add_comm before.length 1, ← Nat.add_assoc]
    simp only [List.cons_append, inlineElements, Attempt.outcome_bind, hbody, hf]
    cases (inlineElements o path (index + 1 + before.length) rest).outcome <;> rfl

/-- The walk over a list whose layout is chosen puts what the walk over its elements yields into
brackets. -/
theorem outcome_node_listNode {children : List Value} {later : List (Pass Value)} {inline : Bool}
    (h : Layout.Decides o children later inline) (comment : Option String) (level : ℕ)
    (path : Path) :
    (node o level path (.listNode children none later comment)).outcome =
      (if inline then inlineElements o path 0 children
        else blockElements o level path 0 children).outcome.map
          (inBrackets inline level children.isEmpty) := by
  have hlayout := outcome_layoutOf_of_ok path h
  simp only [node, brokenOff, Attempt.outcome_bind, Attempt.outcome_pure, hlayout, Attempt.ok_bind]
  cases inline
  · cases hbody : (blockElements o level path 0 children).outcome <;> simp [hbody, Except.map]
  · cases hbody : (inlineElements o path 0 children).outcome <;> simp [hbody, Except.map]

/-- The walk over a list whose layout is chosen is the walk over its elements. -/
theorem node_listNode {children : List Value} {later : List (Pass Value)} {inline : Bool}
    (h : Layout.Decides o children later inline) (comment : Option String) (level : ℕ)
    (path : Path) :
    EndsLike (node o level path (.listNode children none later comment))
      (if inline then inlineElements o path 0 children
        else blockElements o level path 0 children) :=
  ⟨_, outcome_node_listNode h comment level path⟩

/-- **A rendering that completes yields a document**, wherever the node stands. -/
theorem renders_of_completes {v : Value} (h : Completes o v) : Renders o v := by
  refine ⟨h.isNode, ?_⟩
  induction h with
  | @scalar v l comment hl => exact fun level path => ⟨_, by simp only [node, scalar, hl]; rfl⟩
  | @list children later inline comment hlayout hall ih =>
    intro level path
    have hrenders : ∀ c ∈ children, Renders o c := fun c hc => ⟨(hall c hc).isNode, ih c hc⟩
    -- the walk over the elements ends like the one over what is behind them, which is nothing
    have hinline := (endsLike_inlineElements path 0 hrenders []).ok (d := []) rfl
    have hblock := (endsLike_blockElements level path 0 hrenders []).ok (d := []) rfl
    rw [List.append_nil] at hinline hblock
    have helements : ∃ d, (if inline then inlineElements o path 0 children
        else blockElements o level path 0 children).outcome = .ok d := by
      cases inline
      · exact hblock
      · exact hinline
    obtain ⟨d, hd⟩ := helements
    exact (node_listNode hlayout comment level path).ok hd
  | @map es comment hkeys hall ih =>
    intro level path
    have hrenders : ∀ e ∈ es, Renders o e.2 := fun e he => ⟨(hall e he).isNode, ih e he⟩
    obtain ⟨d, hd⟩ := (endsLike_entries level path hkeys hrenders []).ok (d := []) rfl
    rw [List.append_nil] at hd
    exact ⟨_, by simp only [node, brokenOff, Attempt.outcome_bind, Attempt.outcome_pure, hd]; rfl⟩

/-- The reading of a list that is broken off, or an element that cannot be measured, ends the walk
over the list. -/
theorem outcome_node_of_isInline {children : List Value} {later : List (Pass Value)} {halt : Halt}
    (h : (Layout.isInline o.stringQuoting.policy (Value.pass { items := children } later 1)
      (Value.pass { items := children } later 2)).outcome = .error halt)
    (comment : Option String) (level : ℕ) (path : Path) :
    (node o level path (.listNode children none later comment)).outcome =
      .error (haltOfLayout path halt) := by
  have hlayout := outcome_layoutOf_of_error path h
  simp only [node, brokenOff, Attempt.outcome_bind, Attempt.outcome_pure, hlayout, Attempt.ok_bind,
    Attempt.error_bind]

/-- **A rendering that is stopped ends with the report of the stop**, wherever the node stands. -/
theorem outcome_node_of_stops {v : Value} {p : Path} {s : Stop} (h : Stops o v p s) (level : ℕ)
    (path : Path) : (node o level path v).outcome = .error (s.halt (path ++ p)) := by
  -- what stands in front of the stop is rendered, so a container ends as the walk does at the stop
  induction h generalizing level path with
  | notANode hnode => rw [outcome_node_of_not_isNode hnode, List.append_nil, Stop.halt]
  | scalar comment hl =>
    rw [List.append_nil, node, scalar, hl]
    rfl
  | @entryKey before k child rest failure comment hkeys hall hkey =>
    have hhead : (entries o level path ((k, child) :: rest)).outcome =
        .error (.failure .tooManyDigits) := by
      simp only [entries, keyTextOf, hkey, Attempt.outcome_bind, Attempt.outcome_throw,
        Attempt.error_bind]
    have hentries := (endsLike_entries level path hkeys
      (fun e he => renders_of_completes (hall e he)) _).error hhead
    simp only [node, Attempt.outcome_bind, hentries, Attempt.error_bind, Stop.halt]
  | @entryComment before k child rest failure comment hkeys hall hkey hnode =>
    have hhead : (entries o level path ((k, child) :: rest)).outcome =
        .error (.ofProblem (.noComment child)) := by
      simp only [entries, Attempt.outcome_bind, outcome_keyTextOf hkey, Attempt.ok_bind,
        outcome_commentAbove hnode, Attempt.error_bind]
    have hentries := (endsLike_entries level path hkeys
      (fun e he => renders_of_completes (hall e he)) _).error hhead
    simp only [node, Attempt.outcome_bind, hentries, Attempt.error_bind, Stop.halt]
  | @entry before k child p s rest failure comment hkeys hall hkey hnode hstops ih =>
    have hhead : (entries o level path ((k, child) :: rest)).outcome =
        .error (s.halt (path ++ .key (keyText k) :: p)) := by
      obtain ⟨above, habove⟩ := exists_commentAbove hnode level
      simp only [entries, Attempt.outcome_bind, outcome_keyTextOf hkey, habove, ih,
        Attempt.ok_bind, Attempt.error_bind, List.append_assoc, List.singleton_append]
    have hentries := (endsLike_entries level path hkeys
      (fun e he => renders_of_completes (hall e he)) _).error hhead
    simp only [node, Attempt.outcome_bind, hentries, Attempt.error_bind]
  | @map es f comment hkeys hall =>
    obtain ⟨d, hd⟩ := (endsLike_entries level path hkeys
      (fun e he => renders_of_completes (hall e he)) []).ok (d := []) rfl
    rw [List.append_nil] at hd
    simp only [node, brokenOff, Attempt.outcome_bind, hd, Attempt.ok_bind, Attempt.outcome_throw,
      Attempt.error_bind, List.append_nil, Stop.halt]
    rfl
  | copy children f later comment =>
    simp only [node, brokenOff, Attempt.outcome_bind, Attempt.outcome_throw, Attempt.error_bind,
      List.append_nil, Stop.halt]
    rfl
  | @shape children f later comment hfailure hreason =>
    have hbroken : (Layout.isInline o.stringQuoting.policy
        (Value.pass { items := children } later 1)
        (Value.pass { items := children } later 2)).outcome = .error (.failure f) := by
      rw [Layout.isInline, List.findSome?_eq_none_iff.mpr hreason, hfailure]
      rfl
    rw [outcome_node_of_isInline hbroken, List.append_nil]
    rfl
  | @length children f later comment hplain hfailure hmeasured =>
    have hbroken : (Layout.isInline o.stringQuoting.policy
        (Value.pass { items := children } later 1)
        (Value.pass { items := children } later 2)).outcome = .error (.failure f) := by
      have happend := hmeasured.measure_append (some f) 0 []
      rw [List.append_nil] at happend
      rw [Layout.isInline_of_isPlain hplain, hfailure, happend]
      rfl
    rw [outcome_node_of_isInline hbroken, List.append_nil]
    rfl
  | @measured children later before rest v halt comment inner hplain hitems hall hl =>
    have hhalt : (Layout.isInline o.stringQuoting.policy
        (Value.pass { items := children } later 1)
        (Value.pass { items := children } later 2)).outcome =
          .error (Layout.measuringHalt before.length halt) := by
      rw [Layout.isInline_of_isPlain hplain, hitems, hall.measure_append, Layout.measure, hl,
        Nat.zero_add]
      rfl
    rw [outcome_node_of_isInline hhalt]
    cases halt with
    | error e =>
      by_cases hcategory : e.problem.category = .unsupportedValue <;>
        simp [haltOfLayout, Layout.measuringHalt, Stop.halt, hcategory]
    | failure f =>
      rw [Literal.failure_eq_of_ofValue hl]
      rfl
  | @elementComment before child rest later comment hlayout hall hnode =>
    have hhead : (blockElements o level path (0 + before.length) (child :: rest)).outcome =
        .error (.ofProblem (.noComment child)) := by
      simp only [blockElements, Attempt.outcome_bind, outcome_commentAbove hnode,
        Attempt.error_bind]
    have helements := (endsLike_blockElements level path 0
      (fun c hc => renders_of_completes (hall c hc)) _).error hhead
    exact (node_listNode hlayout comment level path).error helements
  | @element before child p s rest later inline comment hlayout hall hnode hstops ih =>
    have hbefore : ∀ c ∈ before, Renders o c := fun c hc => renders_of_completes (hall c hc)
    have hpath : path ++ [.index (0 + before.length : ℕ)] ++ p =
        path ++ .index before.length :: p := by simp
    refine (node_listNode hlayout comment level path).error ?_
    cases inline with
    | true =>
      refine (endsLike_inlineElements path 0 hbefore _).error ?_
      simp only [inlineElements, Attempt.outcome_bind, ih, Attempt.error_bind, hpath]
    | false =>
      refine (endsLike_blockElements level path 0 hbefore _).error ?_
      obtain ⟨above, habove⟩ := exists_commentAbove (hnode.resolve_left (by simp)) level
      simp only [blockElements, Attempt.outcome_bind, habove, ih, Attempt.ok_bind,
        Attempt.error_bind, hpath]

end Render

/-! ### Every rendering completes or is stopped -/

section Total

variable {o : Options}

/-- The first of the elements that does not complete, if there is one. -/
theorem forall_or_exists_first {α : Type} {P : α → Prop} (xs : List α) :
    (∀ x ∈ xs, P x) ∨ ∃ before x rest, xs = before ++ x :: rest ∧ (∀ y ∈ before, P y) ∧ ¬P x := by
  induction xs with
  | nil => simp
  | cons x xs ih =>
    by_cases hx : P x
    · rcases ih with hall | ⟨before, y, rest, rfl, hbefore, hy⟩
      · exact Or.inl (List.forall_mem_cons.mpr ⟨hx, hall⟩)
      · exact Or.inr ⟨x :: before, y, rest, rfl, List.forall_mem_cons.mpr ⟨hx, hbefore⟩, hy⟩
    · exact Or.inr ⟨[], x, xs, rfl, by simp, hx⟩

/-- **The choice of a layout** is made, or the list is stopped. -/
theorem decides_or_stops (children : List Value) (later : List (Pass Value))
    (comment : Option String) :
    (∃ inline, Layout.Decides o children later inline) ∨
      ∃ p s, Stops o (.listNode children none later comment) p s := by
  cases hreason :
      (Value.pass { items := children } later 1).items.findSome? Layout.blockReason? with
  | some reason =>
    refine Or.inl ⟨false, ?_⟩
    rw [Layout.Decides, Layout.isInline, hreason]
    rfl
  | none =>
    have hnone := List.findSome?_eq_none_iff.mp hreason
    cases hfailure : (Value.pass { items := children } later 1).failure with
    | some f => exact Or.inr ⟨_, _, .shape comment hfailure hnone⟩
    | none =>
      have hplain : Layout.IsPlain (Value.pass { items := children } later 1) := ⟨hfailure, hnone⟩
      have hzero : 0 < inlineLimit := by decide
      obtain ⟨before, rest, hitems, hbefore, hrest⟩ := Layout.exists_measured (o := o)
        (Value.pass { items := children } later 2).items hzero
      have hmeasure := hbefore.measure_append (Value.pass { items := children } later 2).failure 0
        rest
      rw [← hitems, ← Layout.isInline_of_isPlain hplain] at hmeasure
      rcases hrest with rfl | ⟨v, inner, halt, rest', rfl, hl⟩ | hfalse
      · rw [List.append_nil] at hitems
        cases hlast : (Value.pass { items := children } later 2).failure with
        | some f => exact Or.inr ⟨_, _, .length comment hplain hlast (hitems ▸ hbefore)⟩
        | none =>
          rw [hlast] at hmeasure
          exact Or.inl ⟨true, by rw [Layout.Decides, hmeasure]; rfl⟩
      · exact Or.inr ⟨_, _, .measured before rest' comment inner hplain hitems hbefore hl⟩
      · exact Or.inl ⟨false, by rw [Layout.Decides, hmeasure]; exact hfalse _ _⟩

/-- **Every rendering completes or is stopped.** -/
theorem completes_or_stops (v : Value) : Completes o v ∨ ∃ p s, Stops o v p s := by
  induction v using Value.induction_nodes with
  | other v hnode => exact Or.inr ⟨_, _, .notANode hnode⟩
  | scalar v comment =>
    cases hl : Literal.ofValue o.stringQuoting.policy v with
    | ok l => exact Or.inl (.scalar comment hl)
    | error halt => exact Or.inr ⟨_, _, .scalar comment hl⟩
  | list children failure later comment ih =>
    cases failure with
    | some f => exact Or.inr ⟨_, _, .copy children f later comment⟩
    | none =>
      rcases decides_or_stops (o := o) children later comment with ⟨inline, hlayout⟩ | hstops
      · rcases forall_or_exists_first (P := Completes o) children with
          hall | ⟨before, child, rest, rfl, hbefore, hchild⟩
        · exact Or.inl (.list comment hlayout hall)
        -- on one line, an element is not asked for its comment
        · by_cases hnode : inline = true ∨ child.isNode = true
          · obtain ⟨p, s, hstops⟩ := (ih child (by simp)).resolve_left hchild
            exact Or.inr ⟨_, _, .element before rest comment hlayout hbefore hnode hstops⟩
          · rw [not_or, Bool.not_eq_true, Bool.not_eq_true] at hnode
            obtain ⟨rfl, hnode⟩ := hnode
            exact Or.inr ⟨_, _, .elementComment before rest comment hlayout hbefore hnode⟩
      · exact Or.inr hstops
  | map es failure comment ih =>
    rcases forall_or_exists_first
        (P := fun e => (keyText? e.1).isSome = true ∧ Completes o e.2) es with
      hall | ⟨before, ⟨k, child⟩, rest, rfl, hbefore, hfirst⟩
    · have hkeys := fun e he => (hall e he).1
      have helements := fun e he => (hall e he).2
      cases failure with
      | some f => exact Or.inr ⟨_, _, .map f comment hkeys helements⟩
      | none => exact Or.inl (.map comment hkeys helements)
    -- the key comes before the child, and the child is asked for its comment before it is written
    · have hkeys := fun e he => (hbefore e he).1
      have helements := fun e he => (hbefore e he).2
      cases hkey : keyText? k with
      | none =>
        exact Or.inr ⟨_, _, .entryKey before child rest failure comment hkeys helements hkey⟩
      | some key =>
        have hsome : (keyText? k).isSome = true := by rw [hkey]; rfl
        have hchild : ¬Completes o child := fun h => hfirst ⟨hsome, h⟩
        by_cases hnode : child.isNode = true
        · obtain ⟨p, s, hstops⟩ := (ih (k, child) (by simp)).resolve_left hchild
          exact Or.inr
            ⟨_, _, .entry before k rest failure comment hkeys helements hsome hnode hstops⟩
        · rw [Bool.not_eq_true] at hnode
          exact Or.inr
            ⟨_, _, .entryComment before k rest failure comment hkeys helements hsome hnode⟩

/-- A node that yields a document completes. -/
theorem completes_of_outcome_node {v : Value} {level : ℕ} {path : Path} {d : Document}
    (h : (Render.node o level path v).outcome = .ok d) : Completes o v := by
  refine (completes_or_stops v).resolve_right ?_
  rintro ⟨p, s, hstops⟩
  exact absurd (h.symm.trans (Render.outcome_node_of_stops hstops level path)) (by simp)

/-- **A rendering that completes yields a text**, if the counts of its options fit. -/
theorem Completes.outcome_render [Host] {root : Value} (h : Completes o root) (hc : o.CountsFit) :
    ∃ text, (render o root).outcome = .ok text := by
  have hnode := (Render.renders_of_completes h).2
  have hdocument : ∃ d, (Render.document o root).outcome = .ok d := by
    cases h with
    | map =>
      obtain ⟨d, hd⟩ := hnode 0 []
      exact ⟨_, by simp only [Render.document, Attempt.outcome_bind, hd]; rfl⟩
    | list | scalar =>
      obtain ⟨d, hd⟩ := hnode 1 []
      exact ⟨_, by simp only [Render.document, Attempt.outcome_bind, hd]; rfl⟩
  obtain ⟨d, hd⟩ := hdocument
  exact ⟨_, by rw [outcome_render_of_countsFit hc, hd]; rfl⟩

/-- **A rendering that is stopped yields the report of the stop**, if the counts of its options
fit. -/
theorem Stops.outcome_render [Host] {root : Value} {p : Path} {s : Stop} (h : Stops o root p s)
    (hc : o.CountsFit) : (render o root).outcome = .error (s.halt p) := by
  have hnode := fun level => Render.outcome_node_of_stops h level []
  have hdocument : (Render.document o root).outcome = .error (s.halt p) := by
    cases root with
    | mapNode | listNode | scalarNode =>
      simp only [Render.document, Attempt.outcome_bind, hnode, Attempt.error_bind,
        List.nil_append]
    | _ =>
      cases h
      rfl
  rw [outcome_render_of_countsFit hc, hdocument]
  rfl

/-- What a rendering ends with tells whether and how it was stopped: counts that do not fit aside,
by one stop, whose report it is. -/
theorem exists_stops_of_error [Host] {root : Value} {halt : Halt}
    (h : (render o root).outcome = .error halt) :
    (¬o.CountsFit ∧ halt = .failure .countTooLarge) ∨
      o.CountsFit ∧ ∃ p s, Stops o root p s ∧ halt = s.halt p := by
  by_cases hc : o.CountsFit
  · refine Or.inr ⟨hc, ?_⟩
    rcases completes_or_stops (o := o) root with hcompletes | ⟨p, s, hstops⟩
    · obtain ⟨text, htext⟩ := hcompletes.outcome_render hc
      exact absurd (htext.symm.trans h) (by simp)
    · exact ⟨p, s, hstops, Except.error.inj (h.symm.trans (hstops.outcome_render hc))⟩
  · exact Or.inl ⟨hc, Except.error.inj (h.symm.trans (outcome_render_of_not_countsFit hc root))⟩

end Total

end Hocon
