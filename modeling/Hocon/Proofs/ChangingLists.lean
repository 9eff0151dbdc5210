import Hocon.Proofs.Fitting

/-!
# Lists that change between readings

A list is read up to three times. The first reading is copied, and its children are what is written.
The other two, one for the shape and one for the length, decide how they are written. Of a list that
stays as it is nobody can tell (`Hocon.Value.IsTree.layoutsAgree`). For one that changes the two can
disagree: children are put on one line although a map is among them, which then stands there without
braces, or an element loses its comment.

This module says exactly when that happens. A list is *settled* if it is replaced by one that holds
for good what was copied of it. Which lists of a tree are settled is given by their positions
(`Hocon.Value.settled`), so one list can be compared as well as all of them, and the question is
whether the text stays the same.

The one thing to know is that it cannot stay the same by chance. The layouts of a list part at its
first piece: what stands behind the opening bracket is a space on one line and a line break in a
block (`Hocon.Layout.lead`), and whatever follows, two documents that part in this way have
different texts (`Hocon.Document.Part.text_ne`).

| the readings that decide | the text with the list settled |
|---|---|
| call for the layout of the copied children | the same |
| call for the other layout | another one |

So the text is that of the settled tree just if the layouts of all settled lists agree with what was
copied (`Hocon.render_of_changing`), and there are lists for which they do not
(`Hocon.render_changing_inconsistent`).
-/

namespace Hocon

/-! ### Trees that may change -/

/-- **A tree whose lists may change**: every child that is copied is a node, and no reading of a
container is broken off. What the later readings of a list yield is left open. -/
inductive Value.IsReadable : Value → Prop
  /-- A scalar node, whatever it holds. -/
  | scalar (value : Value) (comment : Option String) : IsReadable (.scalarNode value comment)
  /-- A list node that can be read each time. -/
  | list {children : List Value} {later : List (Pass Value)} (comment : Option String)
      (children_isReadable : ∀ child ∈ children, IsReadable child)
      (unbroken : ∀ pass ∈ later, pass.failure = none) :
      IsReadable (.listNode children none later comment)
  /-- A map node that can be read. -/
  | map {entries : List (Value × Value)} (comment : Option String)
      (children_isReadable : ∀ entry ∈ entries, IsReadable entry.2) :
      IsReadable (.mapNode entries none comment)

theorem Value.IsReadable.isNode {v : Value} (h : v.IsReadable) : v.isNode = true := by
  cases h <;> rfl

/-- No reading of such a list is broken off. -/
theorem Value.failure_pass {children : List Value} {later : List (Pass Value)}
    (h : ∀ pass ∈ later, pass.failure = none) (number : ℕ) :
    (Value.pass { items := children } later number).failure = none := by
  cases number with
  | zero => rfl
  | succ n =>
    rw [Value.pass]
    cases hn : later[n]? with
    | some pass => exact h pass (List.mem_of_getElem? hn)
    | none =>
      cases hlast : later.getLast? with
      | some pass => exact h pass (List.mem_of_getLast? hlast)
      | none => rfl

/-- Whatever is read of it later, a list that has been read twice does not fall back on what was
copied. -/
theorem Value.pass_cons (first first' p : Pass Value) (later : List (Pass Value)) (number : ℕ) :
    Value.pass first (p :: later) (number + 1) = Value.pass first' (p :: later) (number + 1) := by
  simp only [Value.pass, List.getLast?_cons, Option.getD_some]

/-- **What has to be put into words**: the keys and the values in scalar nodes that are copied, and
the values in the scalar nodes that a later reading of a list yields. -/
inductive Value.Words : Value → Value → Prop
  /-- What a scalar node holds. -/
  | scalar (v : Value) (comment : Option String) : Words (.scalarNode v comment) v
  /-- The key of an entry. -/
  | key {es : List (Value × Value)} {e : Value × Value} (failure : Option Failure)
      (comment : Option String) (mem : e ∈ es) : Words (.mapNode es failure comment) e.1
  /-- A word of the child of an entry. -/
  | entry {es : List (Value × Value)} {e : Value × Value} {x : Value} (failure : Option Failure)
      (comment : Option String) (mem : e ∈ es) (words : Words e.2 x) :
      Words (.mapNode es failure comment) x
  /-- A word of an element. -/
  | element {children : List Value} {c x : Value} (failure : Option Failure)
      (later : List (Pass Value)) (comment : Option String) (mem : c ∈ children)
      (words : Words c x) : Words (.listNode children failure later comment) x
  /-- What a scalar node holds that is an element later. -/
  | item (children : List Value) {later : List (Pass Value)} {pass : Pass Value} {v : Value}
      {inner : Option String} (failure : Option Failure) (comment : Option String)
      (mem : pass ∈ later) (item : .scalarNode v inner ∈ pass.items) :
      Words (.listNode children failure later comment) v

/-- A scalar node among the elements that a reading of a list yields holds a word of the list. -/
theorem Value.Words.of_mem_pass {children : List Value} {later : List (Pass Value)} {number : ℕ}
    {v : Value} {inner comment : Option String}
    (h : .scalarNode v inner ∈ (Value.pass { items := children } later number).items) :
    (Value.listNode children none later comment).Words v := by
  have hfirst : ∀ c ∈ children, c = .scalarNode v inner →
      (Value.listNode children none later comment).Words v := by
    rintro _ hc rfl
    exact .element none later comment hc (.scalar v inner)
  cases number with
  | zero => exact hfirst _ h rfl
  | succ n =>
    rw [Value.pass] at h
    cases hn : later[n]? with
    | some pass =>
      rw [hn] at h
      exact .item children none comment (List.mem_of_getElem? hn) h
    | none =>
      rw [hn] at h
      cases hlast : later.getLast? with
      | some pass =>
        rw [hlast] at h
        exact .item children none comment (List.mem_of_getLast? hlast) h
      | none =>
        rw [hlast] at h
        exact hfirst _ h rfl

/-- A key that has no text cannot be shown. -/
theorem Value.display_eq_none_of_keyText? {k : Value} (h : keyText? k = none) :
    k.display = none := by
  cases k with
  | null | bool | str => cases h
  | _ => exact h

/-- What a value without a literal ends a rendering with under a quoting policy: it is unsupported,
or cannot be shown. -/
theorem Literal.halt_cases_of_policy {quoting : Quoting} {v : Value} {halt : Halt}
    (h : Literal.ofValue (.ok quoting) v = .error halt) :
    (∃ reason, halt = .error { problem := .unsupported v reason }) ∨
      (halt = .failure .tooManyDigits ∧ v.display = none) := by
  rcases Literal.ofValue_cases quoting v with ⟨-, l, hl⟩ | ⟨-, reason, hreason⟩
  · exact absurd (hl.symm.trans h) (by simp)
  · obtain rfl := Except.error.inj (hreason.symm.trans h)
    rw [Halt.ofProblem_unsupported]
    cases hdisplay : v.display with
    | some s => exact Or.inl ⟨reason, rfl⟩
    | none => exact Or.inr ⟨rfl, rfl⟩

/-- What is said of a stop of a tree: it is reported as a value that is unsupported, or as the
failure to write an integer, and then there is a word of the tree that cannot be shown. -/
def Stop.IsUnwritten (s : Stop) (v : Value) : Prop :=
  (∀ path, ∃ e, s.halt path = .error e ∧ e.problem.category = .unsupportedValue) ∨
    ((∀ path, s.halt path = .failure .tooManyDigits) ∧ ∃ x, v.Words x ∧ x.display = none)

/-- A stop below a node is one of the node. -/
theorem Stop.IsUnwritten.mono {s : Stop} {v w : Value} (h : s.IsUnwritten v)
    (hwords : ∀ x, v.Words x → w.Words x) : s.IsUnwritten w := by
  refine h.imp_right ?_
  rintro ⟨hhalt, x, hx, hdisplay⟩
  exact ⟨hhalt, x, hwords x hx, hdisplay⟩

/-- **Such a tree is stopped at a key or a value that cannot be written**, and not by anything
else. -/
theorem Stops.isUnwritten {o : Options} {quoting : Quoting} {v : Value} {p : Path} {s : Stop}
    (hq : o.stringQuoting = .member quoting) (h : Stops o v p s) (hv : v.IsReadable) :
    s.IsUnwritten v := by
  have hpolicy : o.stringQuoting.policy = .ok quoting := by
    rw [hq]
    rfl
  -- all children are nodes and no reading is broken off, so only keys and values are left to blame
  induction h with
  | notANode hnode => exact absurd hv.isNode (by simp [hnode])
  | scalar comment hl =>
    rw [hpolicy] at hl
    rcases Literal.halt_cases_of_policy hl with ⟨reason, rfl⟩ | ⟨rfl, hdisplay⟩
    · exact Or.inl fun path => ⟨_, rfl, rfl⟩
    · exact Or.inr ⟨fun path => rfl, _, .scalar _ comment, hdisplay⟩
  | entryKey before child rest failure comment _ _ hkey =>
    exact Or.inr ⟨fun path => rfl, _,
      .key failure comment (List.mem_append_right before List.mem_cons_self),
      Value.display_eq_none_of_keyText? hkey⟩
  | entryComment before k rest failure comment _ _ _ hnode =>
    cases hv with
    | map _ hchildren =>
      have hchild := (hchildren _ (List.mem_append_right before List.mem_cons_self)).isNode
      exact absurd hchild (by simp [hnode])
  | @entry before k child _ _ rest failure comment _ _ _ _ _ ih =>
    cases hv with
    | map _ hchildren =>
      have hmem : (k, child) ∈ before ++ (k, child) :: rest :=
        List.mem_append_right before List.mem_cons_self
      exact (ih (hchildren _ hmem)).mono fun x hx => .entry none comment hmem hx
  | map f comment _ _ => cases hv
  | copy children f later comment => cases hv
  | shape comment hfailure _ | length comment _ hfailure _ =>
    cases hv with
    | list _ _ hunbroken =>
      rw [Value.failure_pass hunbroken] at hfailure
      cases hfailure
  | @measured _ _ before rest v _ comment inner _ hitems _ hl =>
    rw [hpolicy] at hl
    rcases Literal.halt_cases_of_policy hl with ⟨reason, rfl⟩ | ⟨rfl, hdisplay⟩
    · exact Or.inl fun path => ⟨_, rfl, rfl⟩
    · refine Or.inr ⟨fun path => rfl, _, ?_, hdisplay⟩
      have hmem : .scalarNode v inner ∈ before ++ .scalarNode v inner :: rest :=
        List.mem_append_right before List.mem_cons_self
      exact Value.Words.of_mem_pass (hitems ▸ hmem)
  | elementComment before rest comment _ _ hnode =>
    cases hv with
    | list _ hchildren _ =>
      have hchild := (hchildren _ (List.mem_append_right before List.mem_cons_self)).isNode
      exact absurd hchild (by simp [hnode])
  | @element before child _ _ rest _ _ comment _ _ _ _ ih =>
    cases hv with
    | list _ hchildren _ =>
      have hmem : child ∈ before ++ child :: rest :=
        List.mem_append_right before List.mem_cons_self
      exact (ih (hchildren _ hmem)).mono fun x hx => .element none _ comment hmem hx

/-! ### What the readings decide -/

/-- Whether a value is a scalar node, with or without a comment. -/
def Value.isScalarNode : Value → Bool
  | .scalarNode .. => true
  | _ => false

namespace Layout

variable (o : Options)

/-- **Whether two readings call for one line**: the first one finds no reason for a block, and the
second one finds scalar nodes whose literals stay below the limit. -/
def callForLine (shape length : Pass Value) : Bool :=
  shape.items.all (fun v => (blockReason? v).isNone) &&
    (length.items.all Value.isScalarNode &&
      decide (measured (literals o length.items) < inlineLimit))

/-- **Whether the layout of a list is that of the children that were copied.** -/
def agrees (children : List Value) (later : List (Pass Value)) : Bool :=
  callForLine o (Value.pass { items := children } later 1)
    (Value.pass { items := children } later 2) == fits o children

variable {o}

/-- What measuring says, if it says anything. -/
theorem eq_of_outcome_measure {failure : Option Failure} {index length : ℕ} {items : List Value}
    {inline : Bool} (hlength : length < inlineLimit)
    (h : (measure o.stringQuoting.policy failure index length items).outcome = .ok inline) :
    inline = (items.all Value.isScalarNode &&
      decide (length + measured (literals o items) < inlineLimit)) := by
  induction items generalizing index length with
  | nil =>
    cases failure with
    | some f => cases h
    | none =>
      cases h
      simpa [measured] using hlength
  | cons item rest ih =>
    cases item with
    | scalarNode v comment =>
      rw [measure] at h
      cases hl : Literal.ofValue o.stringQuoting.policy v with
      | error problem =>
        rw [hl] at h
        cases h
      | ok l =>
        have hliteral : o.literal v = l := by rw [Options.literal, hl]
        rw [hl] at h
        rw [List.all_cons, Value.isScalarNode, Bool.true_and, literals_cons,
          Value.held_scalarNode, measured_cons, hliteral]
        by_cases hlimit : inlineLimit ≤ length + l.text.length + 1
        · -- measuring ends here, and what follows only adds to the length
          simp only [hlimit, if_true] at h
          cases h
          have hreached : ¬length + (l.text.length + 1 + measured (literals o rest)) <
              inlineLimit := by omega
          simp only [hreached, decide_false, Bool.and_false]
        · simp only [hlimit, if_false] at h
          have hrest := ih (Nat.not_le.mp hlimit) h
          simpa only [Nat.add_assoc] using hrest
    | _ =>
      cases h
      rfl

/-- **The layout that is chosen is what the second and the third reading call for.** -/
theorem Decides.eq_callForLine {children : List Value} {later : List (Pass Value)} {inline : Bool}
    (h : Decides o children later inline) :
    inline = callForLine o (Value.pass { items := children } later 1)
      (Value.pass { items := children } later 2) := by
  rw [Decides, isInline] at h
  rw [callForLine]
  cases hreason : (Value.pass { items := children } later 1).items.findSome? blockReason? with
  | some reason =>
    rw [hreason] at h
    obtain rfl : false = inline := Except.ok.inj h
    obtain ⟨v, hv, hblock⟩ := List.exists_of_findSome?_eq_some hreason
    have hall : (Value.pass { items := children } later 1).items.all
        (fun v => (blockReason? v).isNone) = false :=
      List.all_eq_false.mpr ⟨v, hv, by simp [hblock]⟩
    rw [hall, Bool.false_and]
  | none =>
    have hnone := List.findSome?_eq_none_iff.mp hreason
    have hall : (Value.pass { items := children } later 1).items.all
        (fun v => (blockReason? v).isNone) = true :=
      List.all_eq_true.mpr fun v hv => by rw [hnone v hv, Option.isNone_none]
    rw [hreason] at h
    cases hfailure : (Value.pass { items := children } later 1).failure with
    | some f =>
      rw [hfailure] at h
      cases h
    | none =>
      rw [hfailure] at h
      have hmeasure := eq_of_outcome_measure (by decide) h
      rw [hall, Bool.true_and, hmeasure, Nat.zero_add]

/-- **A list that does not change agrees with what was copied of it.** -/
theorem agrees_of_stable {children : List Value} {later : List (Pass Value)}
    (hnode : ∀ c ∈ children, c.isNode = true)
    (hstable : ∀ pass ∈ later, pass = { items := children }) : agrees o children later = true := by
  rw [agrees, Value.pass_eq_first hstable, Value.pass_eq_first hstable, beq_iff_eq, callForLine,
    fits]
  have hreason : children.all (fun v => (blockReason? v).isNone) =
      children.all Value.isPlainScalar := by
    rw [Bool.eq_iff_iff, List.all_eq_true, List.all_eq_true]
    refine forall₂_congr fun c hc => ?_
    rw [Option.isNone_iff_eq_none, blockReason?_eq_none_iff (hnode c hc)]
  rw [hreason]
  cases hplain : children.all Value.isPlainScalar with
  | false => rfl
  | true =>
    have hscalar : children.all Value.isScalarNode = true := by
      rw [List.all_eq_true] at hplain ⊢
      intro c hc
      rw [Value.eq_of_isPlainScalar (hplain c hc), Value.isScalarNode]
    rw [hscalar, Bool.true_and]

end Layout

/-! ### Settled lists -/

namespace Value

section Settled

variable (o : Options) (here : Path → Bool)

mutual

/-- **A tree with settled lists**: those at the given positions yield on each reading what was
copied of them. -/
def settled (path : Path) : Value → Value
  | listNode children failure later comment =>
    listNode (settledItems path 0 children) failure (if here path then [] else later) comment
  | mapNode entries failure comment => mapNode (settledEntries path entries) failure comment
  | v => v

/-- The elements of a list with settled lists, from the element at `index` on. -/
def settledItems (path : Path) (index : ℕ) : List Value → List Value
  | [] => []
  | child :: rest =>
    settled (path ++ [.index index]) child :: settledItems path (index + 1) rest

/-- The entries of a map with settled lists. -/
def settledEntries (path : Path) : List (Value × Value) → List (Value × Value)
  | [] => []
  | (k, child) :: rest =>
    (k, settled (path ++ [.key (keyText k)]) child) :: settledEntries path rest

end

mutual

/-- **Whether the layouts agree with what was copied**, for all lists at the given positions. -/
def layoutsAgree (path : Path) : Value → Bool
  | listNode children _ later _ =>
    (!here path || Layout.agrees o children later) && itemsAgree path 0 children
  | mapNode entries _ _ => entriesAgree path entries
  | _ => true

/-- Whether the layouts below the elements of a list agree, from the element at `index` on. -/
def itemsAgree (path : Path) (index : ℕ) : List Value → Bool
  | [] => true
  | child :: rest =>
    layoutsAgree (path ++ [.index index]) child && itemsAgree path (index + 1) rest

/-- Whether the layouts below the entries of a map agree. -/
def entriesAgree (path : Path) : List (Value × Value) → Bool
  | [] => true
  | (k, child) :: rest =>
    layoutsAgree (path ++ [.key (keyText k)]) child && entriesAgree path rest

end

end Settled

variable {o : Options} {here : Path → Bool}

/-! Whatever is asked of a node from above, a settled one gives the same answer. -/

theorem comment?_settled (path : Path) (v : Value) :
    (settled here path v).comment? = v.comment? := by
  cases v <;> simp only [settled, comment?]

theorem separatorBefore_settled (path : Path) (v : Value) :
    Render.separatorBefore o (settled here path v) = Render.separatorBefore o v := by
  cases v <;> simp only [settled, Render.separatorBefore]

theorem blockReason?_settled (path : Path) (v : Value) :
    Layout.blockReason? (settled here path v) = Layout.blockReason? v := by
  cases v <;> simp only [settled, Layout.blockReason?, isNode, typeName]

theorem isEmpty_settledItems (path : Path) (index : ℕ) (children : List Value) :
    (settledItems here path index children).isEmpty = children.isEmpty := by
  cases children <;> simp only [settledItems, List.isEmpty_nil, List.isEmpty_cons]

theorem findSome?_settledItems (path : Path) (index : ℕ) (children : List Value) :
    (settledItems here path index children).findSome? Layout.blockReason? =
      children.findSome? Layout.blockReason? := by
  induction children generalizing index with
  | nil => rw [settledItems]
  | cons child rest ih =>
    rw [settledItems, List.findSome?_cons, List.findSome?_cons, blockReason?_settled, ih]

theorem measure_settledItems (policy : Except Problem Quoting) (failure : Option Failure)
    (path : Path) (index position length : ℕ) (children : List Value) :
    Layout.measure policy failure position length (settledItems here path index children) =
      Layout.measure policy failure position length children := by
  induction children generalizing index position length with
  | nil => rw [settledItems]
  | cons child rest ih =>
    cases child <;> simp only [settledItems, settled, Layout.measure, ih]

/-! Where nothing changes, all layouts agree. -/

theorem itemsAgree_eq_true {children : List Value}
    (h : ∀ c ∈ children, ∀ path, layoutsAgree o here path c = true) (path : Path) (index : ℕ) :
    itemsAgree o here path index children = true := by
  induction children generalizing index with
  | nil => rw [itemsAgree]
  | cons child rest ih =>
    rw [itemsAgree, h child List.mem_cons_self, ih fun c hc => h c (List.mem_cons_of_mem _ hc),
      Bool.and_self]

theorem entriesAgree_eq_true {es : List (Value × Value)}
    (h : ∀ e ∈ es, ∀ path, layoutsAgree o here path e.2 = true) (path : Path) :
    entriesAgree o here path es = true := by
  induction es with
  | nil => rw [entriesAgree]
  | cons e rest ih =>
    rw [entriesAgree, h e List.mem_cons_self, ih fun e he => h e (List.mem_cons_of_mem _ he),
      Bool.and_self]

/-- **In a stable tree all layouts agree with what was copied.** -/
theorem IsTree.layoutsAgree {v : Value} (h : v.IsTree) (path : Path) :
    v.layoutsAgree o here path = true := by
  induction h generalizing path with
  | scalar value comment => rfl
  | @list children later comment htree hstable ih =>
    have hagrees : Layout.agrees o children later = true :=
      Layout.agrees_of_stable (fun c hc => (htree c hc).isNode) hstable
    rw [Value.layoutsAgree, hagrees, Bool.or_true, itemsAgree_eq_true ih, Bool.and_self]
  | map comment _ ih => rw [Value.layoutsAgree, entriesAgree_eq_true ih]

end Value

namespace Layout

variable {o : Options} {quoting : Quoting} {here : Path → Bool} {children : List Value}

theorem isInline_settledItems (policy : Except Problem Quoting) (path : Path)
    (children : List Value) :
    isInline policy { items := Value.settledItems here path 0 children }
        { items := Value.settledItems here path 0 children } =
      isInline policy { items := children } { items := children } := by
  rw [isInline, isInline, Value.findSome?_settledItems, Value.measure_settledItems]

/-- To settle the lists below a list does not change its layout. -/
theorem Decides.settledItems {later : List (Pass Value)} {inline : Bool}
    (h : Decides o children later inline) (path : Path) :
    Decides o (Value.settledItems here path 0 children) later inline := by
  cases later with
  | nil => exact (congrArg Attempt.outcome (isInline_settledItems _ path children)).trans h
  | cons p later =>
    -- what decides was read later, so the copied children do not matter
    rw [Decides, Value.pass_cons _ { items := children }, Value.pass_cons _ { items := children }]
    exact h

/-- Elements that are written have literals. -/
theorem HaveLiterals.of_completes (hq : o.stringQuoting = .member quoting)
    (h : ∀ c ∈ children, Completes o c) : HaveLiterals children := by
  intro v comment hmem
  cases h _ hmem with
  | scalar _ hl =>
    rcases Literal.ofValue_cases quoting v with ⟨hv, -⟩ | ⟨-, reason, hreason⟩
    · exact hv
    · rw [hq] at hl
      exact absurd (hl.symm.trans hreason) (by simp)

/-- **A settled list has the layout of its children.** -/
theorem decides_fits (hq : o.stringQuoting = .member quoting) (h : ∀ c ∈ children, Completes o c)
    (path : Path) :
    Decides o (Value.settledItems here path 0 children) [] (fits o children) := by
  have hchosen := chosen_eq_fits hq (fun c hc => (h c hc).isNode) (HaveLiterals.of_completes hq h)
  exact (congrArg Attempt.outcome (isInline_settledItems _ path children)).trans hchosen

/-- **The layout of a settled list** is the one that was chosen just if that agrees with what was
copied. -/
theorem Decides.exists_settled (hq : o.stringQuoting = .member quoting)
    {later : List (Pass Value)} {inline : Bool} (h : Decides o children later inline)
    (hall : ∀ c ∈ children, Completes o c) (here : Path → Bool) (path : Path) :
    ∃ inline', Decides o (Value.settledItems here path 0 children)
        (if here path then [] else later) inline' ∧
      (inline' = inline ↔ (!here path || agrees o children later) = true) := by
  cases hhere : here path with
  | false => exact ⟨inline, h.settledItems path, iff_of_true rfl rfl⟩
  | true =>
    refine ⟨fits o children, decides_fits hq hall path, ?_⟩
    rw [Bool.not_true, Bool.false_or, agrees, ← h.eq_callForLine, beq_iff_eq]
    exact eq_comm

end Layout

/-! ### Documents that part -/

/-- What a layout begins with: it stands in front of the first element of a list, or of the closing
bracket if there is no element. -/
def Layout.lead (inline : Bool) : Piece := if inline then .space else .newline

namespace Document

/-- **Documents that part**: behind a common beginning, one goes on with a space and the other one
with a line break. -/
def Part (d d' : Document) : Prop :=
  ∃ before rest rest' inline inline', inline ≠ inline' ∧ d = before ++ Layout.lead inline :: rest ∧
    d' = before ++ Layout.lead inline' :: rest'

/-- A line break does not begin with a space. -/
theorem exists_newline_eq_cons [Host] (o : Options) : ∃ c cs, o.newline = c :: cs ∧ c ≠ ' ' := by
  rcases o.newline_cases with hnewline | hnewline <;> exact ⟨_, _, hnewline, by decide⟩

/-- What a layout begins with is a space just if it is one line. -/
theorem head?_text_lead [Host] (o : Options) (inline : Bool) (cs : List Char) :
    ((Layout.lead inline).text o ++ cs).head? = some ' ' ↔ inline = true := by
  cases inline with
  | true => exact iff_of_true rfl rfl
  | false =>
    obtain ⟨c, rest, hnewline, hc⟩ := exists_newline_eq_cons o
    have hlead : (Layout.lead false).text o = c :: rest := hnewline
    rw [hlead, List.cons_append, List.head?_cons, Option.some_inj]
    exact iff_of_false hc (by simp)

/-- **Documents that part have different texts**, whatever fills in the pieces. -/
theorem Part.text_ne [Host] {d d' : Document} (h : Part d d') (o : Options) :
    d.text o ≠ d'.text o := by
  obtain ⟨before, rest, rest', inline, inline', hne, rfl, rfl⟩ := h
  intro htext
  rw [text_append, text_append, List.append_cancel_left_eq, text_cons, text_cons] at htext
  have hhead := head?_text_lead o inline (text o rest)
  rw [htext, head?_text_lead] at hhead
  exact hne (Bool.eq_iff_iff.mpr hhead.symm)

/-- **Documents that are alike**: the same, or else parted. -/
def Alike : Bool → Document → Document → Prop
  | true, d, d' => d = d'
  | false, d, d' => Part d d'

theorem Alike.refl (d : Document) : Alike true d d := rfl

/-- Documents that are alike, one behind the other. -/
theorem Alike.append {same same' : Bool} {d d' e e' : Document} (h : Alike same d d')
    (h' : Alike same' e e') : Alike (same && same') (d ++ e) (d' ++ e') := by
  cases same with
  | false =>
    obtain ⟨before, rest, rest', inline, inline', hne, rfl, rfl⟩ := h
    exact ⟨before, rest ++ e, rest' ++ e', inline, inline', hne, by simp, by simp⟩
  | true =>
    obtain rfl : d = d' := h
    cases same' with
    | true => exact congrArg (d ++ ·) h'
    | false =>
      obtain ⟨before, rest, rest', inline, inline', hne, rfl, rfl⟩ := h'
      exact ⟨d ++ before, rest, rest', inline, inline', hne, by simp, by simp⟩

/-- Documents that are alike, behind the same document. -/
theorem Alike.append_left {same : Bool} {d d' : Document} (h : Alike same d d') (e : Document) :
    Alike same (e ++ d) (e ++ d') :=
  (Alike.refl e).append h

/-- Documents that are alike, in front of the same document. -/
theorem Alike.append_right {same : Bool} {d d' : Document} (h : Alike same d d') (e : Document) :
    Alike same (d ++ e) (d' ++ e) := by
  rw [← Bool.and_true same]
  exact h.append (.refl e)

/-- **Documents that are alike have the same text just if they are the same.** -/
theorem Alike.text_eq_iff [Host] {same : Bool} {d d' : Document} (h : Alike same d d')
    (o : Options) :
    d.text o = d'.text o ↔ same = true := by
  cases same with
  | true => exact iff_of_true (congrArg (text o) h) rfl
  | false => exact iff_of_false (Part.text_ne h o) (by simp)

end Document

/-! ### The walk over a settled tree -/

namespace Render

open Document (Alike)

variable {o : Options} {quoting : Quoting} {here : Path → Bool}

/-- What is said of two walks: both yield documents, and these are alike. -/
def YieldAlike (same : Bool) (x y : Except Halt Document) : Prop :=
  ∃ d d', x = .ok d ∧ y = .ok d' ∧ Alike same d d'

theorem YieldAlike.bind {same same' : Bool} {x y : Except Halt Document}
    {f g : Document → Except Halt Document} (h : YieldAlike same x y)
    (hf : ∀ d d', Alike same d d' → YieldAlike same' (f d) (g d')) :
    YieldAlike same' (x >>= f) (y >>= g) := by
  obtain ⟨d, d', rfl, rfl, hd⟩ := h
  exact hf d d' hd

/-- What is said of a node: wherever it stands, it is written, and so is the settled one. -/
def WritesAlike (o : Options) (here : Path → Bool) (v : Value) : Prop :=
  v.isNode = true ∧ ∀ level path, YieldAlike (v.layoutsAgree o here path)
    (node o level path v).outcome (node o level path (v.settled here path)).outcome

theorem yieldAlike_commentAbove {v : Value} (h : v.isNode = true) (level : ℕ) (path : Path) :
    YieldAlike true (commentAbove level v).outcome
      (commentAbove level (v.settled here path)).outcome := by
  obtain ⟨d, hd⟩ := exists_commentAbove h level
  refine ⟨d, d, hd, ?_, .refl d⟩
  rwa [commentAbove, Value.comment?_settled]

theorem yieldAlike_entries (level : ℕ) (path : Path) {es : List (Value × Value)}
    (hkeys : ∀ e ∈ es, (keyText? e.1).isSome = true) (h : ∀ e ∈ es, WritesAlike o here e.2) :
    YieldAlike (Value.entriesAgree o here path es) (entries o level path es).outcome
      (entries o level path (Value.settledEntries here path es)).outcome := by
  induction es with
  | nil => exact ⟨[], [], by rw [entries]; rfl, by rw [Value.settledEntries, entries]; rfl, .refl _⟩
  | cons e rest ih =>
    obtain ⟨k, child⟩ := e
    obtain ⟨hnode, hchild⟩ := h _ List.mem_cons_self
    have hkey := outcome_keyTextOf (hkeys _ List.mem_cons_self)
    have hrest := ih (fun e he => hkeys e (List.mem_cons_of_mem _ he))
      fun e he => h e (List.mem_cons_of_mem _ he)
    simp only [Value.entriesAgree, Value.settledEntries, entries, Attempt.outcome_bind, hkey,
      Attempt.ok_bind, Value.separatorBefore_settled]
    refine (yieldAlike_commentAbove hnode level _).bind fun above _ habove => ?_
    obtain rfl := habove
    refine (hchild (level + 1) _).bind fun body body' hbody => ?_
    refine hrest.bind fun others others' hothers => ?_
    exact ⟨_, _, rfl, rfl, ((hbody.append_left _).append_right _).append hothers⟩

theorem yieldAlike_inlineElements (path : Path) (index : ℕ) {children : List Value}
    (h : ∀ c ∈ children, WritesAlike o here c) :
    YieldAlike (Value.itemsAgree o here path index children)
      (inlineElements o path index children).outcome
      (inlineElements o path index (Value.settledItems here path index children)).outcome := by
  induction children generalizing index with
  | nil =>
    exact ⟨[], [], by rw [inlineElements]; rfl, by rw [Value.settledItems, inlineElements]; rfl,
      .refl _⟩
  | cons child rest ih =>
    obtain ⟨-, hchild⟩ := h _ List.mem_cons_self
    have hrest := ih (index + 1) fun c hc => h c (List.mem_cons_of_mem _ hc)
    simp only [Value.itemsAgree, Value.settledItems, inlineElements, Attempt.outcome_bind,
      Value.isEmpty_settledItems]
    refine (hchild 0 _).bind fun body body' hbody => ?_
    refine hrest.bind fun others others' hothers => ?_
    exact ⟨_, _, rfl, rfl, ((hbody.append_left _).append_right _).append hothers⟩

theorem yieldAlike_blockElements (level : ℕ) (path : Path) (index : ℕ) {children : List Value}
    (h : ∀ c ∈ children, WritesAlike o here c) :
    YieldAlike (Value.itemsAgree o here path index children)
      (blockElements o level path index children).outcome
      (blockElements o level path index (Value.settledItems here path index children)).outcome := by
  induction children generalizing index with
  | nil =>
    exact ⟨[], [], by rw [blockElements]; rfl, by rw [Value.settledItems, blockElements]; rfl,
      .refl _⟩
  | cons child rest ih =>
    obtain ⟨hnode, hchild⟩ := h _ List.mem_cons_self
    have hrest := ih (index + 1) fun c hc => h c (List.mem_cons_of_mem _ hc)
    simp only [Value.itemsAgree, Value.settledItems, blockElements, Attempt.outcome_bind,
      Value.isEmpty_settledItems]
    refine (yieldAlike_commentAbove hnode level _).bind fun above _ habove => ?_
    obtain rfl := habove
    refine (hchild (level + 1) _).bind fun body body' hbody => ?_
    refine hrest.bind fun others others' hothers => ?_
    exact ⟨_, _, rfl, rfl, ((hbody.append_left _).append_right _).append hothers⟩

/-- The walk over the elements of a list in one of its two layouts. -/
def elements (o : Options) (inline : Bool) (level : ℕ) (path : Path) (children : List Value) :
    Except Halt Document :=
  (if inline then inlineElements o path 0 children
    else blockElements o level path 0 children).outcome

/-- The elements are written in the one layout like in the other, apart from the layout. -/
theorem yieldAlike_elements (inline : Bool) (level : ℕ) (path : Path) {children : List Value}
    (h : ∀ c ∈ children, WritesAlike o here c) :
    YieldAlike (Value.itemsAgree o here path 0 children) (elements o inline level path children)
      (elements o inline level path (Value.settledItems here path 0 children)) := by
  cases inline with
  | true => exact yieldAlike_inlineElements path 0 h
  | false => exact yieldAlike_blockElements level path 0 h

/-- **A list begins with its layout.** -/
theorem exists_inBrackets {inline : Bool} {level : ℕ} {path : Path} {children : List Value}
    {d : Document} (h : elements o inline level path children = .ok d) :
    ∃ rest, inBrackets inline level children.isEmpty d =
      .opening .square :: Layout.lead inline :: rest := by
  cases children with
  | nil =>
    have hd : d = [] := by cases inline <;> exact (Except.ok.inj h).symm
    subst hd
    cases inline <;> exact ⟨_, rfl⟩
  | cons child rest =>
    cases inline with
    | true =>
      change (inlineElements o path 0 (child :: rest)).outcome = .ok d at h
      simp only [inlineElements, Attempt.outcome_bind] at h
      obtain ⟨body, -, h⟩ := Attempt.exists_of_bind_eq_ok h
      obtain ⟨others, -, h⟩ := Attempt.exists_of_bind_eq_ok h
      cases h
      exact ⟨_, rfl⟩
    | false =>
      change (blockElements o level path 0 (child :: rest)).outcome = .ok d at h
      simp only [blockElements, Attempt.outcome_bind] at h
      obtain ⟨above, -, h⟩ := Attempt.exists_of_bind_eq_ok h
      obtain ⟨body, -, h⟩ := Attempt.exists_of_bind_eq_ok h
      obtain ⟨others, -, h⟩ := Attempt.exists_of_bind_eq_ok h
      cases h
      exact ⟨_, rfl⟩

/-- The brackets around documents that are alike; those around no element hold a space. -/
theorem alike_inBrackets {same empty : Bool} {d d' : Document} (h : Alike same d d')
    (hempty : empty = true → same = true) (inline : Bool) (level : ℕ) :
    Alike same (inBrackets inline level empty d) (inBrackets inline level empty d') := by
  cases inline with
  | false => exact (h.append_left [.opening .square]).append_right _
  | true =>
    cases empty with
    | false => exact (h.append_left [.opening .square]).append_right _
    | true =>
      obtain rfl : same = true := hempty rfl
      exact .refl _

theorem outcome_node_of_elements {children : List Value} {later : List (Pass Value)}
    {inline : Bool} {level : ℕ} {path : Path} {d : Document}
    (h : Layout.Decides o children later inline)
    (hd : elements o inline level path children = .ok d) (comment : Option String) :
    (node o level path (.listNode children none later comment)).outcome =
      .ok (inBrackets inline level children.isEmpty d) := by
  rw [outcome_node_listNode h]
  exact congrArg (Except.map _) hd

/-- **The walk over a list and the settled one.** If they have the same layout, the documents are as
alike as those of their elements, and if not, they part behind the opening bracket. -/
theorem yieldAlike_listNode (hq : o.stringQuoting = .member quoting) {children : List Value}
    {later : List (Pass Value)} {inline : Bool} (h : Layout.Decides o children later inline)
    (hall : ∀ c ∈ children, Completes o c) (hwrites : ∀ c ∈ children, WritesAlike o here c)
    {v : Value} {comment : Option String} (hv : v = .listNode children none later comment)
    (level : ℕ) (path : Path) :
    YieldAlike (v.layoutsAgree o here path) (node o level path v).outcome
      (node o level path (v.settled here path)).outcome := by
  subst hv
  obtain ⟨inline', hsettled, hagree⟩ := h.exists_settled hq hall here path
  obtain ⟨d, -, hd, -, -⟩ := yieldAlike_elements inline level path hwrites
  obtain ⟨d₁, d', hd₁, hd', halike⟩ := yieldAlike_elements inline' level path hwrites
  have hnode := outcome_node_of_elements h hd comment
  have hnode' := outcome_node_of_elements hsettled hd' comment
  rw [Value.isEmpty_settledItems] at hnode'
  rw [Value.settled, Value.layoutsAgree]
  refine ⟨_, _, hnode, hnode', ?_⟩
  by_cases hsame : inline' = inline
  · subst hsame
    obtain rfl : d = d₁ := Except.ok.inj (hd.symm.trans hd₁)
    rw [hagree.mp rfl, Bool.true_and]
    refine alike_inBrackets halike (fun hempty => ?_) inline' level
    -- below no element, all layouts agree
    rw [List.isEmpty_iff.mp hempty, Value.itemsAgree]
  · -- the two layouts part at once, so the elements do not matter
    rw [Bool.eq_false_iff.mpr fun htrue => hsame (hagree.mpr htrue), Bool.false_and]
    obtain ⟨rest, hrest⟩ := exists_inBrackets hd
    obtain ⟨rest', hrest'⟩ := exists_inBrackets hd'
    rw [Value.isEmpty_settledItems] at hrest'
    exact ⟨[.opening .square], rest, rest', inline, inline', Ne.symm hsame, hrest, hrest'⟩

/-- **The walk over a settled node** yields the same document if the layouts agree, and one that
parts from it if they do not. -/
theorem writesAlike_of_completes (hq : o.stringQuoting = .member quoting) {v : Value}
    (h : Completes o v) (here : Path → Bool) : WritesAlike o here v := by
  refine ⟨h.isNode, ?_⟩
  induction h with
  | @scalar v l comment hl =>
    intro level path
    have hnode : (node o level path (.scalarNode v comment)).outcome = .ok [.literal l] := by
      simp only [node, scalar, hl]
      rfl
    exact ⟨_, _, hnode, hnode, .refl _⟩
  | list comment hlayout hall ih =>
    exact yieldAlike_listNode hq hlayout hall (fun c hc => ⟨(hall c hc).isNode, ih c hc⟩) rfl
  | @map es comment hkeys hall ih =>
    intro level path
    have hentries := yieldAlike_entries level path hkeys fun e he => ⟨(hall e he).isNode, ih e he⟩
    simp only [Value.settled, Value.layoutsAgree, node, brokenOff, Attempt.outcome_bind,
      Attempt.outcome_pure, Attempt.ok_bind]
    refine hentries.bind fun d d' hd => ⟨_, _, rfl, rfl, ?_⟩
    rw [inBraces, inBraces]
    split_ifs
    · exact hd
    · exact (hd.append_left _).append_right _

/-- **The walk over a whole settled tree.** -/
theorem yieldAlike_document (hq : o.stringQuoting = .member quoting) {root : Value}
    (h : Completes o root) (here : Path → Bool) :
    YieldAlike (root.layoutsAgree o here []) (document o root).outcome
      (document o (root.settled here [])).outcome := by
  obtain ⟨-, hnode⟩ := writesAlike_of_completes hq h here
  have hbare := hnode 0 []
  have hnested := hnode 1 []
  cases h with
  | map comment =>
    simp only [Value.settled, document, Attempt.outcome_bind, Attempt.outcome_pure] at hbare ⊢
    exact hbare.bind fun d d' hd => ⟨_, _, rfl, rfl, hd.append_left _⟩
  | list comment | scalar comment =>
    simp only [Value.settled, document, Attempt.outcome_bind, Attempt.outcome_pure] at hnested ⊢
    exact hnested.bind fun d d' hd => ⟨_, _, rfl, rfl, (hd.append_left _).append_right _⟩

end Render

/-! ### Rendering trees that change -/

section Rendering

variable {o : Options} {root : Value}

/-- **Rendering a tree whose lists may change** fails with a value that is unsupported, or yields a
text; counts that do not fit into a machine word, and integers with too many digits, are all that
can come in between. Whichever of its lists are settled, a tree with a text then has a text as well,
and it is the same one exactly if the layouts of these lists agree with what was copied of them. -/
theorem render_of_changing [Host] (ho : o.HasMembers) (h : root.IsReadable) :
    (∃ e, (render o root).outcome = .error (.error e) ∧
        e.problem.category = .unsupportedValue) ∨
      (∃ text, (render o root).outcome = .ok text ∧
        ∀ here : Path → Bool, ∃ text', (render o (root.settled here [])).outcome = .ok text' ∧
          (text = text' ↔ root.layoutsAgree o here [] = true)) ∨
      ((render o root).outcome = .error (.failure .countTooLarge) ∧ ¬o.CountsFit) ∨
      ((render o root).outcome = .error (.failure .tooManyDigits) ∧
        ∃ x, root.Words x ∧ x.display = none) := by
  obtain ⟨quoting, hq⟩ := ho.stringQuoting
  by_cases hc : o.CountsFit
  swap
  · exact Or.inr (Or.inr (Or.inl ⟨outcome_render_of_not_countsFit hc root, hc⟩))
  rcases completes_or_stops (o := o) root with hcompletes | ⟨p, s, hstops⟩
  · obtain ⟨text, htext⟩ := hcompletes.outcome_render hc
    refine Or.inr (Or.inl ⟨text, htext, fun here => ?_⟩)
    obtain ⟨d, d', hd, hd', halike⟩ := Render.yieldAlike_document hq hcompletes here
    have hrender : ∀ {v : Value} {e : Document}, (Render.document o v).outcome = .ok e →
        (render o v).outcome = .ok (String.ofList (e.text o)) := by
      intro v e he
      rw [outcome_render_of_countsFit hc, he]
      rfl
    obtain rfl := Except.ok.inj (htext.symm.trans (hrender hd))
    refine ⟨_, hrender hd', ?_⟩
    rw [String.ofList_inj, halike.text_eq_iff]
  · have hrender := hstops.outcome_render hc
    rcases hstops.isUnwritten hq h with hunsupported | ⟨hfailure, hword⟩
    · obtain ⟨e, he, hcategory⟩ := hunsupported p
      exact Or.inl ⟨e, by rw [hrender, he], hcategory⟩
    · exact Or.inr (Or.inr (Or.inr ⟨by rw [hrender, hfailure], hword⟩))

end Rendering

/-- Two lists that change: below `a`, a number that is another one when it is read again, and below
`b`, a number that has lost its comment then. -/
def changingNumbers : Value :=
  .ofEntries
    [(.str "a", .changingList [[.scalarNode (.int 1) none], [.scalarNode (.int 2) none]] none),
      (.str "b", .changingList [[.scalarNode (.int 1) (some "one")], [.scalarNode (.int 1) none]]
        none)]

theorem isReadable_changingNumbers : changingNumbers.IsReadable := by
  have hlist : ∀ (v w : Value) (comment : Option String),
      (Value.changingList [[.scalarNode v comment], [.scalarNode w none]] none).IsReadable := by
    intro v w comment
    exact .list none (List.forall_mem_singleton.mpr (.scalar v comment))
      (List.forall_mem_singleton.mpr rfl)
  refine .map none (List.forall_mem_cons.mpr ⟨hlist _ _ _, ?_⟩)
  exact List.forall_mem_singleton.mpr (hlist _ _ _)

open scoped Unix

/-- To settle the list below `a` does not change the text, and to settle the one below `b` does. -/
theorem render_of_changingNumbers :
    Options.HasMembers {} ∧ changingNumbers.IsReadable ∧
      (render {} changingNumbers).outcome = .ok "a: [ 1 ]\nb: [ 1 ]\n" ∧
      (render {} (changingNumbers.settled (fun p => decide (p = [.key "a"])) [])).outcome =
        .ok "a: [ 1 ]\nb: [ 1 ]\n" ∧
      ∃ text', (render {} (changingNumbers.settled (fun p => decide (p = [.key "b"])) [])).outcome =
        .ok text' ∧ "a: [ 1 ]\nb: [ 1 ]\n" ≠ text' := by
  have ho : Options.HasMembers {} := ⟨⟨_, rfl⟩, ⟨_, rfl⟩, ⟨_, rfl⟩⟩
  have hr : (render {} changingNumbers).outcome = .ok "a: [ 1 ]\nb: [ 1 ]\n" := rfl
  rcases render_of_changing ho isReadable_changingNumbers with
    ⟨e, he, -⟩ | ⟨text, htext, hall⟩ | ⟨he, -⟩ | ⟨he, -⟩
  · exact absurd (hr.symm.trans he) (by simp)
  · obtain rfl := Except.ok.inj (hr.symm.trans htext)
    obtain ⟨kept, hkept, hsame⟩ := hall fun p => decide (p = [.key "a"])
    obtain ⟨other, hother, hdifferent⟩ := hall fun p => decide (p = [.key "b"])
    obtain rfl := hsame.mpr (by decide)
    exact ⟨ho, isReadable_changingNumbers, hr, hkept, other, hother, fun htext' =>
      absurd (hdifferent.mp htext') (by decide)⟩
  · exact absurd (hr.symm.trans he) (by simp)
  · exact absurd (hr.symm.trans he) (by simp)

/-- A list that holds a map when it is copied and nothing later. -/
def hiddenMap : Value :=
  .changingList [[.ofEntries [(.str "a", .scalarNode (.int 1) none)]], []] none

/-- A list whose element has a comment when it is copied and none later. -/
def hiddenComment : Value :=
  .changingList [[.scalarNode (.int 1) (some "x")], [.scalarNode (.int 1) none]] none

/-- **A list that changes can be written in a layout that is not that of its children**: a map
stands on one line without its braces, and an element has lost its comment. -/
theorem render_changing_inconsistent :
    ((render {} hiddenMap).outcome = .ok "[ a: 1\n ]\n" ∧
      (render {} (hiddenMap.settled (fun _ => true) [])).outcome =
        .ok "[\n    \x7b\n        a: 1\n    \x7d\n]\n") ∧
    (render {} hiddenComment).outcome = .ok "[ 1 ]\n" ∧
      (render {} (hiddenComment.settled (fun _ => true) [])).outcome =
        .ok "[\n    # x\n    1\n]\n" :=
  ⟨⟨rfl, rfl⟩, rfl, rfl⟩

end Hocon
