import Hocon.Proofs.Lines

/-!
# What a walk over a tree writes

Rendering is a walk that writes pieces, keeps a log, decides a layout for each list and stops at
the first part that cannot be written. This module says once what the walk does to a tree, so that
nothing later has to look at it again: it ends with the halt of the first such part in document
order, and if there is none, with the lines of `Hocon.Value.lines`.

* `Hocon.Render.Ends` – how a walk ends: with a given halt, or with a document that satisfies a
  given condition;
* `Hocon.Render.Ends.bind` – two walks one after the other end with the first halt of the two;
* `Hocon.Layout.outcome_layoutOf` – the choice of a layout: it fails with the first halt of the
  elements, or says whether the list fits on one line;
* `Hocon.Render.outcome_document` – the whole walk.

The choice of a layout is the delicate one. Measuring stops at the limit, so a list with a value
behind that point that cannot be written is found to be a block; the same value is then met when the
block is written. Whichever of the two meets it, the halt is the same.
-/

namespace Hocon

/-! ### Parts that cannot be written -/

/-- What a part ends a rendering with, if it cannot be written. -/
def haltOf (policy : Except Problem Quoting) : Path × Value.Part → Option Halt
  | (_, .key k) => if (keyText? k).isSome then none else some (.failure .tooManyDigits)
  | (path, .scalar v) =>
    match Literal.ofValue policy v with
    | .ok _ => none
    | .error halt => some (halt.locate path)

/-- What the first of several parts that cannot be written ends a rendering with. -/
def firstHalt (policy : Except Problem Quoting) (parts : List (Path × Value.Part)) : Option Halt :=
  parts.findSome? (haltOf policy)

theorem firstHalt_append (policy : Except Problem Quoting) (xs ys : List (Path × Value.Part)) :
    firstHalt policy (xs ++ ys) = (firstHalt policy xs).or (firstHalt policy ys) :=
  List.findSome?_append

theorem firstHalt_cons (policy : Except Problem Quoting) (p : Path × Value.Part)
    (ps : List (Path × Value.Part)) :
    firstHalt policy (p :: ps) = (haltOf policy p).or (firstHalt policy ps) := by
  rw [firstHalt, List.findSome?_cons]
  cases haltOf policy p <;> rfl

namespace Attempt

variable {ε ε' α : Type}

theorem outcome_adapt (f : ε → ε') (x : Attempt ε α) :
    outcome (x.adapt f) = (outcome x).mapError f := by
  change (Except.mapError f <$> ExceptT.run x).value = _
  rfl

end Attempt

namespace Render

/-! ### How a walk ends -/

variable {α β : Type}

/-- **How a walk ends**: with the halt, if there is one, and otherwise with a result for which `P`
holds. -/
def Ends (result : Except Halt α) (halt : Option Halt) (P : α → Prop) : Prop :=
  match halt with
  | some h => result = .error h
  | none => ∃ a, result = .ok a ∧ P a

theorem ends_ok {a : α} {P : α → Prop} (h : P a) : Ends (.ok a) none P := ⟨a, rfl, h⟩

/-- **Two walks one after the other** end with the first halt of the two. -/
theorem Ends.bind {x : Except Halt α} {f : α → Except Halt β} {p q : Option Halt}
    {P : α → Prop} {Q : β → Prop} (hx : Ends x p P) (hf : ∀ a, P a → Ends (f a) q Q) :
    Ends (x >>= f) (p.or q) Q := by
  cases p with
  | some e =>
    rw [show x = .error e from hx]
    rfl
  | none =>
    obtain ⟨a, ha, hP⟩ := hx
    rw [ha]
    exact hf a hP

/-- A walk after one that goes on. -/
theorem Ends.after {x : Except Halt α} {f : α → Except Halt β} {q : Option Halt}
    {P : α → Prop} {Q : β → Prop} (hx : Ends x none P) (hf : ∀ a, P a → Ends (f a) q Q) :
    Ends (x >>= f) q Q :=
  hx.bind hf

/-- What is made of the result of a walk. -/
theorem Ends.map {x : Except Halt α} {f : α → β} {p : Option Halt} {P : α → Prop}
    {Q : β → Prop} (hx : Ends x p P) (h : ∀ a, P a → Q (f a)) :
    Ends (x >>= fun a => .ok (f a)) p Q := by
  rw [← Option.or_none (o := p)]
  exact hx.bind fun a ha => ends_ok (h a ha)

end Render

/-! ### The choice of a layout -/

namespace Layout

variable {o : Options} {quoting : Quoting}

@[simp] theorem literals_nil : literals o [] = [] := rfl

@[simp] theorem literals_cons (child : Value) (rest : List Value) :
    literals o (child :: rest) = o.literal child.held :: literals o rest := rfl

theorem measured_cons (l : Literal) (ls : List Literal) :
    measured (l :: ls) = l.text.length + 1 + measured ls := rfl

/-- A node is no reason for a block exactly when it is a scalar node without a comment. -/
theorem blockReason?_eq_none_iff {v : Value} (h : v.isNode = true) :
    blockReason? v = none ↔ v.isPlainScalar = true := by
  cases v with
  | scalarNode value comment => cases comment <;> simp [blockReason?, Value.isPlainScalar]
  | listNode | mapNode => simp [blockReason?, Value.isPlainScalar, Value.isNode]
  | _ => exact absurd h (by simp [Value.isNode])

theorem literal_eq_of_ofValue (hq : o.stringQuoting.policy = .ok quoting) {v : Value} {l : Literal}
    (h : Literal.ofValue (.ok quoting) v = .ok l) : o.literal v = l := by
  rw [Options.literal, hq, h]

/-- What measuring an element that cannot be written ends with, once the list is left, is what
writing the element would end with. -/
theorem haltOfLayout_measuringHalt (path : Path) (index : ℕ) (v : Value)
    (reason : Option String) :
    Render.haltOfLayout path (measuringHalt index (.ofProblem (.unsupported v reason))) =
      (Halt.ofProblem (.unsupported v reason)).locate (path ++ [.index index]) := by
  rw [Halt.ofProblem_unsupported]
  split <;> rfl

/-- What measuring a list of plain scalar nodes says: that it fits, and then all of its elements
have literals; that it does not; or what its first element without a literal ends with, at a
position relative to the list. -/
theorem outcome_measure (hq : o.stringQuoting.policy = .ok quoting) (path : Path)
    {children : List Value} (hplain : ∀ child ∈ children, child.isPlainScalar = true)
    (index length : ℕ) (hlength : length < inlineLimit) :
    ((measure (.ok quoting) none index length children).outcome = .ok true ∧
        length + measured (literals o children) < inlineLimit ∧
        firstHalt (.ok quoting) (Value.itemParts path index children) = none) ∨
      ((measure (.ok quoting) none index length children).outcome = .ok false ∧
        inlineLimit ≤ length + measured (literals o children)) ∨
      ∃ halt, (measure (.ok quoting) none index length children).outcome = .error halt ∧
        firstHalt (.ok quoting) (Value.itemParts path index children) =
          some (Render.haltOfLayout path halt) := by
  -- the induction is over all positions and over all lengths below the limit
  induction children generalizing index length with
  | nil => exact Or.inl ⟨rfl, hlength, rfl⟩
  | cons child rest ih =>
    rw [Value.eq_of_isPlainScalar (hplain child List.mem_cons_self)]
    have hrest := fun c hc => hplain c (List.mem_cons_of_mem _ hc)
    rcases Literal.ofValue_cases quoting child.held with ⟨-, l, hl⟩ | ⟨-, reason, hreason⟩
    · have hheld : o.literal child.held = l := literal_eq_of_ofValue hq hl
      have hhalt : firstHalt (.ok quoting) (Value.itemParts path index
          (.scalarNode child.held none :: rest)) =
          firstHalt (.ok quoting) (Value.itemParts path (index + 1) rest) := by
        simp [Value.itemParts, Value.parts, firstHalt, haltOf, hl]
      have hsum : measured (literals o (.scalarNode child.held none :: rest)) =
          l.text.length + 1 + measured (literals o rest) := by
        rw [← hheld, ← measured_cons, literals_cons, Value.held_scalarNode]
      rw [hhalt, hsum, measure, hl]
      by_cases hlimit : inlineLimit ≤ length + l.text.length + 1
      · -- measuring ends here, whatever the rest holds
        simp only [hlimit, if_true]
        exact Or.inr (Or.inl ⟨rfl, by omega⟩)
      · simp only [hlimit, if_false]
        have := ih hrest (index + 1) (length + l.text.length + 1) (by omega)
        simpa only [Nat.add_assoc] using this
    · refine Or.inr (Or.inr
        ⟨measuringHalt index (.ofProblem (.unsupported child.held reason)), ?_, ?_⟩)
      · rw [measure, hreason]
        rfl
      · simp [Value.itemParts, Value.parts, firstHalt, haltOf, hreason, haltOfLayout_measuringHalt]

/-- **The choice of a layout** for a list of trees: what its first element without a literal ends
with; or that the list fits on one line, and then all elements can be written; or that it does not
fit. -/
theorem outcome_layoutOf (hq : o.stringQuoting.policy = .ok quoting) (path : Path)
    {children : List Value} (htree : ∀ child ∈ children, child.IsTree) :
    ((Render.layoutOf o path { items := children } { items := children }).outcome = .ok true ∧
        fits o children = true ∧
        firstHalt (.ok quoting) (Value.itemParts path 0 children) = none) ∨
      ((Render.layoutOf o path { items := children } { items := children }).outcome = .ok false ∧
        fits o children = false) ∨
      ∃ halt, (Render.layoutOf o path { items := children } { items := children }).outcome =
          .error halt ∧
        firstHalt (.ok quoting) (Value.itemParts path 0 children) = some halt := by
  simp only [Render.layoutOf, Attempt.outcome_bind, Attempt.outcome_adapt, hq]
  by_cases hplain : ∀ child ∈ children, child.isPlainScalar = true
  · have hreason : children.findSome? blockReason? = none :=
      List.findSome?_eq_none_iff.mpr fun child hchild =>
        (blockReason?_eq_none_iff (htree child hchild).isNode).mpr (hplain child hchild)
    have hall : children.all Value.isPlainScalar = true := List.all_eq_true.mpr hplain
    simp only [isInline, hreason, fits, hall, Bool.true_and]
    rcases outcome_measure hq path hplain 0 0 (by decide) with
      ⟨hm, hsum, hhalt⟩ | ⟨hm, hsum⟩ | ⟨halt, hm, hhalt⟩
    · rw [hm]
      exact Or.inl ⟨rfl, by simpa using hsum, hhalt⟩
    · rw [hm]
      exact Or.inr (Or.inl ⟨rfl, by simpa using hsum⟩)
    · rw [hm]
      exact Or.inr (Or.inr ⟨_, rfl, hhalt⟩)
  · have hall : children.all Value.isPlainScalar = false := by
      simpa [List.all_eq_true] using hplain
    refine Or.inr (Or.inl ⟨?_, by rw [fits, hall, Bool.false_and]⟩)
    cases hreason : children.findSome? blockReason? with
    | none =>
      refine absurd (fun child hchild => ?_) hplain
      exact (blockReason?_eq_none_iff (htree child hchild).isNode).mp
        (List.findSome?_eq_none_iff.mp hreason child hchild)
    | some reason =>
      simp only [isInline, hreason]
      rfl

end Layout

/-! ### The walk -/

namespace Render

variable {o : Options} {quoting : Quoting}

theorem ends_commentAbove {v : Value} (h : v.IsTree) (level : ℕ) :
    Ends (commentAbove level v).outcome none
      (· = Document.ofLines (Line.ofComment level v.comment)) := by
  rw [commentAbove, h.comment?_eq, ← Document.ofComment_eq_ofLines]
  exact ends_ok rfl

/-- What is said of a walk over a node: wherever the node stands, the walk ends with the halt of the
first of its parts that cannot be written, or else completes `head` and `tail` to the lines of the
node. -/
def WritesLines (o : Options) (v : Value) : Prop :=
  ∀ (level : ℕ) (path : Path),
    Ends (node o (level + 1) path v).outcome (firstHalt o.stringQuoting.policy (v.parts path))
      fun d => ∀ head tail,
        .indent level :: (head ++ d ++ tail ++ [.newline]) =
          Document.ofLines (v.lines o level head tail)

/-- The text of a key, or the halt of a key that has none. -/
theorem ends_keyTextOf (policy : Except Problem Quoting) (path : Path) (k : Value) :
    Ends (keyTextOf k).outcome (haltOf policy (path, .key k)) (· = keyText k) := by
  rw [keyTextOf, keyText, haltOf]
  cases keyText? k with
  | none => rfl
  | some key => exact ends_ok rfl

theorem ends_entries (level : ℕ) (path : Path) {es : List (Value × Value)}
    (htree : ∀ e ∈ es, e.2.IsTree) (hnode : ∀ e ∈ es, WritesLines o e.2) :
    Ends (entries o level path es).outcome
      (firstHalt o.stringQuoting.policy (Value.entryParts path es))
      (· = Document.ofLines (Value.entryLines o level es)) := by
  induction es with
  | nil => exact ends_ok rfl
  | cons e rest ih =>
    obtain ⟨k, child⟩ := e
    have hrest := ih (fun e he => htree e (List.mem_cons_of_mem _ he))
      fun e he => hnode e (List.mem_cons_of_mem _ he)
    simp only [entries, Attempt.outcome_bind, Value.entryParts, firstHalt_cons, firstHalt_append]
    refine (ends_keyTextOf o.stringQuoting.policy path k).bind ?_
    rintro _ rfl
    refine (ends_commentAbove (htree _ List.mem_cons_self) level).after fun comment hcomment => ?_
    refine (hnode _ List.mem_cons_self level _).bind fun body hbody => ?_
    refine hrest.map fun others hothers => ?_
    -- the key and the separator are the head of the lines of the child
    have hlines := hbody (Document.ofKey o k child) []
    rw [hcomment, hothers, Value.entryLines, Document.ofLines_append, Document.ofLines_append,
      ← hlines]
    simp [Document.ofKey]

theorem ends_blockElements (level : ℕ) (path : Path) (index : ℕ) {children : List Value}
    (htree : ∀ child ∈ children, child.IsTree) (hnode : ∀ child ∈ children, WritesLines o child) :
    Ends (blockElements o level path index children).outcome
      (firstHalt o.stringQuoting.policy (Value.itemParts path index children))
      fun d => d ++ [.newline] =
        .newline :: Document.ofLines (Value.blockLines o level children) := by
  induction children generalizing index with
  | nil => exact ends_ok rfl
  | cons child rest ih =>
    have hrest := ih (index + 1) (fun c hc => htree c (List.mem_cons_of_mem _ hc))
      fun c hc => hnode c (List.mem_cons_of_mem _ hc)
    simp only [blockElements, Attempt.outcome_bind, Value.itemParts, firstHalt_append]
    refine (ends_commentAbove (htree _ List.mem_cons_self) level).after fun comment hcomment => ?_
    refine (hnode _ List.mem_cons_self level _).bind fun body hbody => ?_
    refine hrest.map fun others hothers => ?_
    have hlines := hbody [] (if rest.isEmpty then [] else [.comma])
    rw [hcomment, Value.blockLines, Document.ofLines_append, Document.ofLines_append, ← hlines]
    simp [hothers]

/-- The elements of a list that fits on one line are written as their literals. -/
theorem outcome_inlineElements (hq : o.stringQuoting.policy = .ok quoting) (path : Path)
    (index : ℕ) {children : List Value} (hplain : ∀ child ∈ children, child.isPlainScalar = true)
    (hhalt : firstHalt (.ok quoting) (Value.itemParts path index children) = none) :
    (inlineElements o path index children).outcome =
      .ok (Document.ofLiterals (Layout.literals o children)) := by
  induction children generalizing index with
  | nil => rfl
  | cons child rest ih =>
    rw [Value.eq_of_isPlainScalar (hplain child List.mem_cons_self)] at hhalt ⊢
    rw [Value.itemParts, firstHalt_append, Option.or_eq_none_iff] at hhalt
    rcases Literal.ofValue_cases quoting child.held with ⟨-, l, hl⟩ | ⟨-, reason, hreason⟩
    · have hrest := ih (index + 1) (fun c hc => hplain c (List.mem_cons_of_mem _ hc)) hhalt.2
      have hheld : o.literal child.held = l := Layout.literal_eq_of_ofValue hq hl
      simp only [inlineElements, Attempt.outcome_bind, node, scalar, hq, hl, hrest,
        Attempt.outcome_pure]
      cases rest <;> simp [hheld, Document.ofLiterals, bind, Except.bind]
    · simp [Value.parts, firstHalt, haltOf, hreason] at hhalt

/-- **The walk over a tree writes its lines.** -/
theorem writesLines (hq : o.stringQuoting.policy = .ok quoting) {v : Value} (h : v.IsTree) :
    WritesLines o v := by
  induction h with
  | scalar value comment =>
    intro level path
    simp only [node, scalar, Value.parts, firstHalt, haltOf, List.findSome?_singleton]
    cases hl : Literal.ofValue o.stringQuoting.policy value with
    | error halt => rfl
    | ok l =>
      refine ends_ok fun head tail => ?_
      simp [Value.lines, Line.pieces, Options.literal, hl]
  | @list children later comment htree hstable ih =>
    intro level path
    simp only [node, brokenOff, Attempt.outcome_bind, Attempt.outcome_pure,
      Value.pass_eq_first hstable, Value.parts]
    rcases Layout.outcome_layoutOf hq path htree with
      ⟨hlayout, hfits, hhalt⟩ | ⟨hlayout, hfits⟩ | ⟨halt, hlayout, hhalt⟩
    · have hplain : ∀ child ∈ children, child.isPlainScalar = true := by
        rw [Layout.fits, Bool.and_eq_true] at hfits
        exact List.all_eq_true.mp hfits.1
      have hbody := outcome_inlineElements hq path 0 hplain hhalt
      rw [hq, hhalt]
      refine (show Ends _ none (· = true) from ⟨true, hlayout, rfl⟩).after ?_
      rintro _ rfl
      simp only [if_true, Attempt.outcome_bind, Attempt.outcome_pure, hbody]
      refine ends_ok fun head tail => ?_
      cases children <;> simp [Value.lines, hfits, inBrackets, Document.inBrackets, Line.pieces,
        Document.ofLiterals]
    · -- a block; if measuring has stopped early, the walk meets the values behind that point
      have hbody := ends_blockElements (level + 1) path 0 htree ih
      refine (show Ends _ none (· = false) from ⟨false, hlayout, rfl⟩).after ?_
      rintro _ rfl
      simp only [Bool.false_eq_true, if_false, Attempt.outcome_bind, Attempt.outcome_pure]
      refine hbody.map fun d hd head tail => ?_
      -- the line break behind the last element is written in front of the closing bracket
      have hend : d ++ .newline :: .indent level :: .closing .square :: (tail ++ [.newline]) =
          .newline :: (Document.ofLines (Value.blockLines o (level + 1) children) ++
            .indent level :: .closing .square :: (tail ++ [.newline])) := by
        simpa using congrArg (· ++ .indent level :: .closing .square :: (tail ++ [.newline])) hd
      simp [Value.lines, hfits, inBrackets, Line.pieces, hend]
    · rw [hlayout, hq, hhalt]
      rfl
  | @map entries comment htree ih =>
    intro level path
    simp only [node, brokenOff, Attempt.outcome_bind, Attempt.outcome_pure, Value.parts]
    refine (ends_entries (level + 1) path htree ih).map fun d hd head tail => ?_
    rw [hd]
    simp [inBraces, Value.lines, Line.pieces]

/-- **The walk over a whole tree** ends with the halt of its first part that cannot be written, or
else with a document that has the text of its lines, whatever options fill in the pieces. -/
theorem outcome_document [Host] (hq : o.stringQuoting.policy = .ok quoting) {root : Value}
    (h : root.IsTree) :
    Ends (document o root).outcome (firstHalt o.stringQuoting.policy (root.parts []))
      fun d => ∀ o', d.text o' = Document.text o' (Document.ofLines (root.documentLines o)) := by
  have hroot := writesLines hq h 0 []
  cases h with
  | map comment htree =>
    have hentries := ends_entries 0 [] htree fun e he => writesLines hq (htree e he)
    simp only [document, node, brokenOff, Attempt.outcome_bind, Attempt.outcome_pure, bind_assoc]
    refine hentries.map fun d hd o' => ?_
    rw [hd, Document.ofComment_eq_ofLines]
    simp [inBraces, Value.documentLines, Value.bodyLines, Value.comment]
  | list | scalar =>
    simp only [document, Attempt.outcome_bind, Attempt.outcome_pure]
    refine hroot.map fun d hd o' => ?_
    simp only [Value.documentLines, Document.ofLines_append, Value.bodyLines_listNode,
      Value.bodyLines_scalarNode, ← hd [] [], Document.ofComment_eq_ofLines]
    simp [Piece.text, Value.comment]

end Render

/-! ### Rendering -/

section Rendering

variable {o : Options} {root : Value}

/-- Options with a count that does not fit render nothing at all. -/
theorem outcome_render_of_not_countsFit [Host] (h : ¬o.CountsFit) (root : Value) :
    (render o root).outcome = .error (.failure .countTooLarge) := by
  have hcheck := (o.checkCounts_cases.resolve_left fun hfit => h hfit.1).2
  simp only [render, Attempt.outcome_bind, Attempt.outcome_ofExcept, hcheck]
  rfl

/-- The outcome of a rendering under options with counts that fit. -/
theorem outcome_render_of_countsFit [Host] (h : o.CountsFit) (root : Value) :
    (render o root).outcome =
      (Render.document o root).outcome.map fun d => String.ofList (d.text o) := by
  simp only [render, Attempt.outcome_bind, Attempt.outcome_ofExcept, h.checkCounts,
    Attempt.outcome_record, Attempt.outcome_pure]
  cases (Render.document o root).outcome <;> rfl

theorem countsFit_of_render [Host] {text : String} (h : (render o root).outcome = .ok text) :
    o.CountsFit := by
  rcases o.checkCounts_cases with ⟨hfit, -⟩ | ⟨hfit, -⟩
  · exact hfit
  · exact absurd (h.symm.trans (outcome_render_of_not_countsFit hfit root)) (by simp)

/-- **Rendering a tree** under counts that fit ends with the halt of its first part that cannot be
written, or else with the text of its lines. -/
theorem ends_render [Host] (ho : o.HasMembers) (hc : o.CountsFit) (h : root.IsTree) :
    Render.Ends (render o root).outcome (firstHalt o.stringQuoting.policy (root.parts []))
      fun text => text.toList = Document.text o (Document.ofLines (root.documentLines o)) := by
  obtain ⟨quoting, hq⟩ := ho.policy
  rw [outcome_render_of_countsFit hc]
  have hmap := (Render.outcome_document hq h).map (f := fun d => String.ofList (d.text o))
    (Q := fun text => text.toList = Document.text o (Document.ofLines (root.documentLines o)))
    fun d hd => by rw [String.toList_ofList, hd o]
  cases hd : (Render.document o root).outcome <;> rw [hd] at hmap <;> exact hmap

/-- The text of a tree that renders is that of its lines. -/
theorem toList_of_render [Host] (ho : o.HasMembers) (h : root.IsTree) {text : String}
    (hr : (render o root).outcome = .ok text) :
    text.toList = Document.text o (Document.ofLines (root.documentLines o)) := by
  have hends := ends_render ho (countsFit_of_render hr) h
  cases hp : firstHalt o.stringQuoting.policy (root.parts []) with
  | some halt =>
    rw [hp] at hends
    exact absurd (hr.symm.trans hends) (by simp)
  | none =>
    rw [hp] at hends
    obtain ⟨text', htext', hlines⟩ := hends
    rw [htext'] at hr
    cases hr
    exact hlines

/-! ### Which trees render -/

/-- What the first part that cannot be written ends a rendering with: a key is one with too many
digits, and a value in a scalar node is unsupported, as far as there are words for it. -/
theorem firstHalt_eq (quoting : Quoting) (parts : List (Path × Value.Part)) :
    match parts.find? fun p => !p.2.isWritable with
    | none => firstHalt (.ok quoting) parts = none
    | some (_, .key _) => firstHalt (.ok quoting) parts = some (.failure .tooManyDigits)
    | some (path, .scalar v) => ∃ reason, firstHalt (.ok quoting) parts =
        some ((Halt.ofProblem (.unsupported v reason)).locate path) := by
  -- a part that can be written is passed over in both searches
  induction parts with
  | nil => rfl
  | cons p rest ih =>
    obtain ⟨path, part⟩ := p
    cases part with
    | key k =>
      cases hk : (keyText? k).isSome with
      | true =>
        rw [List.find?_cons_of_neg (by simp [Value.Part.isWritable, hk]), firstHalt_cons,
          haltOf, if_pos hk, Option.none_or]
        exact ih
      | false =>
        rw [List.find?_cons_of_pos (by simp [Value.Part.isWritable, hk]), firstHalt_cons,
          haltOf, if_neg (by simp [hk])]
        rfl
    | scalar v =>
      rcases Literal.ofValue_cases quoting v with ⟨hv, l, hl⟩ | ⟨hv, reason, hreason⟩
      · rw [List.find?_cons_of_neg (by simp [Value.Part.isWritable, hv]), firstHalt_cons,
          haltOf, hl, Option.none_or]
        exact ih
      · rw [List.find?_cons_of_pos (by simp [Value.Part.isWritable, hv]), firstHalt_cons,
          haltOf, hreason]
        exact ⟨reason, rfl⟩

/-- A tree all of whose parts can be written renders under counts that fit, and no other tree
does. -/
theorem exists_render_iff [Host] (ho : o.HasMembers) (h : root.IsTree) :
    (∃ text, (render o root).outcome = .ok text) ↔ o.CountsFit ∧ root.IsWritable := by
  obtain ⟨quoting, hq⟩ := ho.policy
  have hfirst := firstHalt_eq quoting (root.parts [])
  constructor
  · rintro ⟨text, htext⟩
    have hc := countsFit_of_render htext
    refine ⟨hc, ?_⟩
    have hends := ends_render ho hc h
    rw [hq, htext] at hends
    cases hfind : (root.parts []).find? fun p => !p.2.isWritable with
    | none =>
      intro p hp
      simpa using List.find?_eq_none.mp hfind p hp
    | some p =>
      obtain ⟨path, part⟩ := p
      rw [hfind] at hfirst
      cases part with
      | key k =>
        rw [show firstHalt _ _ = some _ from hfirst] at hends
        exact absurd (show Except.ok text = .error _ from hends) (by simp)
      | scalar v =>
        obtain ⟨reason, hreason⟩ := hfirst
        rw [hreason] at hends
        exact absurd (show Except.ok text = .error _ from hends) (by simp)
  · rintro ⟨hc, hall⟩
    have hends := ends_render ho hc h
    have hfind : ((root.parts []).find? fun p => !p.2.isWritable) = none :=
      List.find?_eq_none.mpr fun p hp => by simp [hall p hp]
    rw [hfind] at hfirst
    rw [hq, show firstHalt _ _ = none from hfirst] at hends
    obtain ⟨text, htext, -⟩ := hends
    exact ⟨text, htext⟩

/-- What a part that cannot be written ends a rendering with, in the words of its value. -/
theorem Halt.locate_ofProblem_unsupported (v : Value) (reason : Option String) (path : Path) :
    (Halt.ofProblem (.unsupported v reason)).locate path =
      if v.display.isSome = true then .error { problem := .unsupported v reason, path }
      else .failure .tooManyDigits := by
  rw [ofProblem_unsupported]
  split <;> rfl

/-- **Which trees render.** Counts that do not fit into a machine word are refused before the tree
is looked at. Otherwise a tree renders exactly when all of its parts can be written, and if it does
not, the first part in document order that cannot be written decides: a key or a value that cannot
even be shown ends the rendering with the failure to write an integer, and any other value is
reported as unsupported, at the path of its node.

So in a tree in which every key and every value can be shown, the scalar nodes alone decide: the
tree renders exactly when all of them hold primitive values, and otherwise the error names the first
value in document order that is not primitive. -/
theorem render_outcome_of_isTree [Host] (ho : o.HasMembers) (h : root.IsTree) :
    (¬o.CountsFit → (render o root).outcome = .error (.failure .countTooLarge)) ∧
    (o.CountsFit →
      ((∃ text, (render o root).outcome = .ok text) ↔
        ∀ p ∈ root.parts [], p.2.isWritable = true) ∧
      (∀ path k, (root.parts []).find? (fun p => !p.2.isWritable) = some (path, .key k) →
        (render o root).outcome = .error (.failure .tooManyDigits)) ∧
      (∀ path v, (root.parts []).find? (fun p => !p.2.isWritable) = some (path, .scalar v) →
        ∃ reason, (render o root).outcome = .error (if v.display.isSome = true
          then .error { problem := .unsupported v reason, path }
          else .failure .tooManyDigits)) ∧
      ((∀ p ∈ root.parts [], p.2.isShowable = true) →
        ((∃ text, (render o root).outcome = .ok text) ↔
          ∀ s ∈ root.scalars [], s.2.isPrimitive = true) ∧
        ∀ path v, (root.scalars []).find? (fun s => !s.2.isPrimitive) = some (path, v) →
          ∃ reason, (render o root).outcome =
            .error (.error { problem := .unsupported v reason, path }))) := by
  refine ⟨fun hc => outcome_render_of_not_countsFit hc root, fun hc => ?_⟩
  obtain ⟨quoting, hq⟩ := ho.policy
  have hrenders := exists_render_iff ho h
  have hends := ends_render ho hc h
  have hfirst := firstHalt_eq quoting (root.parts [])
  rw [hq] at hends
  have hscalar : ∀ path v,
      (root.parts []).find? (fun p => !p.2.isWritable) = some (path, .scalar v) →
      ∃ reason, (render o root).outcome = .error (if v.display.isSome = true
        then .error { problem := .unsupported v reason, path }
        else .failure .tooManyDigits) := by
    intro path v hfind
    rw [hfind] at hfirst
    obtain ⟨reason, hreason⟩ := hfirst
    rw [hreason, Halt.locate_ofProblem_unsupported] at hends
    exact ⟨reason, hends⟩
  refine ⟨hrenders.trans (and_iff_right hc), fun path k hfind => ?_, hscalar, fun hshow => ?_⟩
  · rw [hfind] at hfirst
    rw [show firstHalt _ _ = some _ from hfirst] at hends
    exact hends
  -- among parts that can be shown, the first one that cannot be written stands in a scalar node
  · have hfind := h.find?_parts hshow
    refine ⟨hrenders.trans ?_, fun path v hv => ?_⟩
    · rw [and_iff_right hc]
      exact h.isWritable_iff hshow
    · rw [hv] at hfind
      obtain ⟨reason, hreason⟩ := hscalar path v hfind
      have hdisplay : v.display.isSome = true :=
        hshow (path, .scalar v) (List.mem_of_find?_eq_some hfind)
      rw [if_pos hdisplay] at hreason
      exact ⟨reason, hreason⟩

end Rendering

/-- A list of two lists, each with a value that has no literal: the first one stands behind the
limit of a long list, the second one is never met. -/
def twoUnsupported : Value :=
  .ofEntries [(.str "a", .ofChildren
    [.ofChildren [.scalarNode (.str (String.ofList (List.replicate 80 'x'))) none,
      .scalarNode (.bytes [1]) none],
    .ofChildren [.scalarNode .ellipsis none]])]

theorem isTree_twoUnsupported : twoUnsupported.IsTree := by
  have hfirst : ∀ child ∈ [Value.scalarNode (.str (String.ofList (List.replicate 80 'x'))) none,
      .scalarNode (.bytes [1]) none], child.IsTree := by
    simp only [List.mem_cons, List.not_mem_nil, or_false, forall_eq_or_imp, forall_eq]
    exact ⟨.scalar _ _, .scalar _ _⟩
  have hsecond : ∀ child ∈ [Value.scalarNode .ellipsis none], child.IsTree :=
    List.forall_mem_singleton.mpr (.scalar _ _)
  refine .map none (List.forall_mem_singleton.mpr (.list none ?_ (by simp)))
  simp only [List.mem_cons, List.not_mem_nil, or_false, forall_eq_or_imp, forall_eq]
  exact ⟨.list none hfirst (by simp), .list none hsecond (by simp)⟩

open scoped Unix

/-- The first value without a literal is reported, although measuring the list stops before it. -/
theorem render_outcome_of_twoUnsupported :
    Options.HasMembers {} ∧ twoUnsupported.IsTree ∧ Options.CountsFit {} ∧
      (twoUnsupported.scalars []).find? (fun s => !s.2.isPrimitive) =
        some ([.key "a", .index 0, .index 1], .bytes [1]) ∧
      ∃ reason, (render {} twoUnsupported).outcome = .error (.error
        { problem := .unsupported (.bytes [1]) reason
          path := [.key "a", .index 0, .index 1] }) := by
  have ho : Options.HasMembers {} := ⟨⟨_, rfl⟩, ⟨_, rfl⟩, ⟨_, rfl⟩⟩
  have hc : Options.CountsFit {} := ⟨rfl, rfl, rfl⟩
  have hshow : ∀ p ∈ twoUnsupported.parts [], p.2.isShowable = true := by
    simp [twoUnsupported, Value.ofEntries, Value.ofChildren, Value.parts, Value.itemParts,
      Value.entryParts, Value.Part.isShowable, keyText?, Value.plain, Value.display]
  have hfind : (twoUnsupported.scalars []).find? (fun s => !s.2.isPrimitive) =
      some ([.key "a", .index 0, .index 1], .bytes [1]) := rfl
  obtain ⟨-, -, -, hdecided⟩ := (render_outcome_of_isTree ho isTree_twoUnsupported).2 hc
  exact ⟨ho, isTree_twoUnsupported, hc, hfind, (hdecided hshow).2 _ _ hfind⟩

/-- **The scalars alone do not decide.** A single integer is a primitive value, and yet there can be
neither a text nor an error that names it: it has too many digits to be written or to be shown, or
the indentation is too far below zero to be counted. -/
theorem render_undecided_by_scalars :
    (render {} (.scalarNode Value.longInteger none)).outcome = .error (.failure .tooManyDigits) ∧
      (render { indent := -100000000000000000000 } (.scalarNode (.int 1) none)).outcome =
        .error (.failure .countTooLarge) := by
  have hdocument : (Render.document {} (.scalarNode Value.longInteger none)).outcome =
      .error (.failure .tooManyDigits) := by
    rw [Render.document, Render.node, Render.scalar, Value.ofValue_longInteger]
    rfl
  refine ⟨?_, rfl⟩
  rw [outcome_render_of_countsFit ⟨rfl, rfl, rfl⟩, hdocument]
  rfl

end Hocon
