import Hocon.Proofs.Reports

/-!
# What a document depends on

Of all the options, a walk over a tree asks only three things: which literal a value has, which form
a key has, and what stands between a key and a value. Options that give the same answers
(`Hocon.Options.DecidesLike`) yield the same document with the same log, and they fail alike, for
any value that is handed over (`Hocon.Render.document_congr`). All other options only fill in the
pieces of the document.

A word in the place of a member of a closed set enters the walk by the same three questions, so they
say what becomes of it.

| word for | taken as |
|---|---|
| the quoting policy of texts | the member with that key; a text is refused if there is none |
| the quoting policy of keys | `whenRequired`, whatever the word is |
| the rule for nested maps | `included`, whatever the word is |

Only the first of them asks what the word is. So a word for one of the other two can be the key of a
member and still be taken as another one (`Hocon.render_word_taken_as_other`).
-/

namespace Hocon

/-! ### Options that decide alike -/

/-- **Options that decide alike** about each value, each key and each entry of a tree. -/
structure Options.DecidesLike (o o' : Options) : Prop where
  /-- Texts are quoted alike. -/
  policy : o.stringQuoting.policy = o'.stringQuoting.policy
  /-- Keys are written alike. -/
  key : ∀ cs, Key.ofText o.keyQuoting cs = Key.ofText o'.keyQuoting cs
  /-- Keys and values are separated alike. -/
  separator : ∀ v, Render.separatorBefore o v = Render.separatorBefore o' v

namespace Render

variable {o o' : Options}

/-- What is said of a node: wherever it stands, the walks over it are the same. -/
def WalkedAlike (o o' : Options) (v : Value) : Prop :=
  ∀ level path, node o level path v = node o' level path v

theorem entries_congr (h : o.DecidesLike o') {es : List (Value × Value)}
    (hnode : ∀ e ∈ es, WalkedAlike o o' e.2) (level : ℕ) (path : Path) :
    entries o level path es = entries o' level path es := by
  induction es with
  | nil => rfl
  | cons e rest ih =>
    obtain ⟨k, child⟩ := e
    have hchild : ∀ key, node o (level + 1) (path ++ [.key key]) child =
        node o' (level + 1) (path ++ [.key key]) child := fun key => hnode (k, child) (by simp) _ _
    simp only [entries, ih fun e he => hnode e (List.mem_cons_of_mem _ he), hchild, h.key,
      h.separator]

theorem inlineElements_congr {children : List Value} (hnode : ∀ c ∈ children, WalkedAlike o o' c)
    (path : Path) (index : ℕ) :
    inlineElements o path index children = inlineElements o' path index children := by
  induction children generalizing index with
  | nil => rfl
  | cons child rest ih =>
    rw [inlineElements, inlineElements, ih fun c hc => hnode c (List.mem_cons_of_mem _ hc),
      hnode _ List.mem_cons_self]

theorem blockElements_congr {children : List Value} (hnode : ∀ c ∈ children, WalkedAlike o o' c)
    (level : ℕ) (path : Path) (index : ℕ) :
    blockElements o level path index children = blockElements o' level path index children := by
  induction children generalizing index with
  | nil => rfl
  | cons child rest ih =>
    rw [blockElements, blockElements, ih fun c hc => hnode c (List.mem_cons_of_mem _ hc),
      hnode _ List.mem_cons_self]

/-- The walk over a node is decided by what the options decide. -/
theorem node_congr (h : o.DecidesLike o') (v : Value) : WalkedAlike o o' v := by
  induction v using Value.induction_nodes with
  | other v hnode =>
    intro level path
    cases v with
    | scalarNode | listNode | mapNode => exact absurd hnode (by simp [Value.isNode])
    | _ => simp only [node]
  | scalar v comment =>
    intro level path
    rw [node, node, scalar, scalar, h.policy]
  | list children failure later comment ih =>
    intro level path
    simp only [node, layoutOf, h.policy, inlineElements_congr ih, blockElements_congr ih]
  | map es failure comment ih =>
    intro level path
    rw [node, node, entries_congr h ih]

/-- **Options that decide alike yield the same document**, with the same log, or fail alike. -/
theorem document_congr (h : o.DecidesLike o') (v : Value) : document o v = document o' v := by
  cases v with
  | scalarNode | listNode | mapNode => simp only [document, node_congr h _ _ _]
  | _ => simp only [document]

end Render

/-- Options that also fill in the pieces of a document alike, and ask for counts of which as many
fit, render alike. -/
theorem render_congr [Host] {o o' : Options} (h : o.DecidesLike o')
    (htext : Piece.text o = Piece.text o')
    (hcounts : o.checkCounts = o'.checkCounts) (v : Value) : render o v = render o' v := by
  have hdocument : Document.text o = Document.text o' := by
    funext d
    rw [Document.text, Document.text, htext]
  rw [render, render, hcounts, Render.document_congr h, hdocument]

/-! ### Where a tree is stopped -/

namespace Value

theorem itemScalars_append (path : Path) (index : ℕ) (before rest : List Value) :
    itemScalars path index (before ++ rest) =
      itemScalars path index before ++ itemScalars path (index + before.length) rest := by
  induction before generalizing index with
  | nil => rfl
  | cons child before ih =>
    rw [List.cons_append, itemScalars, itemScalars, ih, List.append_assoc, List.length_cons,
      Nat.add_assoc, Nat.add_comm 1]

theorem entryScalars_append (path : Path) (before rest : List (Value × Value)) :
    entryScalars path (before ++ rest) = entryScalars path before ++ entryScalars path rest := by
  induction before with
  | nil => rfl
  | cons e before ih =>
    obtain ⟨k, child⟩ := e
    rw [List.cons_append, entryScalars, entryScalars, ih, List.append_assoc]

/-- What the scalar nodes below an element hold, they hold below the list. -/
theorem mem_itemScalars {path : Path} {before : List Value} {child : Value} {s : Path × Value}
    (h : s ∈ child.scalars (path ++ [.index before.length])) (rest : List Value) :
    s ∈ itemScalars path 0 (before ++ child :: rest) := by
  rw [itemScalars_append, Nat.zero_add, itemScalars]
  exact List.mem_append_right _ (List.mem_append_left _ h)

/-- What the scalar nodes below an entry hold, they hold below the map. -/
theorem mem_entryScalars {path : Path} {k child : Value} {s : Path × Value}
    (h : s ∈ child.scalars (path ++ [.key (keyText k)])) (before rest : List (Value × Value)) :
    s ∈ entryScalars path (before ++ (k, child) :: rest) := by
  rw [entryScalars_append, entryScalars]
  exact List.mem_append_right _ (List.mem_append_left _ h)

/-- What is held below a list is held below one of its elements. -/
theorem exists_of_mem_itemScalars {path : Path} {index : ℕ} {children : List Value}
    {s : Path × Value} (h : s ∈ itemScalars path index children) :
    ∃ child ∈ children, ∃ path', s ∈ child.scalars path' := by
  induction children generalizing index with
  | nil => cases h
  | cons child rest ih =>
    rw [itemScalars, List.mem_append] at h
    rcases h with h | h
    · exact ⟨child, List.mem_cons_self, _, h⟩
    · obtain ⟨c, hc, hs⟩ := ih h
      exact ⟨c, List.mem_cons_of_mem _ hc, hs⟩

/-- What is held below a map is held below one of its entries. -/
theorem exists_of_mem_entryScalars {path : Path} {es : List (Value × Value)} {s : Path × Value}
    (h : s ∈ entryScalars path es) : ∃ e ∈ es, ∃ path', s ∈ e.2.scalars path' := by
  induction es with
  | nil => cases h
  | cons e rest ih =>
    obtain ⟨k, child⟩ := e
    rw [entryScalars, List.mem_append] at h
    rcases h with h | h
    · exact ⟨(k, child), List.mem_cons_self, _, h⟩
    · obtain ⟨e, he, hs⟩ := ih h
      exact ⟨e, List.mem_cons_of_mem _ he, hs⟩

end Value

section Trees

variable {o : Options}

/-- **A tree whose keys have texts is stopped at a scalar node** whose value has no literal, and not
by anything else. -/
theorem Stops.exists_scalar {v : Value} {p : Path} {s : Stop} (h : Stops o v p s) (htree : v.IsTree)
    (hp : v.IsWritable) (path : Path) : ∃ x halt, (path ++ p, x) ∈ v.scalars path ∧
      Literal.ofValue o.stringQuoting.policy x = .error halt ∧
      (s = .measured halt ∨ s = .written halt) := by
  induction h generalizing path with
  | notANode hnode => cases htree <;> exact absurd hnode (by simp [Value.isNode])
  | scalar comment hl =>
    refine ⟨_, _, ?_, hl, Or.inr rfl⟩
    rw [Value.scalars, List.append_nil]
    exact List.mem_singleton_self _
  | @entryKey before k child rest failure comment _ _ hkey =>
    cases htree with
    | map _ hchildren =>
      have hsome := ((Value.isWritable_mapNode hchildren).mp hp (k, child)
        (List.mem_append_right _ List.mem_cons_self)).1
      rw [hkey] at hsome
      exact absurd hsome (by simp)
  | entryComment before k rest failure comment _ _ _ hnode =>
    cases htree with
    | map _ hchildren =>
      have hchild := hchildren (k, _) (List.mem_append_right _ List.mem_cons_self)
      cases hchild <;> exact absurd hnode (by simp [Value.isNode])
  | @entry before k child p s rest failure comment _ _ _ _ _ ih =>
    cases htree with
    | map _ hchildren =>
      have hmem : (k, child) ∈ before ++ (k, child) :: rest :=
        List.mem_append_right _ List.mem_cons_self
      have hwritable := ((Value.isWritable_mapNode hchildren).mp hp _ hmem).2
      obtain ⟨x, halt, hx, hs⟩ := ih (hchildren _ hmem) hwritable (path ++ [.key (keyText k)])
      rw [List.append_assoc] at hx
      exact ⟨x, halt, Value.mem_entryScalars hx before rest, hs⟩
  | map f comment _ _ => cases htree
  | copy children f later comment => cases htree
  | shape comment hfailure _ =>
    cases htree with
    | list _ _ hstable =>
      rw [Value.pass_eq_first hstable] at hfailure
      cases hfailure
  | length comment _ hfailure _ =>
    cases htree with
    | list _ _ hstable =>
      rw [Value.pass_eq_first hstable] at hfailure
      cases hfailure
  | @measured children later before rest v halt comment inner _ hitems _ hl =>
    cases htree with
    | list _ _ hstable =>
      -- the elements that are measured are those that were copied
      rw [Value.pass_eq_first hstable] at hitems
      obtain rfl : children = _ := hitems
      have hinner : (path ++ [.index before.length], v) ∈
          (Value.scalarNode v inner).scalars (path ++ [.index before.length]) :=
        List.mem_singleton_self _
      exact ⟨v, halt, Value.mem_itemScalars hinner rest, hl, Or.inl rfl⟩
  | elementComment before rest comment _ _ hnode =>
    cases htree with
    | list _ hchildren _ =>
      have hchild := hchildren _ (List.mem_append_right _ List.mem_cons_self)
      cases hchild <;> exact absurd hnode (by simp [Value.isNode])
  | @element before child p s rest later inline comment _ _ _ _ ih =>
    cases htree with
    | list _ hchildren _ =>
      have hmem : child ∈ before ++ child :: rest := List.mem_append_right _ List.mem_cons_self
      have hwritable := (Value.isWritable_listNode hchildren).mp hp child hmem
      obtain ⟨x, halt, hx, hs⟩ :=
        ih (hchildren child hmem) hwritable (path ++ [.index before.length])
      rw [List.append_assoc] at hx
      exact ⟨x, halt, Value.mem_itemScalars hx rest, hs⟩

/-- A rendering that completes has met a literal for each scalar node. -/
theorem Completes.exists_literal {v : Value} (h : Completes o v) {path : Path} {s : Path × Value}
    (hs : s ∈ v.scalars path) : ∃ l, Literal.ofValue o.stringQuoting.policy s.2 = .ok l := by
  induction h generalizing path with
  | scalar comment hl =>
    rw [List.mem_singleton.mp hs]
    exact ⟨_, hl⟩
  | list comment _ _ ih =>
    obtain ⟨child, hchild, path', hs⟩ := Value.exists_of_mem_itemScalars hs
    exact ih child hchild hs
  | map comment _ _ ih =>
    obtain ⟨e, he, path', hs⟩ := Value.exists_of_mem_entryScalars hs
    exact ih e he hs

end Trees

/-! ### Words in the place of members -/

/-- Whether one of the scalar nodes of a tree holds a text. -/
def Value.HoldsText (v : Value) : Prop := ∃ s ∈ v.scalars [], ∃ text, s.2 = .str text

/-- A value that has a literal form but no literal is a text, and it is the quoting policy that is
missing. -/
theorem Literal.eq_str_of_error {policy : Except Problem Quoting} {v : Value} {halt : Halt}
    (hv : v.hasLiteral = true) (h : ofValue policy v = .error halt) :
    (∃ text, v = .str text) ∧ ∃ problem, policy = .error problem ∧ halt = .ofProblem problem := by
  cases v with
  | str text =>
    cases policy with
    | ok quoting => cases h
    | error problem =>
      cases h
      exact ⟨⟨text, rfl⟩, problem, rfl, rfl⟩
  | float bits =>
    rw [ofValue, if_pos (show Binary64.isFinite bits = true from hv)] at h
    cases h
  | int n =>
    rw [ofValue, dif_pos (show hasDecimal n = true from hv)] at h
    cases h
  | null | bool => cases h
  | _ => exact absurd hv (by simp [Value.hasLiteral, Value.isPrimitive])

/-- The key of a member is as good as the member. -/
theorem Setting.policy_word_key (m : Quoting) :
    (Setting.word (Choice.key m)).policy = (Setting.member m).policy := by
  cases m <;> rfl

/-- A word that is the key of no member is no quoting policy. -/
theorem Setting.policy_word {word : String} (h : ∀ m : Quoting, Choice.key m ≠ word) :
    (Setting.word word).policy = .error (.unknownQuoting word) := by
  have hnone : (Setting.word word : Setting Quoting).resolve? = none := by
    rw [resolve?, List.find?_eq_none]
    intro m _
    simpa using h m
  rw [policy, hnone]
  rfl

/-- Where the rule for nested maps is not to omit the separator, it stands before every value. -/
theorem Render.separatorBefore_of_ne {o : Options} (h : o.objectSeparator ≠ .member .omitted)
    (v : Value) : separatorBefore o v = .separator := by
  cases v with
  | mapNode => rw [separatorBefore, if_neg h]
  | _ => rfl

section Words

variable {o : Options} {root : Value} {word : String}

/-- **A text is refused where there is no quoting policy**, wherever it stands in a tree that can be
written; a tree without texts does not need a policy. -/
theorem render_outcome_of_unknownQuoting [Host] (h : root.IsTree) (hp : root.IsWritable)
    (hc : o.CountsFit) (hpolicy : o.stringQuoting.policy = .error (.unknownQuoting word)) :
    (root.HoldsText → ∃ e, (render o root).outcome = .error (.error e) ∧
        e.problem = .unknownQuoting word) ∧
      (¬root.HoldsText → ∃ text, (render o root).outcome = .ok text) := by
  rcases completes_or_stops (o := o) root with hcompletes | ⟨p, s, hstops⟩
  · refine ⟨?_, fun _ => hcompletes.outcome_render hc⟩
    rintro ⟨⟨path, _⟩, hmem, text, rfl⟩
    obtain ⟨l, hl⟩ := hcompletes.exists_literal hmem
    rw [hpolicy] at hl
    cases hl
  · obtain ⟨x, halt, hmem, hx, hs⟩ := hstops.exists_scalar h hp []
    obtain ⟨⟨text, rfl⟩, problem, herror, rfl⟩ :=
      Literal.eq_str_of_error (h.hasLiteral_of_mem_scalars hp hmem) hx
    obtain rfl : Problem.unknownQuoting word = problem :=
      Except.error.inj (hpolicy.symm.trans herror)
    refine ⟨fun _ => ?_, fun hnone => absurd ⟨_, hmem, text, rfl⟩ hnone⟩
    rcases hs with rfl | rfl <;> exact ⟨_, hstops.outcome_render hc, rfl⟩

/-- **What becomes of a word in the place of a member**, for a tree that renders under options with
members. In the place of the quoting policy of texts, the key of a member is taken as the member,
and any other word is an options constraint error if the tree holds a text, as long as the counts
fit. In the place of the other two options, any word is taken as the same member, and the tree
renders under it. -/
theorem render_of_word [Host] {o₀ : Options} (h₀ : o₀.HasMembers) (h : root.IsTree) {text₀ : String}
    (hr : (render o₀ root).outcome = .ok text₀) (o : Options) :
    (∀ m, o.stringQuoting = .word (Choice.key m) →
      render o root = render { o with stringQuoting := .member m } root) ∧
    (∀ word, o.stringQuoting = .word word → (∀ m : Quoting, Choice.key m ≠ word) → o.CountsFit →
      (root.HoldsText → ∃ e, (render o root).outcome = .error (.error e) ∧
        e.problem = .unknownQuoting word ∧ e.problem.category = .optionsConstraint) ∧
      (¬root.HoldsText → ∃ text, (render o root).outcome = .ok text)) ∧
    (∀ word, o.keyQuoting = .word word →
      render o root = render { o with keyQuoting := .member .whenRequired } root) ∧
    ∀ word, o.objectSeparator = .word word →
      render o root = render { o with objectSeparator := .member .included } root := by
  refine ⟨fun m hm => ?_, fun word hword hne hc => ?_, fun word hword => ?_, fun word hword => ?_⟩
  · have hdecides : o.DecidesLike { o with stringQuoting := .member m } :=
      ⟨by rw [hm, Setting.policy_word_key], fun _ => rfl, fun _ => rfl⟩
    exact render_congr hdecides rfl rfl root
  · have hpolicy : o.stringQuoting.policy = .error (.unknownQuoting word) := by
      rw [hword, Setting.policy_word hne]
    have hp := ((exists_render_iff h₀ h).mp ⟨text₀, hr⟩).2
    obtain ⟨hrefused, hrenders⟩ := render_outcome_of_unknownQuoting h hp hc hpolicy
    refine ⟨fun htext => ?_, hrenders⟩
    obtain ⟨e, he, hproblem⟩ := hrefused htext
    exact ⟨e, he, hproblem, by rw [hproblem]; rfl⟩
  · have hdecides : o.DecidesLike { o with keyQuoting := .member .whenRequired } :=
      ⟨rfl, fun cs => by rw [hword]; rfl, fun _ => rfl⟩
    exact render_congr hdecides rfl rfl root
  · have hdecides : o.DecidesLike { o with objectSeparator := .member .included } := by
      refine ⟨rfl, fun _ => rfl, fun v => ?_⟩
      rw [Render.separatorBefore_of_ne (by rw [hword]; simp),
        Render.separatorBefore_of_ne (by simp)]
    exact render_congr hdecides rfl rfl root

end Words

/-- A text under the key of a map under a key. -/
def keyedText : Value :=
  .ofEntries [(.str "a", .ofEntries [(.str "b", .scalarNode (.str "x") none)])]

theorem isTree_keyedText : keyedText.IsTree := by
  have hb : ∀ e ∈ [(Value.str "b", Value.scalarNode (.str "x") none)], e.2.IsTree :=
    List.forall_mem_singleton.mpr (.scalar _ _)
  exact .map none (List.forall_mem_singleton.mpr (.map none hb))

/-- Options with words in the place of members: two keys, and a word that is none. -/
def wordedOptions : Options where
  stringQuoting := .word "always"
  keyQuoting := .word "always"
  objectSeparator := .word "bogus"

open scoped Unix

/-- The key of the quoting policy of texts counts, and that of keys does not. -/
theorem render_of_wordedOptions :
    Options.HasMembers {} ∧ keyedText.IsTree ∧
      (render {} keyedText).outcome = .ok "a \x7b\n    b: x\n\x7d\n" ∧
      render wordedOptions keyedText =
        render { wordedOptions with stringQuoting := .member .always } keyedText ∧
      render wordedOptions keyedText =
        render { wordedOptions with keyQuoting := .member .whenRequired } keyedText ∧
      render wordedOptions keyedText =
        render { wordedOptions with objectSeparator := .member .included } keyedText ∧
      (render wordedOptions keyedText).outcome = .ok "a: \x7b\n    b: \"x\"\n\x7d\n" ∧
      ∃ e, (render { stringQuoting := .word "bogus" } keyedText).outcome = .error (.error e) ∧
        e.problem = .unknownQuoting "bogus" ∧ e.problem.category = .optionsConstraint := by
  have ho : Options.HasMembers {} := ⟨⟨_, rfl⟩, ⟨_, rfl⟩, ⟨_, rfl⟩⟩
  have hr : (render {} keyedText).outcome = .ok "a \x7b\n    b: x\n\x7d\n" := rfl
  obtain ⟨hstring, -, hkey, hobject⟩ := render_of_word ho isTree_keyedText hr wordedOptions
  obtain ⟨-, hbogus, -, -⟩ :=
    render_of_word ho isTree_keyedText hr { stringQuoting := .word "bogus" }
  have hne : ∀ m : Quoting, Choice.key m ≠ "bogus" := by
    intro m
    cases m <;> decide
  have htext : keyedText.HoldsText := ⟨_, List.mem_singleton_self _, "x", rfl⟩
  exact ⟨ho, isTree_keyedText, hr, hstring .always rfl, hkey _ rfl, hobject _ rfl, rfl,
    (hbogus _ rfl hne ⟨rfl, rfl, rfl⟩).1 htext⟩

/-- **A word can be taken as another member than the one it is the key of**, and a word that is no
key is taken as a member. -/
theorem render_word_taken_as_other :
    ((render { keyQuoting := .member .always } keyedText).outcome =
        .ok "\"a\" \x7b\n    \"b\": x\n\x7d\n" ∧
      ∀ word ∈ ["always", "bogus"], (render { keyQuoting := .word word } keyedText).outcome =
        .ok "a \x7b\n    b: x\n\x7d\n") ∧
    ((render { objectSeparator := .member .omitted } keyedText).outcome =
        .ok "a \x7b\n    b: x\n\x7d\n" ∧
      ∀ word ∈ ["omitted", "bogus"],
        (render { objectSeparator := .word word } keyedText).outcome =
          .ok "a: \x7b\n    b: x\n\x7d\n") := by
  simp only [List.mem_cons, List.not_mem_nil, or_false, forall_eq_or_imp, forall_eq]
  exact ⟨⟨rfl, rfl, rfl⟩, rfl, rfl, rfl⟩

end Hocon
