import Hocon.Render
import Mathlib.Algebra.Group.Int.Defs
import Mathlib.Algebra.Group.Nat.Defs

/-!
# Trees

A `Value` can be anything: plain data where a node belongs, a list that yields other children on
each reading. This module says which values are *trees*, that is, what a caller who plays by the
rules hands over, and names what the statements about rendering speak of.

* `Hocon.Value.IsTree` – every child at every depth is a node, and no container changes. What the
  scalar nodes hold is left open.
* `Hocon.Value.scalars` – what the scalar nodes hold, each with its path, in document order.
* `Hocon.Value.parts` – the same together with the keys, for they have to be written too.
* `Hocon.Value.hasLiteral` – the values that have a literal form: the primitive ones, except
  integers with too many digits.
* `Hocon.Value.IsWritable` – all parts can be written, which is a matter of the parts of a tree and
  not of where it stands.

`Hocon.Value.IsTree` is an inductive predicate with one constructor for each kind of node, so a
proof about trees is an induction over it with three cases, and not one over all the values there
are.
-/

namespace Hocon

/-! ### Trees -/

/-- **A stable tree**: every child at every depth is a node, no reading of a container fails, and
every reading of a list yields the same children. -/
inductive Value.IsTree : Value → Prop
  /-- A scalar node, whatever it holds. -/
  | scalar (value : Value) (comment : Option String) : IsTree (.scalarNode value comment)
  /-- A list node that yields the same trees on each reading. -/
  | list {children : List Value} {later : List (Pass Value)} (comment : Option String)
      (children_isTree : ∀ child ∈ children, IsTree child)
      (stable : ∀ pass ∈ later, pass = { items := children }) :
      IsTree (.listNode children none later comment)
  /-- A map node whose children are trees. -/
  | map {entries : List (Value × Value)} (comment : Option String)
      (children_isTree : ∀ entry ∈ entries, IsTree entry.2) :
      IsTree (.mapNode entries none comment)

/-- Every reading of a stable list is its first one. -/
theorem Value.pass_eq_first {first : Pass Value} {later : List (Pass Value)}
    (h : ∀ pass ∈ later, pass = first) (number : ℕ) : Value.pass first later number = first := by
  cases number with
  | zero => rfl
  | succ n =>
    have hlast : later.getLast?.getD first = first := by
      cases hl : later.getLast? with
      | none => rfl
      | some pass => exact h pass (List.mem_of_getLast? hl)
    rw [Value.pass, hlast]
    cases hn : later[n]? with
    | none => rfl
    | some pass => exact h pass (List.mem_of_getElem? hn)

/-- A tree is a node. -/
theorem Value.IsTree.isNode {v : Value} (h : v.IsTree) : v.isNode = true := by
  cases h <;> rfl

/-! ### Comments -/

/-- The comment of a node. -/
def Value.comment : Value → Option String
  | .scalarNode _ comment | .listNode _ _ _ comment | .mapNode _ _ comment => comment
  | _ => none

/-- A node has a comment to ask for. -/
theorem Value.IsTree.comment?_eq {v : Value} (h : v.IsTree) : v.comment? = .ok v.comment := by
  cases h <;> rfl

/-- A node without its comment. -/
def Value.withoutComment : Value → Value
  | .scalarNode value _ => .scalarNode value none
  | .listNode children failure later _ => .listNode children failure later none
  | .mapNode entries failure _ => .mapNode entries failure none
  | v => v

theorem Value.IsTree.withoutComment {v : Value} (h : v.IsTree) : v.withoutComment.IsTree := by
  cases h with
  | scalar value => exact .scalar value none
  | list _ hchildren hstable => exact .list none hchildren hstable
  | map _ hchildren => exact .map none hchildren

/-! ### Values with a literal form -/

/-- An integer has a text in base ten if it is below the first number with one digit too many. -/
theorem hasDecimal_iff {n : ℤ} : hasDecimal n = true ↔ n.natAbs < 10 ^ maxDigits := by
  rw [hasDecimal, decide_eq_true_iff, Nat.length_toDigits_le_iff (by decide) (by decide)]

theorem hasDecimal_pow {digits : ℕ} (h : maxDigits ≤ digits) :
    hasDecimal (10 ^ digits) = false := by
  rw [← Bool.not_eq_true, hasDecimal_iff, Int.natAbs_pow, Nat.not_lt]
  exact Nat.pow_le_pow_right (by decide) h

namespace Value

/-- Whether a value is of a type that has a literal form: the null value, a truth value, an integer,
a text or a finite floating-point number. -/
def isPrimitive : Value → Bool
  | null | bool _ | int _ | str _ => true
  | float bits => Binary64.isFinite bits
  | _ => false

/-- Whether a value has a literal form. Of the primitive values, integers with too many digits have
none. -/
def hasLiteral : Value → Bool
  | int n => hasDecimal n
  | v => v.isPrimitive

/-- The first integer with too many digits. -/
def longInteger : Value := int (10 ^ maxDigits)

theorem hasLiteral_longInteger : longInteger.hasLiteral = false := by
  rw [longInteger, hasLiteral, hasDecimal_pow (Nat.le_refl _)]

theorem ofValue_longInteger (policy : Except Problem Quoting) :
    Literal.ofValue policy longInteger = .error (.failure .tooManyDigits) := by
  have hlong : ¬hasDecimal (10 ^ maxDigits) = true := by
    rw [hasDecimal_pow (Nat.le_refl _)]
    exact Bool.false_ne_true
  rw [longInteger, Literal.ofValue, dif_neg hlong]

/-- An integer that has no literal cannot be shown either. -/
theorem display_longInteger : longInteger.display = none := by
  rw [longInteger, display, decimal?, hasDecimal_pow (Nat.le_refl _)]
  rfl

/-! ### What the scalar nodes hold -/

mutual

/-- What the scalar nodes of a tree hold, each with its path, depth first and in order. -/
def scalars (path : Path) : Value → List (Path × Value)
  | scalarNode value _ => [(path, value)]
  | listNode children _ _ _ => itemScalars path 0 children
  | mapNode entries _ _ => entryScalars path entries
  | _ => []

/-- What the scalar nodes below the elements of a list hold, from the element at `index` on. -/
def itemScalars (path : Path) (index : ℕ) : List Value → List (Path × Value)
  | [] => []
  | child :: rest => scalars (path ++ [.index index]) child ++ itemScalars path (index + 1) rest

/-- What the scalar nodes below the entries of a map hold. -/
def entryScalars (path : Path) : List (Value × Value) → List (Path × Value)
  | [] => []
  | (k, child) :: rest =>
    scalars (path ++ [.key (keyText k)]) child ++ entryScalars path rest

end

/-! ### What has to be written -/

/-- A part of a tree that has to be written as a text. -/
inductive Part where
  /-- The key of an entry. -/
  | key (k : Value)
  /-- What a scalar node holds. -/
  | scalar (v : Value)

/-- Whether a part can be written: a key has a text, and what a scalar node holds has a literal. -/
def Part.isWritable : Part → Bool
  | key k => (keyText? k).isSome
  | scalar v => v.hasLiteral

/-- Whether a part can be shown in a message: no integer in it has too many digits. -/
def Part.isShowable : Part → Bool
  | key k => (keyText? k).isSome
  | scalar v => v.display.isSome

/-- The value of a part that stands in a scalar node. -/
def Part.scalar? : Path × Part → Option (Path × Value)
  | (path, scalar v) => some (path, v)
  | (_, key _) => none

mutual

/-- The parts of a tree, depth first and in order. What a scalar node holds comes with the path of
the node, and a key with that of its map. -/
def parts (path : Path) : Value → List (Path × Part)
  | scalarNode value _ => [(path, .scalar value)]
  | listNode children _ _ _ => itemParts path 0 children
  | mapNode entries _ _ => entryParts path entries
  | _ => []

/-- The parts of the elements of a list, from the element at `index` on. -/
def itemParts (path : Path) (index : ℕ) : List Value → List (Path × Part)
  | [] => []
  | child :: rest => parts (path ++ [.index index]) child ++ itemParts path (index + 1) rest

/-- The parts of the entries of a map. -/
def entryParts (path : Path) : List (Value × Value) → List (Path × Part)
  | [] => []
  | (k, child) :: rest =>
    (path, .key k) :: (parts (path ++ [.key (keyText k)]) child ++ entryParts path rest)

end

/-- Whether all parts of a tree can be written. -/
def IsWritable (v : Value) : Prop := ∀ p ∈ v.parts [], p.2.isWritable = true

/-- What the parts of a tree are does not depend on where the tree stands. -/
def PartsConstant (v : Value) : Prop :=
  ∀ path, (∀ p ∈ v.parts path, p.2.isWritable = true) ↔ v.IsWritable

theorem forall_itemParts {children : List Value} (h : ∀ c ∈ children, c.PartsConstant)
    (path : Path) (index : ℕ) :
    (∀ p ∈ itemParts path index children, p.2.isWritable = true) ↔
      ∀ c ∈ children, c.IsWritable := by
  induction children generalizing index with
  | nil => simp [itemParts]
  | cons child rest ih =>
    rw [itemParts, List.forall_mem_append, List.forall_mem_cons, h _ List.mem_cons_self,
      ih (fun c hc => h c (List.mem_cons_of_mem _ hc))]

theorem forall_entryParts {es : List (Value × Value)} (h : ∀ e ∈ es, e.2.PartsConstant)
    (path : Path) :
    (∀ p ∈ entryParts path es, p.2.isWritable = true) ↔
      ∀ e ∈ es, (keyText? e.1).isSome = true ∧ e.2.IsWritable := by
  induction es with
  | nil => simp [entryParts]
  | cons e rest ih =>
    obtain ⟨k, child⟩ := e
    rw [entryParts, List.forall_mem_cons, List.forall_mem_append, List.forall_mem_cons,
      h _ List.mem_cons_self, ih (fun e he => h e (List.mem_cons_of_mem _ he)), and_assoc]
    exact Iff.rfl

theorem IsTree.partsConstant {v : Value} (h : v.IsTree) : v.PartsConstant := by
  induction h with
  | scalar value comment => exact fun path => by simp [IsWritable, parts]
  | list comment htree hstable ih =>
    intro path
    rw [IsWritable, parts, parts, forall_itemParts ih, forall_itemParts ih]
  | map comment htree ih =>
    intro path
    rw [IsWritable, parts, parts, forall_entryParts ih, forall_entryParts ih]

@[simp] theorem isWritable_scalarNode (v : Value) (comment : Option String) :
    (scalarNode v comment).IsWritable ↔ v.hasLiteral = true := by
  simp [IsWritable, parts, Part.isWritable]

theorem isWritable_listNode {children : List Value} {later : List (Pass Value)}
    {comment : Option String} (h : ∀ c ∈ children, c.IsTree) :
    (listNode children none later comment).IsWritable ↔ ∀ c ∈ children, c.IsWritable :=
  forall_itemParts (fun c hc => (h c hc).partsConstant) [] 0

theorem isWritable_mapNode {es : List (Value × Value)} {comment : Option String}
    (h : ∀ e ∈ es, e.2.IsTree) :
    (mapNode es none comment).IsWritable ↔
      ∀ e ∈ es, (keyText? e.1).isSome = true ∧ e.2.IsWritable :=
  forall_entryParts (fun e he => (h e he).partsConstant) []

theorem isWritable_withoutComment (v : Value) : v.withoutComment.IsWritable ↔ v.IsWritable := by
  cases v <;> exact Iff.rfl

/-! ### Parts and scalar nodes -/

theorem filterMap_itemParts {children : List Value}
    (h : ∀ c ∈ children, ∀ path, (c.parts path).filterMap Part.scalar? = c.scalars path)
    (path : Path) (index : ℕ) :
    (itemParts path index children).filterMap Part.scalar? = itemScalars path index children := by
  induction children generalizing index with
  | nil => rfl
  | cons child rest ih =>
    rw [itemParts, itemScalars, List.filterMap_append, h _ List.mem_cons_self,
      ih fun c hc => h c (List.mem_cons_of_mem _ hc)]

theorem filterMap_entryParts {es : List (Value × Value)}
    (h : ∀ e ∈ es, ∀ path, (e.2.parts path).filterMap Part.scalar? = e.2.scalars path)
    (path : Path) :
    (entryParts path es).filterMap Part.scalar? = entryScalars path es := by
  induction es with
  | nil => rfl
  | cons e rest ih =>
    obtain ⟨k, child⟩ := e
    rw [entryParts, entryScalars, List.filterMap_cons_none rfl, List.filterMap_append,
      h _ List.mem_cons_self, ih fun e he => h e (List.mem_cons_of_mem _ he)]

/-- The parts of a tree that are no keys are what its scalar nodes hold. -/
theorem IsTree.filterMap_parts {v : Value} (h : v.IsTree) (path : Path) :
    (v.parts path).filterMap Part.scalar? = v.scalars path := by
  induction h generalizing path with
  | scalar value comment => rfl
  | list comment htree hstable ih => exact filterMap_itemParts ih path 0
  | map comment htree ih => exact filterMap_entryParts ih path

/-- In a tree that can be written, what the scalar nodes hold has a literal. -/
theorem IsTree.hasLiteral_of_mem_scalars {v : Value} (h : v.IsTree) (hp : v.IsWritable)
    {s : Path × Value} (hs : s ∈ v.scalars []) : s.2.hasLiteral = true := by
  rw [← h.filterMap_parts, List.mem_filterMap] at hs
  obtain ⟨⟨path, part⟩, hmem, hpart⟩ := hs
  cases part with
  | key k => cases hpart
  | scalar x =>
    cases hpart
    exact hp _ hmem

/-- A value that can be shown has a literal if it is primitive. -/
theorem hasLiteral_eq_of_display {v : Value} (h : v.display.isSome = true) :
    v.hasLiteral = v.isPrimitive := by
  cases v with
  | int n =>
    rw [display, decimal?] at h
    split at h
    · assumption
    · exact absurd h (by simp)
  | _ => rfl

/-- Among parts that can be shown, the first one that cannot be written is the first value that is
not primitive. -/
theorem find?_isWritable_of_isShowable {ps : List (Path × Part)}
    (h : ∀ p ∈ ps, p.2.isShowable = true) :
    (ps.find? fun p => !p.2.isWritable) =
      ((ps.filterMap Part.scalar?).find? fun s => !s.2.isPrimitive).map
        fun s => (s.1, Part.scalar s.2) := by
  induction ps with
  | nil => rfl
  | cons p rest ih =>
    have hrest := ih fun p hp => h p (List.mem_cons_of_mem _ hp)
    have hp := h p List.mem_cons_self
    obtain ⟨path, part⟩ := p
    cases part with
    | key k =>
      -- a key can be shown just if it can be written, so it is passed over on both sides
      have hk : Part.isWritable (.key k) = true := hp
      rw [List.find?_cons_of_neg (by simp [hk]), List.filterMap_cons_none rfl, hrest]
    | scalar v =>
      rw [List.filterMap_cons_some (show Part.scalar? (path, .scalar v) = some (path, v) from rfl)]
      have hv : Part.isWritable (.scalar v) = v.isPrimitive := hasLiteral_eq_of_display hp
      cases hprimitive : v.isPrimitive with
      | true =>
        rw [List.find?_cons_of_neg (by simp [hv, hprimitive]),
          List.find?_cons_of_neg (by simp [hprimitive]), hrest]
      | false =>
        rw [List.find?_cons_of_pos (by simp [hv, hprimitive]),
          List.find?_cons_of_pos (by simp [hprimitive])]
        rfl

/-- In a tree that can be shown, the first part that cannot be written is the first value in a
scalar node that is not primitive. -/
theorem IsTree.find?_parts {v : Value} (h : v.IsTree)
    (hshow : ∀ p ∈ v.parts [], p.2.isShowable = true) :
    ((v.parts []).find? fun p => !p.2.isWritable) =
      ((v.scalars []).find? fun s => !s.2.isPrimitive).map fun s => (s.1, Part.scalar s.2) := by
  rw [find?_isWritable_of_isShowable hshow, h.filterMap_parts]

/-- A tree that can be shown can be written if its scalar nodes hold primitive values. -/
theorem IsTree.isWritable_iff {v : Value} (h : v.IsTree)
    (hshow : ∀ p ∈ v.parts [], p.2.isShowable = true) :
    v.IsWritable ↔ ∀ s ∈ v.scalars [], s.2.isPrimitive = true := by
  have hfind := h.find?_parts hshow
  rw [IsWritable]
  constructor
  · intro hall
    have hnone : ((v.parts []).find? fun p => !p.2.isWritable) = none :=
      List.find?_eq_none.mpr fun p hp => by simp [hall p hp]
    rw [hnone, eq_comm, Option.map_eq_none_iff, List.find?_eq_none] at hfind
    exact fun s hs => by simpa using hfind s hs
  · intro hall
    have hnone : ((v.scalars []).find? fun s => !s.2.isPrimitive) = none :=
      List.find?_eq_none.mpr fun s hs => by simp [hall s hs]
    rw [hnone, Option.map_none, List.find?_eq_none] at hfind
    exact fun p hp => by simpa using hfind p hp

/-- A key that has a text has the one that stands for it in a path. -/
theorem keyText?_eq_of_isSome {k : Value} (h : (keyText? k).isSome = true) :
    keyText? k = some (keyText k) := by
  obtain ⟨s, hs⟩ := Option.isSome_iff_exists.mp h
  rw [keyText, hs, Option.getD_some]

end Value

/-! ### Options -/

/-- **Options with members**: no setting holds a word in the place of a member of its set. -/
structure Options.HasMembers (o : Options) : Prop where
  /-- The rule for nested maps is a member. -/
  objectSeparator : ∃ m, o.objectSeparator = .member m
  /-- The quoting policy of texts is a member. -/
  stringQuoting : ∃ m, o.stringQuoting = .member m
  /-- The quoting policy of keys is a member. -/
  keyQuoting : ∃ m, o.keyQuoting = .member m

theorem Options.HasMembers.policy {o : Options} (h : o.HasMembers) :
    ∃ quoting, o.stringQuoting.policy = .ok quoting := by
  obtain ⟨quoting, hq⟩ := h.stringQuoting
  exact ⟨quoting, by rw [hq]; rfl⟩

/-- **Options with counts that fit**: no count of characters is beyond a machine word. -/
structure Options.CountsFit (o : Options) : Prop where
  /-- The width of a level of indentation fits. -/
  indent : Options.fitsWord o.indent = true
  /-- The spaces before the separator fit. -/
  spacesBefore : Options.fitsWord o.spacesBefore = true
  /-- The spaces after the separator fit. -/
  spacesAfter : Options.fitsWord o.spacesAfter = true

namespace Options

theorem repeated?_cases (count : Int) (c : Char) :
    (fitsWord count = true ∧ ∃ cs, repeated? count c = .ok cs) ∨
      (fitsWord count = false ∧ repeated? count c = .error .countTooLarge) := by
  cases h : fitsWord count <;> simp [repeated?, h]

/-- Counts are checked without a complaint if they fit, and only then. -/
theorem checkCounts_cases (o : Options) :
    (o.CountsFit ∧ o.checkCounts = .ok ()) ∨
      (¬o.CountsFit ∧ o.checkCounts = .error .countTooLarge) := by
  rw [checkCounts]
  rcases repeated?_cases o.indent o.indentCharacter.char with ⟨hi, _, hindent⟩ | ⟨hi, hindent⟩
  · rcases repeated?_cases o.spacesBefore ' ' with ⟨hb, _, hbefore⟩ | ⟨hb, hbefore⟩
    · rcases repeated?_cases o.spacesAfter ' ' with ⟨ha, _, hafter⟩ | ⟨ha, hafter⟩
      · exact Or.inl ⟨⟨hi, hb, ha⟩, by rw [hindent, hbefore, hafter]; rfl⟩
      · refine Or.inr ⟨fun h => ?_, by rw [hindent, hbefore, hafter]; rfl⟩
        exact absurd h.spacesAfter (by simp [ha])
    · refine Or.inr ⟨fun h => ?_, by rw [hindent, hbefore]; rfl⟩
      exact absurd h.spacesBefore (by simp [hb])
  · refine Or.inr ⟨fun h => ?_, by rw [hindent]; rfl⟩
    exact absurd h.indent (by simp [hi])

theorem CountsFit.checkCounts {o : Options} (h : o.CountsFit) : o.checkCounts = .ok () :=
  (o.checkCounts_cases.resolve_right fun hnot => hnot.1 h).2

/-- A repeated character is that character. -/
theorem eq_of_mem_repeated {count : Int} {c x : Char} (h : x ∈ repeated count c) : x = c := by
  rcases repeated?_cases count c with ⟨hfits, -⟩ | ⟨-, herror⟩
  · rw [repeated, repeated?, if_pos hfits] at h
    exact List.eq_of_mem_replicate h
  · rw [repeated, herror] at h
    exact absurd h List.not_mem_nil

end Options

/-! ### Literals -/

/-- A value that is unsupported is reported, if it can be shown. -/
theorem Halt.ofProblem_unsupported (v : Value) (reason : Option String) :
    Halt.ofProblem (.unsupported v reason) =
      if v.display.isSome = true then .error { problem := .unsupported v reason }
      else .failure .tooManyDigits := by
  rw [ofProblem, Problem.message, Option.isSome_map]

/-- A value with a literal form has a literal under every quoting policy, and any other value is
unsupported, as far as there are words for it. -/
theorem Literal.ofValue_cases (quoting : Quoting) (v : Value) :
    (v.hasLiteral = true ∧ ∃ l, Literal.ofValue (.ok quoting) v = .ok l) ∨
      (v.hasLiteral = false ∧ ∃ reason,
        Literal.ofValue (.ok quoting) v = .error (.ofProblem (.unsupported v reason))) := by
  cases v with
  | float bits =>
    by_cases hf : Binary64.isFinite bits = true
    · exact Or.inl ⟨hf, .float bits, by rw [Literal.ofValue, if_pos hf]⟩
    · have herror : Literal.ofValue (.ok quoting) (.float bits) = .error (.ofProblem
          (.unsupported (.float bits) (some "non-finite numbers have no literal form"))) := by
        rw [Literal.ofValue, if_neg hf]
      exact Or.inr ⟨by simpa [Value.hasLiteral, Value.isPrimitive] using hf, _, herror⟩
  | int n =>
    cases hn : hasDecimal n with
    | true => exact Or.inl ⟨hn, .int n hn, by rw [Literal.ofValue, dif_pos hn]⟩
    | false =>
      refine Or.inr ⟨hn, none, ?_⟩
      have hshown : ¬(Value.int n).display.isSome = true := by simp [Value.display, decimal?, hn]
      rw [Literal.ofValue, dif_neg (by simp [hn]), Halt.ofProblem_unsupported, if_neg hshown]
  | null => exact Or.inl ⟨rfl, .null, rfl⟩
  | bool b => exact Or.inl ⟨rfl, .bool b, rfl⟩
  | str s => exact Or.inl ⟨rfl, .ofText quoting s.toList, rfl⟩
  | _ => exact Or.inr ⟨rfl, none, rfl⟩

end Hocon
