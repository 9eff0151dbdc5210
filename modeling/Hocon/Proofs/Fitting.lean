import Hocon.Proofs.Stops
import Mathlib.Algebra.GroupWithZero.Nat
import Mathlib.Algebra.Order.BigOperators.Group.List
import Mathlib.Algebra.Order.Group.Nat
import Mathlib.Data.List.Perm.Subperm

/-!
# Which lists fit on one line

Measuring a list is a loop with an early end: it adds up the elements one by one, and stops at the
limit, at an element that is no scalar node, or at a value without a literal. This module says that
nothing of this can be seen from outside as long as all elements have literals: a list is written
on one line exactly if it is *short* (`Hocon.Layout.IsShort`), and to be short is a matter of the
elements and not of their order.

The one place where the order matters is a value without a literal. It is found if it is reached,
that is, if the elements in front of it are short; behind the limit it is not looked at. A value
that is found is reported at its index, unless it cannot even be shown
(`Hocon.Layout.chosen_of_unwritten`).

| what is known of the elements in front | measuring the list |
|---|---|
| they stay below the limit | goes on behind them (`Hocon.Layout.Measured.measure_append`) |
| they reach the limit | has ended (`Hocon.Layout.outcome_measure_of_le`) |

The running total is the induction's only parameter in both, so the order-free form is one case
distinction over the total of a prefix (`Hocon.Layout.outcome_measure_append`).
-/

namespace Hocon

/-- Whether a value is a node that holds other nodes. -/
def Value.isContainer : Value → Bool
  | .listNode .. | .mapNode .. => true
  | _ => false

/-- A node is a plain scalar node exactly if it is no container and has no comment. -/
theorem Value.isPlainScalar_iff {v : Value} (h : v.isNode = true) :
    v.isPlainScalar = true ↔ v.isContainer = false ∧ v.comment = none := by
  cases v with
  | scalarNode v comment => cases comment <;> simp [isPlainScalar, isContainer, Value.comment]
  | listNode | mapNode => simp [isPlainScalar, isContainer]
  | _ => exact absurd h (by simp [isNode])

namespace Layout

variable (o : Options)

/-- How the choice of a layout ends, for elements that are the same on each reading. -/
def chosen (children : List Value) : Except Halt Bool :=
  (isInline o.stringQuoting.policy { items := children } { items := children }).outcome

/-- The room that an element takes on a line: its literal, and one character for what separates it
from the next one. -/
def room (child : Value) : ℕ := (o.literal child.held).text.length + 1

/-- Whether no element is a map or a list, and none has a comment. -/
def ArePlain (children : List Value) : Prop :=
  ∀ c ∈ children, c.isContainer = false ∧ c.comment = none

/-- **A short list**: its elements are plain, and all together they stay below the limit. -/
structure IsShort (children : List Value) : Prop where
  /-- There are neither containers nor comments. -/
  plain : ArePlain children
  /-- There is room for all elements. -/
  below : (children.map (room o)).sum < inlineLimit

/-- Whether all scalar nodes among the elements hold values that have a literal. -/
def HaveLiterals (children : List Value) : Prop :=
  ∀ v comment, Value.scalarNode v comment ∈ children → v.hasLiteral = true

/-! ### The shape of a list -/

variable {o} {quoting : Quoting} {children : List Value}

/-- A node is no reason for a block exactly if it is no container and has no comment. -/
theorem blockReason?_eq_none_iff_of_plain {v : Value} (h : v.isNode = true) :
    blockReason? v = none ↔ v.isContainer = false ∧ v.comment = none :=
  (blockReason?_eq_none_iff h).trans (Value.isPlainScalar_iff h)

/-- Where a container or a comment is found, the list is a block. -/
theorem chosen_eq_false (hnode : ∀ c ∈ children, c.isNode = true)
    (h : ¬ArePlain children) : chosen o children = .ok false := by
  rw [chosen, isInline]
  cases hreason : children.findSome? blockReason? with
  | some reason => rfl
  | none =>
    refine absurd (fun c hc => ?_) h
    exact (blockReason?_eq_none_iff_of_plain (hnode c hc)).mp
      (List.findSome?_eq_none_iff.mp hreason c hc)

/-- Where none is found, the list is measured. -/
theorem chosen_eq_measure (hnode : ∀ c ∈ children, c.isNode = true)
    (h : ArePlain children) :
    chosen o children = (measure o.stringQuoting.policy none 0 0 children).outcome := by
  have hplain : IsPlain { items := children } := by
    refine ⟨rfl, fun c hc => ?_⟩
    exact (blockReason?_eq_none_iff_of_plain (hnode c hc)).mpr (h c hc)
  rw [chosen, isInline_of_isPlain hplain]

/-! ### The room of a list -/

theorem measured_literals (children : List Value) :
    measured (literals o children) = (children.map (room o)).sum := by
  induction children with
  | nil => rfl
  | cons child rest ih =>
    rw [literals_cons, measured_cons, ih, List.map_cons, List.sum_cons]
    rfl

/-- Fewer elements take less room, in any order. -/
theorem sum_room_le {other : List Value} (h : other.Subperm children) :
    (other.map (room o)).sum ≤ (children.map (room o)).sum := by
  obtain ⟨middle, hperm, hsublist⟩ := h
  rw [← (hperm.map (room o)).sum_nat]
  exact (hsublist.map (room o)).sum_le_sum fun _ _ => Nat.zero_le _

theorem HaveLiterals.of_subperm {other : List Value} (h : HaveLiterals children)
    (hsub : other.Subperm children) : HaveLiterals other :=
  fun v comment hmem => h v comment (hsub.subset hmem)

theorem IsShort.of_subperm {other : List Value} (h : IsShort o children)
    (hsub : other.Subperm children) : IsShort o other :=
  ⟨fun c hc => h.plain c (hsub.subset hc), (sum_room_le hsub).trans_lt h.below⟩

/-! ### Measuring -/

/-- **Measuring has ended** behind elements that reach the limit. -/
theorem outcome_measure_of_le {before : List Value} {length : ℕ} (hlength : length < inlineLimit)
    (hliteral : ∀ c ∈ before, ∃ v comment l, c = .scalarNode v comment ∧
      Literal.ofValue o.stringQuoting.policy v = .ok l)
    (hle : inlineLimit ≤ length + (before.map (room o)).sum) (failure : Option Failure) (index : ℕ)
    (rest : List Value) :
    (measure o.stringQuoting.policy failure index length (before ++ rest)).outcome =
      .ok false := by
  induction before generalizing index length with
  | nil =>
    rw [List.map_nil, List.sum_nil] at hle
    omega
  | cons child before ih =>
    obtain ⟨v, comment, l, rfl, hl⟩ := hliteral child List.mem_cons_self
    have hroom : room o (.scalarNode v comment) = l.text.length + 1 := by
      rw [room, Value.held_scalarNode, Options.literal, hl]
    rw [List.map_cons, List.sum_cons, hroom] at hle
    rw [List.cons_append, measure, hl]
    -- the limit is reached at this element, or else further on
    by_cases hlimit : inlineLimit ≤ length + l.text.length + 1
    · simp only [hlimit, if_true]
      rfl
    · simp only [hlimit, if_false]
      exact ih (Nat.not_le.mp hlimit) (fun c hc => hliteral c (List.mem_cons_of_mem _ hc))
        (by omega) (index + 1)

/-- **Measuring a list with a prefix** that has literals: it goes on behind the prefix if that stays
below the limit, and has ended there otherwise. -/
theorem outcome_measure_append {before : List Value}
    (hliteral : ∀ c ∈ before, ∃ v comment l, c = .scalarNode v comment ∧
      Literal.ofValue o.stringQuoting.policy v = .ok l) (rest : List Value) :
    (measure o.stringQuoting.policy none 0 0 (before ++ rest)).outcome =
      if (before.map (room o)).sum < inlineLimit then
        (measure o.stringQuoting.policy none before.length (before.map (room o)).sum rest).outcome
      else .ok false := by
  split_ifs with hbelow
  · have hmeasured : Measured o 0 before := by
      refine ⟨hliteral, ?_⟩
      rwa [Nat.zero_add, measured_literals]
    rw [hmeasured.measure_append, measured_literals, Nat.zero_add, Nat.zero_add]
  · have hzero : 0 < inlineLimit := by decide
    exact outcome_measure_of_le hzero hliteral (by omega) none 0 rest

/-- Nodes that are no containers hold values; if these have literals, so do the nodes. -/
theorem HaveLiterals.exists_literal (hq : o.stringQuoting = .member quoting)
    (h : HaveLiterals children) (hnode : ∀ c ∈ children, c.isNode = true)
    (hplain : ArePlain children) :
    ∀ c ∈ children, ∃ v comment l, c = .scalarNode v comment ∧
      Literal.ofValue o.stringQuoting.policy v = .ok l := by
  intro c hc
  have hscalar := Value.eq_of_isPlainScalar
    ((Value.isPlainScalar_iff (hnode c hc)).mpr (hplain c hc))
  rcases Literal.ofValue_cases quoting c.held with ⟨-, l, hl⟩ | ⟨hnot, -⟩
  · exact ⟨c.held, none, l, hscalar, by rw [hq]; exact hl⟩
  · exact absurd (h c.held none (by rwa [← hscalar])) (by simp [hnot])

/-! ### The choice without the order -/

/-- **A list whose elements have literals is written on one line exactly if it is short.** -/
theorem exists_chosen (hq : o.stringQuoting = .member quoting)
    (hnode : ∀ c ∈ children, c.isNode = true) (h : HaveLiterals children) :
    ∃ inline, chosen o children = .ok inline ∧ (inline = true ↔ IsShort o children) := by
  by_cases hplain : ArePlain children
  · have hliteral := h.exists_literal hq hnode hplain
    have hmeasure := outcome_measure_append hliteral []
    rw [List.append_nil, ← chosen_eq_measure hnode hplain] at hmeasure
    refine ⟨decide ((children.map (room o)).sum < inlineLimit), ?_, ?_⟩
    · rw [hmeasure]
      split_ifs with hbelow
      · rw [decide_eq_true hbelow]
        rfl
      · rw [decide_eq_false hbelow]
    · rw [decide_eq_true_iff]
      exact ⟨fun hbelow => ⟨hplain, hbelow⟩, IsShort.below⟩
  · refine ⟨false, chosen_eq_false hnode hplain, ?_⟩
    exact ⟨fun hfalse => absurd hfalse (by simp), fun hshort => absurd hshort.plain hplain⟩

theorem chosen_eq_true_iff (hq : o.stringQuoting = .member quoting)
    (hnode : ∀ c ∈ children, c.isNode = true) (h : HaveLiterals children) :
    chosen o children = .ok true ↔ IsShort o children := by
  obtain ⟨inline, hchosen, hiff⟩ := exists_chosen hq hnode h
  rw [hchosen, ← hiff, Except.ok.injEq]

theorem chosen_eq_false_iff (hq : o.stringQuoting = .member quoting)
    (hnode : ∀ c ∈ children, c.isNode = true) (h : HaveLiterals children) :
    chosen o children = .ok false ↔ ¬IsShort o children := by
  obtain ⟨inline, hchosen, hiff⟩ := exists_chosen hq hnode h
  rw [hchosen, ← hiff, Except.ok.injEq, Bool.not_eq_true]

/-- **A list fits on one line exactly if it is short.** -/
theorem fits_eq_true_iff (hnode : ∀ c ∈ children, c.isNode = true) :
    fits o children = true ↔ IsShort o children := by
  rw [fits, Bool.and_eq_true, List.all_eq_true, decide_eq_true_eq, measured_literals]
  constructor
  · exact fun h => ⟨fun c hc => (Value.isPlainScalar_iff (hnode c hc)).mp (h.1 c hc), h.2⟩
  · exact fun h => ⟨fun c hc => (Value.isPlainScalar_iff (hnode c hc)).mpr (h.plain c hc), h.below⟩

/-- The layout that is chosen says whether the list fits on one line. -/
theorem chosen_eq_fits (hq : o.stringQuoting = .member quoting)
    (hnode : ∀ c ∈ children, c.isNode = true) (h : HaveLiterals children) :
    chosen o children = .ok (fits o children) := by
  obtain ⟨inline, hchosen, hiff⟩ := exists_chosen hq hnode h
  rw [hchosen, Bool.eq_iff_iff.mpr (hiff.trans (fits_eq_true_iff hnode).symm)]

/-- What a value without a literal ends the measuring with, in the words of the value. -/
theorem measuringHalt_ofProblem_unsupported (index : ℕ) (v : Value) (reason : Option String) :
    measuringHalt index (.ofProblem (.unsupported v reason)) =
      if v.display.isSome = true
        then .error { problem := .unsupported v reason, path := [.index index] }
        else .failure .tooManyDigits := by
  rw [Halt.ofProblem_unsupported]
  split <;> rfl

/-- **A value without a literal is found exactly if it is reached**, which is a matter of the shape
of the list and of the elements in front of it. It is reported at its index if it can be shown. -/
theorem chosen_of_unwritten (hq : o.stringQuoting = .member quoting) {before rest : List Value}
    {v : Value} {comment : Option String}
    (hchildren : children = before ++ .scalarNode v comment :: rest)
    (hnode : ∀ c ∈ children, c.isNode = true) (hbefore : HaveLiterals before)
    (hv : v.hasLiteral = false) :
    (ArePlain children ∧ (before.map (room o)).sum < inlineLimit →
      ∃ reason, chosen o children = .error (if v.display.isSome = true
        then .error { problem := .unsupported v reason, path := [.index before.length] }
        else .failure .tooManyDigits)) ∧
    (¬(ArePlain children ∧ (before.map (room o)).sum < inlineLimit) →
      chosen o children = .ok false) := by
  by_cases hplain : ArePlain children
  · have hmem : ∀ c ∈ before, c ∈ children := by
      intro c hc
      rw [hchildren]
      exact List.mem_append_left _ hc
    have hliteral := hbefore.exists_literal hq (fun c hc => hnode c (hmem c hc))
      fun c hc => hplain c (hmem c hc)
    -- whether the value is reached is decided by the elements in front of it
    rw [chosen_eq_measure hnode hplain, hchildren, outcome_measure_append hliteral]
    constructor
    · rintro ⟨-, hbelow⟩
      obtain ⟨-, reason, hreason⟩ :=
        (Literal.ofValue_cases quoting v).resolve_left (by simp [hv])
      refine ⟨reason, ?_⟩
      rw [if_pos hbelow, hq, measure, show (Setting.member quoting).policy = .ok quoting from rfl,
        hreason, ← measuringHalt_ofProblem_unsupported]
      rfl
    · intro hnot
      rw [if_neg fun hbelow => hnot ⟨hchildren ▸ hplain, hbelow⟩]
  · exact ⟨fun h => absurd h.1 hplain, fun _ => chosen_eq_false hnode hplain⟩

/-- A list that is written on one line has been measured to its end, so all values have literals. -/
theorem HaveLiterals.of_chosen (hq : o.stringQuoting = .member quoting)
    (hnode : ∀ c ∈ children, c.isNode = true) (h : chosen o children = .ok true) :
    HaveLiterals children := by
  rcases forall_or_exists_first
      (P := fun c => ∀ v comment, c = Value.scalarNode v comment → v.hasLiteral = true)
      children with hall | ⟨before, c, rest, hchildren, hbefore, hc⟩
  · exact fun v comment hmem => hall _ hmem v comment rfl
  · simp only [not_forall, Bool.not_eq_true] at hc
    obtain ⟨v, comment, rfl, hv⟩ := hc
    have hliterals : HaveLiterals before := fun v comment hmem => hbefore _ hmem v comment rfl
    obtain ⟨hreported, hblock⟩ := chosen_of_unwritten hq hchildren hnode hliterals hv
    by_cases hreached : ArePlain children ∧ (before.map (room o)).sum < inlineLimit
    · obtain ⟨reason, herror⟩ := hreported hreached
      exact absurd (h.symm.trans herror) (by simp)
    · exact absurd (h.symm.trans (hblock hreached)) (by simp)

/-- **Early end and order cannot be told apart from a total.** For nodes under a quoting policy:

1. if all values have literals, the list is written on one line exactly if it is short;
2. so a list on one line stays on one line without some of its elements and in any other order;
3. and a block stays a block with more elements, if these have literals too;
4. the first value without a literal ends the measuring exactly if the list is plain and the
   elements in front of it stay below the limit, and the list is a block otherwise; the value is
   reported at its index if it can be shown, and if an integer in it has too many digits for that,
   there is only the failure to write that integer, without a position. -/
theorem chosen_orderFree (hq : o.stringQuoting = .member quoting)
    (hnode : ∀ c ∈ children, c.isNode = true) :
    (HaveLiterals children →
      ∃ inline, chosen o children = .ok inline ∧ (inline = true ↔ IsShort o children)) ∧
    (∀ other : List Value, other.Subperm children →
      chosen o children = .ok true → chosen o other = .ok true) ∧
    (∀ other : List Value, children.Subperm other → (∀ c ∈ other, c.isNode = true) →
      HaveLiterals other → chosen o children = .ok false → chosen o other = .ok false) ∧
    (∀ before v comment rest, children = before ++ .scalarNode v comment :: rest →
      HaveLiterals before → v.hasLiteral = false →
      (ArePlain children ∧ (before.map (room o)).sum < inlineLimit →
        ∃ reason, chosen o children = .error (if v.display.isSome = true
          then .error { problem := .unsupported v reason, path := [.index before.length] }
          else .failure .tooManyDigits)) ∧
      (¬(ArePlain children ∧ (before.map (room o)).sum < inlineLimit) →
        chosen o children = .ok false)) := by
  refine ⟨exists_chosen hq hnode, fun other hsub hinline => ?_,
    fun other hsub hother h hblock => ?_,
    fun before v comment rest hchildren hbefore hv =>
      chosen_of_unwritten hq hchildren hnode hbefore hv⟩
  · have h := HaveLiterals.of_chosen hq hnode hinline
    rw [chosen_eq_true_iff hq hnode h] at hinline
    rw [chosen_eq_true_iff hq (fun c hc => hnode c (hsub.subset hc)) (h.of_subperm hsub)]
    exact hinline.of_subperm hsub
  · rw [chosen_eq_false_iff hq hnode (h.of_subperm hsub)] at hblock
    rw [chosen_eq_false_iff hq hother h]
    exact fun hshort => hblock (hshort.of_subperm hsub)

/-- The elements of a list without containers and comments. -/
def lineOf (vs : List Value) : List Value := vs.map (.scalarNode · none)

/-- A text of the given length. -/
def word (n : ℕ) : Value := .str (String.ofList (List.replicate n 'x'))

theorem isNode_of_mem_lineOf {vs : List Value} : ∀ c ∈ lineOf vs, c.isNode = true :=
  List.forall_mem_map.mpr fun _ _ => rfl

theorem arePlain_lineOf (vs : List Value) : ArePlain (lineOf vs) :=
  List.forall_mem_map.mpr fun _ _ => ⟨rfl, rfl⟩

theorem haveLiterals_lineOf {vs : List Value} (h : ∀ v ∈ vs, v.hasLiteral = true) :
    HaveLiterals (lineOf vs) := by
  intro v comment hmem
  obtain ⟨w, hw, heq⟩ := List.mem_map.mp hmem
  cases heq
  exact h v hw

/-- Two texts at the limit: one character more makes them a block, and hides what is behind them. An
integer with too many digits has no position. -/
theorem chosen_orderFree_of_words :
    Options.stringQuoting {} = .member .whenRequired ∧
      (∀ c ∈ lineOf [word 38, word 39], c.isNode = true) ∧
      chosen {} (lineOf [word 38, word 39]) = .ok true ∧
      chosen {} (lineOf [word 39]) = .ok true ∧
      chosen {} (lineOf [word 39, word 39]) = .ok false ∧
      chosen {} (lineOf [word 39, .null, word 39]) = .ok false ∧
      (∃ reason, chosen {} (lineOf [word 38, word 39, .ellipsis]) = .error (.error
        { problem := .unsupported .ellipsis reason, path := [.index 2] })) ∧
      chosen {} (lineOf [word 39, word 39, .ellipsis]) = .ok false ∧
      chosen {} (lineOf [word 38, word 39, .longInteger]) = .error (.failure .tooManyDigits) := by
  have hq : Options.stringQuoting {} = .member .whenRequired := rfl
  have hbelow : ((lineOf [word 38, word 39]).map (room {})).sum < inlineLimit := by decide
  have hreached : ¬((lineOf [word 39, word 39]).map (room {})).sum < inlineLimit := by decide
  have hliterals : HaveLiterals (lineOf [word 38, word 39]) := haveLiterals_lineOf (by decide)
  have hliterals' : HaveLiterals (lineOf [word 39, word 39]) := haveLiterals_lineOf (by decide)
  have hfewer : (lineOf [word 39]).Subperm (lineOf [word 38, word 39]) :=
    (List.sublist_cons_self _ _).subperm
  have hmore : (lineOf [word 39, word 39]).Subperm (lineOf [word 39, .null, word 39]) :=
    ((List.sublist_cons_self _ _).cons_cons _).subperm
  have hnode : ∀ vs, ∀ c ∈ lineOf vs, c.isNode = true := fun _ => isNode_of_mem_lineOf
  obtain ⟨hshort, hkept, -, -⟩ := chosen_orderFree hq (hnode [word 38, word 39])
  obtain ⟨hblocks, -, hgrown, -⟩ := chosen_orderFree hq (hnode [word 39, word 39])
  obtain ⟨-, -, -, hreported⟩ := chosen_orderFree hq (hnode [word 38, word 39, .ellipsis])
  obtain ⟨-, -, -, hhidden⟩ := chosen_orderFree hq (hnode [word 39, word 39, .ellipsis])
  obtain ⟨-, -, -, hunshown⟩ := chosen_orderFree hq (hnode [word 38, word 39, .longInteger])
  obtain ⟨reason, hfound⟩ := (hreported _ .ellipsis _ _ rfl hliterals rfl).1
    ⟨arePlain_lineOf _, hbelow⟩
  obtain ⟨_, hfailed⟩ := (hunshown _ .longInteger _ _ rfl hliterals
    Value.hasLiteral_longInteger).1 ⟨arePlain_lineOf _, hbelow⟩
  rw [Value.display_longInteger] at hfailed
  obtain ⟨inline, hinline, hiff⟩ := hshort hliterals
  obtain ⟨inline', hblock, hiff'⟩ := hblocks hliterals'
  obtain rfl : inline = true := hiff.mpr ⟨arePlain_lineOf _, hbelow⟩
  obtain rfl : inline' = false := by
    rw [← Bool.not_eq_true]
    exact fun htrue => hreached (hiff'.mp htrue).below
  exact ⟨hq, hnode _, hinline, hkept _ hfewer hinline, hblock,
    hgrown _ hmore (hnode _) (haveLiterals_lineOf (by decide)) hblock,
    ⟨reason, hfound⟩,
    (hhidden _ _ _ _ rfl hliterals' rfl).2 fun h => hreached h.2, hfailed⟩

/-- **An element without a literal that is not named.** Nothing stands in front of the integer, and
yet there is no error with its index. -/
theorem chosen_longInteger_unlocated :
    Value.longInteger.hasLiteral = false ∧ ArePlain (lineOf [Value.longInteger]) ∧
      chosen {} (lineOf [Value.longInteger]) = .error (.failure .tooManyDigits) := by
  refine ⟨Value.hasLiteral_longInteger, arePlain_lineOf _, ?_⟩
  rw [chosen_eq_measure isNode_of_mem_lineOf (arePlain_lineOf _), lineOf, List.map_singleton,
    measure, Value.ofValue_longInteger]
  rfl

end Layout

end Hocon
