import Hocon.Proofs.Decisions
import Hocon.Proofs.Fitting
import Hocon.Proofs.WellFormed

/-!
# The text of a list

A list is measured by one loop and written by another. This module says what the two have to do
with each other, for a list that yields the same elements on each reading, at any level.

On one line, what is written is what was measured: the literals of the elements, with a comma and a
space in the place of the one character that was counted for what separates them. An element takes
two characters at least, one for its literal and one for what separates it, so there are fewer than
half as many elements as the limit allows characters, and the line stays within half as much again.

| written for `n` literals of `m` characters in all | length |
|---|---|
| what is measured | `m + n` |
| what is written between the brackets, and one character | `m + 2 * n` |

A block has a line for each bracket and one at least for each element, since the line breaks in it
are those of its elements and two more.

* `Hocon.Document.length_text_ofLiterals` – the second row of the table;
* `Hocon.Render.length_le_count_of_blockElements` – the line breaks of a block;
* `Hocon.Render.text_of_listNode` – the text of a list, in both layouts.
-/

namespace Hocon

/-! ### Literals on one line -/

/-- A literal has characters. -/
theorem Literal.text_ne_nil {l : Literal} (h : (Piece.literal l).Sound) : l.text ≠ [] := by
  rcases Piece.literal_cases h with ⟨cs, rfl⟩ | ⟨hword, -⟩
  · simp [text, Quoted.encode]
  · exact hword.ne_nil

namespace Layout

/-- Each element takes two characters at least. -/
theorem two_mul_length_le_measured {ls : List Literal} (h : ∀ l ∈ ls, l.text ≠ []) :
    2 * ls.length ≤ measured ls := by
  induction ls with
  | nil => exact Nat.zero_le _
  | cons l ls ih =>
    have hl : 0 < l.text.length := List.length_pos_iff.mpr (h l List.mem_cons_self)
    have hls := ih fun l' hl' => h l' (List.mem_cons_of_mem _ hl')
    rw [List.length_cons, measured_cons]
    omega

end Layout

namespace Document

variable (o : Options)

/-- **Literals on one line** stand behind a space, with a comma and a space between them. -/
theorem text_ofLiterals [Host] (l : Literal) (ls : List Literal) :
    text o (ofLiterals (l :: ls)) =
      ' ' :: [',', ' '].intercalate ((l :: ls).map Literal.text) := by
  induction ls generalizing l with
  | nil => simp [ofLiterals, Piece.text]
  | cons l' ls ih =>
    rw [ofLiterals, text_cons, text_cons, text_cons, ih]
    · simp [Piece.text, List.intercalate_cons_cons]
    · simp

/-- **How long literals on one line are**, as against what was measured. -/
theorem length_text_ofLiterals [Host] (l : Literal) (ls : List Literal) :
    (text o (ofLiterals (l :: ls))).length + 1 = Layout.measured (l :: ls) + (l :: ls).length := by
  induction ls generalizing l with
  | nil => simp [ofLiterals, Piece.text, Layout.measured]
  | cons l' ls ih =>
    have hrest := ih l'
    rw [ofLiterals, text_cons, text_cons, text_cons, Layout.measured_cons]
    · simp only [Piece.text, List.length_append, List.length_cons, List.length_nil] at hrest ⊢
      omega
    · simp

/-- The text of literals in brackets. Without literals, one of the two spaces is left out. -/
theorem text_inBrackets [Host] (ls : List Literal) :
    text o (inBrackets ls) = if ls = [] then ['[', ' ', ']']
      else '[' :: ' ' :: ([',', ' '].intercalate (ls.map Literal.text) ++ [' ', ']']) := by
  cases ls with
  | nil => rfl
  | cons l ls =>
    rw [if_neg (by simp), inBrackets, text_cons, text_append, text_ofLiterals]
    rfl

/-- **Literals in brackets that stay below the limit** take half as much room again at most. -/
theorem length_text_inBrackets_le [Host] {ls : List Literal} (h : ∀ l ∈ ls, l.text ≠ [])
    (hbelow : Layout.measured ls < inlineLimit) : (text o (inBrackets ls)).length ≤ 120 := by
  have hlimit : inlineLimit = 80 := rfl
  have hcount := Layout.two_mul_length_le_measured h
  cases ls with
  | nil => exact Nat.le_of_ble_eq_true rfl
  | cons l ls =>
    have hlength := length_text_ofLiterals o l ls
    rw [inBrackets, text_cons, text_append, List.length_append, List.length_append]
    simp only [Piece.text, text_cons, text_nil, List.length_append, List.length_cons,
      List.length_nil] at *
    omega

end Document

/-! ### Line breaks -/

/-- There are more lines than line feeds. -/
theorem count_lineFeed_lt_length_splitLines (cs : List Char) :
    cs.count '\n' < (splitLines cs).length := by
  induction cs using splitLines.induct with
  | case1 => exact Nat.zero_lt_one
  | case2 rest ih =>
    rw [splitLines, List.count_cons_of_ne (by decide), List.count_cons_self, List.length_cons]
    exact Nat.succ_lt_succ ih
  | case3 rest hrest ih =>
    rw [splitLines, List.count_cons_of_ne (by decide), List.length_cons]
    · exact Nat.lt_succ_of_lt ih
    · exact hrest
  | case4 rest ih =>
    rw [splitLines, List.count_cons_self, List.length_cons]
    exact Nat.succ_lt_succ ih
  -- there is always a line to put the character in front of
  | case5 c rest _ _ _ hrest ih => exact absurd hrest (splitLines_ne_nil rest)
  | case6 c rest _ hr hn first others hrest ih =>
    rw [splitLines_cons hn hr, List.count_cons_of_ne hn, hrest] at *
    exact ih

/-- Each line that is ended has a line feed. -/
theorem Document.count_newline_le [Host] (o : Options) (d : Document) :
    d.count .newline ≤ (text o d).count '\n' := by
  have hnewline : o.newline.count '\n' = 1 := by
    rcases o.newline_cases with hends | hends <;> rw [hends] <;> rfl
  induction d with
  | nil => exact Nat.le_refl _
  | cons p d ih =>
    rw [text_cons, List.count_append]
    by_cases hp : p = .newline
    · rw [hp, List.count_cons_self, Piece.text, hnewline]
      omega
    · rw [List.count_cons_of_ne hp]
      omega

namespace Render

variable {o : Options}

/-- **Each element of a block** has a line break in front of it. -/
theorem length_le_count_of_blockElements {level : ℕ} {path : Path} {index : ℕ}
    {children : List Value} {d : Document}
    (h : (blockElements o level path index children).outcome = .ok d) :
    children.length ≤ d.count .newline := by
  induction children generalizing index d with
  | nil => exact Nat.zero_le _
  | cons child rest ih =>
    simp only [blockElements, Attempt.outcome_bind] at h
    obtain ⟨above, -, h⟩ := Attempt.exists_of_bind_eq_ok h
    obtain ⟨body, -, h⟩ := Attempt.exists_of_bind_eq_ok h
    obtain ⟨others, hothers, h⟩ := Attempt.exists_of_bind_eq_ok h
    cases h
    have hrest := ih hothers
    simp only [List.count_append, List.count_cons, List.count_nil, List.length_cons]
    simp only [beq_self_eq_true, if_true]
    omega

/-! ### The two layouts -/

variable {children : List Value} {later : List (Pass Value)}

/-- The literals of a list on one line are those of its elements. -/
theorem forall₂_literals (hplain : ∀ c ∈ children, c.isPlainScalar = true)
    (hcompletes : ∀ c ∈ children, Completes o c) :
    List.Forall₂ (fun c l => ∃ v, c = .scalarNode v none ∧
      Literal.ofValue o.stringQuoting.policy v = .ok l) children (Layout.literals o children) := by
  rw [Layout.literals, List.forall₂_map_right_iff, List.forall₂_same]
  intro c hc
  have hscalar := Value.eq_of_isPlainScalar (hplain c hc)
  have hcompletes' := hcompletes c hc
  rw [hscalar] at hcompletes'
  cases hcompletes' with
  | scalar comment hl => exact ⟨c.held, hscalar, by rw [Options.literal, hl]⟩

/-- Elements that are on one line can all be written. -/
theorem firstHalt_itemParts (hplain : ∀ c ∈ children, c.isPlainScalar = true)
    (hcompletes : ∀ c ∈ children, Completes o c) (path : Path) (index : ℕ) :
    firstHalt o.stringQuoting.policy (Value.itemParts path index children) = none := by
  induction children generalizing index with
  | nil => rfl
  | cons child rest ih =>
    have hcompletes' := hcompletes child List.mem_cons_self
    rw [Value.eq_of_isPlainScalar (hplain child List.mem_cons_self)] at hcompletes' ⊢
    rw [Value.itemParts, firstHalt_append, Value.parts, ih
      (fun c hc => hplain c (List.mem_cons_of_mem _ hc))
      (fun c hc => hcompletes c (List.mem_cons_of_mem _ hc)), Option.or_none]
    cases hcompletes' with
    | scalar comment hl => simp [firstHalt, haltOf, hl]

/-- **A list on one line is written as its literals in brackets**, wherever it stands. -/
theorem outcome_node_of_isPlainScalar (ho : o.HasMembers)
    (hdecides : Layout.Decides o children later true)
    (hplain : ∀ c ∈ children, c.isPlainScalar = true)
    (hcompletes : ∀ c ∈ children, Completes o c) (comment : Option String) (level : ℕ)
    (path : Path) :
    (node o level path (.listNode children none later comment)).outcome =
      .ok (Document.inBrackets (Layout.literals o children)) := by
  obtain ⟨quoting, hq⟩ := ho.policy
  have hhalt := firstHalt_itemParts hplain hcompletes path 0
  rw [hq] at hhalt
  rw [outcome_node_listNode hdecides, if_pos rfl, outcome_inlineElements hq path 0 hplain hhalt]
  cases children <;> rfl

/-- **A list on one line** is the literals that were measured, in brackets. -/
theorem exists_literals_of_isShort [Host] (ho : o.HasMembers)
    (hdecides : Layout.Decides o children later true)
    (hcompletes : ∀ c ∈ children, Completes o c) (hshort : Layout.IsShort o children)
    (comment : Option String) :
    ∃ ls : List Literal, List.Forall₂ (fun c l => ∃ v, c = .scalarNode v none ∧
        Literal.ofValue o.stringQuoting.policy v = .ok l) children ls ∧
      IsOneLine (Document.text o (Document.inBrackets ls)) ∧
      (Document.text o (Document.inBrackets ls)).length ≤ 120 ∧
      ∀ level path, (node o level path (.listNode children none later comment)).outcome =
        .ok (Document.inBrackets ls) := by
  have hplain : ∀ c ∈ children, c.isPlainScalar = true := fun c hc =>
    (Value.isPlainScalar_iff (hcompletes c hc).isNode).mpr (hshort.plain c hc)
  have hsound : ∀ l ∈ Layout.literals o children, (Piece.literal l).Sound :=
    List.forall_mem_map.mpr fun c _ => o.sound_literal c.held
  have hspaced := Document.spaced_inBrackets hsound .nil
  rw [List.append_nil] at hspaced
  have hbelow := hshort.below
  rw [← Layout.measured_literals] at hbelow
  exact ⟨_, forall₂_literals hplain hcompletes, Document.isOneLine_text o hspaced,
    Document.length_text_inBrackets_le o (fun l hl => Literal.text_ne_nil (hsound l hl)) hbelow,
    outcome_node_of_isPlainScalar ho hdecides hplain hcompletes comment⟩

/-- **A block has two lines more than elements**, or more. -/
theorem length_le_length_splitLines [Host] (hdecides : Layout.Decides o children later false)
    {comment : Option String} {level : ℕ} {path : Path} {d : Document}
    (hd : (node o level path (.listNode children none later comment)).outcome = .ok d) :
    children.length + 2 ≤ (splitLines (Document.text o d)).length := by
  rw [outcome_node_listNode hdecides] at hd
  simp only [Bool.false_eq_true, if_false] at hd
  cases hbody : (blockElements o level path 0 children).outcome with
  | error halt =>
    rw [hbody] at hd
    cases hd
  | ok body =>
    rw [hbody] at hd
    cases hd
    have hcount := length_le_count_of_blockElements hbody
    have hfeeds := Document.count_newline_le o (inBrackets false level children.isEmpty body)
    have hlines := count_lineFeed_lt_length_splitLines
      (Document.text o (inBrackets false level children.isEmpty body))
    -- one line break more stands in front of the closing bracket
    have hbreaks : (inBrackets false level children.isEmpty body).count .newline =
        body.count .newline + 1 := by
      simp [inBrackets]
    omega

/-- **What is measured is what is written.** A list that yields the same elements on each reading
and is rendered at some level is written in one of two layouts.

* On one line, it is the literals that were measured, in brackets and with commas between them. It
  has no line break, it is the same text at any other level, and it has 120 characters at most.
* As a block, it has a line for each bracket and one at least for each element. -/
theorem text_of_listNode [Host] (ho : o.HasMembers)
    (hstable : ∀ pass ∈ later, pass = { items := children })
    {comment : Option String} {level : ℕ} {path : Path} {d : Document}
    (hd : (node o level path (.listNode children none later comment)).outcome = .ok d) :
    ∃ inline, Layout.chosen o children = .ok inline ∧
      (inline = true →
        ∃ ls : List Literal, List.Forall₂ (fun c l => ∃ v, c = .scalarNode v none ∧
            Literal.ofValue o.stringQuoting.policy v = .ok l) children ls ∧
          Document.text o d = (if children = [] then ['[', ' ', ']']
            else '[' :: ' ' :: ([',', ' '].intercalate (ls.map Literal.text) ++ [' ', ']'])) ∧
          IsOneLine (Document.text o d) ∧ (Document.text o d).length ≤ 120 ∧
          ∀ level' path',
            (node o level' path' (.listNode children none later comment)).outcome = .ok d) ∧
      (inline = false → children.length + 2 ≤ (splitLines (Document.text o d)).length) := by
  obtain ⟨quoting, hq⟩ := ho.stringQuoting
  cases completes_of_outcome_node hd with
  | @list _ _ inline _ hdecides hcompletes =>
    have hchosen : Layout.chosen o children = .ok inline := by
      rwa [Layout.Decides, Value.pass_eq_first hstable, Value.pass_eq_first hstable] at hdecides
    refine ⟨inline, hchosen, ?_, ?_⟩
    · rintro rfl
      have hnode : ∀ c ∈ children, c.isNode = true := fun c hc => (hcompletes c hc).isNode
      have hliterals := Layout.HaveLiterals.of_chosen hq hnode hchosen
      have hshort := (Layout.chosen_eq_true_iff hq hnode hliterals).mp hchosen
      obtain ⟨ls, hls, hone, hlength, hnode'⟩ :=
        exists_literals_of_isShort ho hdecides hcompletes hshort comment
      obtain rfl : d = Document.inBrackets ls := Except.ok.inj (hd.symm.trans (hnode' level path))
      have hempty : ls = [] ↔ children = [] := by
        rw [← List.length_eq_zero_iff, ← hls.length_eq, List.length_eq_zero_iff]
      refine ⟨ls, hls, ?_, hone, hlength, hnode'⟩
      rw [Document.text_inBrackets]
      simp only [hempty]
    · rintro rfl
      exact length_le_length_splitLines hdecides hd

/-- As many elements as fit on one line, and one more character. -/
def fullLine : List Value := Layout.lineOf (.int 10 :: List.replicate 38 (.int 1))

/-- Two lists, of which the second one is empty. -/
def twoLists : List Value := [.ofChildren (Layout.lineOf [.str "a\n"]), .ofChildren []]

open scoped Unix

/-- A line can have 120 characters, and a block is no shorter than its elements. -/
theorem text_of_listNode_of_fullLine :
    Options.HasMembers {} ∧
      (∃ d, (node {} 3 [] (.ofChildren fullLine)).outcome = .ok d ∧
        Layout.chosen {} fullLine = .ok true ∧ IsOneLine (Document.text {} d) ∧
        (Document.text {} d).length ≤ 120 ∧ 120 ≤ (Document.text {} d).length ∧
        ∀ level path, (node {} level path (.ofChildren fullLine)).outcome = .ok d) ∧
      ∃ d, (node {} 1 [] (.ofChildren twoLists)).outcome = .ok d ∧
        Layout.chosen {} twoLists = .ok false ∧
        Document.text {} d = "[\n    [ \"a\\n\" ],\n    [ ]\n]".toList ∧
        twoLists.length + 2 ≤ (splitLines (Document.text {} d)).length := by
  have ho : Options.HasMembers {} := ⟨⟨_, rfl⟩, ⟨_, rfl⟩, ⟨_, rfl⟩⟩
  have hstable : ∀ children, ∀ pass ∈ ([] : List (Pass Value)), pass = { items := children } :=
    fun _ _ hmem => absurd hmem List.not_mem_nil
  refine ⟨ho, ⟨_, rfl, rfl, ?_⟩, _, rfl, rfl, rfl, ?_⟩
  · obtain ⟨inline, hchosen, hline, -⟩ := text_of_listNode ho (hstable fullLine)
      (show (node {} 3 [] (.listNode fullLine none [] none)).outcome = .ok _ from rfl)
    obtain rfl : true = inline := Except.ok.inj hchosen
    obtain ⟨_, -, -, hone, hlength, hlevel⟩ := hline rfl
    exact ⟨hone, hlength, by decide +kernel, hlevel⟩
  · obtain ⟨inline, hchosen, -, hblock⟩ := text_of_listNode ho (hstable twoLists)
      (show (node {} 1 [] (.listNode twoLists none [] none)).outcome = .ok _ from rfl)
    obtain rfl : false = inline := Except.ok.inj hchosen
    exact hblock rfl

end Render

end Hocon
