import Hocon.Proofs.Walk
import Hocon.Proofs.WellFormed
import Hocon.Proofs.Numerals

/-!
# Reading a document back

The text of a tree determines the data of the tree, whatever options it was written with. This
module reads a text back without knowing the options, and shows that what is read is the *content*
of the tree: the tree without its comments, and with the texts of its keys in the place of the keys
(`Hocon.Value.content`).

A reader cuts the text into lines, the lines into tokens, and goes through the tokens with a stack
of open containers (`Hocon.Frame`), the innermost first. A token closes the innermost container, or
opens one, or is a scalar value; or it is a key, if the innermost container is a map that has no key
yet. The brackets that a bare map at the root does without are put around the tokens beforehand:
they are missing unless the document is a single token or begins with a square bracket
(`Hocon.Value.inBraces`).

The statement that carries the induction says that the tokens of a node place the content of the
node where a value is expected (`Hocon.Value.Reads`). It needs no assumption on what the scalar
nodes hold except that it has a literal form.

* `Hocon.Value.exists_token_of_hasLiteral` – a literal reads back as the value it was written for;
* `Hocon.ofText_of_render` – a document reads back as the content of its tree;
* `Hocon.content_eq_of_render_eq` – trees with the same text have the same content.
-/

namespace Hocon

/-! ### Content -/

namespace Value

mutual

/-- **The content of a tree**: its data, without comments, under the texts of its keys. -/
def content : Value → Value
  | scalarNode value _ => scalarNode value none
  | listNode children _ _ _ => ofChildren (itemContents children)
  | mapNode entries _ _ => ofEntries (entryContents entries)
  | v => v

/-- The contents of the elements of a list. -/
def itemContents : List Value → List Value
  | [] => []
  | child :: rest => content child :: itemContents rest

/-- The contents of the entries of a map. -/
def entryContents : List (Value × Value) → List (Value × Value)
  | [] => []
  | (k, child) :: rest => (str (keyText k), content child) :: entryContents rest

end

end Value

/-! ### Words -/

/-- The integer that a text spells. -/
def Value.intOfText : List Char → ℤ
  | '-' :: cs => -(Nat.ofDigitChars 10 cs 0 : ℤ)
  | cs => Nat.ofDigitChars 10 cs 0

/-- Whether a word is a number. -/
def Value.isNumber : List Char → Bool
  | [] => false
  | c :: _ => c.isDigit || c == '-'

/-- The value of a word. -/
def Value.ofWord (w : List Char) : Value :=
  if w = Literal.null.text then null
  else if w = (Literal.bool true).text then bool true
  else if w = (Literal.bool false).text then bool false
  else if isNumber w then
    if w.contains '.' || w.contains 'e' then float (Binary64.ofText w) else int (intOfText w)
  else str (String.ofList w)

/-- The value of a token that is no bracket. -/
def Token.value? : Token → Option Value
  | word w => some (Value.ofWord w)
  | quoted cs => some (.str (String.ofList cs))
  | _ => none

/-- The text of a token that is no bracket. -/
def Token.text? : Token → Option String
  | word cs | quoted cs => some (String.ofList cs)
  | _ => none

namespace Value

/-- No word of letters is a number. -/
theorem ofWord_of_isNumber {w : List Char} (h : isNumber w = true) :
    ofWord w =
      if w.contains '.' || w.contains 'e' then float (Binary64.ofText w)
      else int (intOfText w) := by
  have hnull : w ≠ Literal.null.text := by rintro rfl; exact absurd h (by decide)
  have htrue : w ≠ (Literal.bool true).text := by rintro rfl; exact absurd h (by decide)
  have hfalse : w ≠ (Literal.bool false).text := by rintro rfl; exact absurd h (by decide)
  rw [ofWord, if_neg hnull, if_neg htrue, if_neg hfalse, if_pos h]

theorem intOfText_of_isDigit {c : Char} (h : c.isDigit = true) (cs : List Char) :
    intOfText (c :: cs) = Nat.ofDigitChars 10 (c :: cs) 0 := by
  have hminus : c ≠ '-' := by rintro rfl; exact absurd h (by decide)
  rw [intOfText]
  simpa using hminus

/-- An integer that is written reads back. -/
theorem ofWord_text_int (n : ℤ) (hn : hasDecimal n = true) :
    ofWord (Literal.int n hn).text = int n := by
  have hmarks : ∀ m : ℕ, ∀ mark : Char, mark.isDigit = false →
      (Nat.toDigits 10 m).contains mark = false := by
    intro m mark hmark
    rw [List.contains_eq_mem, decide_eq_false_iff_not]
    intro hmem
    rw [Decimal.isDigit_of_mem_digits hmem] at hmark
    exact absurd hmark (by simp)
  cases n with
  | ofNat m =>
    rw [show (Literal.int (.ofNat m) hn).text = Nat.toDigits 10 m from
      Literal.text_int_natCast m hn]
    have hpoint := hmarks m '.' (by decide)
    have hexponent := hmarks m 'e' (by decide)
    have hvalue : Nat.ofDigitChars 10 (Nat.toDigits 10 m) 0 = m := Nat.ofDigitChars_ten_toDigits
    obtain ⟨c, cs, hcs⟩ := List.exists_cons_of_ne_nil (Nat.toDigits_ne_nil (b := 10) (n := m))
    have hc : c.isDigit = true := by
      refine Decimal.isDigit_of_mem_digits (n := m) ?_
      rw [DecimalLayout.digits, hcs]
      exact List.mem_cons_self
    rw [hcs] at hpoint hexponent hvalue ⊢
    rw [ofWord_of_isNumber (by simp [isNumber, hc]), hpoint, hexponent, intOfText_of_isDigit hc,
      hvalue]
    rfl
  | negSucc m =>
    rw [Literal.text_int_negSucc, ofWord_of_isNumber rfl, List.contains_cons, List.contains_cons,
      hmarks (m + 1) '.' (by decide), hmarks (m + 1) 'e' (by decide), intOfText,
      Nat.ofDigitChars_ten_toDigits]
    rfl

/-- A finite floating-point number that is written reads back. -/
theorem ofWord_text_float {bits : UInt64} (h : Binary64.isFinite bits = true) :
    ofWord (Literal.float bits).text = float bits := by
  obtain ⟨cs, d, hspells, -, hwrite⟩ := Binary64.exists_spells h
  have hread := Binary64.ofText_write h
  rw [Literal.text, hwrite] at *
  have hnumber : isNumber ((if Binary64.isNegative bits then ['-'] else []) ++ cs) = true := by
    obtain ⟨c, rest, rfl, hc⟩ := hspells.exists_digit
    split_ifs
    · rfl
    · simp [isNumber, hc]
  have hmark : (((if Binary64.isNegative bits then ['-'] else []) ++ cs).contains '.' ||
      ((if Binary64.isNegative bits then ['-'] else []) ++ cs).contains 'e') = true := by
    rcases hspells.exists_mark with hpoint | hexponent
    · simp [hpoint]
    · simp [hexponent]
  rw [ofWord_of_isNumber hnumber, if_pos hmark, hread]

/-- A text without quotes reads back. -/
theorem ofWord_of_isBareText {cs : List Char} (h : isBareText cs = true) :
    ofWord cs = str (String.ofList cs) := by
  cases cs with
  | nil => exact absurd h (by simp [isBareText])
  | cons c rest =>
    simp only [isBareText, Bool.and_eq_true, Bool.not_eq_true'] at h
    obtain ⟨⟨⟨hdigit, hminus⟩, hreserved⟩, -⟩ := h
    have hne : ∀ w ∈ reservedWords, c :: rest ≠ w.toList := by
      intro w hw heq
      have hprefix := List.any_eq_false.mp hreserved w hw
      exact hprefix (by rw [heq]; exact List.isPrefixOf_iff_prefix.mpr (List.prefix_refl _))
    have hnumber : isNumber (c :: rest) = false := by
      have hc : c.isDigit = false := by
        rw [Bool.eq_false_iff]
        intro hc
        rw [isDecimalDigit_of_isDigit hc] at hdigit
        exact absurd hdigit (by simp)
      rw [isNumber, hc]
      simpa using hminus
    have hnull : c :: rest ≠ Literal.null.text := hne "null" (by decide)
    have htrue : c :: rest ≠ (Literal.bool true).text := hne "true" (by decide)
    have hfalse : c :: rest ≠ (Literal.bool false).text := hne "false" (by decide)
    rw [ofWord, if_neg hnull, if_neg htrue, if_neg hfalse, hnumber]
    rfl

/-- **A literal reads back** as the value it was written for. -/
theorem exists_token_of_hasLiteral {o : Options} (ho : o.HasMembers) {v : Value}
    (h : v.hasLiteral = true) :
    ∃ t, (Piece.literal (o.literal v)).tokens = [t] ∧ t.value? = some v := by
  obtain ⟨quoting, hq⟩ := ho.policy
  cases v with
  | null => exact ⟨_, rfl, rfl⟩
  | bool b => cases b <;> exact ⟨_, rfl, rfl⟩
  | int n =>
    have hn : hasDecimal n = true := h
    have hliteral : o.literal (int n) = .int n hn := by
      rw [Options.literal, Literal.ofValue, dif_pos hn]
    rw [hliteral]
    exact ⟨_, rfl, congrArg some (ofWord_text_int n hn)⟩
  | float bits =>
    have hfinite : Binary64.isFinite bits = true := h
    have hliteral : o.literal (float bits) = .float bits := by
      rw [Options.literal, Literal.ofValue, if_pos hfinite]
    rw [hliteral]
    exact ⟨_, rfl, congrArg some (ofWord_text_float hfinite)⟩
  | str s =>
    have hliteral : o.literal (str s) = Literal.ofText quoting s.toList := by
      rw [Options.literal, Literal.ofValue, hq]
      rfl
    rw [hliteral]
    cases quoting with
    | always => exact ⟨_, rfl, by simp [Token.value?]⟩
    | whenRequired =>
      rw [Literal.ofText]
      split_ifs with hbare
      · exact ⟨_, rfl, by simp [Token.value?, Literal.text, ofWord_of_isBareText hbare]⟩
      · exact ⟨_, rfl, by simp [Token.value?]⟩
  | _ => exact absurd h (by simp [hasLiteral, isPrimitive])

/-- A key reads back as its text. -/
theorem exists_token_ofText (quoting : Setting Quoting) (s : String) :
    ∃ t, (Piece.key (Key.ofText quoting s.toList)).tokens = [t] ∧ t.text? = some s := by
  rw [Key.ofText]
  split_ifs
  · exact ⟨_, rfl, congrArg some s.ofList_toList⟩
  · exact ⟨_, rfl, congrArg some s.ofList_toList⟩

end Value

/-! ### Containers -/

/-- A container that is being read. -/
inductive Frame where
  /-- A list with the elements read so far. -/
  | list (items : List Value)
  /-- A map with the entries read so far, and the key of the entry that is being read. -/
  | map (entries : List (Value × Value)) (key : Option String)

namespace Frame

/-- A container of which nothing has been read. -/
def ofBracket : Bracket → Frame
  | .square => list []
  | .brace => map [] none

/-- A value is complete, and becomes part of the innermost container, if that expects one. -/
def place (v : Value) : List Frame → Option (List Frame)
  | list items :: outer => some (list (items ++ [v]) :: outer)
  | map entries (some k) :: outer => some (map (entries ++ [(.str k, v)]) none :: outer)
  | _ => none

/-- What one token does to the containers that are open. -/
def step : List Frame → Token → Option (List Frame)
  | map entries none :: outer, .closing .brace => place (.ofEntries entries) outer
  | map entries none :: outer, t => t.text?.map fun k => map entries (some k) :: outer
  | list items :: outer, .closing .square => place (.ofChildren items) outer
  | frames, .opening b => some (ofBracket b :: frames)
  | frames, t => t.value?.bind fun v => place (.scalarNode v none) frames

/-- What tokens do to the containers that are open. -/
def run (frames : List Frame) (ts : List Token) : Option (List Frame) := ts.foldlM step frames

/-- The innermost container expects a value. -/
inductive ExpectsValue : List Frame → Prop
  /-- A list expects an element. -/
  | list (items : List Value) (outer : List Frame) : ExpectsValue (list items :: outer)
  /-- A map expects the value under its key. -/
  | map (entries : List (Value × Value)) (k : String) (outer : List Frame) :
      ExpectsValue (map entries (some k) :: outer)

section Steps

variable {frames : List Frame}

@[simp] theorem run_nil : run frames [] = some frames := rfl

theorem run_cons (t : Token) (ts : List Token) :
    run frames (t :: ts) = (step frames t).bind fun between => run between ts := rfl

theorem run_append (ts ts' : List Token) :
    run frames (ts ++ ts') = (run frames ts).bind fun between => run between ts' :=
  List.foldlM_append

theorem run_singleton (t : Token) : run frames [t] = step frames t := by
  rw [run_cons]
  cases step frames t <;> rfl

/-- A bracket opens a container where a value is expected. -/
theorem step_opening (h : ExpectsValue frames) (b : Bracket) :
    step frames (.opening b) = some (ofBracket b :: frames) := by
  cases h <;> rfl

/-- A token that is no bracket is a scalar value where a value is expected. -/
theorem step_value (h : ExpectsValue frames) {t : Token} {v : Value} (ht : t.value? = some v) :
    step frames t = place (.scalarNode v none) frames := by
  cases t with
  | opening | closing => cases ht
  | word | quoted => cases h <;> simp [step, ht]

/-- A token that is no bracket is a key in a map that expects one. -/
theorem step_key (entries : List (Value × Value)) (outer : List Frame) {t : Token} {k : String}
    (ht : t.text? = some k) :
    step (map entries none :: outer) t = some (map entries (some k) :: outer) := by
  cases t with
  | opening | closing => cases ht
  | word | quoted => simp [step, ht]

/-- Brackets and what stands inside them place the container that they close. -/
theorem run_inside {before inside : List Frame} {head ts : List Token} {b : Bracket} {frame : Frame}
    (hinside : ExpectsValue inside) (hhead : run before head = some inside)
    (hbody : run (ofBracket b :: inside) ts = some (frame :: inside)) :
    run before (head ++ .opening b :: (ts ++ [.closing b])) =
      step (frame :: inside) (.closing b) := by
  rw [run_append, hhead, Option.bind_some, run_cons, step_opening hinside, Option.bind_some,
    run_append, hbody, Option.bind_some, run_singleton]

end Steps

end Frame

/-- The tokens of a document with the braces of a bare map. A document that is a single token is a
scalar value, and one that begins with a square bracket is a list; any other is a bare map. -/
def Value.inBraces : List Token → List Token
  | [t] => [t]
  | .opening .square :: ts => .opening .square :: ts
  | ts => .opening .brace :: (ts ++ [.closing .brace])

/-- **The value that tokens stand for.** They are read as the elements of a list, of which there
must be one. -/
def Value.ofTokens (ts : List Token) : Option Value :=
  match Frame.run [.list []] (inBraces ts) with
  | some [.list [v]] => some v
  | _ => none

/-- **The value that a text stands for.** -/
def Value.ofText? (cs : List Char) : Option Value :=
  ((splitLines cs).mapM tokens).bind fun lines => ofTokens lines.flatten

/-! ### The tokens of a tree -/

/-- The tokens of the pieces of a line. -/
def Line.tokens (l : Line) : List Token := l.content.flatMap Piece.tokens

theorem Line.flatMap_tokens_ofComment (level : ℕ) (comment : Option String) :
    (ofComment level comment).flatMap tokens = [] := by
  cases comment with
  | none => rfl
  | some s => simp [ofComment, tokens, Piece.tokens]

theorem Document.IsTail.flatMap_tokens {tail : Document} (h : tail.IsTail) :
    tail.flatMap Piece.tokens = [] := by
  cases h <;> rfl

namespace Value

variable {o : Options}

/-- **What is said of a node**: where a value is expected behind the head of its first line, the
tokens of its lines place its content. -/
def Reads (o : Options) (v : Value) : Prop :=
  ∀ (level : ℕ) (head : Document) {tail : Document} {before inside : List Frame}, tail.IsTail →
    Frame.ExpectsValue inside → Frame.run before (head.flatMap Piece.tokens) = some inside →
    Frame.run before ((v.lines o level head tail).flatMap Line.tokens) =
      Frame.place v.content inside

theorem tokens_separatorBefore (o : Options) (child : Value) :
    (Render.separatorBefore o child).tokens = [] := by
  cases child with
  | mapNode =>
    rw [Render.separatorBefore]
    split_ifs <;> rfl
  | _ => rfl

/-- The tokens of a key make a map expect the value under it. -/
theorem run_ofKey (o : Options) (k child : Value) (entries : List (Value × Value))
    (outer : List Frame) :
    Frame.run (.map entries none :: outer) ((Document.ofKey o k child).flatMap Piece.tokens) =
      some (.map entries (some (keyText k)) :: outer) := by
  obtain ⟨t, ht, htext⟩ := exists_token_ofText o.keyQuoting (keyText k)
  have htokens : (Document.ofKey o k child).flatMap Piece.tokens = [t] := by
    simp [Document.ofKey, ht, tokens_separatorBefore]
  rw [htokens, Frame.run_singleton, Frame.step_key entries outer htext]

theorem run_entryLines {es : List (Value × Value)} (h : ∀ e ∈ es, e.2.Reads o) (level : ℕ)
    (entries : List (Value × Value)) (outer : List Frame) :
    Frame.run (.map entries none :: outer) ((entryLines o level es).flatMap Line.tokens) =
      some (.map (entries ++ entryContents es) none :: outer) := by
  induction es generalizing entries with
  | nil => simp [entryLines, entryContents]
  | cons e rest ih =>
    obtain ⟨k, child⟩ := e
    have hchild := h _ List.mem_cons_self level _ .nil
      (.map entries (keyText k) outer) (run_ofKey o k child entries outer)
    have hrest := ih (fun e he => h e (List.mem_cons_of_mem _ he))
      (entries ++ [(str (keyText k), child.content)])
    rw [entryLines, List.flatMap_append, List.flatMap_append, Line.flatMap_tokens_ofComment,
      List.nil_append, Frame.run_append, hchild]
    rw [Frame.place, Option.bind_some, hrest, entryContents, List.append_assoc,
      List.singleton_append]

theorem run_blockLines {children : List Value} (h : ∀ child ∈ children, child.Reads o) (level : ℕ)
    (items : List Value) (outer : List Frame) :
    Frame.run (.list items :: outer) ((blockLines o level children).flatMap Line.tokens) =
      some (.list (items ++ itemContents children) :: outer) := by
  induction children generalizing items with
  | nil => simp [blockLines, itemContents]
  | cons child rest ih =>
    have hchild := h _ List.mem_cons_self level []
      (Document.isTail_ite rest.isEmpty) (.list items outer) rfl
    have hrest := ih (fun c hc => h c (List.mem_cons_of_mem _ hc)) (items ++ [child.content])
    rw [blockLines, List.flatMap_append, List.flatMap_append, Line.flatMap_tokens_ofComment,
      List.nil_append, Frame.run_append, hchild]
    rw [Frame.place, Option.bind_some, hrest, itemContents, List.append_assoc,
      List.singleton_append]

/-- Literals on one line place what they were written for. -/
theorem run_ofLiterals {children : List Value} (h : ∀ child ∈ children, child.Reads o)
    (hplain : ∀ child ∈ children, child.isPlainScalar = true) (items : List Value)
    (outer : List Frame) :
    Frame.run (.list items :: outer)
        ((Document.ofLiterals (Layout.literals o children)).flatMap Piece.tokens) =
      some (.list (items ++ itemContents children) :: outer) := by
  induction children generalizing items with
  | nil => simp [Layout.literals, Document.ofLiterals, itemContents]
  | cons child rest ih =>
    have heq := eq_of_isPlainScalar (hplain child List.mem_cons_self)
    have hchild := h _ List.mem_cons_self 0 [] .nil (.list items outer) rfl
    have hrest := ih (fun c hc => h c (List.mem_cons_of_mem _ hc))
      (fun c hc => hplain c (List.mem_cons_of_mem _ hc)) (items ++ [child.content])
    -- the child as it is on a line of its own
    have hliteral : Frame.run (.list items :: outer) (Piece.literal (o.literal child.held)).tokens =
        some (.list (items ++ [child.content]) :: outer) := by
      rw [heq] at hchild
      simpa [lines, Line.tokens, Frame.place, ← heq] using hchild
    have htokens : (Document.ofLiterals (Layout.literals o (child :: rest))).flatMap Piece.tokens =
        (Piece.literal (o.literal child.held)).tokens ++
          (Document.ofLiterals (Layout.literals o rest)).flatMap Piece.tokens := by
      cases rest <;> simp [Layout.literals, Document.ofLiterals, Piece.tokens]
    rw [htokens, Frame.run_append, hliteral, Option.bind_some, hrest, itemContents,
      List.append_assoc, List.singleton_append]

/-- The tokens of the elements of a list in either layout. -/
def elementTokens (o : Options) (level : ℕ) (children : List Value) : List Token :=
  if Layout.fits o children then
    (Document.ofLiterals (Layout.literals o children)).flatMap Piece.tokens
  else (blockLines o level children).flatMap Line.tokens

theorem run_elementTokens {children : List Value} (h : ∀ child ∈ children, child.Reads o)
    (level : ℕ) (items : List Value) (outer : List Frame) :
    Frame.run (.list items :: outer) (elementTokens o level children) =
      some (.list (items ++ itemContents children) :: outer) := by
  rw [elementTokens]
  split_ifs with hfits
  · rw [Layout.fits, Bool.and_eq_true, List.all_eq_true] at hfits
    exact run_ofLiterals h hfits.1 items outer
  · exact run_blockLines h level items outer

section Shapes

variable {level : ℕ} {head tail : Document}

/-- The tokens of a scalar node: those of its literal. -/
theorem flatMap_tokens_scalarNode (htail : tail.IsTail) (value : Value) (comment : Option String) :
    ((scalarNode value comment).lines o level head tail).flatMap Line.tokens =
      head.flatMap Piece.tokens ++ (Piece.literal (o.literal value)).tokens := by
  simp [lines, Line.tokens, htail.flatMap_tokens]

/-- The tokens of a list: those of its elements, in brackets. -/
theorem flatMap_tokens_listNode (htail : tail.IsTail) (children : List Value)
    (later : List (Pass Value)) (comment : Option String) :
    ((listNode children none later comment).lines o level head tail).flatMap Line.tokens =
      head.flatMap Piece.tokens ++ .opening .square ::
        (elementTokens o (level + 1) children ++ [.closing .square]) := by
  rw [lines, elementTokens]
  split_ifs
  · simp [Line.tokens, Document.inBrackets, Piece.tokens, htail.flatMap_tokens]
  · simp [Line.tokens, Piece.tokens, htail.flatMap_tokens]

/-- The tokens of a map: those of its entries, in braces. -/
theorem flatMap_tokens_mapNode (htail : tail.IsTail) (es : List (Value × Value))
    (comment : Option String) :
    ((mapNode es none comment).lines o level head tail).flatMap Line.tokens =
      head.flatMap Piece.tokens ++ .opening .brace ::
        ((entryLines o (level + 1) es).flatMap Line.tokens ++ [.closing .brace]) := by
  simp [lines, Line.tokens, Piece.tokens, htail.flatMap_tokens]

end Shapes

/-- **The tokens of a tree place its content**, if the tree renders. -/
theorem IsTree.reads (ho : o.HasMembers) {v : Value} (h : v.IsTree)
    (hp : v.IsWritable) : v.Reads o := by
  induction h with
  | scalar value comment =>
    intro level head tail before inside htail hinside hhead
    obtain ⟨t, ht, hvalue⟩ :=
      exists_token_of_hasLiteral ho ((isWritable_scalarNode value comment).mp hp)
    rw [flatMap_tokens_scalarNode htail, ht, Frame.run_append, hhead, Option.bind_some,
      Frame.run_singleton, Frame.step_value hinside hvalue, content]
  | @list children later comment htree hstable ih =>
    intro level head tail before inside htail hinside hhead
    have hchildren : ∀ child ∈ children, child.Reads o := fun child hchild =>
      ih child hchild ((isWritable_listNode htree).mp hp child hchild)
    have hbody := run_elementTokens hchildren (level + 1) [] inside
    rw [flatMap_tokens_listNode htail, Frame.run_inside (b := .square) hinside hhead hbody]
    rfl
  | @map es comment htree ih =>
    intro level head tail before inside htail hinside hhead
    have hentries : ∀ e ∈ es, e.2.Reads o := fun e he =>
      ih e he ((isWritable_mapNode htree).mp hp e he).2
    have hbody := run_entryLines hentries (level + 1) [] inside
    rw [flatMap_tokens_mapNode htail, Frame.run_inside (b := .brace) hinside hhead hbody]
    rfl

/-- There are tokens behind the head of a node. -/
theorem IsTree.exists_tokens_lines {v : Value} (h : v.IsTree) (level : ℕ) (head : Document) :
    ∃ t ts,
      (v.lines o level head []).flatMap Line.tokens = head.flatMap Piece.tokens ++ t :: ts := by
  cases h with
  | scalar value comment =>
    rw [flatMap_tokens_scalarNode .nil]
    cases o.literal value <;> exact ⟨_, _, rfl⟩
  | list comment htree hstable => exact ⟨_, _, flatMap_tokens_listNode .nil _ _ comment⟩
  | map comment htree => exact ⟨_, _, flatMap_tokens_mapNode .nil _ comment⟩

/-- The tokens of the entries of a bare map are neither a single token nor do they begin with a
bracket. -/
theorem inBraces_entryLines {es : List (Value × Value)} (h : ∀ e ∈ es, e.2.IsTree) (level : ℕ) :
    inBraces ((entryLines o level es).flatMap Line.tokens) =
      .opening .brace :: ((entryLines o level es).flatMap Line.tokens ++ [.closing .brace]) := by
  cases es with
  | nil => rfl
  | cons e rest =>
    obtain ⟨k, child⟩ := e
    obtain ⟨t, ts, hts⟩ := (h _ List.mem_cons_self).exists_tokens_lines (o := o) level
      (Document.ofKey o k child)
    obtain ⟨t', ht', htext⟩ := exists_token_ofText o.keyQuoting (keyText k)
    -- a token of the key and one of the value at least
    have htokens : (entryLines o level ((k, child) :: rest)).flatMap Line.tokens =
        t' :: ((Render.separatorBefore o child).tokens ++
          t :: (ts ++ (entryLines o level rest).flatMap Line.tokens)) := by
      rw [entryLines, List.flatMap_append, List.flatMap_append, Line.flatMap_tokens_ofComment, hts]
      simp [Document.ofKey, ht']
    rw [htokens, tokens_separatorBefore]
    cases t' with
    | opening | closing => cases htext
    | word | quoted => rfl

end Value

/-! ### Documents -/

/-- Well-formed lines are read line by line, and behind the last one stands an empty one. -/
theorem mapM_tokens_splitLines [Host] (o : Options) {ls : List Line} (h : ∀ l ∈ ls, l.WellFormed) :
    (splitLines (ls.flatMap fun l => l.text o ++ o.newline)).mapM tokens =
      some (ls.map Line.tokens ++ [[]]) := by
  induction ls with
  | nil => simp [splitLines]
  | cons l ls ih =>
    have hl := h l List.mem_cons_self
    have hls := ih fun l' hl' => h l' (List.mem_cons_of_mem _ hl')
    rw [List.flatMap_cons, List.append_assoc, splitLines_append (l.isOneLine_text o hl),
      List.mapM_cons, l.tokens_text o hl, hls]
    rfl

section Rendering

variable {o : Options} {root : Value}

/-- The tokens of a document are read as the content of its tree. -/
theorem ofTokens_documentLines (ho : o.HasMembers) (h : root.IsTree)
    (hp : root.IsWritable) :
    Value.ofTokens ((root.documentLines o).flatMap Line.tokens) = some root.content := by
  have hreads := h.reads ho hp 0 [] .nil (.list [] []) rfl
  have hread : Frame.run [.list []] (Value.inBraces ((root.bodyLines o).flatMap Line.tokens)) =
      Frame.place root.content [.list []] := by
    cases h with
    | scalar value comment =>
      obtain ⟨t, ht, -⟩ := Value.exists_token_of_hasLiteral ho
        ((Value.isWritable_scalarNode value comment).mp hp)
      rw [Value.bodyLines_scalarNode]
      rw [Value.flatMap_tokens_scalarNode .nil, ht] at hreads ⊢
      exact hreads
    | list comment htree hstable =>
      have hbraces : ∀ ts, Value.inBraces (.opening .square :: ts) = .opening .square :: ts := by
        intro ts
        cases ts <;> rfl
      rw [Value.bodyLines_listNode]
      rw [Value.flatMap_tokens_listNode .nil, List.flatMap_nil, List.nil_append] at hreads ⊢
      rw [hbraces, hreads]
    | @map es comment htree =>
      have hentries : ∀ e ∈ es, e.2.Reads o := fun e he =>
        (htree e he).reads ho ((Value.isWritable_mapNode htree).mp hp e he).2
      -- the braces that the document does without open a map inside the list of one
      have hbody := Value.run_entryLines hentries 0 [] [.list []]
      rw [Value.bodyLines_mapNode, Value.inBraces_entryLines htree]
      have hhead : Frame.run [.list []] [] = some [.list []] := rfl
      exact Frame.run_inside (b := .brace) (.list [] []) hhead hbody
  rw [Value.documentLines, List.flatMap_append, Line.flatMap_tokens_ofComment, List.nil_append,
    Value.ofTokens, hread]
  rfl

/-- **A document reads back** as the content of its tree. -/
theorem ofText_of_render [Host] (ho : o.HasMembers) (h : root.IsTree) {text : String}
    (hr : (render o root).outcome = .ok text) :
    Value.ofText? text.toList = some root.content := by
  have hp := ((exists_render_iff ho h).mp ⟨text, hr⟩).2
  rw [toList_of_render ho h hr, Document.text_ofLines, Value.ofText?,
    mapM_tokens_splitLines o fun _ hl => h.wellFormed_of_mem_documentLines o hl, Option.bind_some]
  simpa [← List.flatMap_def] using ofTokens_documentLines ho h hp

end Rendering

/-- **The format is uniquely decodable.** Trees that are written alike, each with options of its
own, have the same content. -/
theorem content_eq_of_render_eq [Host] {o₁ o₂ : Options} (ho₁ : o₁.HasMembers) (ho₂ : o₂.HasMembers)
    {t₁ t₂ : Value} (ht₁ : t₁.IsTree) (ht₂ : t₂.IsTree) {text : String}
    (h₁ : (render o₁ t₁).outcome = .ok text) (h₂ : (render o₂ t₂).outcome = .ok text) :
    t₁.content = t₂.content := by
  have hread := (ofText_of_render ho₁ ht₁ h₁).symm.trans (ofText_of_render ho₂ ht₂ h₂)
  exact Option.some.inj hread

open scoped Unix

/-- Two trees that are written alike: the comment belongs to the map or to its first entry, and the
key is a number or a text. -/
theorem content_eq_of_comment_above :
    Options.HasMembers {} ∧
      Options.HasMembers { indent := 2, objectSeparator := .member .included } ∧
      (Value.ofEntries [(.int 1, .scalarNode (.int 2) none)] (some "x")).IsTree ∧
      (Value.ofEntries [(.str "1", .scalarNode (.int 2) (some "x"))]).IsTree ∧
      (render {} (.ofEntries [(.int 1, .scalarNode (.int 2) none)] (some "x"))).outcome =
        .ok "# x\n1: 2\n" ∧
      (render { indent := 2, objectSeparator := .member .included }
        (.ofEntries [(.str "1", .scalarNode (.int 2) (some "x"))])).outcome =
        .ok "# x\n1: 2\n" ∧
      (Value.ofEntries [(.int 1, .scalarNode (.int 2) none)] (some "x")).content =
        (Value.ofEntries [(.str "1", .scalarNode (.int 2) (some "x"))]).content := by
  have ho₁ : Options.HasMembers {} := ⟨⟨_, rfl⟩, ⟨_, rfl⟩, ⟨_, rfl⟩⟩
  have ho₂ : Options.HasMembers { indent := 2, objectSeparator := .member .included } :=
    ⟨⟨_, rfl⟩, ⟨_, rfl⟩, ⟨_, rfl⟩⟩
  have ht₁ : (Value.ofEntries [(.int 1, .scalarNode (.int 2) none)] (some "x")).IsTree :=
    .map _ (List.forall_mem_singleton.mpr (.scalar _ _))
  have ht₂ : (Value.ofEntries [(.str "1", .scalarNode (.int 2) (some "x"))]).IsTree :=
    .map _ (List.forall_mem_singleton.mpr (.scalar _ _))
  exact ⟨ho₁, ho₂, ht₁, ht₂, rfl, rfl, content_eq_of_render_eq ho₁ ho₂ ht₁ ht₂ rfl rfl⟩

end Hocon
