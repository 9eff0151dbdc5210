import Hocon.Proofs.Walk
import Hocon.Proofs.WellFormed

/-!
# Rendering part by part

The text of a tree is put together from the texts of its parts, and each part is written as if it
stood alone. What a nested part gets from its surroundings is one more unit of indentation in front
of each of its lines (`Hocon.shift`), its key or its comma, and nothing else: in particular nothing
depends on how deep it stands, although the walk treats level zero in its own way.

| whole | parts |
|---|---|
| a map at the root | its comment, and a map of one entry for each of its entries |
| a list or a scalar under a key | its comment, the key, the separator, the same node at the root |
| a map under a key | its comment, the key, the separator, and the same node at the root in braces |
| a block | its elements, each with its comment, one level deeper |

One level more for a node is one level more for each of its lines (`Hocon.Value.IsTree.deepens`),
and one level more for a line is one unit in front of it, so a deeper node is a shifted one
(`Hocon.Line.shift_ended`). That the parts render when the whole does, and the other way round, is
a matter of the scalar nodes alone (`Hocon.rendersTo_iff`).
-/

namespace Hocon

/-! ### Shifting -/

/-- A text with a unit in front of each line; `fresh` says whether the first character begins a
line. -/
def shiftFrom (unit : List Char) : Bool → List Char → List Char
  | _, [] => []
  | fresh, c :: rest => (if fresh then unit else []) ++ c :: shiftFrom unit (c == '\n') rest

/-- **A text with a unit in front of each of its lines.** -/
def shift (unit cs : List Char) : List Char := shiftFrom unit true cs

/-- Behind a character that ends no line, the line goes on. -/
theorem shiftFrom_cons (unit : List Char) (fresh : Bool) {c : Char} {line : List Char}
    (h : '\n' ∉ c :: line) (rest : List Char) :
    shiftFrom unit fresh (c :: rest) =
      (if fresh then unit else []) ++ c :: shiftFrom unit false rest := by
  have hc : (c == '\n') = false := by
    rw [beq_eq_false_iff_ne]
    rintro rfl
    exact h List.mem_cons_self
  rw [shiftFrom, hc]

/-- Within a line nothing is put in front of a character. -/
theorem shiftFrom_false_append (unit : List Char) {line : List Char} (h : '\n' ∉ line)
    (rest : List Char) :
    shiftFrom unit false (line ++ rest) = line ++ shiftFrom unit false rest := by
  induction line with
  | nil => rfl
  | cons c line ih =>
    rw [List.cons_append, shiftFrom_cons unit false h,
      ih fun hmem => h (List.mem_cons_of_mem _ hmem)]
    rfl

/-- Behind the characters that end a line, another line begins. -/
theorem shiftFrom_newline [Host] (o : Options) (unit : List Char) (fresh : Bool)
    (rest : List Char) :
    shiftFrom unit fresh (o.newline ++ rest) =
      (if fresh then unit else []) ++ (o.newline ++ shift unit rest) := by
  rcases o.newline_cases with hnewline | hnewline <;> simp [hnewline, shiftFrom, shift]

/-- A line gets one unit, whatever follows on it. -/
theorem shift_append (unit : List Char) {line : List Char} (h : '\n' ∉ line) (hne : line ≠ [])
    (rest : List Char) :
    shift unit (line ++ rest) = unit ++ (line ++ shiftFrom unit false rest) := by
  obtain ⟨c, line, rfl⟩ := List.exists_cons_of_ne_nil hne
  rw [List.cons_append, shift, shiftFrom_cons unit true h,
    shiftFrom_false_append unit fun hmem => h (List.mem_cons_of_mem _ hmem)]
  rfl

/-! ### Texts of lines -/

namespace Line

variable (o : Options)

/-- The text of lines that are all ended. -/
def ended [Host] (ls : List Line) : List Char := Document.text o (Document.ofLines ls)

/-- The text of lines of which the last one is not ended. -/
def unended [Host] (ls : List Line) : List Char := o.newline.intercalate (ls.map (Line.text o))

@[simp] theorem ended_nil [Host] : ended o [] = [] := rfl

theorem ended_cons [Host] (l : Line) (ls : List Line) :
    ended o (l :: ls) = l.text o ++ (o.newline ++ ended o ls) := by
  rw [ended, ended, Document.text_ofLines, Document.text_ofLines, List.flatMap_cons,
    List.append_assoc]

theorem ended_append [Host] (ls ls' : List Line) :
    ended o (ls ++ ls') = ended o ls ++ ended o ls' := by
  simp [ended]

theorem unended_concat [Host] (ls : List Line) (l : Line) :
    unended o (ls ++ [l]) = ended o ls ++ l.text o := by
  induction ls with
  | nil => simp [unended]
  | cons l' ls ih =>
    rw [ended_cons, List.append_assoc, List.append_assoc, ← ih]
    cases ls <;> simp [unended, List.intercalate_cons_cons]

theorem unended_append [Host] (ls : List Line) {ls' : List Line} (h : ls' ≠ []) :
    unended o (ls ++ ls') = ended o ls ++ unended o ls' := by
  obtain ⟨ls', l, rfl⟩ := (List.eq_nil_or_concat' ls').resolve_left h
  rw [← List.append_assoc, unended_concat, unended_concat, ended_append, List.append_assoc]

/-- A line one level deeper. -/
def deeper (l : Line) : Line := ⟨l.level + 1, l.content⟩

theorem text_deeper [Host] (l : Line) : l.deeper.text o = o.indentUnit ++ l.text o := by
  simp [text, deeper, List.replicate_succ]

variable {ls : List Line}

theorem shift_text_append [Host] {l : Line} (h : l.WellFormed) (rest : List Char) :
    shift o.indentUnit (l.text o ++ rest) =
      l.deeper.text o ++ shiftFrom o.indentUnit false rest := by
  obtain ⟨c, cs, htext, -, -⟩ := l.exists_text_eq o h
  have hne : l.text o ≠ [] := by rw [htext]; simp
  rw [shift_append _ (l.isOneLine_text o h).lineFeed hne, text_deeper, List.append_assoc]

theorem shift_ended_append [Host] (h : ∀ l ∈ ls, l.WellFormed) (rest : List Char) :
    shift o.indentUnit (ended o ls ++ rest) =
      ended o (ls.map deeper) ++ shift o.indentUnit rest := by
  induction ls with
  | nil => rfl
  | cons l ls ih =>
    have hrest := ih fun l' hl' => h l' (List.mem_cons_of_mem _ hl')
    rw [ended_cons, List.append_assoc, List.append_assoc,
      shift_text_append o (h l List.mem_cons_self), shiftFrom_newline, hrest, List.map_cons,
      ended_cons]
    simp

/-- **Ended lines are shifted** by writing them one level deeper. -/
theorem shift_ended [Host] (h : ∀ l ∈ ls, l.WellFormed) :
    shift o.indentUnit (ended o ls) = ended o (ls.map deeper) := by
  have happend := shift_ended_append o h []
  rwa [List.append_nil, show shift o.indentUnit [] = [] from rfl, List.append_nil] at happend

/-- **Lines of which the last one is not ended are shifted** in the same way. -/
theorem shift_unended [Host] (h : ∀ l ∈ ls, l.WellFormed) :
    shift o.indentUnit (unended o ls) = unended o (ls.map deeper) := by
  rcases List.eq_nil_or_concat' ls with rfl | ⟨ls, l, rfl⟩
  · rfl
  · have hlast := shift_text_append o (h l (by simp)) []
    rw [List.append_nil, shiftFrom, List.append_nil] at hlast
    rw [unended_concat, shift_ended_append o fun l' hl' => h l' (by simp [hl']), hlast,
      List.map_append, List.map_singleton, unended_concat]

end Line

/-! ### One level deeper -/

theorem Line.ofComment_succ (level : ℕ) (comment : Option String) :
    ofComment (level + 1) comment = (ofComment level comment).map deeper := by
  cases comment with
  | none => rfl
  | some s => simp [ofComment, deeper]

namespace Value

variable (o : Options)

/-- What is said of a node: its lines one level deeper are its lines, each one level deeper. -/
def Deepens (v : Value) : Prop :=
  ∀ (level : ℕ) (head tail : Document),
    v.lines o (level + 1) head tail = (v.lines o level head tail).map Line.deeper

variable {o : Options}

theorem entryLines_succ {es : List (Value × Value)} (h : ∀ e ∈ es, e.2.Deepens o) (level : ℕ) :
    entryLines o (level + 1) es = (entryLines o level es).map Line.deeper := by
  induction es with
  | nil => rfl
  | cons e rest ih =>
    obtain ⟨k, child⟩ := e
    have hrest := ih fun e he => h e (List.mem_cons_of_mem _ he)
    rw [entryLines, entryLines, h _ List.mem_cons_self, hrest, Line.ofComment_succ, List.map_append,
      List.map_append]

theorem blockLines_succ {children : List Value} (h : ∀ child ∈ children, child.Deepens o)
    (level : ℕ) :
    blockLines o (level + 1) children = (blockLines o level children).map Line.deeper := by
  induction children with
  | nil => rfl
  | cons child rest ih =>
    have hrest := ih fun c hc => h c (List.mem_cons_of_mem _ hc)
    rw [blockLines, blockLines, h _ List.mem_cons_self, hrest, Line.ofComment_succ, List.map_append,
      List.map_append]

/-- **The lines of a tree one level deeper** are its lines, each one level deeper. -/
theorem IsTree.deepens {v : Value} (h : v.IsTree) : v.Deepens o := by
  induction h with
  | scalar value comment => exact fun level head tail => rfl
  | @list children later comment htree hstable ih =>
    intro level head tail
    rw [lines, lines, blockLines_succ ih (level + 1)]
    split_ifs <;> simp [Line.deeper]
  | @map entries comment htree ih =>
    intro level head tail
    rw [lines, lines, entryLines_succ ih (level + 1)]
    simp [Line.deeper]

/-! ### Heads and tails -/

/-- What stands behind a node on its last line stands behind its lines. -/
theorem IsTree.exists_lines_eq {v : Value} (h : v.IsTree) (level : ℕ) (head : Document) :
    ∃ ls last, ∀ tail, v.lines o level head tail = ls ++ [⟨level, last ++ tail⟩] := by
  cases h with
  | scalar value comment =>
    exact ⟨[], head ++ [.literal (o.literal value)], fun tail => by simp [lines]⟩
  | @list children later comment htree hstable =>
    by_cases hfits : Layout.fits o children = true
    · exact ⟨[], head ++ Document.inBrackets (Layout.literals o children),
        fun tail => by simp [lines, hfits]⟩
    · exact ⟨⟨level, head ++ [.opening .square]⟩ :: blockLines o (level + 1) children,
        [.closing .square], fun tail => by simp [lines, hfits]⟩
  | @map entries comment htree =>
    exact ⟨⟨level, head ++ [.opening .brace]⟩ :: entryLines o (level + 1) entries,
      [.closing .brace], fun tail => by simp [lines]⟩

/-- **A tail stands behind the text of a node**, and whatever stands above. -/
theorem IsTree.ended_append_lines [Host] {v : Value} (h : v.IsTree) (above : List Line) (level : ℕ)
    (head tail : Document) :
    Line.ended o (above ++ v.lines o level head tail) =
      Line.unended o (above ++ v.lines o level head []) ++ (Document.text o tail ++ o.newline) := by
  obtain ⟨ls, last, hlines⟩ := h.exists_lines_eq (o := o) level head
  rw [hlines tail, hlines [], ← List.append_assoc above, ← List.append_assoc above,
    Line.unended_concat, Line.ended_append, Line.ended_cons]
  simp [Line.text]

/-- **A head stands in front of the text of a node** at level zero. -/
theorem IsTree.ended_lines_zero [Host] {v : Value} (h : v.IsTree) (head tail : Document) :
    Line.ended o (v.lines o 0 head tail) =
      Document.text o head ++ Line.ended o (v.lines o 0 [] tail) := by
  cases h with
  | scalar value comment => simp [lines, Line.ended_cons, Line.text]
  | @list children later comment htree hstable =>
    rw [lines, lines]
    split_ifs <;> simp [Line.ended_cons, Line.text]
  | @map entries comment htree => simp [lines, Line.ended_cons, Line.text]

end Value

/-! ### Which parts render -/

/-- **A tree is rendered** as the given characters. -/
def RendersTo [Host] (o : Options) (v : Value) (cs : List Char) : Prop :=
  ∃ text : String, (render o v).outcome = .ok text ∧ text.toList = cs

/-- A tree is rendered as the text of its lines, if the counts fit and all of its parts can be
written, and not at all otherwise. -/
theorem rendersTo_iff [Host] {o : Options} (ho : o.HasMembers) {v : Value} (h : v.IsTree)
    {cs : List Char} :
    RendersTo o v cs ↔ o.CountsFit ∧ v.IsWritable ∧ cs = Line.ended o (v.documentLines o) := by
  constructor
  · rintro ⟨text, htext, rfl⟩
    obtain ⟨hc, hp⟩ := (exists_render_iff ho h).mp ⟨text, htext⟩
    exact ⟨hc, hp, toList_of_render ho h htext⟩
  · rintro ⟨hc, hp, rfl⟩
    obtain ⟨text, htext⟩ := (exists_render_iff ho h).mpr ⟨hc, hp⟩
    exact ⟨text, htext, toList_of_render ho h htext⟩

/-! ### Wholes and parts -/

/-- The comment of a node as a block of lines at level zero. -/
def commentBlock [Host] (o : Options) (v : Value) : List Char :=
  Document.text o (Document.ofComment 0 v.comment)

/-- The characters of a key. -/
def keyBlock (o : Options) (k : Value) : List Char :=
  (Key.ofText o.keyQuoting (keyText k).toList).text

/-- A text in braces, one unit deeper. -/
def bracedBlock [Host] (o : Options) (body : List Char) : List Char :=
  '\x7b' :: (o.newline ++ (shift o.indentUnit body ++ ['\x7d']))

/-- Whether a value is a map node. -/
def Value.isMapNode : Value → Bool
  | .mapNode .. => true
  | _ => false

/-- **The text of an element of a block**, without what ends it: a map stands in braces, and any
other node is written as it would be at the root. -/
def IsElementText [Host] (o : Options) (v : Value) (cs : List Char) : Prop :=
  if v.isMapNode then ∃ body, RendersTo o v.withoutComment body ∧ cs = bracedBlock o body
  else RendersTo o v.withoutComment (cs ++ o.newline)

section Parts

variable {o : Options}

theorem commentBlock_eq_ended [Host] (v : Value) :
    commentBlock o v = Line.ended o (Line.ofComment 0 v.comment) := by
  rw [commentBlock, Document.ofComment_eq_ofLines, Line.ended]

/-- The lines of a node without its comment, where it stands at the root and is no map. -/
theorem documentLines_withoutComment {v : Value} (h : v.IsTree) (hmap : v.isMapNode = false) :
    v.withoutComment.documentLines o = v.lines o 0 [] [] := by
  cases h with
  | scalar => rfl
  | list comment htree hstable =>
    rw [Value.documentLines, Value.withoutComment, Value.bodyLines_listNode, Value.lines,
      Value.lines]
    rfl
  | map => exact absurd hmap (by simp [Value.isMapNode])

/-- The text of a map inside of braces. -/
theorem ended_entryLines_one [Host] {es : List (Value × Value)} (h : ∀ e ∈ es, e.2.IsTree) :
    Line.ended o (Value.entryLines o 1 es) =
      shift o.indentUnit (Line.ended o (Value.entryLines o 0 es)) := by
  have hwf : ∀ l ∈ Value.entryLines o 0 es, l.WellFormed := fun l hl =>
    Value.wellFormed_of_mem_entryLines o (fun e he => (h e he).writesWellFormed o) hl
  rw [Line.shift_ended o hwf, Value.entryLines_succ fun e he => (h e he).deepens]

/-- The text of a nested map, without what ends it. -/
theorem unended_lines_mapNode [Host] {es : List (Value × Value)} (h : ∀ e ∈ es, e.2.IsTree)
    (comment : Option String) :
    Line.unended o ((Value.mapNode es none comment).lines o 0 [] []) =
      bracedBlock o (Line.ended o (Value.entryLines o 0 es)) := by
  rw [Value.lines, ← List.cons_append, Line.unended_concat, Line.ended_cons,
    ended_entryLines_one h, bracedBlock]
  simp [Line.text, Piece.text, Bracket.opening, Bracket.closing]

/-- An element of a block has a text if all of its parts can be written, and that is the text of its
lines. -/
theorem isElementText_iff [Host] (ho : o.HasMembers) {v : Value} (h : v.IsTree) {cs : List Char} :
    IsElementText o v cs ↔
      o.CountsFit ∧ v.IsWritable ∧ cs = Line.unended o (v.lines o 0 [] []) := by
  rw [IsElementText]
  split_ifs with hmap
  · cases h with
    | scalar | list => exact absurd hmap (by simp [Value.isMapNode])
    | @map es comment htree =>
      rw [unended_lines_mapNode htree]
      constructor
      · rintro ⟨body, hbody, rfl⟩
        obtain ⟨hc, hp, rfl⟩ := (rendersTo_iff ho (.map none htree)).mp hbody
        exact ⟨hc, hp, rfl⟩
      · rintro ⟨hc, hp, rfl⟩
        exact ⟨_, (rendersTo_iff ho (.map none htree)).mpr ⟨hc, hp, rfl⟩, rfl⟩
  · have hlines := documentLines_withoutComment (o := o) h (by simpa using hmap)
    have hended := h.ended_append_lines (o := o) [] 0 [] []
    simp only [List.nil_append, Document.text_nil] at hended
    rw [rendersTo_iff ho h.withoutComment, v.isWritable_withoutComment, hlines, hended,
      List.append_left_inj]

/-- A map of one entry. -/
theorem rendersTo_singleton_iff [Host] (ho : o.HasMembers) {e : Value × Value} (h : e.2.IsTree)
    {cs : List Char} :
    RendersTo o (.ofEntries [e]) cs ↔
      o.CountsFit ∧ ((keyText? e.1).isSome = true ∧ e.2.IsWritable) ∧
        cs = Line.ended o (Value.entryLines o 0 [e]) := by
  have hes : ∀ e' ∈ [e], e'.2.IsTree := List.forall_mem_singleton.mpr h
  rw [Value.ofEntries, rendersTo_iff ho (.map none hes), Value.isWritable_mapNode hes,
    List.forall_mem_singleton]
  rfl

theorem ended_entryLines [Host] (es : List (Value × Value)) :
    Line.ended o (Value.entryLines o 0 es) =
      es.flatMap fun e => Line.ended o (Value.entryLines o 0 [e]) := by
  induction es with
  | nil => rfl
  | cons e rest ih =>
    obtain ⟨k, child⟩ := e
    rw [List.flatMap_cons, ← ih, ← Line.ended_append]
    simp [Value.entryLines]

/-- **A map at the root** is its comment, and its entries one after the other. -/
theorem rendersTo_mapNode_iff [Host] (ho : o.HasMembers) {es : List (Value × Value)}
    (h : ∀ e ∈ es, e.2.IsTree) (comment : Option String) {cs : List Char} :
    RendersTo o (.mapNode es none comment) cs ↔ o.CountsFit ∧
      ∃ part : Value × Value → List Char, (∀ e ∈ es, RendersTo o (.ofEntries [e]) (part e)) ∧
        cs = commentBlock o (.mapNode es none comment) ++ es.flatMap part := by
  have hlines : Line.ended o ((Value.mapNode es none comment).documentLines o) =
      commentBlock o (.mapNode es none comment) ++
        es.flatMap fun e => Line.ended o (Value.entryLines o 0 [e]) := by
    rw [Value.documentLines, Line.ended_append, ← commentBlock_eq_ended, Value.bodyLines_mapNode,
      ended_entryLines]
  rw [rendersTo_iff ho (.map comment h), Value.isWritable_mapNode h, hlines]
  refine and_congr_right fun hc => ⟨?_, ?_⟩
  · rintro ⟨hp, rfl⟩
    exact ⟨_, fun e he => (rendersTo_singleton_iff ho (h e he)).mpr ⟨hc, hp e he, rfl⟩, rfl⟩
  · -- what the entries are rendered as is determined, since rendering has one result
    rintro ⟨part, hpart, rfl⟩
    have hparts := fun e he => (rendersTo_singleton_iff ho (h e he)).mp (hpart e he)
    refine ⟨fun e he => (hparts e he).2.1, ?_⟩
    rw [List.flatMap_congr fun e he => (hparts e he).2.2]

/-- The text of a node under a key. -/
theorem ended_entryLines_singleton [Host] (k : Value) {v : Value} (h : v.IsTree) :
    Line.ended o (Value.entryLines o 0 [(k, v)]) = commentBlock o v ++ (keyBlock o k ++
      ((Render.separatorBefore o v).text o ++ Line.ended o (v.lines o 0 [] []))) := by
  rw [Value.entryLines, Value.entryLines, List.append_nil, Line.ended_append,
    h.ended_lines_zero (Document.ofKey o k v) [], commentBlock_eq_ended]
  simp [Document.ofKey, keyBlock, Piece.text]

/-- **A list or a scalar under a key** is its comment, the key, the separator, and the node. -/
theorem rendersTo_entry_iff [Host] (ho : o.HasMembers) (k : Value) {v : Value} (h : v.IsTree)
    (hmap : v.isMapNode = false) {cs : List Char} :
    RendersTo o (.ofEntries [(k, v)]) cs ↔ (keyText? k).isSome = true ∧
      ∃ part, RendersTo o v.withoutComment part ∧
        cs = commentBlock o v ++ (keyBlock o k ++ (o.separatorToken ++ part)) := by
  have hseparator : Render.separatorBefore o v = .separator := by
    cases v with
    | mapNode => exact absurd hmap (by simp [Value.isMapNode])
    | _ => rfl
  have hpart : ∀ part, RendersTo o v.withoutComment part ↔
      o.CountsFit ∧ v.IsWritable ∧ part = Line.ended o (v.lines o 0 [] []) := fun part => by
    rw [rendersTo_iff ho h.withoutComment, v.isWritable_withoutComment,
      documentLines_withoutComment h hmap]
  rw [rendersTo_singleton_iff ho h, ended_entryLines_singleton k h, hseparator]
  constructor
  · rintro ⟨hc, ⟨hkey, hp⟩, rfl⟩
    exact ⟨hkey, _, (hpart _).mpr ⟨hc, hp, rfl⟩, rfl⟩
  · rintro ⟨hkey, part, hrenders, rfl⟩
    obtain ⟨hc, hp, rfl⟩ := (hpart part).mp hrenders
    exact ⟨hc, ⟨hkey, hp⟩, rfl⟩

/-- **A map under a key** is its comment, the key, what separates it, and the map in braces. -/
theorem rendersTo_mapEntry_iff [Host] (ho : o.HasMembers) (k : Value) {es : List (Value × Value)}
    (h : ∀ e ∈ es, e.2.IsTree) (comment : Option String) {cs : List Char} :
    RendersTo o (.ofEntries [(k, .mapNode es none comment)]) cs ↔ (keyText? k).isSome = true ∧
      ∃ body, RendersTo o (.mapNode es none none) body ∧
        cs = commentBlock o (.mapNode es none comment) ++ (keyBlock o k ++
          ((if o.objectSeparator = .member .omitted then [' '] else o.separatorToken) ++
            (bracedBlock o body ++ o.newline))) := by
  have hseparator : (Render.separatorBefore o (.mapNode es none comment)).text o =
      if o.objectSeparator = .member .omitted then [' '] else o.separatorToken := by
    rw [Render.separatorBefore]
    split_ifs <;> rfl
  have hended : Line.ended o ((Value.mapNode es none comment).lines o 0 [] []) =
      bracedBlock o (Line.ended o (Value.entryLines o 0 es)) ++ o.newline := by
    have hunended := (Value.IsTree.map comment h).ended_append_lines (o := o) [] 0 [] []
    simpa [unended_lines_mapNode h] using hunended
  have hbody : ∀ body, RendersTo o (.mapNode es none none) body ↔
      o.CountsFit ∧ (Value.mapNode es none comment).IsWritable ∧
        body = Line.ended o (Value.entryLines o 0 es) := fun body =>
    rendersTo_iff ho (.map none h)
  rw [rendersTo_singleton_iff ho (.map comment h), ended_entryLines_singleton k (.map comment h),
    hseparator, hended]
  constructor
  · rintro ⟨hc, ⟨hkey, hp⟩, rfl⟩
    exact ⟨hkey, _, (hbody _).mpr ⟨hc, hp, rfl⟩, rfl⟩
  · rintro ⟨hkey, body, hrenders, rfl⟩
    obtain ⟨hc, hp, rfl⟩ := (hbody body).mp hrenders
    exact ⟨hc, ⟨hkey, hp⟩, rfl⟩

/-- The text of an element of a block with its comment is shifted by writing it one level deeper. -/
theorem shift_element [Host] {v : Value} (h : v.IsTree) :
    shift o.indentUnit (commentBlock o v ++ Line.unended o (v.lines o 0 [] [])) =
      Line.unended o (Line.ofComment 1 v.comment ++ v.lines o 1 [] []) := by
  obtain ⟨ls, last, hlines⟩ := h.exists_lines_eq (o := o) 0 []
  have hne : v.lines o 0 [] [] ≠ [] := by
    rw [hlines]
    simp
  have hwf : ∀ l ∈ Line.ofComment 0 v.comment ++ v.lines o 0 [] [], l.WellFormed := by
    intro l hl
    rcases List.mem_append.mp hl with hl | hl
    · exact Line.wellFormed_of_mem_ofComment hl
    · exact h.writesWellFormed o 0 .nil .nil l hl
  rw [commentBlock_eq_ended, ← Line.unended_append o _ hne, Line.shift_unended o hwf,
    List.map_append, ← Line.ofComment_succ, ← h.deepens 0 [] []]

/-- The elements of a block stand one below the other, with commas in between. -/
theorem ended_blockLines [Host] {children : List Value} (h : ∀ c ∈ children, c.IsTree)
    (hne : children ≠ []) :
    Line.ended o (Value.blockLines o 1 children) =
      (',' :: o.newline).intercalate (children.map fun c =>
        shift o.indentUnit (commentBlock o c ++ Line.unended o (c.lines o 0 [] []))) ++
          o.newline := by
  induction children with
  | nil => exact absurd rfl hne
  | cons child rest ih =>
    have hchild := h child List.mem_cons_self
    have hended := hchild.ended_append_lines (o := o) (Line.ofComment 1 child.comment) 1 []
      (if rest.isEmpty then [] else [.comma])
    rw [Value.blockLines, ← List.append_assoc, Line.ended_append, hended, ← shift_element hchild,
      List.map_cons]
    -- the last element is ended at once, and any other one behind a comma
    cases rest with
    | nil => simp [Value.blockLines]
    | cons c rest =>
      rw [ih (fun c' hc' => h c' (List.mem_cons_of_mem _ hc')) (by simp), List.map_cons,
        List.intercalate_cons_cons]
      simp [Piece.text]

/-- **A block** is its elements, each with its comment and one unit deeper, with commas in
between. -/
theorem rendersTo_block_iff [Host] (ho : o.HasMembers) {children : List Value}
    {later : List (Pass Value)}
    (h : (Value.listNode children none later none).IsTree)
    (hblock : Layout.fits o children = false) {cs : List Char} :
    RendersTo o (.listNode children none later none) cs ↔
      ∃ part : Value → List Char, (∀ c ∈ children, IsElementText o c (part c)) ∧
        cs = '[' :: (o.newline ++ ((',' :: o.newline).intercalate
          (children.map fun c => shift o.indentUnit (commentBlock o c ++ part c)) ++
            (o.newline ++ ']' :: o.newline))) := by
  have htree : ∀ c ∈ children, c.IsTree := by
    cases h with
    | list _ hchildren _ => exact hchildren
  have hne : children ≠ [] := by
    rintro rfl
    exact absurd hblock (by simp [Layout.fits, Layout.measured, Layout.literals, inlineLimit])
  have hlines : Line.ended o ((Value.listNode children none later none).documentLines o) =
      '[' :: (o.newline ++ ((',' :: o.newline).intercalate (children.map fun c =>
        shift o.indentUnit (commentBlock o c ++ Line.unended o (c.lines o 0 [] []))) ++
          (o.newline ++ ']' :: o.newline))) := by
    rw [Value.documentLines, Value.bodyLines_listNode, Value.lines, hblock, Line.ended_append]
    simp only [Bool.false_eq_true, if_false]
    rw [Line.ended_cons, Line.ended_append, ended_blockLines htree hne, Line.ended_cons]
    simp [Value.comment, Line.ofComment, Line.text, Piece.text, Bracket.opening, Bracket.closing]
  rw [rendersTo_iff ho h, Value.isWritable_listNode htree, hlines]
  constructor
  · rintro ⟨hcounts, hp, rfl⟩
    exact ⟨_, fun c hc => (isElementText_iff ho (htree c hc)).mpr ⟨hcounts, hp c hc, rfl⟩, rfl⟩
  · rintro ⟨part, hpart, rfl⟩
    have hparts := fun c hc => (isElementText_iff ho (htree c hc)).mp (hpart c hc)
    -- a block has an element, which is written with counts that fit
    obtain ⟨c, hc⟩ := List.exists_mem_of_ne_nil children hne
    refine ⟨(hparts c hc).1, fun c hc => (hparts c hc).2.1, ?_⟩
    rw [List.map_congr_left fun c hc => by rw [(hparts c hc).2.2]]

/-- A list that is laid out as a block does not fit on one line. -/
theorem fits_eq_false_of_isInline (ho : o.HasMembers) {children : List Value}
    (h : ∀ c ∈ children, c.IsTree)
    (hblock : (Layout.isInline o.stringQuoting.policy { items := children }
      { items := children }).outcome = .ok false) : Layout.fits o children = false := by
  obtain ⟨quoting, hq⟩ := ho.policy
  have hlayout : (Render.layoutOf o [] { items := children } { items := children }).outcome =
      .ok false := by
    simp only [Render.layoutOf, Attempt.outcome_bind, Attempt.outcome_adapt, hblock]
    rfl
  rcases Layout.outcome_layoutOf hq [] h with ⟨htrue, -, -⟩ | ⟨-, hfits⟩ | ⟨e, herror, -⟩
  · exact absurd (hlayout.symm.trans htrue) (by simp)
  · exact hfits
  · exact absurd (hlayout.symm.trans herror) (by simp)

/-- **Rendering is compositional.** A whole renders exactly when its parts do and its own keys have
texts, and its text is put together from theirs. Only a map without entries has no part that tells
whether the counts fit.

1. A map at the root is its comment and its entries, each rendered as a map of its own.
2. A list or a scalar under a key is its comment, the key, the separator, and the node itself.
3. A map under a key is its comment, the key, a space or the separator, and the map itself in
   braces, shifted by one unit.
4. A block is its elements in brackets, each shifted by one unit together with its comment. -/
theorem render_compositional [Host] (ho : o.HasMembers) :
    (∀ (es : List (Value × Value)) (comment : Option String) (cs : List Char),
      (Value.mapNode es none comment).IsTree →
      (RendersTo o (.mapNode es none comment) cs ↔ o.CountsFit ∧
        ∃ part : Value × Value → List Char, (∀ e ∈ es, RendersTo o (.ofEntries [e]) (part e)) ∧
          cs = commentBlock o (.mapNode es none comment) ++ es.flatMap part)) ∧
    (∀ (k v : Value) (cs : List Char), v.IsTree → v.isMapNode = false →
      (RendersTo o (.ofEntries [(k, v)]) cs ↔ (keyText? k).isSome = true ∧
        ∃ part, RendersTo o v.withoutComment part ∧
          cs = commentBlock o v ++ (keyBlock o k ++ (o.separatorToken ++ part)))) ∧
    (∀ (k v : Value) (cs : List Char), v.IsTree → v.isMapNode = true →
      (RendersTo o (.ofEntries [(k, v)]) cs ↔ (keyText? k).isSome = true ∧
        ∃ body, RendersTo o v.withoutComment body ∧
          cs = commentBlock o v ++ (keyBlock o k ++
            ((if o.objectSeparator = .member .omitted then [' '] else o.separatorToken) ++
              (bracedBlock o body ++ o.newline))))) ∧
    (∀ (children : List Value) (later : List (Pass Value)) (cs : List Char),
      (Value.listNode children none later none).IsTree →
      (Layout.isInline o.stringQuoting.policy { items := children }
        { items := children }).outcome = .ok false →
      (RendersTo o (.listNode children none later none) cs ↔
        ∃ part : Value → List Char, (∀ c ∈ children, IsElementText o c (part c)) ∧
          cs = '[' :: (o.newline ++ ((',' :: o.newline).intercalate
            (children.map fun c => shift o.indentUnit (commentBlock o c ++ part c)) ++
              (o.newline ++ ']' :: o.newline))))) := by
  refine ⟨fun es comment cs h => ?_, fun k v cs h hmap => ?_, fun k v cs h hmap => ?_,
    fun children later cs h hblock => ?_⟩
  · cases h with
    | map _ htree => exact rendersTo_mapNode_iff ho htree comment
  · exact rendersTo_entry_iff ho k h hmap
  · cases h with
    | map comment htree => exact rendersTo_mapEntry_iff ho k htree comment
    | scalar | list => exact absurd hmap (by simp [Value.isMapNode])
  · refine rendersTo_block_iff ho h (fits_eq_false_of_isInline ho ?_ hblock)
    cases h with
    | list _ htree _ => exact htree

end Parts

/-- The elements of a block: a list, and a text with a comment. -/
def commentedElements : List Value :=
  [.ofChildren [.scalarNode (.int 1) none], .scalarNode (.str "x") (some "one")]

/-- A map of one entry with a comment, which has a comment itself. -/
def commentedMap : Value := .ofEntries [(.str "k", .scalarNode .null (some "none"))] (some "map")

theorem isTree_commentedElements : ∀ c ∈ commentedElements, c.IsTree := by
  have hitems : ∀ child ∈ [Value.scalarNode (.int 1) none], child.IsTree :=
    List.forall_mem_singleton.mpr (.scalar _ _)
  simp only [commentedElements, List.mem_cons, List.not_mem_nil, or_false, forall_eq_or_imp,
    forall_eq]
  exact ⟨.list none hitems (by simp), .scalar _ _⟩

theorem isTree_commentedMap : commentedMap.IsTree :=
  .map _ (List.forall_mem_singleton.mpr (.scalar _ _))

open scoped Unix

/-- A document with a comment, a block and a map, taken apart in all four ways. -/
theorem render_compositional_of_commentedMap :
    Options.HasMembers {} ∧ commentedMap.IsTree ∧ commentedMap.isMapNode = true ∧
      (Value.ofChildren commentedElements (some "all")).IsTree ∧
      (Value.ofChildren commentedElements (some "all")).isMapNode = false ∧
      (Layout.isInline (Options.stringQuoting {}).policy { items := commentedElements }
        { items := commentedElements }).outcome = .ok false ∧
      (∃ part : Value × Value → List Char,
        (∀ e ∈ [(Value.str "k", Value.scalarNode .null (some "none"))],
          RendersTo {} (.ofEntries [e]) (part e)) ∧
        "# map\n# none\nk: null\n".toList = commentBlock {} commentedMap ++
          [(Value.str "k", Value.scalarNode .null (some "none"))].flatMap part) ∧
      (∃ part, RendersTo {} (.ofChildren commentedElements) part ∧
        "# all\na: [\n    [ 1 ],\n    # one\n    x\n]\n".toList =
          commentBlock {} (.ofChildren commentedElements (some "all")) ++
            (keyBlock {} (.str "a") ++ ([':', ' '] ++ part))) ∧
      (∃ body, RendersTo {} commentedMap.withoutComment body ∧
        "# map\nb \x7b\n    # none\n    k: null\n\x7d\n".toList = commentBlock {} commentedMap ++
          (keyBlock {} (.str "b") ++ ([' '] ++ (bracedBlock {} body ++ ['\n'])))) ∧
      ∃ part : Value → List Char, (∀ c ∈ commentedElements, IsElementText {} c (part c)) ∧
        "[\n    [ 1 ],\n    # one\n    x\n]\n".toList = '[' :: (['\n'] ++ ([',', '\n'].intercalate
          (commentedElements.map fun c =>
            shift [' ', ' ', ' ', ' '] (commentBlock {} c ++ part c)) ++
          (['\n'] ++ [']', '\n']))) := by
  have ho : Options.HasMembers {} := ⟨⟨_, rfl⟩, ⟨_, rfl⟩, ⟨_, rfl⟩⟩
  have hlist : (Value.ofChildren commentedElements (some "all")).IsTree :=
    .list _ isTree_commentedElements (by simp)
  have hblock : (Layout.isInline (Options.stringQuoting {}).policy { items := commentedElements }
      { items := commentedElements }).outcome = .ok false := rfl
  obtain ⟨hroot, hentry, hmap, helements⟩ := render_compositional ho
  exact ⟨ho, isTree_commentedMap, rfl, hlist, rfl, hblock,
    ((hroot _ _ _ isTree_commentedMap).mp ⟨_, rfl, rfl⟩).2,
    ((hentry (.str "a") _ _ hlist rfl).mp ⟨_, rfl, rfl⟩).2,
    ((hmap (.str "b") _ _ isTree_commentedMap rfl).mp ⟨_, rfl, rfl⟩).2,
    (helements commentedElements [] _ (.list none isTree_commentedElements (by simp))
      hblock).mp ⟨_, rfl, rfl⟩⟩

end Hocon
