import Hocon.Proofs.Toml.Atoms
import Hocon.Toml.Statement

/-!
# Reading the lines of a TOML document

The two kinds of lines that a table of texts and integers is written on, and how the reader takes
them: the header with the name of the table, and one line for each entry.

All statements are of one form. A reader that is run on what is written, with anything behind it,
returns what was meant and leaves what stands behind. What stands behind matters in two places only.
A bare key ends where a character follows that no key is made of. A name ends at the first character
behind spaces that neither could belong to a key nor is a point (`Hocon.Toml.endsName`): the reader
skips those spaces, because a point behind them would go on with the name.
-/

namespace Hocon

namespace Toml

variable {c : Char} {rest : List Char}

/-! ### Small readers -/

namespace Reader

@[simp] theorem run_accept (c d : Char) (rest : List Char) :
    (accept c).run (d :: rest) = .ok (if c = d then (true, rest) else (false, d :: rest)) := by
  rw [accept]
  split_ifs with h
  · simp [h]
    rfl
  · simp [h]
    rfl

@[simp] theorem run_expect (c : Char) (rest : List Char) :
    (expect c).run (c :: rest) = .ok ((), rest) := by
  simp [expect]
  rfl

@[simp] theorem run_ofOption {α : Type} (a : α) (rest cs : List Char) :
    (ofOption (some (a, rest))).run cs = .ok (a, rest) := rfl

@[simp] theorem run_skipSpacing (cs : List Char) :
    skipSpacing.run cs = .ok ((), cs.dropWhile isSpacing) := rfl

/-- Nothing is skipped in front of a character that is no space, line break or comment mark. -/
theorem run_skipSpace (hspacing : isSpacing c = false) (hbreak : c ≠ '\n') (hmark : c ≠ '#')
    (rest : List Char) : skipSpace.run (c :: rest) = .ok ((), c :: rest) := by
  simp [skipSpace, withoutSpace, hbreak, hmark, hspacing]

@[simp] theorem run_skipLine (rest : List Char) :
    skipLine.run ('\n' :: rest) = .ok ((), rest) := by
  simp [skipLine, List.dropWhile, isSpacing]

end Reader

/-! ### Keys -/

theorem exists_toList_cons {key : String} (h : key.isEmpty = false) :
    ∃ c cs, key.toList = c :: cs := by
  refine List.exists_cons_of_ne_nil fun hnil => ?_
  rw [String.toList_eq_nil_iff] at hnil
  simp [hnil] at h

/-- A written key begins with one of its characters or with a quote. -/
theorem exists_keyText_cons (key : String) :
    ∃ c cs, keyText key = c :: cs ∧ (isBareKeyChar c = true ∨ c = '"') := by
  rw [keyText]
  split_ifs with hbare
  · rw [Bool.and_eq_true, Bool.not_eq_true', List.all_eq_true] at hbare
    obtain ⟨c, cs, hcs⟩ := exists_toList_cons hbare.1
    exact ⟨c, cs, hcs, .inl (hbare.2 c (by rw [hcs]; exact List.mem_cons_self))⟩
  · exact ⟨'"', _, rfl, .inr rfl⟩

theorem isForbidden_of_isBareKeyChar (h : isBareKeyChar c = true) : isForbidden c = false := by
  have hall : ∀ n < 0x80, isForbidden (Char.ofNat n) = true →
      isBareKeyChar (Char.ofNat n) = false := by decide +kernel
  rw [Bool.eq_false_iff]
  intro hforbidden
  have hlt : c.toNat < 0x80 := by
    simp only [isForbidden, Bool.or_eq_true, Bool.and_eq_true, decide_eq_true_eq,
      beq_iff_eq] at hforbidden
    omega
  have hbare := hall c.toNat hlt
  rw [Char.ofNat_toNat] at hbare
  simp [hbare hforbidden] at h

theorem isForbidden_of_mem_keyText {key : String} (h : c ∈ keyText key) :
    isForbidden c = false := by
  rw [keyText] at h
  split_ifs at h with hbare
  · rw [Bool.and_eq_true, List.all_eq_true] at hbare
    exact isForbidden_of_isBareKeyChar (hbare.2 c h)
  · exact isForbidden_of_mem_basicString h

namespace Reader

theorem isSpacing_of_begins (h : isBareKeyChar c = true ∨ c = '"') : isSpacing c = false := by
  rw [Bool.eq_false_iff]
  intro hspacing
  simp only [isSpacing, Bool.or_eq_true, beq_iff_eq] at hspacing
  rcases hspacing with rfl | rfl <;> revert h <;> decide

theorem run_skipSpace_keyText (key : String) (rest : List Char) :
    skipSpace.run (keyText key ++ rest) = .ok ((), keyText key ++ rest) := by
  obtain ⟨d, cs, hcs, hd⟩ := exists_keyText_cons key
  rw [hcs]
  refine run_skipSpace (isSpacing_of_begins hd) ?_ ?_ _
  · rintro rfl; revert hd; decide
  · rintro rfl; revert hd; decide

theorem dropWhile_keyText (key : String) (rest : List Char) :
    (keyText key ++ rest).dropWhile isSpacing = keyText key ++ rest := by
  obtain ⟨d, cs, hcs, hd⟩ := exists_keyText_cons key
  rw [hcs, List.cons_append, List.dropWhile_cons_of_neg (by simp [isSpacing_of_begins hd])]

theorem run_accept_keyText (hbare : isBareKeyChar c = false) (hquote : c ≠ '"') (key : String)
    (rest : List Char) :
    (accept c).run (keyText key ++ rest) = .ok (false, keyText key ++ rest) := by
  obtain ⟨d, cs, hcs, hd⟩ := exists_keyText_cons key
  have hne : c ≠ d := by
    rintro rfl
    rcases hd with hd | hd
    · simp [hbare] at hd
    · exact hquote hd
  rw [hcs, List.cons_append, run_accept, if_neg hne]

/-- A bare key is read as it stands. -/
theorem run_key_of_bare {key : String} (hne : key.isEmpty = false)
    (hbare : ∀ c ∈ key.toList, isBareKeyChar c = true)
    (h : ∀ c ∈ rest.head?, isBareKeyChar c = false) :
    (Reader.key .second).run (key.toList ++ rest) = .ok (key, rest) := by
  have htake := takeWhile_append hbare h
  have hdrop := dropWhile_append hbare h
  obtain ⟨c, cs, hcs⟩ := exists_toList_cons hne
  rw [hcs] at hbare htake hdrop ⊢
  have hc : isBareKeyChar c = true := hbare c List.mem_cons_self
  have hquote : '"' ≠ c := by rintro rfl; exact absurd hc (by decide)
  have hsingle : '\'' ≠ c := by rintro rfl; exact absurd hc (by decide)
  have hkey : String.ofList (c :: cs) = key := by rw [← hcs, String.ofList_toList]
  rw [List.cons_append] at htake hdrop ⊢
  simp [Reader.key, hquote, hsingle, hc, htake, hdrop, hkey]
  rfl

/-- **A key is read back**, if what follows it could not belong to it. -/
theorem run_key (key : String) (h : ∀ c ∈ rest.head?, isBareKeyChar c = false) :
    (Reader.key .second).run (keyText key ++ rest) = .ok (key, rest) := by
  rw [keyText]
  split_ifs with hbare
  · rw [Bool.and_eq_true, Bool.not_eq_true', List.all_eq_true] at hbare
    exact run_key_of_bare hbare.1 hbare.2 h
  · simp [Reader.key, basicString, lineString_flatMap]

end Reader

/-! ### Names -/

/-- What a chain of keys adds to the name of a table. -/
def furtherText (keys : List String) : List Char :=
  keys.flatMap fun key => '.' :: keyText key

/-- The name of the table that a chain of keys leads to. -/
def nameText (key : String) (keys : List String) : List Char :=
  keyText key ++ furtherText keys

/-- Whether a character ends a name, behind spaces or not. -/
def endsName (c : Char) : Bool :=
  !isBareKeyChar c && !Reader.isSpacing c && c != '.'

theorem furtherText_cons (key : String) (keys : List String) :
    furtherText (key :: keys) = '.' :: (keyText key ++ furtherText keys) := by
  rw [furtherText, List.flatMap_cons, List.cons_append]
  rfl

theorem length_le_furtherText (keys : List String) :
    keys.length ≤ (furtherText keys).length := by
  induction keys with
  | nil => exact Nat.le_refl 0
  | cons key keys ih =>
    rw [furtherText_cons, List.length_cons, List.length_cons, List.length_append]
    omega

namespace Reader

section Names

variable {gap : List Char} (hgap : ∀ x ∈ gap, isSpacing x = true) (hc : endsName c = true)

include hgap hc

/-- No key goes on where a name goes on or ends. -/
theorem isBareKeyChar_of_end (keys : List String) (rest : List Char) :
    ∀ x ∈ (furtherText keys ++ (gap ++ c :: rest)).head?, isBareKeyChar x = false := by
  simp only [endsName, Bool.and_eq_true, Bool.not_eq_true', bne_iff_ne] at hc
  rintro x hx
  cases keys with
  | cons key keys =>
    cases hx
    decide
  | nil =>
    cases gap with
    | nil =>
      cases hx
      exact hc.1.1
    | cons y gap =>
      have hspacing := hgap y List.mem_cons_self
      cases hx
      simp only [isSpacing, Bool.or_eq_true, beq_iff_eq] at hspacing
      rcases hspacing with rfl | rfl <;> decide

theorem run_keysAfter {count : ℕ} (keys : List String) (hcount : keys.length < count)
    (rest : List Char) :
    (keysAfter .second count).run (furtherText keys ++ (gap ++ c :: rest)) =
      .ok (keys, c :: rest) := by
  have hends := hc
  simp only [endsName, Bool.and_eq_true, Bool.not_eq_true', bne_iff_ne] at hends
  obtain ⟨⟨-, hspacing⟩, hpoint⟩ := hends
  have hdrop : (gap ++ c :: rest).dropWhile isSpacing = c :: rest :=
    dropWhile_append hgap fun x hx => by cases hx; exact hspacing
  -- every further key takes one from the count, and the end of the name the last one
  induction keys generalizing count with
  | nil =>
    obtain ⟨count, rfl⟩ := Nat.exists_eq_succ_of_ne_zero (Nat.ne_zero_of_lt hcount)
    simp [keysAfter, furtherText, hdrop, Ne.symm hpoint]
    rfl
  | cons key keys ih =>
    obtain ⟨count, rfl⟩ := Nat.exists_eq_succ_of_ne_zero (Nat.ne_zero_of_lt hcount)
    have hkey := run_key key (isBareKeyChar_of_end hgap hc keys rest)
    have hkeys := ih (Nat.lt_of_succ_lt_succ hcount)
    rw [furtherText_cons, List.cons_append, List.append_assoc]
    simp [keysAfter, isSpacing, dropWhile_keyText, hkey, hkeys]

/-- **A name is read back**, and the spaces behind it are skipped. -/
theorem run_dottedKey (key : String) (keys : List String) (rest : List Char) :
    (dottedKey .second).run (nameText key keys ++ (gap ++ c :: rest)) =
      .ok ((key, keys), c :: rest) := by
  have hkey := run_key key (isBareKeyChar_of_end hgap hc keys rest)
  have hcount : keys.length < (furtherText keys ++ (gap ++ c :: rest)).length + 1 := by
    have := length_le_furtherText keys
    rw [List.length_append]
    omega
  have hkeys := run_keysAfter hgap hc keys hcount rest
  simp only [dottedKey, nameText, List.append_assoc, StateT.run_bind, hkey, Attempt.ok_bind,
    StateT.run_get, pure_bind, hkeys]
  rfl

end Names

end Reader

/-! ### Values -/

/-- An integer is one word. -/
theorem endsWord_of_mem_toString {n : ℤ} (h : c ∈ (toString n).toList) :
    Reader.endsWord c = false := by
  rw [Bool.eq_false_iff]
  intro hends
  simp only [Reader.endsWord, Reader.isSpacing, Bool.or_eq_true, beq_iff_eq] at hends
  rcases hends with ((((((rfl | rfl) | rfl) | rfl) | rfl) | rfl) | rfl) <;>
    exact ne_of_mem_toString h (by decide) (by decide) rfl

/-- No atom begins with a space. -/
theorem IsAtom.dropWhile {v : Value} (h : IsAtom v) (rest : List Char) :
    (atomText v ++ rest).dropWhile Reader.isSpacing = atomText v ++ rest := by
  cases h with
  | str s => rfl
  | int n hn =>
    obtain ⟨c, cs, hcs⟩ := exists_toString_cons n
    have hc : c ∈ (toString n).toList := by rw [hcs]; exact List.mem_cons_self
    have hspacing : Reader.isSpacing c = false := by
      have hends := endsWord_of_mem_toString hc
      simp only [Reader.endsWord, Bool.or_eq_false_iff] at hends
      exact hends.1.1.1.1.1
    rw [atomText, hcs, List.cons_append, List.dropWhile_cons_of_neg (by simp [hspacing])]

namespace Reader

theorem run_word {n : ℤ} (hn : hasDecimal n = true) (h : ∀ c ∈ rest.head?, endsWord c = true) :
    (word .second).run ((toString n).toList ++ rest) = .ok (.int n, rest) := by
  have hinside : ∀ c ∈ (toString n).toList, (!endsWord c) = true :=
    fun c hc => by rw [endsWord_of_mem_toString hc]; rfl
  have hbehind : ∀ c ∈ rest.head?, (!endsWord c) = false := fun c hc => by rw [h c hc]; rfl
  have htake := takeWhile_append hinside hbehind
  have hdrop := dropWhile_append hinside hbehind
  have hletters : ∀ x ∈ (toString n).toList, x ≠ 't' ∧ x ≠ 'f' := fun x hx =>
    ⟨ne_of_mem_toString hx (by decide) (by decide), ne_of_mem_toString hx (by decide) (by decide)⟩
  have htrue : (toString n).toList ≠ ['t', 'r', 'u', 'e'] := by
    intro htext
    rw [htext] at hletters
    exact (hletters 't' (by decide)).1 rfl
  have hfalse : (toString n).toList ≠ ['f', 'a', 'l', 's', 'e'] := by
    intro htext
    rw [htext] at hletters
    exact (hletters 'f' (by decide)).2 rfl
  simp only [word, StateT.run_bind, StateT.run_get, pure_bind, List.span_eq_takeWhile_dropWhile,
    htake, hdrop, StateT.run_set, if_neg htrue, if_neg hfalse, number?, integer?_toString hn]
  rfl

/-- **An atom is read back** at the end of its line. -/
theorem run_value {v : Value} (h : IsAtom v) (depth : ℕ) (rest : List Char) :
    (value .second (depth + 1)).run (atomText v ++ '\n' :: rest) = .ok (v, '\n' :: rest) := by
  cases h with
  | str s =>
    have hbreak : ('\n' :: rest).head? ≠ some '"' := by simp
    simp [value, atomText, basicString, string_flatMap s hbreak]
  | int n hn =>
    have hword : (word .second).run ((toString n).toList ++ '\n' :: rest) =
        .ok (.int n, '\n' :: rest) := run_word hn (by simp [endsWord])
    obtain ⟨c, cs, hcs⟩ := exists_toString_cons n
    have hc : c ∈ (toString n).toList := by rw [hcs]; exact List.mem_cons_self
    -- no digit and no sign opens a value of another kind
    have hquote : '"' ≠ c := (ne_of_mem_toString hc (by decide) (by decide)).symm
    have hsingle : '\'' ≠ c := (ne_of_mem_toString hc (by decide) (by decide)).symm
    have hbracket : '[' ≠ c := (ne_of_mem_toString hc (by decide) (by decide)).symm
    have hbrace : '\x7b' ≠ c := (ne_of_mem_toString hc (by decide) (by decide)).symm
    rw [atomText]
    rw [hcs, List.cons_append] at hword ⊢
    simp [value, hquote, hsingle, hbracket, hbrace, hword]

end Reader

/-! ### Lines -/

/-- The line of an entry. -/
def lineText (e : String × Value) : List Char :=
  keyText e.1 ++ [' ', '=', ' '] ++ atomText e.2 ++ ['\n']

/-- The header line of a table. -/
def headerText (key : String) (keys : List String) : List Char :=
  '[' :: nameText key keys ++ [']', '\n']

namespace Reader

/-- **The line of an entry is read back** as the entry. -/
theorem run_statement_line {e : String × Value} (h : IsAtom e.2) (rest : List Char) :
    (statement .second).run (lineText e ++ rest) = .ok (.entry e.1 [] e.2, rest) := by
  have hline : lineText e ++ rest =
      keyText e.1 ++ ' ' :: '=' :: ' ' :: (atomText e.2 ++ '\n' :: rest) := by
    simp [lineText]
  have hbracket := run_accept_keyText (c := '[') (by decide) (by decide) e.1
    (' ' :: '=' :: ' ' :: (atomText e.2 ++ '\n' :: rest))
  have hgap : ∀ x ∈ [' '], isSpacing x = true := by simp [isSpacing]
  have hname := run_dottedKey (c := '=') hgap (by decide) e.1 []
    (' ' :: (atomText e.2 ++ '\n' :: rest))
  have hspacing : (' ' :: (atomText e.2 ++ '\n' :: rest)).dropWhile isSpacing =
      atomText e.2 ++ '\n' :: rest := h.dropWhile _
  have hvalue := fun depth => run_value h (depth + 1) rest
  rw [nameText, furtherText, List.flatMap_nil, List.append_nil, List.singleton_append] at hname
  rw [hline]
  simp [statement, hbracket, hname, hspacing, hvalue]

/-- **A header is read back**, first as far as its name goes. -/
theorem run_statement_header (key : String) (keys : List String) (rest : List Char) :
    (statement .second).run (headerText key keys ++ rest) =
      .ok (.header false key keys, ']' :: '\n' :: rest) := by
  have hheader : headerText key keys ++ rest =
      '[' :: (keyText key ++ (furtherText keys ++ ']' :: '\n' :: rest)) := by
    simp [headerText, nameText]
  have hgap : ∀ x ∈ ([] : List Char), isSpacing x = true := by simp
  have hname := run_dottedKey (c := ']') hgap (by decide) key keys ('\n' :: rest)
  have hbracket := run_accept_keyText (c := '[') (by decide) (by decide) key
    (furtherText keys ++ ']' :: '\n' :: rest)
  rw [nameText, List.append_assoc, List.nil_append] at hname
  rw [hheader]
  simp [statement, hbracket, dropWhile_keyText, hname]

/-- The rest of a header is the end of its line. -/
theorem run_endOfLine_header (key : String) (keys : List String) (rest : List Char) :
    (endOfLine (.header false key keys)).run (']' :: '\n' :: rest) = .ok ((), rest) := by
  simp [endOfLine]

end Reader

end Toml

end Hocon
