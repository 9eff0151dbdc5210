/-!
# Splitting a text

`splitOn` cuts a text at every occurrence of a character. There is one part more than there are
occurrences, so the empty text has one part, which is empty (`splitOn_ne_nil`).

* `splitOn_eq_iff` – the parts are the only texts without the character that, joined by it, are the
  text;
* `splitOn_append` – two texts with the character between them have the parts of both.
-/

namespace Hocon

/-- The parts of a text between the occurrences of a character. -/
def splitOn (mark : Char) : List Char → List (List Char)
  | [] => [[]]
  | c :: rest =>
    if c = mark then [] :: splitOn mark rest
    else match splitOn mark rest with
      | [] => [[c]]
      | part :: parts => (c :: part) :: parts

/-- A text always has a part. -/
theorem splitOn_ne_nil (mark : Char) (cs : List Char) : splitOn mark cs ≠ [] := by
  cases cs with
  | nil => simp [splitOn]
  | cons c rest =>
    simp only [splitOn]
    split
    · simp
    · split <;> simp

/-- The parts are those of the general function on lists. -/
theorem splitOn_eq (mark : Char) (cs : List Char) : splitOn mark cs = cs.splitOn mark := by
  induction cs with
  | nil => rfl
  | cons c rest ih =>
    obtain ⟨part, parts, hrest⟩ := List.exists_cons_of_ne_nil (splitOn_ne_nil mark rest)
    rw [splitOn, List.splitOn_cons_eq_if_modifyHead, ← ih, hrest]
    by_cases hc : c = mark
    · rw [if_pos hc, if_pos (beq_iff_eq.mpr hc)]
    · rw [if_neg hc, if_neg (mt beq_iff_eq.mp hc)]
      rfl

/-- The character is in no part. -/
theorem notMem_of_mem_splitOn {mark : Char} {cs part : List Char} (h : part ∈ splitOn mark cs) :
    mark ∉ part := by
  induction cs generalizing part with
  | nil =>
    rw [List.mem_singleton.mp h]
    exact List.not_mem_nil
  | cons c rest ih =>
    obtain ⟨first, parts, hrest⟩ := List.exists_cons_of_ne_nil (splitOn_ne_nil mark rest)
    rw [splitOn, hrest] at h
    rw [hrest] at ih
    split at h
    · rcases List.mem_cons.mp h with rfl | h
      · exact List.not_mem_nil
      · exact ih h
    · rename_i hc
      rcases List.mem_cons.mp h with rfl | h
      · rw [List.mem_cons, not_or]
        exact ⟨Ne.symm hc, ih List.mem_cons_self⟩
      · exact ih (List.mem_cons_of_mem _ h)

/-- **The parts of a text** are the texts without the character that, joined by it, are the text. -/
theorem splitOn_eq_iff {mark : Char} {cs : List Char} {parts : List (List Char)} :
    splitOn mark cs = parts ↔
      parts ≠ [] ∧ (∀ part ∈ parts, mark ∉ part) ∧ [mark].intercalate parts = cs := by
  constructor
  · rintro rfl
    refine ⟨splitOn_ne_nil mark cs, fun part => notMem_of_mem_splitOn, ?_⟩
    rw [splitOn_eq, List.intercalate_splitOn]
  · rintro ⟨hne, hmark, rfl⟩
    rw [splitOn_eq, List.splitOn_intercalate mark hmark hne]

theorem splitOn_append (mark : Char) (cs ds : List Char) :
    splitOn mark (cs ++ mark :: ds) = splitOn mark cs ++ splitOn mark ds := by
  simp only [splitOn_eq, List.splitOn_append_cons_self]

end Hocon
