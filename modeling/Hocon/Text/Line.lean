/-!
# Lines of a text

`splitLines` cuts a text at its line breaks, which are a carriage return with a line feed, or
either of the two alone; `withLineFeeds` makes all of them line feeds. `commentLines` are the lines
that are written for a comment: the empty lines at the end of a comment are dropped, but an empty
comment has one empty line.
-/

namespace Hocon

/-- The lines of a text, without their breaks. There is one line more than there are breaks. -/
def splitLines : List Char → List (List Char)
  | [] => [[]]
  | '\r' :: '\n' :: rest => [] :: splitLines rest
  | '\r' :: rest => [] :: splitLines rest
  | '\n' :: rest => [] :: splitLines rest
  | c :: rest =>
    match splitLines rest with
    | [] => [[c]]
    | line :: lines => (c :: line) :: lines

/-- The text with a line feed in the place of every line break. -/
def withLineFeeds (cs : List Char) : List Char :=
  ['\n'].intercalate (splitLines cs)

/-- A list of lines without the empty lines at its end. -/
def dropEmptyEnd (lines : List (List Char)) : List (List Char) :=
  (lines.reverse.dropWhile List.isEmpty).reverse

/-- The lines that are written for a comment. -/
def commentLines (comment : String) : List (List Char) :=
  if comment.toList = [] then [[]] else dropEmptyEnd (splitLines comment.toList)

end Hocon
