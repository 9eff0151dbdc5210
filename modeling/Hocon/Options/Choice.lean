import Hocon.Text.Display
import Hocon.Unicode.Blank
import Hocon.Unicode.Case

/-!
# Closed sets of options

An option that is not a number is a member of a small closed set. Each member has a name, a key by
which option files know it, and possibly further spellings. A word is matched after it has been
brought to a normal form: no blanks at the ends, lower case, underscores in place of hyphens.

* `Choice.ofKey?` – the member with a given key, for a set whose members have no other spelling;
* `Choice.ofSpelling?` – the member with a given spelling: an alias taken literally, or else the
  normal form of a key, a name or an alias, blanks inside counting as underscores too.
-/

namespace Hocon

/-- A closed set of options. -/
class Choice (α : Type) where
  /-- What the set is called. -/
  setName : String
  /-- The members, in their order. -/
  members : List α
  /-- The name of a member. -/
  name : α → String
  /-- The key of a member. -/
  key : α → String
  /-- The member that a word of an option file means. -/
  ofWord? : String → Option α

/-- A closed set of options whose members have further spellings. -/
class Choice.Spelled (α : Type) extends Choice α where
  /-- The other spellings of a member. -/
  aliases : α → List String

/-- A closed set of options whose members stand for a piece of text. -/
class Choice.Payload (α : Type) extends Choice.Spelled α where
  /-- The text that a member stands for. -/
  payload : α → String

namespace Choice

/-- A word in lower case, without the blanks at its ends. -/
def trimmedLower (word : String) : List Char :=
  toLower (strip word.toList)

/-- The normal form of a key. -/
def normalKey (word : String) : List Char :=
  (trimmedLower word).map fun c => if c = '-' then '_' else c

/-- The normal form of a spelling. -/
def normalSpelling (word : String) : List Char :=
  (trimmedLower word).map fun c => if c = '-' ∨ c = ' ' then '_' else c

/-- The member whose key is the normal form of a word. -/
def ofKey? {α : Type} (members : List α) (key : α → String) (word : String) : Option α :=
  members.find? fun m => (key m).toList == normalKey word

/-- The member that a word spells. Aliases such as `:` or `//` have no normal form of their own, so
they are compared as they are, before any normal form is. -/
def ofSpelling? {α : Type} (members : List α) (key name : α → String) (aliases : α → List String)
    (word : String) : Option α :=
  let token := normalSpelling word
  match members.find? fun m => (aliases m).contains word with
  | some m => some m
  | none =>
    if token.isEmpty then none
    else members.find? fun m =>
      (key m :: name m :: aliases m).any fun spelling => normalSpelling spelling == token

/-- A member as it is shown inside a message. -/
def display {α : Type} [Choice α] (m : α) : String :=
  "<" ++ setName α ++ "." ++ name m ++ ": " ++ displayText (key m) ++ ">"

/-- The keys of a set, as a message lists them. -/
def allowed (α : Type) [Choice α] : String :=
  ", ".intercalate ((members (α := α)).map key)

end Choice

/-- What stands for a member of a closed set: the member, or a word that nobody has checked. -/
inductive Setting (α : Type) where
  /-- A member of the set. -/
  | member (m : α)
  /-- A word in the place of a member. -/
  | word (text : String)
  deriving DecidableEq, Repr

namespace Setting

variable {α : Type} [Choice α]

/-- The key of the member, or the word. -/
def key : Setting α → String
  | member m => Choice.key m
  | word text => text

/-- A setting as it is shown inside a message. -/
def display : Setting α → String
  | member m => Choice.display m
  | word text => displayText text

/-- The word of a setting that is no member. -/
def stray? : Setting α → Option String
  | member _ => none
  | word text => some text

/-- The member that a setting stands for, where a word that equals a member's key is as good as the
member. -/
def resolve? : Setting α → Option α
  | member m => some m
  | word text => (Choice.members (α := α)).find? fun m => Choice.key m == text

end Setting

end Hocon
