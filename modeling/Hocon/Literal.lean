import Hocon.Decimal.Layout
import Hocon.Error
import Hocon.Options.Basic
import Hocon.Text.Quoted
import Hocon.Unicode.Digit
import Hocon.Unicode.Letter

/-!
# Literals and keys

The written forms of primitive values. A `Literal` is what stands in a document for a value: a
keyword, a number, or a text that is bare or quoted. `Literal.ofValue` chooses the form of a value,
or says why there is none; `Literal.text` writes it.

A bare text must never read back as something else. It is a word of letters, decimal digits and
hyphens that starts with a letter, and it does not start like a keyword. A number starts with a
digit or a hyphen, a quoted text with a quote, so no two forms share a text.

A `Key` is bare or quoted in the same way, except that a bare key may be any run of letters,
decimal digits, hyphens and underscores: what stands before a separator can only be a key.
-/

namespace Hocon

/-! ### Bare words -/

/-- The words with which no bare text starts. -/
def reservedWords : List String := ["include", "true", "false", "null"]

/-- Whether a character may stand in a bare text. -/
def isBareChar (c : Char) : Bool :=
  isLetter c || isDecimalDigit c || c == '-'

/-- Whether a text may stand without quotes as a value. -/
def isBareText : List Char → Bool
  | [] => false
  | c :: rest =>
    !isDecimalDigit c && c != '-' &&
      !(reservedWords.any fun w => w.toList.isPrefixOf (c :: rest)) &&
      (c :: rest).all isBareChar

/-- Whether a character may stand in a bare key. -/
def isKeyChar (c : Char) : Bool :=
  isLetter c || isDecimalDigit c || c == '-' || c == '_'

/-- Whether a text may stand without quotes as a key. -/
def isSimpleKey (cs : List Char) : Bool :=
  !cs.isEmpty && cs.all isKeyChar

/-! ### Quoting policies -/

/-- The quoting policy that a setting asks for; a word counts if it is the key of a policy. -/
def Setting.policy (setting : Setting Quoting) : Except Problem Quoting :=
  match setting.resolve? with
  | some quoting => .ok quoting
  | none => .error (.unknownQuoting setting.key)

/-! ### Literals -/

/-- The written form of a primitive value. An integer has one only up to the limit of digits. -/
inductive Literal where
  /-- The keyword for the null value. -/
  | null
  /-- The keyword for a truth value. -/
  | bool (b : Bool)
  /-- An integer in base ten. -/
  | int (n : Int) (hasDecimal_n : hasDecimal n = true)
  /-- A finite floating-point number, by its bits. -/
  | float (bits : UInt64)
  /-- A text without quotes. -/
  | bare (cs : List Char)
  /-- A text in quotes. -/
  | quoted (cs : List Char)
  deriving DecidableEq, Repr

namespace Literal

/-- The characters of a literal. -/
def text : Literal → List Char
  | null => ['n', 'u', 'l', 'l']
  | bool true => ['t', 'r', 'u', 'e']
  | bool false => ['f', 'a', 'l', 's', 'e']
  | int n _ => (toString n).toList
  | float bits => Decimal.documentLayout.write bits
  | bare cs => cs
  | quoted cs => Quoted.encode cs

/-- The literal of a text under a quoting policy. -/
def ofText (quoting : Quoting) (cs : List Char) : Literal :=
  match quoting with
  | .always => quoted cs
  | .whenRequired => if isBareText cs then bare cs else quoted cs

/-- The literal of a value, or why there is none, which does not say where the value stands. The
quoting policy matters for texts only, so the lack of one is a problem only there. -/
def ofValue (policy : Except Problem Quoting) : Value → Except Halt Literal
  | .null => .ok null
  | .bool b => .ok (bool b)
  | .int n => if h : hasDecimal n = true then .ok (int n h) else .error (.failure .tooManyDigits)
  | .float bits =>
    if Binary64.isFinite bits then .ok (float bits)
    else .error (.ofProblem
      (.unsupported (.float bits) (some "non-finite numbers have no literal form")))
  | .str s => (policy.map (ofText · s.toList)).mapError Halt.ofProblem
  | v => .error (.ofProblem (.unsupported v none))

end Literal

/-! ### Keys -/

/-- The written form of a key. -/
inductive Key where
  /-- A key without quotes. -/
  | bare (cs : List Char)
  /-- A key in quotes. -/
  | quoted (cs : List Char)
  deriving DecidableEq, Repr

namespace Key

/-- The characters of a key. -/
def text : Key → List Char
  | bare cs => cs
  | quoted cs => Quoted.encode cs

/-- Whether a key has to be quoted. A word in the place of the policy asks for nothing. -/
def needsQuotes (quoting : Setting Quoting) (cs : List Char) : Bool :=
  quoting == .member .always || !isSimpleKey cs

/-- The written form of a key under a quoting policy. -/
def ofText (quoting : Setting Quoting) (cs : List Char) : Key :=
  if needsQuotes quoting cs then quoted cs else bare cs

end Key

/-- The text of a map's key: the null value and the truth values are spelled like literals, any
other key is the plain text of the value, if it has one. -/
def keyText? : Value → Option String
  | .null => some (String.ofList Literal.null.text)
  | .bool b => some (String.ofList (Literal.bool b).text)
  | v => v.plain

/-- The text of a map's key in a path. A key without a text ends a rendering before it is written,
so none stands for it. -/
def keyText (k : Value) : String :=
  (keyText? k).getD ""

end Hocon
