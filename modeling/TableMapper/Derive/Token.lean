/-!
# Tokens

The text of a type declaration is a sequence of tokens, in which brackets are
matched and hold sequences of their own.

* `Token` — a token, a bracketed sequence being one;
* `Token.textAll` — tokens as text, with single spaces between them except inside
  a mark of several characters.
-/

namespace TableMapper.Derive

/-- The kinds of brackets. -/
inductive Bracket
  | round
  | square
  | curly
  deriving DecidableEq, Repr

/-- A token. The name of an identifier has its raw marker, if any; the flag of a
mark says whether another mark follows directly, and that of a minus is also set in
front of a number. -/
inductive Token
  | ident (name : String)
  | lifetime (name : String)
  | mark (c : Char) (joint : Bool)
  | string (value shown : String)
  | literal (shown : String)
  | group (bracket : Bracket) (inner : List Token)

/-- The marks of two characters. -/
def pairedMarks : List (Char × Char) :=
  [(':', ':'), ('-', '>'), ('=', '>'), ('=', '='), ('!', '='), ('|', '|'), ('.', '.'), ('.', '=')]

/-- Whether two tokens are one mark, or a minus and its number. -/
def Token.joins : Token → Token → Bool
  | .mark a true, .mark b _ => pairedMarks.contains (a, b)
  | .mark a true, .literal _ => a = '-'
  | _, _ => false

/-- Text between brackets. -/
def Bracket.around (b : Bracket) (inner : String) : String :=
  match b with
  | .round => "(" ++ inner ++ ")"
  | .square => "[" ++ inner ++ "]"
  | .curly => if inner.isEmpty then "\x7b \x7d" else "\x7b " ++ inner ++ " \x7d"

mutual

/-- A token as text. -/
def Token.text : Token → String
  | .ident name => name
  | .lifetime name => "'" ++ name
  | .mark c _ => c.toString
  | .string _ shown => shown
  | .literal shown => shown
  | .group b inner => b.around (Token.textAll inner)

/-- Tokens as text. -/
def Token.textAll : List Token → String
  | [] => ""
  | [t] => t.text
  | t :: u :: ts => t.text ++ (if t.joins u then "" else " ") ++ Token.textAll (u :: ts)

end

end TableMapper.Derive
