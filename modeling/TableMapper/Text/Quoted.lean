/-!
# Quoted text

The three ways a text enters a statement: as a string literal between single
quotes, as one part of a `LIKE` pattern, and as a name between backticks.
Each is a map over characters, so that what a reader of the dialect sees is
decided one character at a time.

* `escape` — a character with a meaning inside a string literal is written as
  a backslash and a letter;
* `escapePattern` — the same, and a percent sign is written `\%`;
* `quote`, `quotePattern`, `quoteName` — the quoted forms.
-/

namespace TableMapper.Text

/-- One character inside a string literal. -/
def escapeChar (c : Char) : List Char :=
  if c = '\\' then ['\\', '\\']
  else if c = '\x27' then ['\\', '\x27']
  else if c = '\n' then ['\\', 'n']
  else if c = '\r' then ['\\', 'r']
  else if c = '\t' then ['\\', 't']
  else if c = '\x08' then ['\\', 'b']
  else if c = '\x00' then ['\\', '0']
  else if c = '\x1a' then ['\\', 'Z']
  else [c]

/-- One character inside a `LIKE` part: a percent sign stands for itself only
behind a backslash. -/
def escapePatternChar (c : Char) : List Char :=
  if c = '%' then ['\\', '%'] else escapeChar c

/-- One character inside a quoted name: a backtick is written twice. -/
def escapeNameChar (c : Char) : List Char :=
  if c = '\x60' then ['\x60', '\x60'] else [c]

/-- `s` as it stands inside a string literal. -/
def escape (s : String) : String :=
  .ofList (s.toList.flatMap escapeChar)

/-- `s` as it stands inside a `LIKE` pattern that matches it literally. -/
def escapePattern (s : String) : String :=
  .ofList (s.toList.flatMap escapePatternChar)

/-- `s` as a string literal. -/
def quote (s : String) : String :=
  "'" ++ escape s ++ "'"

/-- The literal of a pattern made of `parts` with anything between them. -/
def quotePattern (parts : List String) : String :=
  "'" ++ "%".intercalate (parts.map escapePattern) ++ "'"

/-- `name` between backticks. -/
def quoteName (name : String) : String :=
  "\x60" ++ .ofList (name.toList.flatMap escapeNameChar) ++ "\x60"

/-- Quoted names with a comma and a space between them. -/
def quoteNames (names : List String) : String :=
  ", ".intercalate (names.map quoteName)

end TableMapper.Text
