import TableMapper.Derive.Identifier
import TableMapper.Derive.Token
import TableMapper.Text.Blank
import TableMapper.Text.Digit

/-!
# Lexemes

A declaration in text is cut into lexemes, each a token without brackets or one
bracket; comments and blanks stand between them and do not count, but a comment that
documents what follows it does, as an attribute.  Brackets are then matched.

* `Lexeme.readAll?` — the lexemes of a text;
* `Token.readAll?` — its tokens.
-/

namespace TableMapper.Derive

/-- A token without brackets, or a bracket. -/
inductive Lexeme
  | leaf (t : Token)
  | opening (b : Bracket)
  | closing (b : Bracket)

/-- The text behind `front`, if it begins so. -/
def behind? (front : String) (cs : List Char) : Option (List Char) :=
  if front.toList.isPrefixOf cs then some (cs.drop front.length) else none

/-- What is left out of a text to get to its end `rest`. -/
def spelling (cs rest : List Char) : String :=
  .ofList (cs.take (cs.length - rest.length))

/-- A word: an identifier without a raw marker. -/
def word? : List Char → Option (String × List Char)
  | c :: cs =>
    if isIdentStart c then
      let w := cs.takeWhile isIdentContinue
      some (.ofList (c :: w), cs.drop w.length)
    else none
  | [] => none

/-- The words that have no raw form. -/
def neverRaw : List String :=
  ["_", "super", "self", "Self", "crate"]

/-- An identifier. -/
def ident? (cs : List Char) : Option (String × List Char) :=
  match behind? "r#" cs with
  | some r =>
    (word? r).bind fun (w, rest) => if neverRaw.contains w then none else some ("r#" ++ w, rest)
  | none => word? cs

/-- How literals begin that otherwise begin like identifiers. -/
def literalFronts : List String :=
  ["r\"", "r#\"", "r##", "b\"", "b'", "br\"", "br#", "c\"", "cr\"", "cr#"]

/-- The character of a mark at the front. A slash that begins a comment is none. -/
def markChar? (cs : List Char) : Option (Char × List Char) :=
  if (behind? "//" cs).isSome || (behind? "/*" cs).isSome then none
  else match cs with
    | c :: r => if "~!@#$%^&*-=+|;:,<.>/?'".toList.contains c then some (c, r) else none
    | [] => none

/-- A mark, or a lifetime, which is a quote and an identifier. -/
def mark? (cs : List Char) : Option (Token × List Char) := do
  let (c, r) ← markChar? cs
  if c = '\x27' then
    let (name, rest) ← ident? r
    match rest with
    | '\x27' :: _ => none
    | '#' :: _ => if (behind? "r#" r).isSome then some (.lifetime name, rest) else none
    | _ => some (.lifetime name, rest)
  else some (.mark c ((markChar? r).isSome || (c = '-' && r.head?.any Char.isDigit)), r)

/-- The text behind the ending of a literal, which is a word. -/
def skipSuffix (cs : List Char) : List Char :=
  match word? cs with
  | some (_, r) => r
  | none => cs

/-- A character by its number: hexadecimal digits up to a brace. -/
def number? : Nat → Nat → List Char → Option (Char × List Char)
  | _, _, [] => none
  | count, value, c :: cs =>
    if c = '_' && 0 < count then number? count value cs
    else if c = '}' && 0 < count then
      if value.isValidChar then some (Char.ofNat value, cs) else none
    else match Text.hexValue? c with
      | some d => if count = 6 then none else number? (count + 1) (16 * value + d) cs
      | none => none

/-- What an escape stands for, behind its backslash. `wide` is for literals of
bytes, which know no characters by number but all bytes. -/
def escape? (wide : Bool) : List Char → Option (Char × List Char)
  | 'n' :: cs => some ('\n', cs)
  | 'r' :: cs => some ('\r', cs)
  | 't' :: cs => some ('\t', cs)
  | '\\' :: cs => some ('\\', cs)
  | '0' :: cs => some ('\x00', cs)
  | '\x27' :: cs => some ('\x27', cs)
  | '\x22' :: cs => some ('\x22', cs)
  | 'x' :: h :: l :: cs =>
    match Text.hexValue? h, Text.hexValue? l with
    | some a, some b => if a < 8 || wide then some (Char.ofNat (16 * a + b), cs) else none
    | _, _ => none
  | 'u' :: '{' :: cs => if wide then none else number? 0 0 cs
  | _ => none

/-- Blanks that a backslash at the end of a line takes with it. -/
def isContinuation (c : Char) : Bool :=
  c = ' ' || c = '\t' || c = '\n' || c = '\r'

/-- The value of a string, behind its opening quote. -/
def stringValue? (wide : Bool) : Nat → List Char → Option (List Char × List Char)
  | 0, _ => none
  | n + 1, cs =>
    match cs with
    | '\x22' :: r => some ([], r)
    | '\r' :: '\n' :: r => (stringValue? wide n r).map fun (s, r) => ('\n' :: s, r)
    | '\r' :: _ => none
    | '\\' :: '\n' :: r => stringValue? wide n (r.dropWhile isContinuation)
    | '\\' :: '\r' :: '\n' :: r => stringValue? wide n (r.dropWhile isContinuation)
    | '\\' :: r => do
      let (c, r) ← escape? wide r
      let (s, r) ← stringValue? wide n r
      return (c :: s, r)
    | c :: r =>
      if wide && 0x7F < c.toNat then none
      else (stringValue? wide n r).map fun (s, r) => (c :: s, r)
    | [] => none

/-- The value of a raw string, behind its opening quote; a quote and `closing` end
it. -/
def rawValue? (closing : List Char) : List Char → Option (List Char × List Char)
  | [] => none
  | c :: cs =>
    if c = '\x22' && closing.isPrefixOf cs then some ([], cs.drop closing.length)
    else if c = '\r' && cs.head? ≠ some '\n' then none
    else (rawValue? closing cs).map fun (s, r) => (c :: s, r)

/-- A raw string behind its `r`. -/
def rawString? (cs : List Char) : Option (List Char × List Char) :=
  let hashes := cs.takeWhile (· = '#')
  match cs.drop hashes.length with
  | '\x22' :: r => if 255 < hashes.length then none else rawValue? hashes r
  | _ => none

/-- A string literal. -/
def string? (cs : List Char) : Option (Token × List Char) := do
  let (value, r) ← match cs with
    | '\x22' :: r => stringValue? false (r.length + 1) r
    | 'r' :: r => rawString? r
    | _ => none
  let rest := skipSuffix r
  return (.string (.ofList value) (spelling cs rest), rest)

/-- A string literal of bytes, or one that ends with a zero byte. -/
def otherString? (cs : List Char) : Option (List Char) := do
  let (_, r) ← match cs with
    | 'b' :: '\x22' :: r => stringValue? true (r.length + 1) r
    | 'b' :: 'r' :: r => rawString? r
    | 'c' :: '\x22' :: r => stringValue? false (r.length + 1) r
    | 'c' :: 'r' :: r => rawString? r
    | _ => none
  return skipSuffix r

/-- A character between quotes, behind the first. -/
def quoted? (wide : Bool) (cs : List Char) : Option (List Char) := do
  let (_, r) ← match cs with
    | '\\' :: r => escape? wide r
    | c :: r => some (c, r)
    | [] => none
  match r with
  | '\x27' :: r => some (skipSuffix r)
  | _ => none

/-- A literal of one character or one byte. -/
def character? : List Char → Option (List Char)
  | '\x27' :: r => quoted? false r
  | 'b' :: '\x27' :: r => quoted? true r
  | _ => none

/-- A digit of a number, or an underscore between digits. -/
def isNumeral (c : Char) : Bool :=
  c.isDigit || c = '_'

/-- The text behind the digits of an exponent, which may have a sign in front. -/
def exponent? (cs : List Char) : Option (List Char) :=
  let r := cs.dropWhile (· = '_')
  let r := match r with
    | '+' :: r => r
    | '-' :: r => r
    | r => r
  let ds := r.takeWhile isNumeral
  if ds.any Char.isDigit then some (r.drop ds.length) else none

/-- The text behind a number with a point, an exponent or both. -/
def fraction? (cs : List Char) : Option (List Char) := do
  let c ← cs.head?
  if !c.isDigit then none
  let isExponent (c : Char) : Bool := c = 'e' || c = 'E'
  match cs.dropWhile isNumeral with
  | '.' :: r => do
    if r.head?.any fun c => c = '.' || isIdentStart c then none
    let r := r.dropWhile isNumeral
    match r with
    | c :: e => some (if isExponent c then (exponent? e).getD r else r)
    | [] => some []
  | c :: e => if isExponent c then exponent? e else none
  | [] => none

/-- The text behind the digits of an integer of some base. -/
def digits? (base : Nat) (cs : List Char) : Option (List Char) :=
  let isDigit (c : Char) : Bool :=
    c = '_' || (Text.hexValue? c).any fun d => d < base || c.isDigit
  let ds := cs.takeWhile isDigit
  let values := ds.filterMap Text.hexValue?
  if values.isEmpty || values.any (base ≤ ·) || (base = 10 && ds.head? = some '_') then none
  else some (cs.drop ds.length)

/-- The text behind an integer. -/
def whole? (cs : List Char) : Option (List Char) :=
  match cs with
  | '0' :: 'x' :: r => digits? 16 r
  | '0' :: 'o' :: r => digits? 8 r
  | '0' :: 'b' :: r => digits? 2 r
  | cs => digits? 10 cs

/-- The text behind a number with its ending. -/
def numeral? (cs : List Char) : Option (List Char) :=
  let ended (r : Option (List Char)) : Option (List Char) :=
    (r.map skipSuffix).filter fun r => !r.head?.any isIdentContinue
  (ended (fraction? cs)).or (ended (whole? cs))

/-- A literal that is no string. -/
def literal? (cs : List Char) : Option (Token × List Char) :=
  (((otherString? cs).or (character? cs)).or (numeral? cs)).map fun r =>
    (.literal (spelling cs r), r)

/-- A token without brackets. -/
def leaf? (cs : List Char) : Option (Token × List Char) :=
  (string? cs).or <| (literal? cs).or <| (mark? cs).or <|
    if literalFronts.any fun f => (behind? f cs).isSome then none
    else (ident? cs).map fun (name, r) => (.ident name, r)

/-- The text behind a comment with an ending of its own, in which others may be
nested; `depth` of them are open. -/
def blockEnd? : Nat → List Char → Option (List Char)
  | _, [] => none
  | _, [_] => none
  | depth, '/' :: '*' :: cs => blockEnd? (depth + 1) cs
  | depth, '*' :: '/' :: cs =>
    if depth ≤ 1 then some cs else blockEnd? (depth - 1) cs
  | depth, _ :: c :: cs => blockEnd? depth (c :: cs)

/-- A comment at the front: the text behind it, and its text with `true` where it
documents what is around it, with `false` where it documents what follows. -/
def comment? (cs : List Char) : Option (List Char × Option (Bool × String)) :=
  match cs with
  | '/' :: '/' :: r =>
    let line := r.takeWhile (· ≠ '\n')
    let line := if line.getLast? = some '\r' then line.dropLast else line
    let rest := r.drop line.length
    match line with
    | '!' :: text => some (rest, some (true, .ofList text))
    | '/' :: text =>
      some (rest, if text.head? = some '/' then none else some (false, .ofList text))
    | _ => some (rest, none)
  | '/' :: '*' :: r => do
    let rest ← blockEnd? 0 cs
    let text := r.take (r.length - rest.length - 2)
    match text with
    | '!' :: text => some (rest, some (true, .ofList text))
    | '*' :: text =>
      some (rest, if text.isEmpty || text.head? = some '*' then none
        else some (false, .ofList text))
    | _ => some (rest, none)
  | _ => none

/-- A comment that documents something, as an attribute. -/
def docLexemes (inner : Bool) (text : String) : List Lexeme :=
  [.leaf (.mark '#' inner)] ++ (if inner then [.leaf (.mark '!' false)] else []) ++
    [.opening .square, .leaf (.ident "doc"), .leaf (.mark '=' false),
      .leaf (.string text text), .closing .square]

/-- A character between tokens: a blank, or a mark of the writing direction. -/
def isBetween (c : Char) : Bool :=
  Text.isBlank c || c = '\u200E' || c = '\u200F'

/-- A bracket. -/
def bracket? : Char → Option Lexeme
  | '(' => some (.opening .round)
  | '[' => some (.opening .square)
  | '{' => some (.opening .curly)
  | ')' => some (.closing .round)
  | ']' => some (.closing .square)
  | '}' => some (.closing .curly)
  | _ => none

/-- The lexemes of a text; each step takes at least one character. -/
def Lexeme.readFrom? : Nat → List Char → Option (List Lexeme)
  | 0, _ => none
  | n + 1, cs =>
    match cs with
    | [] => some []
    | c :: r =>
      if isBetween c then Lexeme.readFrom? n r
      else match comment? (c :: r) with
        | some (rest, doc) =>
          let front := match doc with
            | some (inner, text) => docLexemes inner text
            | none => []
          (Lexeme.readFrom? n rest).map (front ++ ·)
        | none =>
          match bracket? c with
          | some b => (Lexeme.readFrom? n r).map (b :: ·)
          | none => do
            let (t, rest) ← leaf? (c :: r)
            let ls ← Lexeme.readFrom? n rest
            return .leaf t :: ls

/-- The lexemes of a text. -/
def Lexeme.readAll? (s : String) : Option (List Lexeme) :=
  Lexeme.readFrom? (s.toList.length + 1) s.toList

/-- Lexemes with their brackets matched. `open'` holds the open brackets, the latest
first, each with the tokens in front of it, and `now` the tokens behind the latest;
both have the last token first. -/
def Token.nest? (open' : List (Bracket × List Token)) (now : List Token) :
    List Lexeme → Option (List Token)
  | [] => if open'.isEmpty then some now.reverse else none
  | .leaf t :: ls => Token.nest? open' (t :: now) ls
  | .opening b :: ls => Token.nest? ((b, now) :: open') [] ls
  | .closing b :: ls =>
    match open' with
    | (b', before) :: open' =>
      if b = b' then Token.nest? open' (.group b now.reverse :: before) ls else none
    | [] => none

/-- The tokens of a text. -/
def Token.readAll? (s : String) : Option (List Token) :=
  (Lexeme.readAll? s).bind (Token.nest? [] [])

end TableMapper.Derive
