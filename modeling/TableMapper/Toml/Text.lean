import TableMapper.Text.Digit

/-!
# Texts and keys of TOML

Readers of the smallest pieces of a TOML document.  Each takes a text, and gives
what stands at its front and the rest, or nothing.

* `skipBlanks`, `skipLines` — spaces and tabs; line ends and comments too;
* `string?` — the four kinds of strings;
* `key?` — a key, which may have several parts with dots between them.
-/

namespace TableMapper.Toml

/-- A space or a tab. -/
def isBlank (c : Char) : Bool :=
  c = ' ' || c = '\t'

/-- A control character that no comment and no string on one line may have. -/
def isControl (c : Char) : Bool :=
  (c.toNat < 0x20 && c ≠ '\t') || c = '\x7F'

/-- The text behind spaces and tabs. -/
def skipBlanks (cs : List Char) : List Char :=
  cs.dropWhile isBlank

/-- The text behind a comment, if one stands there. -/
def skipComment (cs : List Char) : List Char :=
  match cs with
  | '#' :: r => r.dropWhile fun c => !isControl c
  | cs => cs

/-- The text behind the end of a line. -/
def newline? : List Char → Option (List Char)
  | '\n' :: cs => some cs
  | '\r' :: '\n' :: cs => some cs
  | _ => none

/-- The text behind blanks, comments and line ends; each step passes over one
line end. -/
def skipLines : Nat → List Char → List Char
  | 0, cs => cs
  | n + 1, cs =>
    let cs := skipComment (skipBlanks cs)
    match newline? cs with
    | some cs => skipLines n cs
    | none => cs

/-- The character that `n` hexadecimal digits stand for. -/
def hexEscape? (n : Nat) (cs : List Char) : Option (Char × List Char) := do
  let digits := cs.take n
  if digits.length < n then none
  let value := (← digits.mapM Text.hexValue?).foldl (fun m d => 16 * m + d) 0
  if value.isValidChar then some (Char.ofNat value, cs.drop n) else none

/-- The character that stands behind a backslash. -/
def escape? : List Char → Option (Char × List Char)
  | 'b' :: cs => some ('\x08', cs)
  | 't' :: cs => some ('\t', cs)
  | 'n' :: cs => some ('\n', cs)
  | 'f' :: cs => some ('\x0C', cs)
  | 'r' :: cs => some ('\r', cs)
  | 'e' :: cs => some ('\x1B', cs)
  | '\x22' :: cs => some ('\x22', cs)
  | '\\' :: cs => some ('\\', cs)
  | 'x' :: cs => hexEscape? 2 cs
  | 'u' :: cs => hexEscape? 4 cs
  | 'U' :: cs => hexEscape? 8 cs
  | _ => none

/-- A string on one line, behind its opening quote. -/
def line? : Nat → List Char → Option (List Char × List Char)
  | 0, _ => none
  | n + 1, cs =>
    match cs with
    | '\x22' :: r => some ([], r)
    | '\\' :: r => do
      let (c, r) ← escape? r
      let (s, r) ← line? n r
      return (c :: s, r)
    | c :: r =>
      if isControl c then none else (line? n r).map fun (s, r) => (c :: s, r)
    | [] => none

/-- A string without escapes on one line, behind its opening quote. -/
def literalLine? : List Char → Option (List Char × List Char)
  | '\x27' :: r => some ([], r)
  | c :: r => if isControl c then none else (literalLine? r).map fun (s, r) => (c :: s, r)
  | [] => none

/-- The quotes at the front that belong to a string of several lines, and the
rest; `none` where the string goes on. Three quotes end it, up to two more in front
of them are its own. -/
def ending? (quote : Char) (cs : List Char) : Option (List Char × List Char) :=
  let run := min 5 (cs.takeWhile (· = quote)).length
  if run < 3 then none else some (List.replicate (run - 3) quote, cs.drop run)

/-- The text behind a backslash at the end of a line, and the blanks and line ends
after it. -/
def joinedLine? (cs : List Char) : Option (List Char) :=
  (newline? (skipBlanks cs)).map fun r => r.dropWhile fun c => isBlank c || c = '\n' || c = '\r'

/-- A string of several lines, behind its opening quotes. -/
def lines? : Nat → List Char → Option (List Char × List Char)
  | 0, _ => none
  | n + 1, cs =>
    match ending? '\x22' cs with
    | some found => some found
    | none =>
      match cs with
      | '\\' :: r =>
        match joinedLine? r with
        | some r => lines? n r
        | none => do
          let (c, r) ← escape? r
          let (s, r) ← lines? n r
          return (c :: s, r)
      | '\r' :: '\n' :: r => (lines? n r).map fun (s, r) => ('\r' :: '\n' :: s, r)
      | c :: r =>
        if isControl c && c ≠ '\n' then none
        else (lines? n r).map fun (s, r) => (c :: s, r)
      | [] => none

/-- A string of several lines without escapes, behind its opening quotes. -/
def literalLines? : Nat → List Char → Option (List Char × List Char)
  | 0, _ => none
  | n + 1, cs =>
    match ending? '\x27' cs with
    | some found => some found
    | none =>
      match cs with
      | '\r' :: '\n' :: r => (literalLines? n r).map fun (s, r) => ('\r' :: '\n' :: s, r)
      | c :: r =>
        if isControl c && c ≠ '\n' then none
        else (literalLines? n r).map fun (s, r) => (c :: s, r)
      | [] => none

/-- A string on one line, of either kind. -/
def shortString? : List Char → Option (String × List Char)
  | '\x22' :: r => (line? (r.length + 1) r).map fun (s, r) => (.ofList s, r)
  | '\x27' :: r => (literalLine? r).map fun (s, r) => (.ofList s, r)
  | _ => none

/-- A string of any kind. A line end right behind three opening quotes does not
count. -/
def string? : List Char → Option (String × List Char)
  | '\x22' :: '\x22' :: '\x22' :: r =>
    (lines? (r.length + 1) ((newline? r).getD r)).map fun (s, r) => (.ofList s, r)
  | '\x27' :: '\x27' :: '\x27' :: r =>
    (literalLines? (r.length + 1) ((newline? r).getD r)).map fun (s, r) => (.ofList s, r)
  | cs => shortString? cs

/-- A character of a key without quotes. -/
def isKeyChar (c : Char) : Bool :=
  c.isAlphanum || c = '-' || c = '_'

/-- One part of a key. -/
def keyPart? (cs : List Char) : Option (String × List Char) :=
  let bare := cs.takeWhile isKeyChar
  if bare.isEmpty then shortString? cs else some (.ofList bare, cs.drop bare.length)

/-- The parts of a key. -/
def key? : Nat → List Char → Option (List String × List Char)
  | 0, _ => none
  | n + 1, cs => do
    let (part, r) ← keyPart? cs
    match skipBlanks r with
    | '.' :: r => do
      let (parts, r) ← key? n (skipBlanks r)
      return (part :: parts, r)
    | r => return ([part], r)

end TableMapper.Toml
