import TableMapper.Derive.Token

/-!
# Shapes of token sequences

A shape takes the tokens that have it off the front of a sequence and gives back the
rest, or refuses.  A choice between shapes goes by the first tokens, so that a shape
once begun must be finished.

* `Shape` — with its elements: single marks, pairs of marks, words, names, brackets;
* `Shape.list`, `Shape.many` — items with a mark between them, and items in a row;
* `taken` — the tokens that a shape has taken off.
-/

namespace TableMapper.Derive

/-- What takes tokens off the front of a sequence. -/
abbrev Shape : Type := List Token → Option (List Token)

/-- The tokens in front of `rest` in `ts`. -/
def taken (ts rest : List Token) : List Token :=
  ts.take (ts.length - rest.length)

/-- The words that are no names, except in their raw form. -/
def reserved : List String :=
  ["_", "abstract", "as", "async", "await", "become", "box", "break", "const", "continue",
    "crate", "do", "dyn", "else", "enum", "extern", "false", "final", "fn", "for", "if", "impl",
    "in", "let", "loop", "macro", "match", "mod", "move", "mut", "override", "priv", "pub",
    "ref", "return", "Self", "self", "static", "struct", "super", "trait", "true", "try", "type",
    "typeof", "unsafe", "unsized", "use", "virtual", "where", "while", "yield"]

namespace Shape

/-- Nothing. -/
def empty : Shape := some

/-- The mark `c`, whatever follows it. -/
def mark (c : Char) : Shape
  | .mark d _ :: ts => if c = d then some ts else none
  | _ => none

/-- The marks `a` and `b`, the second directly behind the first. -/
def pair (a b : Char) : Shape
  | .mark c true :: .mark d _ :: ts => if a = c && b = d then some ts else none
  | _ => none

/-- The word `w`. -/
def word (w : String) : Shape
  | .ident v :: ts => if w = v then some ts else none
  | _ => none

/-- One of the words `ws`. -/
def wordOf (ws : List String) : Shape
  | .ident v :: ts => if ws.contains v then some ts else none
  | _ => none

/-- Any word. -/
def anyWord : Shape
  | .ident _ :: ts => some ts
  | _ => none

/-- A name. -/
def name : Shape
  | .ident v :: ts => if reserved.contains v then none else some ts
  | _ => none

/-- A lifetime. -/
def lifetime : Shape
  | .lifetime _ :: ts => some ts
  | _ => none

/-- A string. -/
def string : Shape
  | .string _ _ :: ts => some ts
  | _ => none

/-- A number, a character, a string or a truth value. -/
def constant : Shape
  | .string _ _ :: ts => some ts
  | .literal _ :: ts => some ts
  | .ident v :: ts => if v = "true" || v = "false" then some ts else none
  | .mark '-' _ :: .literal shown :: ts =>
    if shown.toList.head?.any Char.isDigit then some ts else none
  | _ => none

/-- The end of the tokens. -/
def done : Shape
  | [] => some []
  | _ => none

/-- Brackets around tokens that have the shape `inner` from end to end. -/
def around (b : Bracket) (inner : Shape) : Shape
  | .group c ts :: rest => if b = c then (inner ts).bind fun r => (done r).map fun _ => rest else none
  | _ => none

/-- Any tokens between brackets of any kind. -/
def anyGroup : Shape
  | .group _ _ :: ts => some ts
  | _ => none

/-- Any tokens between round brackets. -/
def anyRound : Shape
  | .group .round _ :: ts => some ts
  | _ => none

/-- Any tokens between curly brackets. -/
def anyCurly : Shape
  | .group .curly _ :: ts => some ts
  | _ => none

/-- Any tokens but none at all, without commas and semicolons between them. -/
def expression : Shape := fun ts =>
  let free : Token → Bool
    | .mark c _ => c != ',' && c != ';'
    | _ => true
  if ts.isEmpty || !ts.all free then none else some []

/-- Whether tokens begin with a shape. -/
def starts (s : Shape) (ts : List Token) : Bool :=
  (s ts).isSome

/-- The shape `s`, if it is there. -/
def optional (s : Shape) : Shape := fun ts =>
  some ((s ts).getD ts)

/-- The shape `s`, then the shape `t`. -/
def andThen (s t : Shape) : Shape := fun ts =>
  (s ts).bind t

/-- The shape `s` where tokens begin with `front`, and the shape `t` elsewhere. -/
def choose (front s t : Shape) : Shape := fun ts =>
  if front.starts ts then s ts else t ts

/-- Items with the mark `sep` between them, up to `stop` or to an item with no mark
behind it. The number bounds how many there can be. -/
def listUpTo (item : Shape) (sep : Char) (stop : List Token → Bool) : Nat → Shape
  | 0, _ => none
  | n + 1, ts =>
    if stop ts then some ts
    else (item ts).bind fun r =>
      match mark sep r with
      | some r' => listUpTo item sep stop n r'
      | none => some r

/-- Items with the mark `sep` between them, up to `stop` or to an item with no mark
behind it. -/
def list (item : Shape) (sep : Char) (stop : List Token → Bool) : Shape := fun ts =>
  listUpTo item sep stop (ts.length + 1) ts

/-- Items as long as tokens begin with `front`. The number bounds how many there can
be. -/
def manyUpTo (front item : Shape) : Nat → Shape
  | 0, _ => none
  | n + 1, ts => if front.starts ts then (item ts).bind (manyUpTo front item n) else some ts

/-- Items as long as tokens begin with `front`. -/
def many (front item : Shape) : Shape := fun ts =>
  manyUpTo front item (ts.length + 1) ts

/-- Items with commas between them, to the end of the tokens. -/
def commaList (item : Shape) : Shape :=
  list item ',' List.isEmpty

end Shape

end TableMapper.Derive
