import TableMapper.Toml.Scalar
import TableMapper.Toml.Table

/-!
# TOML documents

A document is a list of lines: a key with a value, the header of a table, or
nothing, each perhaps with a comment.

* `Item.read?` — a value, with the arrays and tables in it;
* `Document.read?` — a document as the table that it describes.
-/

namespace TableMapper.Toml

/-- A character at which a number, a time or a truth value ends. -/
def endsScalar (c : Char) : Bool :=
  isBlank c || c = '\n' || c = '\r' || c = ',' || c = ']' || c = '}' || c = '#'

/-- The run of characters at the front that may be a number, a time or a truth
value. A space between a date and a digit belongs to it. -/
def scalarRun (cs : List Char) : List Char :=
  let run := cs.takeWhile (!endsScalar ·)
  match date? run, cs.drop run.length with
  | some (_, []), ' ' :: d :: r =>
    if d.isDigit then run ++ ' ' :: (d :: r).takeWhile (!endsScalar ·) else run
  | _, _ => run

/-- A number, a time or a truth value. -/
def scalar? (run : List Char) : Option Item :=
  if run = "true".toList || run = "false".toList then some .bool
  else match integer? run with
    | some n => some (.integer n)
    | none =>
      if isFloat run then some .float else (time? run).map .time

mutual

/-- A value at the front of a text. -/
def Item.read? : Nat → List Char → Option (Item × List Char)
  | 0, _ => none
  | n + 1, cs =>
    match cs with
    | '[' :: r => (elements? n (skipLines (r.length + 1) r)).map fun (xs, r) => (.array xs, r)
    | '{' :: r =>
      (members? n [] (skipLines (r.length + 1) r)).map fun (es, r) => (.table .inline es, r)
    | cs =>
      match string? cs with
      | some (s, r) => some (.text s, r)
      | none =>
        let run := scalarRun cs
        (scalar? run).map fun v => (v, cs.drop run.length)

/-- The elements of an array, behind its bracket or a comma. -/
def elements? : Nat → List Char → Option (List Item × List Char)
  | 0, _ => none
  | n + 1, cs =>
    match cs with
    | ']' :: r => some ([], r)
    | cs => do
      let (x, r) ← Item.read? n cs
      match skipLines (r.length + 1) r with
      | ',' :: r => do
        let (xs, r) ← elements? n (skipLines (r.length + 1) r)
        return (x :: xs, r)
      | ']' :: r => return ([x], r)
      | _ => none

/-- The entries of a table between braces, behind its brace or a comma. -/
def members? : Nat → Item.Entries → List Char → Option (Item.Entries × List Char)
  | 0, _, _ => none
  | n + 1, es, cs =>
    match cs with
    | '}' :: r => some (es, r)
    | cs => do
      let (path, r) ← key? (cs.length + 1) cs
      let (v, r) ← Item.read? n (skipBlanks (← Moment.skip? '=' (skipBlanks r)))
      let es ← Item.put? true es path v
      match skipLines (r.length + 1) r with
      | ',' :: r => members? n es (skipLines (r.length + 1) r)
      | '}' :: r => return (es, r)
      | _ => none

end

/-- A document as far as it is read: its table, and the header that is in force. -/
structure Document where
  entries : Item.Entries := []
  header : List String := []

namespace Document

/-- The rest of a line that has nothing more to say. -/
def lineEnd? (cs : List Char) : Option (List Char) :=
  match skipComment (skipBlanks cs) with
  | [] => some []
  | cs => newline? cs

/-- A header of one table, or of one more of several, behind its brackets. -/
def header? (several : Bool) (d : Document) (cs : List Char) : Option (Document × List Char) := do
  let (path, r) ← key? (cs.length + 1) (skipBlanks cs)
  let r ← Moment.skip? ']' (skipBlanks r)
  let r ← if several then Moment.skip? ']' r else some r
  let last ← path.getLast?
  let begin := if several then Item.openElement? last else Item.openTable? last
  let entries ← Item.within? d.entries path.dropLast begin
  return (⟨entries, path⟩, r)

/-- A key with its value. -/
def keyValue? (d : Document) (cs : List Char) : Option (Document × List Char) := do
  let (path, r) ← key? (cs.length + 1) cs
  let r := skipBlanks (← Moment.skip? '=' (skipBlanks r))
  let (v, r) ← Item.read? (2 * r.length + 2) r
  let entries ← Item.within? d.entries d.header fun es => Item.put? true es path v
  return ({ d with entries }, r)

/-- One line. -/
def line? (d : Document) (cs : List Char) : Option (Document × List Char) := do
  let (d, r) ← match skipBlanks cs with
    | '[' :: '[' :: r => header? true d r
    | '[' :: r => header? false d r
    | cs =>
      match lineEnd? cs with
      | some _ => some (d, cs)
      | none => keyValue? d cs
  return (d, ← lineEnd? r)

/-- Lines up to the end. -/
def lines? : Nat → Document → List Char → Option Document
  | 0, _, _ => none
  | n + 1, d, cs =>
    if cs.isEmpty then some d
    else do
      let (d, r) ← line? d cs
      lines? n d r

/-- The table that a text describes. A mark of the byte order in front does not
count. -/
def read? (s : String) : Option Item.Entries :=
  let cs := match s.toList with
    | '\uFEFF' :: r => r
    | r => r
  (lines? (cs.length + 1) {} cs).map (·.entries)

end Document

end TableMapper.Toml
