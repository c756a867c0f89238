/-!
# Tables of TOML

A document is a table of keys with values.  A table may be written in several
places; how it came to be decides whether it may be added to.

* `Origin` — how a table came to be;
* `Item.put?` — a value at a key of a table, given by its parts;
* `Item.openTable?`, `Item.openElement?` — a table begun by a header.
-/

namespace TableMapper.Toml

/-- How a table came to be: between braces, by a header of its own, as a table in
front of the last part of a header, or as one in front of the last part of a key. -/
inductive Origin
  | inline
  | header
  | implied
  | dotted
  deriving DecidableEq, Repr

/-- A value of a document. A time is kept as it is written; of floating point
numbers and truth values it is only known that they are such. -/
inductive Item
  | text (s : String)
  | integer (n : Int)
  | float
  | bool
  | time (s : String)
  | array (items : List Item)
  /-- Tables begun by headers of one name, the latest first. -/
  | tables (ts : List (List (String × Item)))
  | table (origin : Origin) (entries : List (String × Item))

namespace Item

/-- The entries of a table. -/
abbrev Entries := List (String × Item)

/-- The value at a key. -/
def find? (es : Entries) (k : String) : Option Item :=
  (es.find? (·.1 == k)).map (·.2)

/-- A value at a key, in the place of the one that is there. -/
def set (es : Entries) (k : String) (v : Item) : Entries :=
  if es.any (·.1 == k) then es.map fun e => if e.1 == k then (k, v) else e
  else es ++ [(k, v)]

/-- A value put at a key with the parts `path`, which must be new. `open'` says
whether the table takes values itself; tables on the way do so only if keys made
them. -/
def put? (open' : Bool) (es : Entries) (path : List String) (v : Item) : Option Entries :=
  match path with
  | [] => none
  | [k] => if open' && (find? es k).isNone then some (es ++ [(k, v)]) else none
  | k :: path =>
    match find? es k with
    | none => (put? true [] path v).map fun inner => es ++ [(k, .table .dotted inner)]
    | some (.table .dotted inner) =>
      (put? true inner path v).map fun inner => set es k (.table .dotted inner)
    | some (.table .implied inner) =>
      (put? false inner path v).map fun inner => set es k (.table .implied inner)
    | some (.tables (latest :: ts)) =>
      (put? false latest path v).map fun latest => set es k (.tables (latest :: ts))
    | some _ => none

/-- The table that the parts of a header lead to, changed by `f`. Tables that are
missing on the way come to be; of several of one name the latest is meant. -/
def within? (es : Entries) (path : List String) (f : Entries → Option Entries) :
    Option Entries :=
  match path with
  | [] => f es
  | k :: path =>
    match find? es k with
    | none => (within? [] path f).map fun inner => es ++ [(k, .table .implied inner)]
    | some (.table .inline _) => none
    | some (.table origin inner) =>
      (within? inner path f).map fun inner => set es k (.table origin inner)
    | some (.tables (latest :: ts)) =>
      (within? latest path f).map fun latest => set es k (.tables (latest :: ts))
    | some _ => none

/-- A table begun by a header; it must be new, or only implied so far. -/
def openTable? (k : String) (es : Entries) : Option Entries :=
  match find? es k with
  | none => some (es ++ [(k, .table .header [])])
  | some (.table .implied inner) => some (set es k (.table .header inner))
  | some _ => none

/-- One more of several tables of one name begun by a header. -/
def openElement? (k : String) (es : Entries) : Option Entries :=
  match find? es k with
  | none => some (es ++ [(k, .tables [[]])])
  | some (.tables ts) => some (set es k (.tables ([] :: ts)))
  | some _ => none

end Item

end TableMapper.Toml
