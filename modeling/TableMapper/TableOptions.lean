import TableMapper.Dict
import TableMapper.Error

/-!
# Table options

What is said about a table beside its columns: its name, its keys, the
parameters it is created with.  A record type has options, and each call may
lay others over them.

* `TableOptions.merge` — options laid over others;
* `TableOptions.settle` — names given to the keys that have none, up to the
  first key that is no key;
* `TableOptions.check` — settled options, or the reason why there are none.
-/

namespace TableMapper

/-- The two kinds of declared keys. -/
inductive KeyKind
  | index
  | unique
  deriving DecidableEq, Repr

/-- The kind as error messages write it. -/
def KeyKind.label : KeyKind → String
  | .index => "Index"
  | .unique => "Unique"

/-- How the names of unnamed keys of a kind begin. -/
def KeyKind.nameStart : KeyKind → String
  | .index => "index_"
  | .unique => "uniq_"

/-- A declared key: its name, empty if it has none yet, and its columns. -/
structure Key where
  name : String
  columns : List String
  deriving DecidableEq, Repr

/-- A key with a name: its own, or one made of the columns'. A key without
columns is none. -/
def Key.settle (kind : KeyKind) (k : Key) : Except Error Key :=
  if k.columns.isEmpty then
    .error (.invalidIndex (kind.label ++ " '" ++ k.name ++ "' has no fields"))
  else if k.name.isEmpty then
    .ok { k with name := kind.nameStart ++ "_".intercalate k.columns }
  else .ok k

/-- Keys with names, up to the first that is no key. -/
def Key.settleAll (kind : KeyKind) : List Key → List Key × Option Error
  | [] => ([], none)
  | k :: ks =>
    match k.settle kind with
    | .error e => (k :: ks, some e)
    | .ok k =>
      let (ks, error) := Key.settleAll kind ks
      (k :: ks, error)

/-- What is said about a table beside its columns. An empty table name means
that none is given. -/
structure TableOptions where
  tableName : String := ""
  description : String := ""
  indexes : List Key := []
  uniques : List Key := []
  /-- What the table is created with, by keyword in capitals. -/
  params : Dict String := .empty
  dryRun : Bool := false
  deriving DecidableEq, Repr

namespace TableOptions

/-- Options with one more parameter; blanks around the keyword and its case do
not count. -/
def param (o : TableOptions) (key value : String) : TableOptions :=
  { o with params := o.params.insert (Text.upper (Text.trim key)) value }

/-- `p` laid over `o`: what it gives replaces what `o` gives, a parameter by
its keyword, and a dry run stays one. -/
def merge (o p : TableOptions) : TableOptions where
  tableName := if p.tableName.isEmpty then o.tableName else p.tableName
  description := if p.description.isEmpty then o.description else p.description
  indexes := if p.indexes.isEmpty then o.indexes else p.indexes
  uniques := if p.uniques.isEmpty then o.uniques else p.uniques
  params := o.params.overlay p.params
  dryRun := o.dryRun || p.dryRun

/-- Options with names for their keys, and what is wrong with them. Names given
before a fault stay. -/
def settle (o : TableOptions) : TableOptions × Option Error :=
  if o.tableName.isEmpty then (o, some .missingTableName)
  else
    match Key.settleAll .index o.indexes with
    | (indexes, some e) => ({ o with indexes }, some e)
    | (indexes, none) =>
      let (uniques, error) := Key.settleAll .unique o.uniques
      ({ o with indexes, uniques }, error)

/-- Settled options, if nothing is wrong with them. -/
def check (o : TableOptions) : Except Error TableOptions :=
  match o.settle with
  | (settled, none) => .ok settled
  | (_, some e) => .error e

end TableOptions

end TableMapper
