import TableMapper.Reconcile.Change

/-!
# Settings

What a facade can be told: whether it brings a table in line before the first
write to it, with what new tables are made, how often it polls the database, and
how much of a statement it logs.

* `Settings.shown` — as much of a statement as is logged.
-/

namespace TableMapper

/-- What a facade can be told. -/
structure Settings where
  autoCreate : Bool := false
  /-- Milliseconds between two polls. -/
  pollInterval : Nat := 10000
  defaults : TableDefaults := {}
  /-- How many bytes of a statement are logged; `none` for all. -/
  maxLogged : Option Nat := some 200
  deriving DecidableEq, Repr

/-- The longest beginning of a text that has at most `limit` bytes. -/
def fitting : Nat → List Char → List Char
  | _, [] => []
  | limit, c :: cs =>
    if c.utf8Size ≤ limit then c :: fitting (limit - c.utf8Size) cs else []

/-- A statement as it is logged: whole, or cut off and with three dots. -/
def Settings.shown (s : Settings) (sql : String) : String :=
  match s.maxLogged with
  | none => sql
  | some limit =>
    if sql.utf8ByteSize ≤ limit then sql
    else .ofList (fitting limit sql.toList) ++ "..."

end TableMapper
