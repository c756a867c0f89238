import TableMapper.Connect.Address
import TableMapper.Dict
import TableMapper.Error
import TableMapper.Toml.Document

/-!
# Connection parameters

What is needed to connect to a database.

* `ConnectParams.ofToml` — parameters from a TOML document;
* `ConnectParams.effective` — the parameters of the query, defaults included;
* `ConnectParams.address` — the address to connect to.
-/

namespace TableMapper

open Connect Toml

/-- What is needed to connect to a database. -/
structure ConnectParams where
  host : String := "localhost"
  port : UInt16 := 3306
  user : String := ""
  password : String := ""
  database : String := ""
  params : Dict String := .empty
  deriving DecidableEq, Repr

namespace ConnectParams

/-- The text at a key, or `default` where there is none. -/
def textAt? (es : Item.Entries) (k default : String) : Option String :=
  match Item.find? es k with
  | none => some default
  | some (.text s) => some s
  | some _ => none

/-- The port at a key, or the usual one where there is none. -/
def portAt? (es : Item.Entries) (k : String) : Option UInt16 :=
  match Item.find? es k with
  | none => some 3306
  | some (.integer n) => if 0 ≤ n ∧ n < twoTo 16 then some (UInt16.ofNat n.toNat) else none
  | some _ => none

/-- A name with a text. -/
def pair? (e : String × Item) : Option (String × String) :=
  match e.2 with
  | .text s => some (e.1, s)
  | _ => none

/-- The texts of the table at a key. A time counts as a table with one entry. -/
def textsAt? (es : Item.Entries) (k : String) : Option (Dict String) :=
  match Item.find? es k with
  | none => some .empty
  | some (.table _ inner) => (inner.mapM pair?).map .ofList
  | some (.time s) => some (.ofList [("$__toml_private_datetime", s)])
  | some _ => none

/-- Parameters from a TOML document. What it does not give has its default, what
it gives beyond them does not count. -/
def ofToml (s : String) : Option ConnectParams := do
  let es ← Document.read? s
  return {
    host := ← textAt? es "host" "localhost"
    port := ← portAt? es "port"
    user := ← textAt? es "user" ""
    password := ← textAt? es "password" ""
    database := ← textAt? es "database" ""
    params := ← textsAt? es "params" }

/-- The parameters of the query, defaults included. -/
def effective (p : ConnectParams) : Dict String :=
  (Dict.ofList [("charset", "utf8mb4"), ("parseTime", "true")]).overlay p.params

/-- The address to connect to. An empty host and the port zero stand for the usual
ones; a database is required. -/
def address (p : ConnectParams) : Except Error Address := do
  if p.database.isEmpty then throw (.config "database name required")
  let host := if p.host.isEmpty then "localhost" else p.host
  let port := if p.port = 0 then 3306 else p.port
  let a ← (Address.read? (host ++ ":" ++ toString port.toNat).toList).mapError
    fun e => .config e.message
  if !p.user.isEmpty && !a.hasHost then throw (.config ("invalid user name '" ++ p.user ++ "'"))
  if !p.password.isEmpty && !a.hasHost then throw (.config "invalid password")
  let a := if p.user.isEmpty then a
    else { a with user := percentEncode inUserInfo p.user.toList }
  let a := if p.password.isEmpty then a
    else { a with password := some (percentEncode inUserInfo p.password.toList) }
  return (a.pushSegment p.database).addPairs p.effective.entries

end ConnectParams

end TableMapper
