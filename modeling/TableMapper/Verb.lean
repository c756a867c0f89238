/-!
# Verbs and the arguments they take

A statement is called with a list of arguments of six kinds; each verb takes
some of them.  Table options go with every verb.
-/

namespace TableMapper

/-- The kinds of argument. -/
inductive ArgumentKind
  | options
  | limit
  | offset
  | condition
  | order
  | forUpdate
  deriving DecidableEq, Repr

/-- The kind as error messages write it. -/
def ArgumentKind.name : ArgumentKind → String
  | .options => "options"
  | .limit => "limit"
  | .offset => "offset"
  | .condition => "condition"
  | .order => "order"
  | .forUpdate => "for update"

/-- A group of statements that take the same arguments: the name that error
messages give it, and which kinds it takes beside options. -/
structure Verb where
  name : String
  limit : Bool := false
  offset : Bool := false
  condition : Bool := false
  order : Bool := false
  forUpdate : Bool := false
  deriving DecidableEq, Repr

namespace Verb

def select : Verb where
  name := "SELECT"
  limit := true
  offset := true
  condition := true
  order := true
  forUpdate := true

def update : Verb where
  name := "UPDATE"
  limit := true
  condition := true
  order := true

def delete : Verb where
  name := "DELETE"
  limit := true
  condition := true
  order := true

def insert : Verb where
  name := "INSERT"

def upsert : Verb where
  name := "UPSERT"
  condition := true

/-- Whether a verb takes a kind of argument. -/
def accepts (v : Verb) : ArgumentKind → Bool
  | .options => true
  | .limit => v.limit
  | .offset => v.offset
  | .condition => v.condition
  | .order => v.order
  | .forUpdate => v.forUpdate

end Verb

end TableMapper
