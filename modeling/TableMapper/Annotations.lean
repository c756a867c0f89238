import TableMapper.Text.Blank

/-!
# Annotations

What is said about a column beside its storage: its type, whether it may be
null, its default, and so on.  Several of these can be given as one text, a tag
such as `type:varchar(20) null:true`.

* `Annotations.ofTag` — a tag read: parts are separated by spaces, a part is a
  key and a value around its first colon, and what cannot be read is passed
  over;
* `Annotations.set` — one more thing said about a column; a tag takes the place of
  all that was said before.
-/

namespace TableMapper

/-- What is said about a column beside its storage. -/
structure Annotations where
  sqlType : Option String := none
  nullable : Option Bool := none
  default : Option String := none
  increment : Bool := false
  onUpdate : Option String := none
  comment : Option String := none
  deriving DecidableEq, Repr

namespace Annotations

/-- A space or a tab. -/
def isSpaceOrTab (c : Char) : Bool :=
  c = ' ' || c = '\t'

/-- The key and the value of a part, trimmed of spaces and tabs; `none` for a
part without a colon. -/
def keyValue? (part : List Char) : Option (String × String) :=
  if part.contains ':' then
    let key := part.takeWhile (· != ':')
    let value := part.drop (key.length + 1)
    some (.ofList (Text.stripBoth isSpaceOrTab key), .ofList (Text.stripBoth isSpaceOrTab value))
  else none

/-- A flag is `true` or `1`, or `false` or `0`. -/
def flag? (value : String) : Option Bool :=
  if value = "true" || value = "1" then some true
  else if value = "false" || value = "0" then some false
  else none

/-- The annotations after one more part of a tag. A text must not be empty; an
unreadable flag takes back what an earlier part said. -/
def addPart (a : Annotations) (part : List Char) : Annotations :=
  match keyValue? part with
  | none => a
  | some (key, value) =>
    if key = "type" then
      if value.isEmpty then a else { a with sqlType := some value }
    else if key = "null" then { a with nullable := flag? value }
    else if key = "default" then
      if value.isEmpty then a else { a with default := some value }
    else if key = "increment" then { a with increment := (flag? value).getD false }
    else if key = "onupdate" then
      if value.isEmpty then a else { a with onUpdate := some value }
    else a

/-- The annotations that a tag gives. -/
def ofTag (tag : String) : Annotations :=
  (Text.cut ' ' tag.toList).foldl addPart {}

/-- One thing that is said about a column. -/
inductive Setting
  | tag (text : String)
  | sqlType (text : String)
  | nullable (b : Bool)
  | default (text : String)
  | increment
  | onUpdate (text : String)
  | comment (text : String)
  deriving DecidableEq, Repr

/-- The annotations after one more setting. -/
def set (a : Annotations) : Setting → Annotations
  | .tag text => ofTag text
  | .sqlType text => { a with sqlType := some text }
  | .nullable b => { a with nullable := some b }
  | .default text => { a with default := some text }
  | .increment => { a with increment := true }
  | .onUpdate text => { a with onUpdate := some text }
  | .comment text => { a with comment := some text }

/-- The annotations that settings give, one after another. -/
def ofSettings (settings : List Setting) : Annotations :=
  settings.foldl set {}

end Annotations

end TableMapper
