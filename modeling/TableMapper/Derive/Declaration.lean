import TableMapper.Derive.TypeShape
import TableMapper.Derive.Lexeme

/-!
# Declarations of types

A declaration is read from its tokens, of which none may be left over.  Of its
attributes those named `orm` are kept, unread.

* `Declaration` — a declared type, with its parameters and its body;
* `Declaration.read?` — the declaration in a text;
* `Declaration.implParams`, `Declaration.typeParams`, `Declaration.whereClause` — what
  an implementation for the type repeats of its parameters.
-/

namespace TableMapper.Derive

/-- An attribute named `orm`. -/
inductive OrmAttribute
  | bare
  | valued
  | list (tokens : List Token)

/-- A field that has a name. -/
structure DeclaredField where
  attributes : List OrmAttribute
  name : String
  type : List Token

/-- A parameter of a declared type: its name, the parameter as declared but without a
default, and whether a comma follows it. -/
structure TypeParam where
  isLifetime : Bool
  name : Token
  declared : List Token
  comma : Bool

/-- What a declared type consists of. -/
inductive Body
  | named (fields : List DeclaredField)
  | unnamed
  | variants

/-- A declared type. -/
structure Declaration where
  attributes : List OrmAttribute
  name : String
  params : List TypeParam
  predicates : List Token
  body : Body

/-- The attributes that tokens begin with, those named `orm` in order. -/
def ormAttributes : List Token → List OrmAttribute
  | .mark '#' _ :: .group .square inner :: ts =>
    let rest := ormAttributes ts
    match inner with
    | [.ident "orm"] => .bare :: rest
    | .ident "orm" :: .group _ tokens :: _ => .list tokens :: rest
    | .ident "orm" :: .mark '=' _ :: _ => .valued :: rest
    | _ => rest
  | _ => []

/-- Who may see a declaration or a field; brackets that say nothing about it are left. -/
def visibility : Shape := fun ts =>
  match ts with
  | .ident "pub" :: .group .round inner :: rest =>
    match inner with
    | [.ident w] => if ["crate", "self", "super"].contains w then some rest else some (ts.drop 1)
    | .ident "in" :: path =>
      (Shape.andThen Shape.modulePath Shape.done path).map fun _ => rest
    | _ => some (ts.drop 1)
  | .ident "pub" :: rest => some rest
  | _ => some ts

/-- A word, and the tokens behind it. -/
def wordAnd? : List Token → Option (String × List Token)
  | .ident w :: ts => some (w, ts)
  | _ => none

/-- A field that has a name, and the tokens behind it. -/
def field? (ts : List Token) : Option (DeclaredField × List Token) := do
  let r ← Shape.outerAttributes ts
  let r ← visibility r
  let behindName ← Shape.choose (Shape.word "_") Shape.anyWord Shape.name r
  let (name, _) ← wordAnd? r
  let r ← Shape.mark ':' behindName
  let rest ← Shape.type r
  return (⟨ormAttributes ts, name, taken r rest⟩, rest)

/-- The fields of a type, to the end of the tokens. The number bounds how many there
can be. -/
def fieldsUpTo : Nat → List Token → Option (List DeclaredField)
  | 0, _ => none
  | n + 1, ts =>
    if ts.isEmpty then some []
    else do
      let (f, r) ← field? ts
      if r.isEmpty then return [f]
      let fs ← (Shape.mark ',' r).bind (fieldsUpTo n)
      return f :: fs

/-- The fields of a type, to the end of the tokens. -/
def fields? (ts : List Token) : Option (List DeclaredField) :=
  fieldsUpTo (ts.length + 1) ts

/-- Where the bounds of a parameter end. -/
def endsParam (ts : List Token) : Bool :=
  (Shape.mark ',').starts ts || (Shape.mark '>').starts ts || (Shape.mark '=').starts ts

/-- The parameter that is read from `ts` up to `rest`, of which `declared` is the end
of what is repeated; bounds announced by a colon but not given are not repeated. -/
def param (isLifetime : Bool) (name : Token) (ts declared : List Token) : TypeParam :=
  let repeated := taken ts declared
  let repeated := match repeated.getLast? with
    | some (.mark ':' _) => repeated.dropLast
    | _ => repeated
  ⟨isLifetime, name, repeated, false⟩

/-- A parameter, and the tokens behind it. -/
def param? (ts : List Token) : Option (TypeParam × List Token) := do
  let r ← Shape.outerAttributes ts
  match r with
  | .lifetime name :: _ =>
    let rest ← Shape.lifetimeParam r
    return (param true (.lifetime name) ts rest, rest)
  | .ident "const" :: r =>
    let (name, _) ← wordAnd? r
    let declared ← (Shape.andThen Shape.name <| Shape.andThen (Shape.mark ':') Shape.type) r
    let value := Shape.choose Shape.constant Shape.constant <|
      Shape.choose Shape.name Shape.name Shape.anyCurly
    let rest ← match Shape.mark '=' declared with
      | some r => value r
      | none => some declared
    return (param false (.ident name) ts declared, rest)
  | .ident "_" :: rest => return (param false (.ident "_") ts rest, rest)
  | .ident name :: _ =>
    let r ← Shape.name r
    let declared ← match Shape.mark ':' r with
      | some r => Shape.list Shape.bound '+' endsParam r
      | none => some r
    let rest ← match Shape.mark '=' declared with
      | some r => Shape.type r
      | none => some declared
    return (param false (.ident name) ts declared, rest)
  | _ => none

/-- The parameters between angles, behind the first, and the tokens behind the other.
The number bounds how many there can be. -/
def paramsUpTo : Nat → List Token → Option (List TypeParam × List Token)
  | 0, _ => none
  | n + 1, ts =>
    match Shape.mark '>' ts with
    | some rest => some ([], rest)
    | none => do
      let (p, r) ← param? ts
      match Shape.mark '>' r with
      | some rest => return ([p], rest)
      | none =>
        let (ps, rest) ← (Shape.mark ',' r).bind (paramsUpTo n)
        return (⟨p.isLifetime, p.name, p.declared, true⟩ :: ps, rest)

/-- The parameters of a type, and the tokens behind them. -/
def params? (ts : List Token) : Option (List TypeParam × List Token) :=
  match Shape.mark '<' ts with
  | some r => paramsUpTo (r.length + 1) r
  | none => some ([], ts)

/-- Where predicates, or the bounds of one, end. -/
def endsPredicates (ts : List Token) : Bool :=
  ts.isEmpty || Shape.anyCurly.starts ts || (Shape.mark ',').starts ts ||
    (Shape.mark ';').starts ts || Shape.colon.starts ts || (Shape.mark '=').starts ts

/-- A predicate on the parameters of a type. -/
def predicate : Shape := fun ts =>
  if (Shape.andThen Shape.lifetime (Shape.mark ':')).starts ts then
    (Shape.andThen Shape.lifetime <| Shape.andThen (Shape.mark ':') <|
      Shape.list Shape.lifetime '+' endsPredicates) ts
  else
    (Shape.andThen (Shape.choose (Shape.word "for") Shape.binder Shape.empty) <|
      Shape.andThen Shape.type <| Shape.andThen (Shape.mark ':') <|
        Shape.list Shape.bound '+' endsPredicates) ts

/-- The predicates on the parameters of a type, and the tokens behind them. -/
def predicates? (ts : List Token) : Option (List Token × List Token) :=
  match Shape.word "where" ts with
  | some r => (Shape.list predicate ',' endsPredicates r).map fun rest => (taken r rest, rest)
  | none => some ([], ts)

/-- A field without a name, or a variant, of which the fields are not looked at. -/
def unnamedField : Shape :=
  Shape.andThen Shape.outerAttributes (Shape.andThen visibility Shape.type)

/-- The fields of a variant, or none. -/
def variantBody : Shape := fun ts =>
  match ts with
  | .group .round inner :: rest =>
    ((Shape.commaList unnamedField inner).bind Shape.done).map fun _ => rest
  | .group .curly inner :: rest => (fields? inner).map fun _ => rest
  | _ => some ts

/-- A variant of a type. -/
def variant : Shape :=
  Shape.andThen Shape.outerAttributes <| Shape.andThen visibility <| Shape.andThen Shape.name <|
    Shape.andThen variantBody fun ts =>
      match Shape.mark '=' ts with
      | some r =>
        let value := r.takeWhile fun t => !(Shape.mark ',').starts [t]
        if value.isEmpty then none else some (r.drop value.length)
      | none => some ts

/-- The body of a type without its name and parameters, and the predicates. -/
def structBody? (ts : List Token) : Option (List Token × Body) :=
  match ts with
  | .group .round inner :: rest => do
    let _ ← (Shape.commaList unnamedField inner).bind Shape.done
    let (predicates, rest) ← predicates? rest
    let _ ← (Shape.mark ';' rest).bind Shape.done
    return (predicates, .unnamed)
  | _ => do
    let (predicates, rest) ← predicates? ts
    match rest with
    | [.group .curly inner] => return (predicates, .named (← fields? inner))
    | [.mark ';' _] => return (predicates, .unnamed)
    | _ => none

/-- The body of a type that is a choice, and the predicates. -/
def choiceBody? (inner? : List Token → Bool) (ts : List Token) : Option (List Token × Body) := do
  let (predicates, rest) ← predicates? ts
  match rest with
  | [.group .curly inner] => if inner? inner then return (predicates, .variants) else none
  | _ => none

/-- The declaration that tokens are. -/
def Declaration.ofTokens? (ts : List Token) : Option Declaration := do
  let r ← Shape.outerAttributes ts
  let r ← visibility r
  let (kind, r) ← wordAnd? r
  let behindName ← Shape.name r
  let (name, _) ← wordAnd? r
  let (params, r) ← params? behindName
  let (predicates, body) ←
    if kind = "struct" then structBody? r
    else if kind = "enum" then
      choiceBody? (fun inner => ((Shape.commaList variant inner).bind Shape.done).isSome) r
    else if kind = "union" then choiceBody? (fun inner => (fields? inner).isSome) r
    else none
  return ⟨ormAttributes ts, name, params, predicates, body⟩

/-- The declaration in a text. -/
def Declaration.read? (s : String) : Option Declaration :=
  (Token.readAll? s).bind Declaration.ofTokens?

/-- Parameters between angles, lifetimes first, each shown by `shown`. -/
def angled (shown : TypeParam → List Token) (params : List TypeParam) : List Token :=
  let comma : Token := .mark ',' false
  let one (p : TypeParam) : List Token := shown p ++ if p.comma then [comma] else []
  let lifetimes := params.filter (·.isLifetime)
  let others := params.filter (!·.isLifetime)
  let between :=
    if lifetimes.getLast?.any (!·.comma) && !others.isEmpty then [comma] else []
  if params.isEmpty then []
  else [.mark '<' false] ++ lifetimes.flatMap one ++ between ++ others.flatMap one ++
    [.mark '>' false]

/-- The parameters as an implementation declares them. -/
def Declaration.implParams (d : Declaration) : List Token :=
  angled (·.declared) d.params

/-- The parameters as arguments of the type. -/
def Declaration.typeParams (d : Declaration) : List Token :=
  angled (fun p => [p.name]) d.params

/-- The predicates on the parameters. -/
def Declaration.whereClause (d : Declaration) : List Token :=
  if d.predicates.isEmpty then [] else .ident "where" :: d.predicates

end TableMapper.Derive
