import TableMapper.Derive.Shape

/-!
# The shapes of types

Types, bounds and paths.  They are nested in each other, so the shapes of this
module take a number that bounds the depth of the nesting; the wrappers at the end
choose one that no sequence of the size can exceed.

* `Shape.type`, `Shape.bound` — a type, and a bound on one;
* `Shape.modulePath`, `Shape.outerAttribute` — a path without arguments, an attribute.
-/

namespace TableMapper.Derive

mutual

/-- The number of tokens in a token. -/
def Token.size : Token → Nat
  | .group _ inner => Token.sizeAll inner + 1
  | _ => 1

/-- The number of tokens in a sequence, those in brackets too. -/
def Token.sizeAll : List Token → Nat
  | [] => 0
  | t :: ts => t.size + Token.sizeAll ts

end

namespace Shape

/-- A name or a word that begins a path. -/
def pathName : Shape :=
  choose (wordOf ["super", "self", "Self", "crate"]) anyWord name

/-- A path without arguments. -/
def modulePath : Shape :=
  andThen (optional (pair ':' ':')) <| andThen pathName <|
    many (pair ':' ':') (andThen (pair ':' ':') pathName)

/-- An attribute: a path, alone or with arguments in brackets or with a value. -/
def outerAttribute : Shape :=
  andThen (mark '#') <| around .square <| andThen modulePath <|
    choose anyGroup anyGroup <| choose (mark '=') (andThen (mark '=') expression) empty

/-- Attributes. -/
def outerAttributes : Shape :=
  many (mark '#') outerAttribute

/-- A colon that is not half of a pair. -/
def colon : Shape := fun ts =>
  if (pair ':' ':').starts ts then none else mark ':' ts

/-- A lifetime, with lifetimes behind a colon that it outlives. -/
def lifetimeParam : Shape :=
  andThen outerAttributes <| andThen lifetime <| choose colon
    (andThen colon <| list lifetime '+' fun ts => (mark ',').starts ts || (mark '>').starts ts)
    empty

/-- Lifetimes that a type or a bound brings in: `for` and a list between angles. -/
def binder : Shape :=
  andThen (word "for") <| andThen (mark '<') <|
    andThen (list lifetimeParam ',' (mark '>').starts) (mark '>')

/-- What a bound can begin with. -/
def boundFront : Shape := fun ts =>
  (anyWord ts).or <| (pair ':' ':' ts).or <| (mark '?' ts).or <| (lifetime ts).or <|
    anyRound ts

mutual

/-- A type. With `plus`, bounds may be added to it. -/
def typeUpTo : Nat → Bool → Shape
  | 0, _, _ => none
  | n + 1, plus, ts =>
    match ts with
    | .group .round inner :: rest => roundUpTo n plus inner rest
    | .group .square inner :: rest =>
      (andThen (typeUpTo n true)
        (choose (mark ';') (andThen (mark ';') expression) done) inner).bind fun r =>
          (done r).map fun _ => rest
    | .mark '*' _ :: rest => (wordOf ["const", "mut"] rest).bind (typeUpTo n false)
    | .mark '&' _ :: rest =>
      (andThen (optional lifetime) (optional (word "mut")) rest).bind (typeUpTo n false)
    | .mark '!' _ :: rest => some rest
    | .mark '<' _ :: _ => namedUpTo n plus ts
    | .mark ':' true :: _ => namedUpTo n plus ts
    | .lifetime _ :: _ => boundsUpTo n true ts
    | .ident w :: rest =>
      if w = "_" then some rest
      else if w = "dyn" then (optional (mark '*') rest).bind (boundsUpTo n plus)
      else if w = "impl" then boundsUpTo n plus rest
      else if w = "for" then
        (binder ts).bind fun r =>
          if (wordOf ["fn", "unsafe", "extern"]).starts r then functionUpTo n r
          else if pathName.starts r then
            (pathUpTo n true r).bind fun r => if plus then addedUpTo n r else some r
          else none
      else if ["fn", "unsafe", "extern"].contains w then functionUpTo n ts
      else if pathName.starts ts then namedUpTo n plus ts
      else none
    | _ => none

/-- A type between round brackets, several of them, or a bound. -/
def roundUpTo : Nat → Bool → List Token → Shape
  | 0, _, _, _ => none
  | n + 1, plus, inner, rest =>
    let furtherBounds (ts : List Token) : Option (List Token) :=
      match mark '+' ts with
      | some r => list (boundUpTo n) '+' (fun _ => false) r
      | none => some ts
    if inner.isEmpty then some rest
    else if lifetime.starts inner then
      ((boundsUpTo n true inner).bind done).map fun _ => rest
    else if (mark '?').starts inner then
      ((boundUpTo n inner).bind done).bind fun _ => furtherBounds rest
    else
      (typeUpTo n true inner).bind fun r =>
        match mark ',' r with
        | some r => ((commaList (typeUpTo n true) r).bind done).map fun _ => rest
        | none =>
          (done r).bind fun _ =>
            if plus && pathName.starts inner then furtherBounds rest else some rest

/-- A type that begins with a path: the path, a macro, or a sum of bounds. -/
def namedUpTo : Nat → Bool → Shape
  | 0, _, _ => none
  | n + 1, plus, ts =>
    (pathUpTo n true ts).bind fun r =>
      if (mark '<').starts ts then some r
      else if (mark '!').starts r && !(pair '!' '=').starts r &&
          (modulePath ts).map List.length = some r.length then
        (mark '!' r).bind anyGroup
      else if plus then addedUpTo n r
      else some r

/-- A function's type. -/
def functionUpTo : Nat → Shape
  | 0, _ => none
  | n + 1, ts =>
    let named : Shape := choose (andThen (choose (word "_") anyWord pathName) colon)
      (andThen anyWord colon) empty
    let dots : Shape := andThen (pair '.' '.') (mark '.')
    let argument : Shape := andThen outerAttributes <| andThen named <|
      choose dots (andThen dots (andThen (optional (mark ',')) done)) (typeUpTo n true)
    (andThen (optional (word "unsafe")) <|
      andThen (choose (word "extern") (andThen (word "extern") (optional string)) empty) <|
      andThen (word "fn") <| around .round (commaList argument)) ts |>.bind (resultUpTo n)

/-- What a function gives, if it says so. -/
def resultUpTo : Nat → Shape
  | 0, _ => none
  | n + 1, ts =>
    match pair '-' '>' ts with
    | some r => typeUpTo n false r
    | none => some ts

/-- Bounds of which one at least is no lifetime. -/
def boundsUpTo : Nat → Bool → Shape
  | 0, _, _ => none
  | n + 1, plus, ts =>
    (boundUpTo n ts).bind fun r =>
      (if plus then addedUpTo n r else some r).bind fun r =>
        let isLifetime : Token → Bool
          | .lifetime _ => true
          | .mark _ _ => true
          | _ => false
        if (taken ts r).all isLifetime then none else some r

/-- Bounds behind pluses; the last plus may have none behind it. -/
def addedUpTo : Nat → Shape
  | 0, _ => none
  | n + 1, ts =>
    match mark '+' ts with
    | some r => list (boundUpTo n) '+' (fun ts => !boundFront.starts ts) r
    | none => some ts

/-- A bound: a lifetime or a path, which may be in brackets. -/
def boundUpTo : Nat → Shape
  | 0, _ => none
  | n + 1, ts =>
    match ts with
    | .lifetime _ :: rest => some rest
    | .group .round inner :: rest => ((traitUpTo n inner).bind done).map fun _ => rest
    | _ => traitUpTo n ts

/-- A bound that is a path. -/
def traitUpTo : Nat → Shape
  | 0, _ => none
  | n + 1, ts =>
    let bindings : Shape := choose (word "for") binder empty
    let front : Shape := choose (mark '?') (andThen (mark '?') bindings)
      (andThen bindings (optional (mark '?')))
    (front ts).bind fun r => if (mark '<').starts r then none else pathUpTo n false r

/-- A path with its arguments; one that begins with a type in angles may follow.
A path `open'` at its end goes on behind the arguments of a function. -/
def pathUpTo : Nat → Bool → Shape
  | 0, _, _ => none
  | n + 1, open', ts =>
    let start : Option (List Token) :=
      match mark '<' ts with
      | some r =>
        (typeUpTo n true r).bind fun r =>
          ((match word "as" r with
            | some r => pathUpTo n false r
            | none => some r).bind (mark '>')).bind (pair ':' ':')
      | none => some ((pair ':' ':' ts).getD ts)
    start.bind (segmentsUpTo n open')

/-- The segments of a path. -/
def segmentsUpTo : Nat → Bool → Shape
  | 0, _, _ => none
  | n + 1, open', ts =>
    (segmentUpTo n ts).bind fun r =>
      let toRound : Shape := andThen (optional (pair ':' ':')) anyRound
      let bare : Bool := match (taken ts r).getLast? with
        | some (.ident _) => true
        | _ => false
      if bare && toRound.starts r then
        (around .round (commaList (typeUpTo n true)) ((pair ':' ':' r).getD r)).bind fun r =>
          (resultUpTo n r).bind fun r' =>
            if open' && !(pair '-' '>').starts r then
              match pair ':' ':' r' with
              | some r => segmentsUpTo n open' r
              | none => some r'
            else some r'
      else match pair ':' ':' r with
        | some r' => if anyRound.starts r' then some r else segmentsUpTo n open' r'
        | none => some r

/-- A segment of a path, with its arguments between angles. -/
def segmentUpTo : Nat → Shape
  | 0, _ => none
  | n + 1, ts =>
    if (wordOf ["super", "self", "crate", "try"]).starts ts then anyWord ts
    else
      (choose (word "Self") anyWord name ts).bind fun r =>
        match mark '<' ((pair ':' ':' r).getD r) with
        | some r => (list (argumentUpTo n) ',' (mark '>').starts r).bind (mark '>')
        | none => some r

/-- An argument between angles: a lifetime, a constant, a type, or what a named type
of the path is or is bound by. -/
def argumentUpTo : Nat → Shape
  | 0, _ => none
  | n + 1, ts =>
    let value : Shape := choose anyCurly anyCurly (choose constant constant (typeUpTo n true))
    let isEnd (ts : List Token) : Bool := (mark ',').starts ts || (mark '>').starts ts
    if lifetime.starts ts && !(andThen lifetime (mark '+')).starts ts then lifetime ts
    else if anyCurly.starts ts || constant.starts ts then value ts
    else match segmentUpTo n ts with
      | some r =>
        if (mark '=').starts r then (mark '=' r).bind value
        else if colon.starts r then (colon r).bind (list (boundUpTo n) '+' isEnd)
        else typeUpTo n true ts
      | none => typeUpTo n true ts

end

/-- A depth at which no shape of a sequence of this size is nested. -/
def depth (ts : List Token) : Nat :=
  8 * Token.sizeAll ts + 8

/-- A type. -/
def type : Shape := fun ts =>
  typeUpTo (depth ts) true ts

/-- A bound. -/
def bound : Shape := fun ts =>
  boundUpTo (depth ts) ts

end Shape

end TableMapper.Derive
