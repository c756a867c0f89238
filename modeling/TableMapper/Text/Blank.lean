/-!
# Blanks

Which characters count as blank, and what the library does with them: it
trims texts, splits them into words, and folds the case of ASCII letters
while leaving every other character alone.

* `isBlank` — the Unicode property `White_Space`, which every trim in the
  library goes by;
* `trim`, `words` — a text without its outer blanks, and its blank-free runs;
* `cut` — the pieces of a text between the places of one character;
* `lower`, `upper` — ASCII case only, so that a folded text has the same
  number of characters, and of bytes, as the text it came from.
-/

namespace TableMapper.Text

/-- A character with the Unicode property `White_Space`. -/
def isBlank (c : Char) : Bool :=
  let n := c.toNat
  (9 ≤ n && n ≤ 13) || n == 0x20 || n == 0x85 || n == 0xA0 || n == 0x1680 ||
    (0x2000 ≤ n && n ≤ 0x200A) || n == 0x2028 || n == 0x2029 || n == 0x202F ||
    n == 0x205F || n == 0x3000

/-- `cs` without the characters satisfying `p` at either end. -/
def stripBoth (p : Char → Bool) (cs : List Char) : List Char :=
  ((cs.dropWhile p).reverse.dropWhile p).reverse

/-- `cs` without its leading and trailing blanks. -/
def trimChars (cs : List Char) : List Char :=
  stripBoth isBlank cs

/-- `s` without its leading and trailing blanks. -/
def trim (s : String) : String :=
  .ofList (trimChars s.toList)

/-- The maximal runs of non-blank characters, in order. -/
def words : List Char → List (List Char)
  | [] => []
  | c :: cs =>
    if isBlank c then words cs
    else if cs.head?.all isBlank then [c] :: words cs
    else match words cs with
      | w :: ws => (c :: w) :: ws
      | [] => [[c]]

/-- The words of `s` with single spaces between them. -/
def collapse (s : String) : String :=
  " ".intercalate ((words s.toList).map .ofList)

/-- The pieces of a text between the characters `c`, one more than there are of
them. -/
def cut (c : Char) : List Char → List (List Char)
  | [] => [[]]
  | d :: cs =>
    if d = c then [] :: cut c cs
    else match cut c cs with
      | p :: ps => (d :: p) :: ps
      | [] => [[d]]

/-- `s` with its ASCII capitals made small. -/
def lower (s : String) : String :=
  s.map Char.toLower

/-- `s` with its ASCII small letters made capital. -/
def upper (s : String) : String :=
  s.map Char.toUpper

/-- The characters after the first place where `needle` occurs once both
sides are folded by `fold`; the characters returned are not folded. -/
def after? (fold : Char → Char) (needle : List Char) : List Char → Option (List Char)
  | [] => if needle.isEmpty then some [] else none
  | c :: cs =>
    if needle.isPrefixOf ((c :: cs).map fold) then some ((c :: cs).drop needle.length)
    else after? fold needle cs

/-- Whether `needle` occurs in `s`. -/
def occurs (needle : String) (s : String) : Bool :=
  (after? id needle.toList s.toList).isSome

/-- Whether `s` begins with `start`. -/
def startsWith (s start : String) : Bool :=
  start.toList.isPrefixOf s.toList

end TableMapper.Text
