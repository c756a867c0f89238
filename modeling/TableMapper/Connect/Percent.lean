/-!
# Percent encoding

An address has parts in which some characters mean something.  Where such a
character stands for itself, the bytes of its UTF-8 form are written as a percent
sign and two hexadecimal digits.

* `percentEncode` — a text with the characters of a class encoded, and always
  control characters and those outside ASCII;
* `inFragment`, `inPath`, `inSegment`, `inUserInfo`, `inQuery` — the classes of the
  parts of an address;
* `formEncode` — the encoding of names and values in a query.
-/

namespace TableMapper.Connect

/-- A hexadecimal digit, in capitals. -/
def hexDigit (n : Nat) : Char :=
  if n < 10 then Char.ofNat ('0'.toNat + n) else Char.ofNat ('A'.toNat + (n - 10))

/-- The bytes of a character's UTF-8 form, encoded. -/
def encodeChar (c : Char) : List Char :=
  (String.utf8EncodeChar c).flatMap fun b =>
    ['%', hexDigit (b.toNat / 16), hexDigit (b.toNat % 16)]

/-- A control character, or one outside ASCII. -/
def isControl (c : Char) : Bool :=
  c.toNat < 0x20 || 0x7F ≤ c.toNat

/-- `cs` with the characters in `special` encoded, and all that are controls. -/
def percentEncode (special : Char → Bool) (cs : List Char) : List Char :=
  cs.flatMap fun c => if isControl c || special c then encodeChar c else [c]

/-- Encoded in the part behind `#`. -/
def inFragment (c : Char) : Bool :=
  c = ' ' || c = '\x22' || c = '<' || c = '>' || c = '\x60'

/-- Encoded in a path. -/
def inPath (c : Char) : Bool :=
  inFragment c || c = '#' || c = '?' || c = '{' || c = '}'

/-- Encoded in a segment that is added to a path. -/
def inSegment (c : Char) : Bool :=
  inPath c || c = '/' || c = '%'

/-- Encoded in a user name or a password. -/
def inUserInfo (c : Char) : Bool :=
  inPath c || c = '/' || c = ':' || c = ';' || c = '=' || c = '@' || c = '[' || c = '\\' ||
    c = ']' || c = '^' || c = '|'

/-- Encoded in a query that is given as a whole. -/
def inQuery (c : Char) : Bool :=
  c = ' ' || c = '\x22' || c = '#' || c = '<' || c = '>'

/-- A name or a value in a query: letters, digits and four more characters stay,
a space becomes a plus sign. -/
def formEncode (cs : List Char) : List Char :=
  cs.flatMap fun c =>
    if c.isAlphanum || c = '*' || c = '-' || c = '.' || c = '_' then [c]
    else if c = ' ' then ['+']
    else encodeChar c

end TableMapper.Connect
