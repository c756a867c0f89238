import TableMapper.Connect.Host

/-!
# Addresses

The address of a database: who connects, to which host and port, and a path, a
query and a fragment.

* `Address.read?` — an address from the text behind `mysql://`;
* `Address.pushSegment`, `Address.addPairs` — a segment added to the path, and
  names with values to the query;
* `Address.text` — the address.
-/

namespace TableMapper.Connect

/-- The address of a database; every part is encoded. -/
structure Address where
  user : List Char := []
  password : Option (List Char) := none
  host : Host
  port : Option Nat := none
  path : List Char := []
  query : Option (List Char) := none
  fragment : Option (List Char) := none
  deriving DecidableEq, Repr

namespace Address

/-- User name and password with an at sign behind them, if there is either. -/
def credentials (a : Address) : List Char :=
  match a.password with
  | some p => a.user ++ ':' :: p ++ ['@']
  | none => if a.user.isEmpty then [] else a.user ++ ['@']

/-- A part with its mark in front, if it is there. -/
def marked (mark : Char) : Option (List Char) → List Char
  | some part => mark :: part
  | none => []

/-- The address. -/
def text (a : Address) : String :=
  "mysql://" ++ .ofList (a.credentials ++ a.host.text ++
    marked ':' (a.port.map (Nat.toDigits 10)) ++ a.path ++ marked '?' a.query ++
    marked '#' a.fragment)

/-- A character at which the host with its port ends. -/
def endsAuthority (c : Char) : Bool :=
  c = '/' || c = '?' || c = '#'

/-- The text in front of the last at sign, and behind it. -/
def atLastSign? (cs : List Char) : Option (List Char × List Char) :=
  if cs.contains '@' then
    let back := (cs.reverse.takeWhile (· ≠ '@')).reverse
    some (cs.take (cs.length - back.length - 1), back)
  else none

/-- User name and password, at the first colon; an empty password is none. -/
def readCredentials (cs : List Char) : List Char × Option (List Char) :=
  let user := cs.takeWhile (· ≠ ':')
  let password := cs.drop (user.length + 1)
  (percentEncode inUserInfo user,
    if password.isEmpty then none else some (percentEncode inUserInfo password))

/-- How much of a text is a host: up to a colon outside of square brackets. -/
def hostLength (bracketed : Bool) : List Char → Nat
  | [] => 0
  | c :: cs =>
    if endsAuthority c || (c = ':' && !bracketed) then 0
    else 1 + hostLength (if c = '[' then true else if c = ']' then false else bracketed) cs

/-- A port behind a colon, and the rest. Without digits there is none; what ends
the digits must begin another part. -/
def readPort (cs : List Char) : Except AddressError (Option Nat × List Char) :=
  let digits := cs.takeWhile Char.isDigit
  let rest := cs.drop digits.length
  if 65535 < digitsValue digits then .error .invalidPort
  else if rest.head?.all fun c => endsAuthority c || c = '\\' then
    .ok (if digits.isEmpty then none else some (digitsValue digits), rest)
  else .error .invalidPort

/-- A segment that stands for the directory it is in. -/
def isDot (segment : List Char) : Bool :=
  let s := String.ofList (segment.map Char.toLower)
  s = "." || s = "%2e"

/-- A segment that stands for the directory above. -/
def isDoubleDot (segment : List Char) : Bool :=
  let s := String.ofList (segment.map Char.toLower)
  s = ".." || s = "%2e." || s = ".%2e" || s = "%2e%2e"

/-- A path without what stands behind its last slash. -/
def toLastSlash (path : List Char) : List Char :=
  (path.reverse.dropWhile (· ≠ '/')).reverse

/-- Whether a segment begins with the letter of a drive. -/
def startsWithDrive (segment : List Char) : Bool :=
  match segment with
  | l :: c :: rest =>
    l.isAlpha && (c = ':' || c = '|') &&
      rest.head?.all fun d => d = '/' || d = '\\' || d = '?' || d = '#'
  | _ => false

/-- A path without its last segment, which a slash ends: what remains ends with
the slash in front of it. The last slash of all stays, and so does a drive. -/
def leaveDirectory (path : List Char) : List Char :=
  let shorter := path.dropLast
  let segment := (shorter.reverse.takeWhile (· ≠ '/')).reverse
  if path.getLast? = some '/' && shorter.contains '/' && !startsWithDrive (segment ++ ['/']) then
    toLastSlash shorter
  else toLastSlash path

/-- A path with a slash at its end. -/
def closed (path : List Char) : List Char :=
  if path.getLast? = some '/' then path else path ++ ['/']

/-- A path with one more segment behind it; `more` says whether a slash follows. -/
def addSegment (path segment : List Char) (more : Bool) : List Char :=
  if isDoubleDot segment then
    let path := leaveDirectory path
    if more then closed path else path
  else if isDot segment then closed path
  else if more then path ++ segment ++ ['/'] else path ++ segment

/-- A path with several segments behind it, slashes between them. -/
def addSegments (path : List Char) : List (List Char) → List Char
  | [] => path
  | [last] => addSegment path last false
  | s :: ss => addSegments (addSegment path s true) ss

/-- A path read. -/
def readPath (cs : List Char) : List Char :=
  match cs with
  | [] => []
  | c :: _ =>
    let start := if c = '/' then [] else ['/']
    addSegments start ((Text.cut '/' cs).map (percentEncode inPath))

/-- Path, query and fragment. -/
def readTail (cs : List Char) : List Char × Option (List Char) × Option (List Char) :=
  let path := cs.takeWhile fun c => c ≠ '?' && c ≠ '#'
  let rest := cs.drop path.length
  let (query, rest) := match rest with
    | '?' :: r =>
      let q := r.takeWhile (· ≠ '#')
      (some (percentEncode inQuery q), r.drop q.length)
    | r => (none, r)
  let fragment := match rest with
    | '#' :: r => some (percentEncode inFragment r)
    | _ => none
  (readPath path, query, fragment)

/-- An address from the text behind `mysql://`. Tabs and line ends in it do not
count. -/
def read? (cs : List Char) : Except AddressError Address := do
  let cs := cs.filter fun c => c ≠ '\t' && c ≠ '\n' && c ≠ '\r'
  let authority := cs.takeWhile fun c => !endsAuthority c
  let (info, hostAndPort) := (atLastSign? authority).getD ([], authority)
  let rest := hostAndPort ++ cs.drop authority.length
  if authority.head? = some '@' && info.isEmpty && rest.head?.any endsAuthority then
    throw .emptyHost
  let (user, password) := readCredentials info
  let n := hostLength false rest
  let host ← Host.read? (rest.take n)
  let behind := rest.drop n
  let unnamed := host = .name []
  if unnamed && behind.head? = some ':' then throw .emptyHost
  let (port, behind) ← match behind with
    | ':' :: r => readPort r
    | r => pure (none, r)
  if unnamed && (!user.isEmpty || password.isSome) then throw .emptyHost
  let (path, query, fragment) := readTail behind
  return { user, password, host, port, path, query, fragment }

/-- Whether there is a host. -/
def hasHost (a : Address) : Bool :=
  a.host ≠ .name []

/-- The address with a segment added to its path, unless the segment is a dot or
two. Tabs and line ends in it do not count. -/
def pushSegment (a : Address) (segment : String) : Address :=
  if segment = "." || segment = ".." then a
  else
    let path := if a.path.length = 1 then a.path else a.path ++ ['/']
    let shown := segment.toList.filter fun c => c ≠ '\t' && c ≠ '\n' && c ≠ '\r'
    { a with path := addSegment path (percentEncode inSegment shown) false }

/-- The address with names and values added to its query. -/
def addPairs (a : Address) (pairs : List (String × String)) : Address :=
  let added := ['&'].intercalate
    (pairs.map fun (k, v) => formEncode k.toList ++ '=' :: formEncode v.toList)
  { a with query := match a.query with
    | some (c :: q) => some (c :: q ++ '&' :: added)
    | _ => some added }

end Address

end TableMapper.Connect
