import TableMapper.Binary64
import TableMapper.Connect.Percent
import TableMapper.Text.Blank
import TableMapper.Text.Digit

/-!
# Hosts

The host of an address: a name, or the eight pieces of an IPv6 address between
square brackets.

* `Host.read?` — a host in text;
* `Host.text` — a host as an address writes it, the longest run of zero pieces
  left out.
-/

namespace TableMapper.Connect

/-- Why a text is no address. -/
inductive AddressError
  | emptyHost
  | invalidPort
  | invalidIpv6
  | invalidDomain
  deriving DecidableEq, Repr

/-- The wording of the reason. -/
def AddressError.message : AddressError → String
  | .emptyHost => "empty host"
  | .invalidPort => "invalid port number"
  | .invalidIpv6 => "invalid IPv6 address"
  | .invalidDomain => "invalid domain character"

/-- A host: a name, which may be empty, or the pieces of an IPv6 address. -/
inductive Host
  | name (cs : List Char)
  | ipv6 (pieces : List Nat)
  deriving DecidableEq, Repr

namespace Host

/-- A piece of one to four hexadecimal digits. -/
def piece? (cs : List Char) : Option Nat :=
  if cs.isEmpty || 4 < cs.length then none
  else (cs.mapM Text.hexValue?).map fun ds => ds.foldl (fun n d => 16 * n + d) 0

/-- A number of an IPv4 address: up to 255, without a zero in front. -/
def octet? (cs : List Char) : Option Nat :=
  if cs.isEmpty || !cs.all Char.isDigit || 255 < digitsValue cs ||
      (cs.head? = some '0' && cs ≠ ['0']) then none
  else some (digitsValue cs)

/-- The two pieces that an IPv4 address stands for. -/
def ipv4? (cs : List Char) : Option (List Nat) :=
  match (Text.cut '.' cs).mapM octet? with
  | some [a, b, c, d] => some [256 * a + b, 256 * c + d]
  | _ => none

/-- Pieces between colons, the last of which may be an IPv4 address where `tail`
says so. -/
def pieces? (tail : Bool) : List (List Char) → Option (List Nat)
  | [] => some []
  | [last] =>
    match piece? last with
    | some n => some [n]
    | none => if tail then ipv4? last else none
  | p :: ps => do
    let n ← piece? p
    let ns ← pieces? tail ps
    return n :: ns

/-- The text in front of the first double colon, and behind it. -/
def atGap? : List Char → Option (List Char × List Char)
  | ':' :: ':' :: cs => some ([], cs)
  | c :: cs => (atGap? cs).map fun (front, back) => (c :: front, back)
  | [] => none

/-- The pieces of a text, none of an empty one. -/
def side? (tail : Bool) (cs : List Char) : Option (List Nat) :=
  if cs.isEmpty then some [] else pieces? tail (Text.cut ':' cs)

/-- The eight pieces of an IPv6 address; one double colon stands for at least one
zero piece. -/
def ipv6? (cs : List Char) : Option (List Nat) :=
  match atGap? cs with
  | none => (pieces? true (Text.cut ':' cs)).filter fun ns => ns.length = 8
  | some (front, back) => do
    let front ← side? false front
    let back ← side? true back
    if front.length + back.length ≤ 7 then
      some (front ++ List.replicate (8 - (front.length + back.length)) 0 ++ back)
    else none

/-- A character that no name of a host may have. -/
def isForbidden (c : Char) : Bool :=
  c = '\x00' || c = '\t' || c = '\n' || c = '\r' || c = ' ' || c = '#' || c = '/' || c = ':' ||
    c = '<' || c = '>' || c = '?' || c = '@' || c = '[' || c = '\\' || c = ']' || c = '^' ||
    c = '|'

/-- A host in text. -/
def read? (cs : List Char) : Except AddressError Host :=
  match cs with
  | '[' :: rest =>
    if rest.getLast? = some ']' then
      match ipv6? rest.dropLast with
      | some pieces => .ok (.ipv6 pieces)
      | none => .error .invalidIpv6
    else .error .invalidIpv6
  | cs =>
    if cs.any isForbidden then .error .invalidDomain
    else .ok (.name (percentEncode (fun _ => false) cs))

/-- The number of zero pieces in front. -/
def zeros (pieces : List Nat) : Nat :=
  (pieces.takeWhile (· = 0)).length

/-- The length of the longest run of zero pieces. -/
def longestRun : List Nat → Nat
  | [] => 0
  | p :: ps => max (zeros (p :: ps)) (longestRun ps)

/-- Pieces with colons between them, in small hexadecimal digits. -/
def joined (pieces : List Nat) : List Char :=
  [':'].intercalate (pieces.map (Nat.toDigits 16))

/-- Pieces in front of the first run of `n` zeros, and behind it. -/
def around (n : Nat) : List Nat → List Nat × List Nat
  | [] => ([], [])
  | p :: ps =>
    if n ≤ zeros (p :: ps) then ([], (p :: ps).drop n)
    else
      let (front, back) := around n ps
      (p :: front, back)

/-- A host as an address writes it. A double colon stands for the first of the
longest runs of zeros, if it has at least two. -/
def text : Host → List Char
  | name cs => cs
  | ipv6 pieces =>
    let n := longestRun pieces
    '[' :: (if n < 2 then joined pieces
      else
        let (front, back) := around n pieces
        joined front ++ [':', ':'] ++ joined back) ++ [']']

end Host

end TableMapper.Connect
