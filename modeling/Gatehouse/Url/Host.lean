import Gatehouse.Text.Pieces
import Gatehouse.Text.Percent
import Gatehouse.Text.Quoted
import Gatehouse.Number.Decimal

/-!
The host part of a URL, as far as a URL is refused for it: an address in brackets has to be an IPv6 address
or one of a future version, and no character may stand for a delimiter under compatibility normalization.
-/

namespace Gatehouse

inductive UrlFault where
  | unbalancedBrackets
  | futureAddress
  | notAnAddress (host : String)
  | version4InBrackets
  | hiddenDelimiter (authority : String)
  deriving DecidableEq, Repr

namespace UrlFault

def message : UrlFault → String
  | .unbalancedBrackets => "Invalid IPv6 URL"
  | .futureAddress => "IPvFuture address is invalid"
  | .notAnAddress host => Text.quoted host ++ " does not appear to be an IPv4 or IPv6 address"
  | .version4InBrackets => "An IPv4 address cannot be in brackets"
  | .hiddenDelimiter authority =>
      "netloc '" ++ authority ++ "' contains invalid characters under NFKC normalization"

end UrlFault

namespace Url

open Text

/-! ## 1. Addresses -/

/-- One to three digits without a leading zero, at most 255. -/
def isOctet (cs : List Char) : Bool :=
  !cs.isEmpty && cs.all Binary64.isDigit && cs.length ≤ 3 && (cs == ['0'] || cs.head? != some '0') &&
    Binary64.digitsValue cs ≤ 255

def isVersion4 (cs : List Char) : Bool :=
  let parts := pieces '.' cs
  parts.length == 4 && parts.all isOctet

def isHextet (cs : List Char) : Bool :=
  !cs.isEmpty && cs.length ≤ 4 && cs.all fun c => (hexValue? c).isSome

/-- The parts of an IPv6 address: eight hextets, or fewer with one `::` among them that stands for at least
one zero hextet. -/
def areVersion6Parts (parts : List (List Char)) : Bool :=
  let inner := (parts.drop 1).dropLast
  match inner.findIdx? (·.isEmpty) with
  | none => parts.length == 8 && parts.all isHextet
  | some i =>
      let high := parts.take (i + 1)
      let low := parts.drop (i + 2)
      let high := if high == [[]] then [] else high
      let low := if low == [[]] then [] else low
      high.length + low.length ≤ 7 && high.all isHextet && low.all isHextet

/-- An IPv6 address, its last part an IPv4 address or not, with a zone after `%` or not. -/
def isVersion6 (cs : List Char) : Bool :=
  let (address, zone) := cut '%' cs
  let zoneOk := match zone with
    | none => true
    | some z => !z.isEmpty && !z.contains '%'
  let parts := pieces ':' address
  let last := parts.getLast?.getD []
  let version4 := last.contains '.'
  let whole := if version4 then parts.dropLast ++ [['0'], ['0']] else parts
  zoneOk && !cs.contains '/' && 3 ≤ parts.length && whole.length ≤ 9 &&
    (!version4 || isVersion4 last) && areVersion6Parts whole

/-- An address of a later version: `v`, hexadecimal digits, a point, and more. -/
def isFutureAddress : List Char → Bool
  | 'v' :: rest =>
      let digits := rest.takeWhile fun c => (hexValue? c).isSome
      !digits.isEmpty && match rest.dropWhile fun c => (hexValue? c).isSome with
        | '.' :: more => !more.isEmpty && !more.contains '\n'
        | _ => false
  | _ => false

def checkBracketed (host : List Char) : Except UrlFault Unit :=
  if host.head? == some 'v' then
    if isFutureAddress host then .ok () else .error .futureAddress
  else if isVersion4 host then .error .version4InBrackets
  else if isVersion6 host then .ok ()
  else .error (.notAnAddress (String.ofList host))

/-! ## 2. Hidden delimiters -/

/-- Code points whose compatibility form holds one of `/ ? # @ :`. -/
def hiddenDelimiters : List Nat := [
  0x2047, 0x2048, 0x2049, 0x2100, 0x2101, 0x2105, 0x2106, 0x2a74, 0xfe13, 0xfe16, 0xfe55, 0xfe56, 0xfe5f,
  0xfe6b, 0xff03, 0xff0f, 0xff1a, 0xff1f, 0xff20]

/-- The text behind the last `sep`; all of it if there is none. -/
def afterLast (sep : Char) (cs : List Char) : List Char :=
  (cs.reverse.takeWhile (· != sep)).reverse

/-- Checks an authority that holds brackets: they stand around the host, which only a port may follow. Brackets that
are not around the host have it checked as if they were. -/
def checkHost (authority : List Char) : Except UrlFault Unit :=
  -- What comes before the last `@` names a user.
  let host := afterLast '@' authority
  match cut '[' host with
  | (before, some bracketed) =>
      let (address, after) := cut ']' bracketed
      let after := after.getD []
      if !before.isEmpty || !(after.isEmpty || after.head? == some ':') then .error .unbalancedBrackets
      else checkBracketed address
  | (_, none) => checkBracketed (cut ':' host).1

/-- Checks the authority of a URL: brackets first, hidden delimiters by `checkDelimiters`. -/
def checkBrackets (authority : List Char) : Except UrlFault Unit :=
  if authority.contains '[' != authority.contains ']' then .error .unbalancedBrackets
  else if authority.contains '[' then checkHost authority
  else .ok ()

@[inherit_doc checkBrackets]
def checkDelimiters (authority : List Char) : Except UrlFault Unit :=
  if authority.any fun c => hiddenDelimiters.contains c.toNat then
    .error (.hiddenDelimiter (String.ofList authority))
  else .ok ()

end Url

end Gatehouse
