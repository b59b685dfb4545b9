/-
# Hosts in addresses

A host may be a numeric address in brackets.  In brackets there has to be an address of version 6,
or one of a version to come, which starts with a `v`, and only a port may follow them.  Other hosts
are only refused if they have a character that is a compatibility form of one of the characters
that end a host.
-/
import KsyTools.Failure
import KsyTools.Text.CharClass
import KsyTools.Text.Lines

namespace KsyTools.Host

/-- A number from 0 to 255 in decimal digits, without leading zeros. -/
def isOctet (cs : List Char) : Bool :=
  !cs.isEmpty && cs.all Char.isDigit && (cs.length = 1 || cs.head? != some '0') &&
    cs.length ≤ 3 && Text.ofDigits 10 (cs.map fun c => c.toNat - 48) ≤ 255

/-- An address of version 4: four numbers with points between them. -/
def isVersion4 (cs : List Char) : Bool :=
  let octets := Text.splitOnChar '.' cs
  octets.length = 4 && octets.all isOctet

/-- A group of an address of version 6: one to four hexadecimal digits. -/
def isGroup (cs : List Char) : Bool :=
  !cs.isEmpty && cs.length ≤ 4 && cs.all fun c => (Text.hexValue? c).isSome

/-- The groups of an address of version 6; an address of version 4 at its end counts as two. -/
def groups? (cs : List Char) : Option (List (List Char)) :=
  let parts := Text.splitOnChar ':' cs
  let last := parts.getLastD []
  if parts.length < 3 then none
  else if last.contains '.' then
    if isVersion4 last then some (parts.dropLast ++ [['0'], ['0']]) else none
  else some parts

/-- Eight groups, or fewer with one gap.  A gap is an empty group, and the first or last group may
only be empty at a gap. -/
def isGroups (parts : List (List Char)) : Bool :=
  let inner := parts.drop 1 |>.dropLast
  match (inner.filter List.isEmpty).length with
  | 0 => parts.length = 8 && parts.all isGroup
  | 1 =>
    let front := (parts.take 1 ++ inner).takeWhile (!·.isEmpty)
    let high := if (parts.headD []).isEmpty then [] else front
    let behind := (inner.dropWhile (!·.isEmpty)).drop 1
    let low := if (parts.getLastD []).isEmpty then [] else behind ++ [parts.getLastD []]
    let opened := !(parts.headD []).isEmpty || (inner.headD []).isEmpty
    let closed := !(parts.getLastD []).isEmpty || behind.isEmpty
    opened && closed && (high ++ low).length < 8 && (high ++ low).all isGroup
  | _ => false

/-- An address of version 6, perhaps with the name of a zone behind a percent sign. -/
def isVersion6 (cs : List Char) : Bool :=
  let address := cs.takeWhile (· != '%')
  let zoneOk :=
    match cs.drop address.length with
    | [] => true
    | _ :: zone => !zone.isEmpty && !zone.contains '%'
  zoneOk && (groups? address).any fun parts => parts.length ≤ 9 && isGroups parts

/-- An address of a version to come: a `v`, a version in hexadecimal digits, a point, and more. -/
def isFuture (cs : List Char) : Bool :=
  match cs with
  | 'v' :: rest =>
    let version := rest.takeWhile fun c => (Text.hexValue? c).isSome
    match rest.drop version.length with
    | '.' :: _ :: _ => !version.isEmpty
    | _ => false
  | _ => false

/-- What is wrong with a text in brackets. -/
def bracketFault? (cs : List Char) : Option AddressFault :=
  if cs.head? = some 'v' then if isFuture cs then none else some .futureAddress
  else if isVersion4 cs then some .bracketedVersion4
  else if isVersion6 cs then none
  else some (.notAddress (String.ofList cs))

/-- The characters beyond ASCII whose compatibility forms have one of the characters `/?#@:`. -/
def delimiterForms : List Nat :=
  [0x2047, 0x2048, 0x2049, 0x2100, 0x2101, 0x2105, 0x2106, 0x2a74, 0xfe13, 0xfe16, 0xfe55, 0xfe56,
    0xfe5f, 0xfe6b, 0xff03, 0xff0f, 0xff1a, 0xff1f, 0xff20]

/-- What is wrong with a host that has brackets.  Names of users stand before the last `@`; the
brackets then have to be around all but a port. -/
def bracketsFault? (host : List Char) : Option AddressFault :=
  let address := (host.reverse.takeWhile (· != '@')).reverse
  if address.contains '[' then
    match address with
    | '[' :: rest =>
      let inside := rest.takeWhile (· != ']')
      match rest.drop (inside.length + 1) with
      | [] => bracketFault? inside
      | ':' :: _ => bracketFault? inside
      | _ => some .misplacedBracket
    | _ => some .misplacedBracket
  else bracketFault? (address.takeWhile (· != ':'))

/-- What is wrong with a host. -/
def fault? (host : List Char) : Option AddressFault :=
  match host.contains '[', host.contains ']' with
  | true, true => (bracketsFault? host).or formFault?
  | false, false => formFault?
  | _, _ => some .misplacedBracket
where
  /-- The fault of a host with a form of a delimiter. -/
  formFault? : Option AddressFault :=
    if host.any fun c => delimiterForms.contains c.toNat then
      some (.hostCharacters (String.ofList host))
    else none

end KsyTools.Host
