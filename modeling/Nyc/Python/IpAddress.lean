import Nyc.Python.Text

/-!
# `ipaddress.ip_network(text, strict=True)`

Both families, as CPython parses and prints them. A `Network` carries the proof that its
address fits its family and has no host bits.
-/

namespace Nyc.IpAddress

inductive Version where
  | v4 | v6
  deriving DecidableEq, Repr

@[reducible] def Version.bits : Version → Nat
  | v4 => 32
  | v6 => 128

structure Network where
  version : Version
  address : Nat
  prefixlen : Nat
  /-- `%scope` of an IPv6 address, else empty. -/
  scope : Str
  fits : address < 2 ^ version.bits
  within : prefixlen ≤ version.bits
  aligned : address % 2 ^ (version.bits - prefixlen) = 0

def isDigits (s : Str) : Bool := !s.isEmpty && s.all Char.isDigit

def hexDigit (c : Char) : Option Nat :=
  if c.isDigit then some (c.toNat - 48)
  else if 'a' ≤ c ∧ c ≤ 'f' then some (c.toNat - 87)
  else if 'A' ≤ c ∧ c ≤ 'F' then some (c.toNat - 55)
  else none

/-- `int(s, base)` for text whose characters are digits of that base. -/
def toInt (base : Nat) (s : Str) : Option Nat :=
  s.foldlM (fun n c => (hexDigit c).bind fun d => if d < base then some (base * n + d) else none) 0

/-! ## Parsing -/

def parseOctet (s : Str) : Option Nat :=
  if isDigits s && s.length ≤ 3 && (s == "0" || s.head? != some '0') then
    (toInt 10 s).filter (· ≤ 255)
  else none

/-- `IPv4Address(s)`. -/
def parseV4 (s : Str) : Option Nat :=
  match s.splitOn '.' with
  | [a, b, c, d] => do
    let a ← parseOctet a
    let b ← parseOctet b
    let c ← parseOctet c
    let d ← parseOctet d
    return ((a * 256 + b) * 256 + c) * 256 + d
  | _ => none

def parseHextet (s : Str) : Option Nat :=
  if s.isEmpty || 4 < s.length then none else toInt 16 s

def parseHextets (parts : List Str) : Option Nat :=
  parts.foldlM (fun n p => (parseHextet p).map (65536 * n + ·)) 0

/-- The parts of an address that ends in dotted form, with that end in hexadecimal. -/
def expandV4Tail (parts : List Str) : Option (List Str) :=
  match parts.getLast? with
  | some tail =>
    if tail.contains '.' then
      (parseV4 tail).map fun n =>
        parts.dropLast ++ [Nat.toDigits 16 (n / 65536), Nat.toDigits 16 (n % 65536)]
    else some parts
  | none => none

/-- The positions of `::`: the empty parts that are not at an end. -/
def skips (parts : List Str) : List Nat :=
  (List.range parts.length).filter fun i =>
    1 ≤ i && i + 1 < parts.length && (parts.getD i []).isEmpty

def parseV6Parts (parts : List Str) : Option Nat :=
  match skips parts with
  | [] =>
    if parts.length = 8 then parseHextets parts else none
  | [i] =>
    let startEmpty := (parts.headD []).isEmpty
    let endEmpty := (parts.getLastD []).isEmpty
    let hi := if startEmpty then i - 1 else i
    let lo := if endEmpty then parts.length - i - 2 else parts.length - i - 1
    if (startEmpty && hi != 0) || (endEmpty && lo != 0) || 8 ≤ hi + lo then none
    else do
      let high ← parseHextets (parts.take hi)
      let low ← parseHextets (parts.drop (parts.length - lo))
      return high * 65536 ^ (8 - lo - hi) * 65536 ^ lo + low
  | _ => none

/-- `IPv6Address(s)`, without its scope. -/
def parseV6 (s : Str) : Option Nat :=
  match s.splitOn '%' with
  | [addr] => bare addr
  | [addr, scope] => if scope.isEmpty then none else bare addr
  | _ => none
where
  bare (addr : Str) : Option Nat :=
    let parts := addr.splitOn ':'
    if parts.length < 3 then none
    else (expandV4Tail parts).bind fun parts =>
      if 9 < parts.length then none else parseV6Parts parts

/-- The prefix length of a mask: ones followed by zeros. -/
def maskLength (n : Nat) : Option Nat :=
  (List.range 33).find? fun k => 2 ^ 32 - 2 ^ (32 - k) == n

/-- `IPv4Network._make_netmask`: a length, a netmask or a hostmask. -/
def parsePrefixV4 (s : Str) : Option Nat :=
  if isDigits s then (toInt 10 s).filter (· ≤ 32)
  else (parseV4 s).bind fun n => (maskLength n).or (maskLength (2 ^ 32 - 1 - n))

def parsePrefixV6 (s : Str) : Option Nat :=
  if isDigits s then (toInt 10 s).filter (· ≤ 128) else none

/-- The address and the prefix length that `text` names in one family. -/
def parseNetwork (v : Version) (text : Str) : Option (Nat × Nat) :=
  let parseAddress := match v with | .v4 => parseV4 | .v6 => parseV6
  let parsePrefix := match v with | .v4 => parsePrefixV4 | .v6 => parsePrefixV6
  match text.splitOn '/' with
  | [addr] => (parseAddress addr).map (·, v.bits)
  | [addr, len] => (parseAddress addr).bind fun a => (parsePrefix len).map (a, ·)
  | _ => none

/-! ## Printing -/

def formatV4 (n : Nat) : Str :=
  List.intercalate ['.'] ([n / 2 ^ 24 % 256, n / 2 ^ 16 % 256, n / 2 ^ 8 % 256, n % 256].map
    fun o => Nat.toDigits 10 o)

/-- The first longest run of zero hextets, as its start and its length. -/
def zeroRun (hextets : List Nat) : Nat × Nat :=
  (List.range hextets.length).foldl
    (fun best i =>
      let n := ((hextets.drop i).takeWhile (· == 0)).length
      if best.2 < n then (i, n) else best) (0, 0)

def formatV6 (n : Nat) : Str :=
  let hextets := (List.range 8).map fun i => n / 65536 ^ (7 - i) % 65536
  let run := zeroRun hextets
  let text (xs : List Nat) : Str := List.intercalate [':'] (xs.map fun h => Nat.toDigits 16 h)
  if run.2 ≤ 1 then text hextets
  else text (hextets.take run.1) ++ "::" ++ text (hextets.drop (run.1 + run.2))

def format : Version → Nat → Str
  | .v4 => formatV4
  | .v6 => formatV6

/-! ## Networks -/

def scopeOf (v : Version) (text : Str) : Str :=
  match v with
  | .v4 => []
  | .v6 => (text.takeWhile (· != '/')).dropWhile (· != '%')

/-- One family of `ip_network`: nothing where the text does not parse, and the message of a
`ValueError` where it has host bits. -/
def ofVersion (v : Version) (text : Str) : Option (Except Str Network) :=
  (parseNetwork v text).bind fun (address, prefixlen) =>
    if fits : address < 2 ^ v.bits then
      if within : prefixlen ≤ v.bits then
        if aligned : address % 2 ^ (v.bits - prefixlen) = 0 then
          some (.ok ⟨v, address, prefixlen, scopeOf v text, fits, within, aligned⟩)
        else some (.error (format v address ++ scopeOf v text ++ "/" ++ Nat.toDigits 10 prefixlen ++
          " has host bits set"))
      else none
    else none

def ipNetwork (text : Str) : Except Str Network :=
  match (ofVersion .v4 text).or (ofVersion .v6 text) with
  | some r => r
  | none => .error (Text.repr text ++ " does not appear to be an IPv4 or IPv6 network")

namespace Network

def netmask (n : Network) : Str :=
  format n.version (2 ^ n.version.bits - 2 ^ (n.version.bits - n.prefixlen))

/-- `hosts()`, as the first host and how many there are. -/
def hosts (n : Network) : Nat × Nat :=
  let size := 2 ^ (n.version.bits - n.prefixlen)
  if n.version.bits ≤ n.prefixlen + 1 then (n.address, size)
  else match n.version with
    | .v4 => (n.address + 1, size - 2)
    | .v6 => (n.address + 1, size - 1)

/-- Only the one host of a `/128` keeps the scope. -/
def hostText (n : Network) (host : Nat) : Str :=
  format n.version host ++ if n.prefixlen = 128 then n.scope else []

end Network

example : (ipNetwork "172.16.0.0/16").toOption.map Network.netmask = some "255.255.0.0" := by
  decide +kernel

example : (ipNetwork "fd00:0::/126").toOption.map (fun n => n.hostText n.hosts.1) =
    some "fd00::1" := by
  decide +kernel

end Nyc.IpAddress
