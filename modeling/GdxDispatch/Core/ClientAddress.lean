import GdxDispatch.Lib.Pieces
import GdxDispatch.Lib.Text

/-! The real client address: `core/client_ip.py`.

    Behind a trusted peer the client is the last hop of `X-Forwarded-For`, stepping left only through upstream proxies.
    Addresses are read as Python's `ipaddress` reads them; header bytes are decoded as Latin-1. -/

namespace Gdx.ClientAddress
open Lib

/-! ### Addresses and networks -/

/-- An address: its version and its number. -/
structure Address where
  v6 : Bool
  ip : ℕ
  deriving DecidableEq

structure Network where
  v6 : Bool
  network : ℕ
  prefixlen : ℕ

/-- `addr in net`: of one version, and the same under the mask. -/
def Network.holds (net : Network) (addr : Address) : Bool :=
  let width := if net.v6 then 128 else 32
  net.v6 = addr.v6 ∧ addr.ip / 2 ^ (width - net.prefixlen) = net.network / 2 ^ (width - net.prefixlen)

def decimal (t : Text) : ℕ := t.foldl (fun n c => n * 10 + (c.toNat - '0'.toNat)) 0

/-- What `_parse_octet` takes: up to three digits, no leading zero, at most 255. -/
def validOctet (t : Text) : Bool :=
  t ≠ [] ∧ t.all Char.isDigit ∧ t.length ≤ 3 ∧ (t = ['0'] ∨ t.head? ≠ some '0') ∧ decimal t ≤ 255

/-- `IPv4Address._ip_int_from_string`. -/
def parseIPv4 (t : Text) : Option ℕ :=
  let octets := t.splitOn '.'
  if octets.length = 4 ∧ octets.all validOctet then some (octets.foldl (fun ip o => ip * 256 + decimal o) 0) else none

def isHexDigit (c : Char) : Bool := c.isDigit || ('a' ≤ c && c ≤ 'f') || ('A' ≤ c && c ≤ 'F')

def hexValue (c : Char) : ℕ :=
  if c.isDigit then c.toNat - '0'.toNat else if 'a' ≤ c then c.toNat - 'a'.toNat + 10 else c.toNat - 'A'.toNat + 10

/-- What `_parse_hextet` takes. -/
def validHextet (t : Text) : Bool := t ≠ [] ∧ t.all isHexDigit ∧ t.length ≤ 4

def hextets (parts : List Text) : ℕ := parts.foldl (fun ip p => ip * 65536 + p.foldl (fun n c => n * 16 + hexValue c) 0) 0

/-- An IPv4 suffix becomes two hextets. -/
def expandSuffix (parts : List Text) : Option (List Text) :=
  match parts.getLast? with
  | none => some parts
  | some last =>
    if '.' ∈ last then
      (parseIPv4 last).map fun ip => parts.dropLast ++ [Nat.toDigits 16 (ip / 65536), Nat.toDigits 16 (ip % 65536)]
    else some parts

/-- The parts between the endpoints that are empty: where a `::` stands. -/
def skips (parts : List Text) : List ℕ :=
  (List.range parts.length).filter fun i => 0 < i ∧ i + 1 < parts.length ∧ parts.getD i [] = []

/-- The number of the parts; a `::` stands for the hextets that are missing, and one at an end leaves that end empty. -/
def partsValue (parts : List Text) : Option ℕ :=
  match skips parts with
  | [] =>
    if parts.length = 8 ∧ parts.all validHextet then some (hextets parts) else none
  | [i] =>
    let startsEmpty := parts.head? = some []
    let endsEmpty := parts.getLast? = some []
    let hi := if startsEmpty then i - 1 else i
    let lo := if endsEmpty then parts.length - i - 2 else parts.length - i - 1
    if startsEmpty ∧ hi ≠ 0 then none
    else if endsEmpty ∧ lo ≠ 0 then none
    else if 8 ≤ hi + lo then none
    else
      let front := parts.take hi
      let back := parts.drop (parts.length - lo)
      if front.all validHextet ∧ back.all validHextet then
        some (hextets front * 65536 ^ (8 - hi) + hextets back)
      else none
  | _ => none

/-- `IPv6Address._ip_int_from_string`. -/
def parseIPv6 (t : Text) : Option ℕ :=
  let parts := t.splitOn ':'
  if parts.length < 3 then none
  else
    match expandSuffix parts with
    | none => none
    | some parts => if parts.length > 9 then none else partsValue parts

/-- `_split_scope_id`: the address before a `%`, whose scope is neither empty nor holds another. -/
def splitScope (t : Text) : Option Text :=
  if '%' ∈ t then
    let scope := afterSep '%' t
    if scope = [] ∨ '%' ∈ scope then none else some (beforeSep '%' t)
  else some t

/-- `ipaddress.ip_address`. -/
def ipAddress (t : Text) : Option Address :=
  match parseIPv4 t with
  | some ip => some ⟨false, ip⟩
  | none =>
    if '/' ∈ t then none
    else
      match splitScope t with
      | none => none
      | some addr => (parseIPv6 addr).map fun ip => ⟨true, ip⟩

/-- An IPv4 address mapped into IPv6 counts as itself. -/
def Address.unmapped (addr : Address) : Address :=
  if addr.v6 ∧ addr.ip / 2 ^ 32 = 65535 then ⟨false, addr.ip % 2 ^ 32⟩ else addr

/-- `_in`: a host that is not an address is in no network. -/
def inNetworks (host : Text) (networks : List Network) : Bool :=
  match ipAddress host with
  | none => false
  | some addr => networks.any fun net => net.holds addr.unmapped

/-! ### The hops -/

/-- What `str.strip` drops of a Latin-1 text. -/
def isSpace (c : Char) : Bool :=
  let n := c.toNat
  decide (9 ≤ n ∧ n ≤ 13) || decide (28 ≤ n ∧ n ≤ 32) || n == 133 || n == 160

/-- `_strip_port`. -/
def stripPort (hop : Text) : Text :=
  if hop.head? = some '[' then
    if ']' ∈ hop then (beforeSep ']' hop).tail else hop
  else if hop.count ':' = 1 then beforeSep ':' hop
  else hop

/-- The hops of the header, left to right. -/
def hopsOf (forwardedFor : Text) : List Text := ((cut isSpace ',' forwardedFor).filter fun h => h ≠ []).map stripPort

/-- The walk to the left: through upstream proxies, and no further than the hops go. -/
def stepLeft (upstream : List Network) : Text → List Text → Text
  | host, [] => host
  | host, hop :: hops => if inNetworks host upstream then stepLeft upstream hop hops else host

def resolveClientHost (peer forwardedFor : Text) (trusted upstream : List Network) : Text :=
  if peer = [] ∨ forwardedFor = [] ∨ inNetworks peer trusted = false then peer
  else
    match (hopsOf forwardedFor).reverse with
    | [] => peer
    | host :: hops => stepLeft upstream host hops

/-! ### The middleware -/

abbrev Bytes := List UInt8

def bytesOf (t : Text) : Bytes := t.map fun c => UInt8.ofNat c.toNat

/-- `decode("latin-1")`. -/
def latin1 (b : Bytes) : Text := b.map fun x => Char.ofNat x.toNat

inductive ScopeType where
  | http | websocket | lifespan
  deriving DecidableEq

/-- What the middleware reads of an ASGI scope. -/
structure Scope where
  type : ScopeType
  client : Option (Text × ℕ)
  headers : List (Bytes × Bytes)

/-- The values of the `x-forwarded-for` headers. -/
def forwardedValues (headers : List (Bytes × Bytes)) : List Bytes :=
  (headers.filter fun kv => kv.1 = bytesOf "x-forwarded-for".toList).map Prod.snd

/-- `ClientAddressMiddleware.__call__`: the scope passed on. -/
def passedOn (trusted upstream : List Network) (scope : Scope) : Scope :=
  match scope.type, scope.client with
  | .lifespan, _ => scope
  | _, none => scope
  | _, some client =>
    let forwarded := glue (bytesOf ", ".toList) (forwardedValues scope.headers)
    if forwarded = [] then scope
    else
      let host := resolveClientHost client.1 (latin1 forwarded) trusted upstream
      if host ≠ [] ∧ host ≠ client.1 then { scope with client := some (host, 0) } else scope

end Gdx.ClientAddress
