import VaultChat.Http.Host
import VaultChat.Text.Blank

/-!
# Web addresses

An address is read into its parts in normal form: scheme and host in lower case, no port that goes without saying, no
user, no dots in the path.  `Url.render` writes the parts as one text.
-/

namespace VaultChat.Http

structure Url where
  scheme : List Char
  /-- Empty where there is none. -/
  host : List Char
  port : Option Nat
  path : List Char
  query : Option (List Char)
  fragment : Option (List Char)

/-- The schemes with a host of their own kind, and the ports that go without saying. -/
def knownPorts : List (String × Option Nat) :=
  [("http", some 80), ("https", some 443), ("ftp", some 21), ("ws", some 80), ("wss", some 443), ("file", none)]

/-- Whether a segment of a path stands for the segment above, and whether it stands for its own place. -/
def isUp (segment : List Char) : Bool :=
  ["..", ".%2e", "%2e.", "%2e%2e"].contains (String.ofList (segment.map Char.toLower))

def isHere (segment : List Char) : Bool := [".", "%2e"].contains (String.ofList (segment.map Char.toLower))

/-- The segments of a path without dots, in reverse, after those that are given. -/
def walk (done : List (List Char)) : List (List Char) → List (List Char)
  | [] => done
  | segment :: rest =>
    let ending := if rest.isEmpty then [[]] else []
    if isUp segment then walk (ending ++ done.tail) rest
    else if isHere segment then walk (ending ++ done) rest
    else walk (percentEncode " \"<>\x60#?\x7b\x7d".toList segment :: done) rest

/-- The normal form of a path that starts with a slash or is empty. -/
def normalPath (isSlash : Char → Bool) (cs : List Char) : List Char :=
  '/' :: ['/'].intercalate (walk [] (splitAt isSlash cs.tail)).reverse

/-- A port, if one is given. -/
def port? : List Char → Option (Option Nat)
  | [] => some none
  | cs => (numberIn 10 cs).bind fun n => if n < 65536 then some (some n) else none

/-- The host and the port of an authority, whose user is dropped. -/
def hostAndPort? (authority : List Char) : Option (List Char × Option Nat) :=
  let place := (authority.reverse.takeWhile (· != '@')).reverse
  let host := if place.head? = some '[' then place.takeWhile (· != ']') ++ [']'] else place.takeWhile (· != ':')
  if !host.isPrefixOf place then none
  else
    match place.drop host.length with
    | [] => some (host, none)
    | ':' :: port => (port? port).map fun port => (host, port)
    | _ => none

def isSchemeChar (c : Char) : Bool := c.isAlphanum || c == '+' || c == '-' || c == '.'

namespace Url

/-- The parts behind the scheme of an address with an authority. -/
def ofAuthority? (scheme : List Char) (defaultPort : Option Nat) (normalHost? : List Char → Option (List Char))
    (isSlash : Char → Bool) (cs : List Char) (query fragment : Option (List Char)) : Option Url := do
  let (host, port) ← hostAndPort? (cs.takeWhile fun c => !isSlash c)
  let host ← normalHost? host
  let port := if port = defaultPort then none else port
  return ⟨scheme, host, port, normalPath isSlash (cs.dropWhile fun c => !isSlash c), query, fragment⟩

/-- Reads an address.  There is none without a scheme. -/
def parse? (text : String) : Option Url :=
  let isEdge (c : Char) := c.toNat ≤ 0x20
  let cs := ((text.toList.dropWhile isEdge).reverse.dropWhile isEdge).reverse
  let cs := cs.filter fun c => c ≠ '\t' ∧ c ≠ '\n' ∧ c ≠ '\r'
  match Text.cut (· == ':') cs with
  | (scheme, some rest) =>
    if !(scheme.head?.any Char.isAlpha && scheme.all isSchemeChar) then none
    else
      let scheme := scheme.map Char.toLower
      let (rest, fragment) := Text.cut (· == '#') rest
      let (rest, query) := Text.cut (· == '?') rest
      let fragment := fragment.map (percentEncode " \"<>\x60".toList)
      let isSlash (c : Char) := c == '/' || c == '\\'
      match knownPorts.lookup (String.ofList scheme) with
      | some (some port) =>
        let query := query.map (percentEncode " \"#<>\x27".toList)
        ofAuthority? scheme (some port) normalHost? isSlash (rest.dropWhile isSlash) query fragment
      | some none =>
        let query := query.map (percentEncode " \"#<>\x27".toList)
        let (authority, path) := match rest with
          | a :: b :: cs =>
            if isSlash a && isSlash b then (cs.takeWhile fun c => !isSlash c, cs.dropWhile fun c => !isSlash c)
            else ([], rest)
          | _ => ([], rest)
        let host? := if authority.isEmpty then some [] else normalHost? authority
        host?.map fun host =>
          ⟨scheme, if host = "localhost".toList then [] else host, none, normalPath isSlash path, query, fragment⟩
      | none =>
        let query := query.map (percentEncode " \"#<>".toList)
        let opaqueHost? (host : List Char) :=
          if host.any fun c => isForbidden c && c != '%' then none else some (percentEncode [] host)
        match rest with
        | '/' :: '/' :: cs => ofAuthority? scheme none opaqueHost? (· == '/') cs query fragment
        | '/' :: _ => some ⟨scheme, [], none, normalPath (· == '/') rest, query, fragment⟩
        | _ => some ⟨scheme, [], none, percentEncode [] rest, query, fragment⟩
  | (_, none) => none

/-- What a request asks for on its host. -/
def target (u : Url) : String :=
  String.ofList (u.path ++ (u.query.map ('?' :: ·)).getD [])

def render (u : Url) : String :=
  let isFile := u.scheme = "file".toList
  let port := (u.port.map fun n => s!":{n}").getD ""
  let authority := if u.host.isEmpty && !isFile then "" else s!"//{String.ofList u.host}{port}"
  let fragment := String.ofList ((u.fragment.map ('#' :: ·)).getD [])
  s!"{String.ofList u.scheme}:{authority}{u.target}{fragment}"

/-- Requests can be sent to hosts by two schemes. -/
def isWeb (u : Url) : Bool := !u.host.isEmpty && (u.scheme = "http".toList || u.scheme = "https".toList)

end Url

end VaultChat.Http
