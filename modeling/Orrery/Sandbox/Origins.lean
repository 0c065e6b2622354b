import Orrery.Foundation.Casing
import Orrery.Sandbox.Paths

/-! Origins of the pages an agent visits: `_origin_of` (actions/browser.py), which takes the
origin from a URL, and the patterns that grant origins (sandbox/policy.py). Beside them
stands what a browser takes for the host of the same URL. -/
namespace Orrery.Sandbox
open Foundation Casing TextSplits
open JsonLines (isSpace)

structure Library where
  unicode : Unicode
  nfkc : List Char → List Char
  /-- What the address between the brackets of a netloc is refused with. -/
  bracketed : List Char → Option String
  repr : List Char → String

def isBlank (c : Char) : Bool := c.toNat ≤ 32

def isRemoved (c : Char) : Bool := c == '\t' || c == '\r' || c == '\n'

def isSchemeChar (c : Char) : Bool := c.isAlphanum || c == '+' || c == '-' || c == '.'

def splitScheme (text : List Char) : Option (List Char × List Char) :=
  match partition [':'] text with
  | none => none
  | some (scheme,rest) =>
    if scheme.head?.any Char.isAlpha && scheme.all isSchemeChar then some (scheme,rest) else none

def endsNetloc (c : Char) : Bool := c == '/' || c == '?' || c == '#'

def splitUrl (url : List Char) : List Char × List Char :=
  let text := (url.dropWhile isBlank).filter fun c => !isRemoved c
  (splitScheme text).getD ([],text)

def netlocOf (url : List Char) : List Char :=
  let rest := (splitUrl url).2
  if ['/','/'].isPrefixOf rest then (rest.drop 2).takeWhile fun c => !endsNetloc c else []

section Gate
variable (library : Library)

def checkNetloc (netloc : List Char) : Except String Unit :=
  if netloc.all fun c => c.toNat < 128 then .ok ()
  else
    let n := netloc.filter fun c => !(c == '@' || c == ':' || c == '#' || c == '?')
    if library.nfkc n = n then .ok ()
    else if (library.nfkc n).any fun c => c == '/' || c == '?' || c == '#' || c == '@' || c == ':' then
      .error ("netloc '" ++ String.ofList netloc ++ "' contains invalid characters under NFKC normalization")
    else .ok ()

def checkBrackets (netloc : List Char) : Except String Unit :=
  match netloc.contains '[', netloc.contains ']' with
  | false, false => .ok ()
  | true, true =>
    match library.bracketed netloc with
    | some message => .error message
    | none => .ok ()
  | _, _ => .error "Invalid IPv6 URL"

def urlparse (url : List Char) : Except String (List Char × List Char) := do
  checkBrackets library (netlocOf url)
  checkNetloc library (netlocOf url)
  pure (library.unicode.lowercase (splitUrl url).1,netlocOf url)

def originOf (url : List Char) : Except String (List Char) := do
  let (scheme,netloc) ← urlparse library (JsonLines.strip url)
  if scheme.isEmpty || netloc.isEmpty then throw ("invalid URL: " ++ library.repr url)
  pure (library.unicode.lowercase scheme ++ "://".toList ++ library.unicode.lowercase netloc)

end Gate

section Policy
variable (u : Unicode)

def hostPatternMatches (pattern hostname : List Char) : Bool :=
  let hn := u.lowercase hostname
  let pat := u.lowercase pattern
  if ['*','.'].isPrefixOf pat then
    let suffix := pat.drop 1
    suffix.isSuffixOf hn && decide (suffix.length < hn.length)
  else pat == hn

def defaultPorts : List (List Char × Int) := [("http".toList,80),("https".toList,443)]

def splitOrigin (value : List Char) : Option (List Char × List Char × Int) :=
  match partition "://".toList (u.lowercase (JsonLines.strip value)) with
  | none => none
  | some (scheme,rest) =>
    if scheme.isEmpty || rest.isEmpty then none
    else
      let (host,port) := (partition [':'] rest).elim (rest,none) fun (host,portRaw) => (host,some portRaw)
      if host.isEmpty || rest.contains '/' then none
      else (port.elim (defaultPorts.lookup scheme) u.pyInt).map fun port => (scheme,host,port)

def matchOrigin (grant : CapabilityGrant) (origin : List Char) : Bool :=
  if !"browser.".toList.isPrefixOf grant.capability.toList then false
  else
    match splitOrigin u origin with
    | none => false
    | some (scheme,host,port) =>
      grant.patterns.any fun pattern =>
        (splitOrigin u pattern.toList).any fun (pScheme,pHost,pPort) =>
          pScheme == scheme && pPort == port && hostPatternMatches u pHost host

def allowsOrigin (grants : List CapabilityGrant) (capability : String) (origin : List Char) : Bool :=
  (grants.filter fun g => g.capability == capability).any fun g => matchOrigin u g origin

end Policy

section Browser

def specialSchemes : List (List Char) :=
  ["http".toList,"https".toList,"ws".toList,"wss".toList,"ftp".toList]

def isSlash (c : Char) : Bool := c == '/' || c == '\\'

def endsAuthority (c : Char) : Bool := isSlash c || c == '?' || c == '#'

local instance chars_lawful : LawfulBEq (List Char) := inferInstance

def authorityOf (url : List Char) : Option (List Char) :=
  let url := ((url.dropWhile isBlank).rdropWhile isBlank).filter fun c => !isRemoved c
  match splitScheme url with
  | none => none
  | some (scheme,rest) =>
    if scheme.map Char.toLower ∈ specialSchemes then
      some ((rest.dropWhile isSlash).takeWhile fun c => !endsAuthority c)
    else none

def afterUserinfo (authority : List Char) : List Char := authority.rtakeWhile (· != '@')

def dropPort (bracket : Bool) : List Char → List Char
  | [] => []
  | c :: rest =>
    if c = ':' ∧ bracket = false then []
    else c :: dropPort (if c = '[' then true else if c = ']' then false else bracket) rest

def isForbidden (c : Char) : Bool :=
  isSpace c || c.toNat < 32 || c.toNat == 127 || "#/:<>?@[\\]^|".toList.contains c

def isHost (host : List Char) : Bool :=
  if host.head? = some '[' then host.getLast? = some ']' && host.contains ':'
  else !host.isEmpty && !host.any isForbidden

def hostIn (authority : List Char) : Option (List Char) :=
  let host := dropPort false (afterUserinfo authority)
  if isHost host then some host else none

def browserHost (url : List Char) : Option (List Char) := (authorityOf url).bind hostIn

end Browser

end Orrery.Sandbox
