import TurnRelay.Text.Utf8

/-!
# Routes

The gateway serves four routes, each for one method: the service descriptor at `/` and the
health report at `/health` for `GET`, and the messages endpoint at `/v1/messages` and
`/messages` for `POST`. Paths match exactly, case and trailing slash included, and the query
takes no part.

A request whose method the router does not know at all is refused before its path is looked
at; one for a known path with another method is refused with the methods the path allows; any
other is not found.

## Main definitions

* `Endpoint`, `Route`, `route`.
* `requestPath`, `unescapePath`: the path routed on, and the path as the client meant it.
-/

namespace TurnRelay.Http

/-- The methods the router knows. -/
def knownMethods : List String :=
  ["CONNECT", "DELETE", "GET", "HEAD", "OPTIONS", "PATCH", "POST", "PUT", "TRACE"]

/-- What the gateway serves. -/
inductive Endpoint where
  | root
  | health
  | messages
  deriving DecidableEq, Inhabited

/-- The routing table: path, method, endpoint. -/
def routes : List (String × String × Endpoint) :=
  [("/", "GET", .root), ("/health", "GET", .health),
   ("/v1/messages", "POST", .messages), ("/messages", "POST", .messages)]

/-- Where a request goes. -/
inductive Route where
  | serve (e : Endpoint)
  /-- Refused for its method; the methods its path allows, if any. -/
  | notAllowed (allowed : List String)
  | notFound
  deriving DecidableEq, Inhabited

/-- Routes a request by method and path. -/
def route (method path : String) : Route :=
  if !knownMethods.contains method then .notAllowed []
  else
    let here := routes.filter (·.1 == path)
    match here.find? (·.2.1 == method) with
    | some (_, _, e) => .serve e
    | none => if here.isEmpty then .notFound else .notAllowed (here.map (·.2.1))

/-- What follows the scheme of a target such as `http://host/path`: the scheme is a letter and
then letters, digits, `+`, `-` or `.`, ended by a colon. None when the target has no scheme. -/
def afterScheme : List Char → Option (List Char)
  | c :: rest =>
    if !c.isAlpha then none
    else
      let more := rest.takeWhile fun d => d.isAlphanum || d == '+' || d == '-' || d == '.'
      match rest.drop more.length with
      | ':' :: after => some after
      | _ => none
  | [] => none

/-- The path of a request target: all before the query, without the scheme and authority of an
absolute target (`http://host/path`), and `/` when that leaves nothing. An absolute target
whose rest does not start with `/` has no path. -/
def requestPath (target : String) : String :=
  let cs := target.toList.takeWhile (· != '?')
  let path :=
    match afterScheme cs with
    | some ('/' :: '/' :: authority) => authority.dropWhile (· != '/')
    | some rest@('/' :: _) => rest
    | some _ => []
    | none => cs
  if path.isEmpty then "/" else String.ofList path

/-- The value of a hexadecimal digit. -/
def hexValue (c : Char) : Option Nat :=
  if c.isDigit then some (c.toNat - '0'.toNat)
  else if 'a' ≤ c && c ≤ 'f' then some (c.toNat - 'a'.toNat + 10)
  else if 'A' ≤ c && c ≤ 'F' then some (c.toNat - 'A'.toNat + 10)
  else none

/-- The bytes of a path with each `%` and two hexadecimal digits replaced by the byte they
name; a `%` without them stands for itself. -/
def unescapeBytes : List Char → ByteArray → ByteArray
  | [], acc => acc
  | '%' :: h :: l :: rest, acc =>
    match hexValue h, hexValue l with
    | some a, some b => unescapeBytes rest (acc.push (a * 16 + b).toUInt8)
    | _, _ => unescapeBytes (h :: l :: rest) (acc ++ "%".toUTF8)
  | c :: rest, acc => unescapeBytes rest (acc ++ c.toString.toUTF8)

/-- A path as the client meant it, escapes decoded. -/
def unescapePath (p : String) : String := Utf8.decodeLossy (unescapeBytes p.toList ByteArray.empty)

end TurnRelay.Http
