import TurnRelay.Http.Exchange

/-!
# Who the client is

Admission control counts requests per client, and the client is the remote host of the
connection: the address without the service number after its last colon. A proxy in front may name the real client in the
`True-Client-IP`, `X-Real-IP` or `X-Forwarded-For` header (the first one present, and of a
forwarded list its first entry); that name is used only when it is an IP address.

## Main definitions

* `isIPv4`, `isIPv6`, `isIP`.
* `hostOf`: the host part of `host:service`, if the address has that form.
* `clientOf`: the client a request counts for.
-/

namespace TurnRelay.Http

/-- Splits a text at every occurrence of a character. -/
def splitAt (s : String) (c : Char) : List String := s.splitOn c.toString

/-- A decimal byte without a leading zero. -/
def isDecimalByte (s : String) : Bool :=
  let cs := s.toList
  !cs.isEmpty && cs.length ≤ 3 && cs.all Char.isDigit && (cs.length == 1 || cs.head? != some '0') &&
    s.toNat! ≤ 255

/-- A dotted IPv4 address. -/
def isIPv4 (s : String) : Bool :=
  let parts := splitAt s '.'
  parts.length == 4 && parts.all isDecimalByte

/-- A group of an IPv6 address: one to four hexadecimal digits. -/
def isHexGroup (s : String) : Bool :=
  let cs := s.toList
  !cs.isEmpty && cs.length ≤ 4 && cs.all Char.isHexDigit

/-- Whether groups make up `n` 16-bit pieces, the last group possibly a dotted IPv4 address
worth two. -/
def groupsWorth (gs : List String) : Option Nat :=
  match gs.reverse with
  | [] => some 0
  | last :: rest =>
    if rest.all isHexGroup then
      if isHexGroup last then some (gs.length)
      else if isIPv4 last then some (gs.length + 1)
      else none
    else none

/-- An IPv6 address, with at most one `::`. -/
def isIPv6 (s : String) : Bool :=
  match s.splitOn "::" with
  | [whole] =>
    match groupsWorth (splitAt whole ':') with
    | some 8 => true
    | _ => false
  | [l, r] =>
    let left := if l == "" then [] else splitAt l ':'
    let right := if r == "" then [] else splitAt r ':'
    match groupsWorth left, groupsWorth right with
    | some a, some b =>
      left.all isHexGroup && a + b ≤ 7
    | _, _ => false
  | _ => false

/-- Whether a text is an IP address. -/
def isIP (s : String) : Bool := isIPv4 s || isIPv6 s

/-- The host of `host:service`, or of `[host]:service`; none when the address does not have that
form. -/
def hostOf (addr : String) : Option String :=
  let cs := addr.toList
  match cs.findIdx? (· == ':') with
  | none => none
  | some _ =>
    let lastColon := cs.length - 1 - (cs.reverse.findIdx? (· == ':')).getD 0
    if cs.head? == some '[' then
      match cs.findIdx? (· == ']') with
      | none => none
      | some close =>
        if close + 1 != lastColon then none
        else
          let host := (cs.drop 1).take (close - 1)
          if (cs.drop 1).contains '[' || (cs.drop (close + 1)).contains ']' then none
          else some (String.ofList host)
    else
      let host := cs.take lastColon
      if host.contains ':' || cs.contains '[' || cs.contains ']' then none
      else some (String.ofList host)

/-- The address a proxy names as the real client, if it names an IP address. -/
def forwardedClient (h : Headers) : Option String :=
  let named :=
    if h.get "True-Client-IP" != "" then h.get "True-Client-IP"
    else if h.get "X-Real-IP" != "" then h.get "X-Real-IP"
    else ((h.get "X-Forwarded-For").splitOn ",").headD ""
  if named != "" && isIP named then some named else none

/-- The client a request counts for: the remote address as a proxy names it, without its
service number. -/
def clientOf (h : Headers) (remoteAddr : String) : String :=
  let addr := (forwardedClient h).getD remoteAddr
  (hostOf addr).getD addr

end TurnRelay.Http
