/-!
# One response on a connection

A response has a header, a status, a body, and a count of flushes. The status and the header
are sent with the first write (or the first explicit status); after that the header as sent is
what the client has. Writes to the connection may fail, each with a reason; a failed write adds
nothing to the body. A connection may also be unable to flush at all, which rules out
streaming.

Header names are kept in canonical form: the first letter and every letter after a hyphen in
capitals, the rest in small letters; a name with a character that cannot appear in a header
name is kept as it is.

## Main definitions

* `Headers`, `canonicalKey`.
* `WriteFault` and `Conn` with `setHeader`, `addHeader`, `writeHeader`, `write`, `flush`.
-/

namespace TurnRelay.Http

/-- Whether a character may appear in a header name. -/
def isTokenChar (c : Char) : Bool :=
  c.isAlphanum || [33, 35, 36, 37, 38, 39, 42, 43, 45, 46, 94, 95, 96, 124, 126].contains c.toNat

/-- The canonical form of a header name. -/
def canonicalKey (s : String) : String :=
  if !s.toList.all isTokenChar then s
  else
    let (_, out) := s.toList.foldl (fun (upper, acc) c =>
      let c' := if upper then c.toUpper else c.toLower
      (c == '-', acc.push c')) (true, "")
    out

/-- Header fields by canonical name, each with its values in order. -/
abbrev Headers := List (String × List String)

/-- The first value of a header field, or the empty text. -/
def Headers.get (h : Headers) (name : String) : String :=
  match h.find? (·.1 == canonicalKey name) with
  | some (_, v :: _) => v
  | _ => ""

/-- Sets a header field to one value. -/
def Headers.set (h : Headers) (name value : String) : Headers :=
  let k := canonicalKey name
  if h.any (·.1 == k) then h.map fun (k', vs) => if k' == k then (k', [value]) else (k', vs)
  else h ++ [(k, [value])]

/-- Adds a value to a header field. -/
def Headers.add (h : Headers) (name value : String) : Headers :=
  let k := canonicalKey name
  if h.any (·.1 == k) then h.map fun (k', vs) => if k' == k then (k', vs ++ [value]) else (k', vs)
  else h ++ [(k, [value])]

/-- Why a write to the connection failed. All but the last mean the client is gone. -/
inductive WriteFault where
  | brokenPipe
  | connectionReset
  | closed
  | timeout
  | other (message : String)
  deriving Inhabited, DecidableEq

/-- Whether a fault means the client went away. -/
def WriteFault.isDisconnect : WriteFault → Bool
  | .other _ => false
  | _ => true

/-- The wording of a fault. -/
def WriteFault.message : WriteFault → String
  | .brokenPipe => "broken pipe"
  | .connectionReset => "connection reset by peer"
  | .closed => "use of closed network connection"
  | .timeout => "http: Handler timeout"
  | .other m => m

/-- A response in the making. -/
structure Conn where
  header : Headers := []
  /-- The status and header as sent, once sent. -/
  sent : Option (Nat × Headers) := none
  body : ByteArray := ByteArray.empty
  flushes : Nat := 0
  /-- The number of writes attempted so far. -/
  writes : Nat := 0
  canFlush : Bool := true
  /-- How the write with a given number (from 1) fails, if it does. -/
  fault : Nat → Option WriteFault := fun _ => none

namespace Conn

/-- Sets a header field, as the handler sees it. -/
def setHeader (c : Conn) (name value : String) : Conn := { c with header := c.header.set name value }

/-- Adds a value to a header field. -/
def addHeader (c : Conn) (name value : String) : Conn := { c with header := c.header.add name value }

/-- Sends the status and header, unless they were sent already. -/
def writeHeader (c : Conn) (status : Nat) : Conn :=
  if c.sent.isSome then c else { c with sent := some (status, c.header) }

/-- Writes bytes, sending a `200` first if nothing was sent; the fault, if the write fails. -/
def write (c : Conn) (bytes : ByteArray) : Option WriteFault × Conn :=
  let c := c.writeHeader 200
  let n := c.writes + 1
  match c.fault n with
  | some f => (some f, { c with writes := n })
  | none => (none, { c with writes := n, body := c.body ++ bytes })

/-- Flushes what was written. -/
def flush (c : Conn) : Conn :=
  let c := c.writeHeader 200
  { c with flushes := c.flushes + 1 }

/-- The status the client sees: `200` when none was sent. -/
def status (c : Conn) : Nat := (c.sent.map (·.1)).getD 200

/-- The header the client sees. -/
def shownHeader (c : Conn) : Headers := (c.sent.map (·.2)).getD c.header

end Conn

end TurnRelay.Http
