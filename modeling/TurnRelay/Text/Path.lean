/-!
# Slash-separated paths

A path is cleaned by dropping empty and `.` elements and resolving `..` against the element
before it; a `..` that climbs above the start is kept in a relative path and dropped in a rooted
one. The clean form of the empty path is `.`. Joining a directory and a name cleans their
concatenation.

## Main definitions

* `cleanPath`, `joinPath`, `isAbsolutePath`.
-/

namespace TurnRelay.Text

/-- Resolves the elements of a path, the last one kept first. -/
def resolveElements (rooted : Bool) : List String → List String → List String
  | [], acc => acc
  | e :: rest, acc =>
    if e == "" || e == "." then resolveElements rooted rest acc
    else if e == ".." then
      match acc with
      | top :: below => if top != ".." then resolveElements rooted rest below
          else resolveElements rooted rest (".." :: acc)
      | [] => if rooted then resolveElements rooted rest [] else resolveElements rooted rest [".."]
    else resolveElements rooted rest (e :: acc)

/-- The shortest path naming the same file by purely textual rules. -/
def cleanPath (p : String) : String :=
  let rooted := p.startsWith "/"
  let body := "/".intercalate (resolveElements rooted (p.splitOn "/") []).reverse
  if rooted then "/" ++ body
  else if body.isEmpty then "."
  else body

/-- A name inside a directory. -/
def joinPath (dir name : String) : String := cleanPath (dir ++ "/" ++ name)

/-- Whether a path starts at the root. -/
def isAbsolutePath (p : String) : Bool := p.startsWith "/"

end TurnRelay.Text
