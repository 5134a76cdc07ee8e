import TurnRelay.Assistant.Provider
import TurnRelay.Text.Space
import TurnRelay.Text.Path

/-!
# Running the command-line assistant

A turn runs the assistant's program once. Its standard output is read line by line (a line
ends at a line feed, one carriage return before it is dropped, and a last line without a line
feed counts too); blank lines, lines that cannot be read and lines of unknown type are passed
over, and every other line is one result. A line longer than the reader accepts ends the
reading with a failure.

When the process has exited, a failure follows the results if it exited unsuccessfully before
writing the turn's result line; the failure tells the last line the process wrote to its error
stream. Only the last 4096 bytes of the error stream are kept.

The program is named by a path; a bare name is looked up in the directories of a search path,
and with the empty search path a turn uses it is never found. What exists on the host is given
by a `Host`.

## Main definitions

* `splitLines`, `tailBytes`, `TailBuffer`, `lastLine`.
* `turnResults`: the results of a finished process.
* `resolveProgramOn`, `resolveProgram`, `startProgram`.
-/

namespace TurnRelay.Assistant

/-- The longest output line that is read, in bytes. -/
def maxLineSize : Nat := 16 * 1024 * 1024

/-- How many bytes of the error stream are kept. -/
def stderrTailSize : Nat := 4096

/-- The offset of the first line feed at or after `i`, or the size. -/
def nextNewline (bs : ByteArray) (i : Nat) : Nat :=
  if i < bs.size then
    if Utf8.byteAt bs i == 0x0A then i else nextNewline bs (i + 1)
  else bs.size
termination_by bs.size - i

/-- The line feed found from `i` on is not before `i`. -/
theorem nextNewline_ge (bs : ByteArray) (i : Nat) (hi : i ≤ bs.size) : i ≤ nextNewline bs i := by
  induction i using nextNewline.induct bs with
  | case1 i h hb => unfold nextNewline; simp [h, hb]
  | case2 i h hb ih => unfold nextNewline; rw [if_pos h, if_neg hb]; have := ih (by omega); omega
  | case3 i h => unfold nextNewline; rw [if_neg h]; omega

/-- A line without the carriage return at its end. -/
def dropCR (line : ByteArray) : ByteArray :=
  if line.size > 0 && Utf8.byteAt line (line.size - 1) == 0x0D then line.extract 0 (line.size - 1)
  else line

/-- The lines of `bs` from offset `i`, and whether the reading stopped at a line longer than
the reader accepts. -/
def splitLinesFrom (bs : ByteArray) (i : Nat) : List ByteArray × Bool :=
  if h : i < bs.size then
    let j := nextNewline bs i
    if j - i ≥ maxLineSize then ([], true)
    else
      have : bs.size - (j + 1) < bs.size - i := by
        have := nextNewline_ge bs i (by omega)
        omega
      let (rest, long) := splitLinesFrom bs (j + 1)
      (dropCR (bs.extract i j) :: rest, long)
  else ([], false)
termination_by bs.size - i

/-- The lines of an output stream, and whether the reading stopped at an over-long line. -/
def splitLines (bs : ByteArray) : List ByteArray × Bool := splitLinesFrom bs 0

/-- The last `n` bytes of `bs`, or all of them. -/
def tailBytes (bs : ByteArray) (n : Nat) : ByteArray := bs.extract (bs.size - n) bs.size

/-- A buffer that keeps the last `max` bytes written to it; the error stream of a process is
written into one. -/
structure TailBuffer where
  max : Nat
  bytes : ByteArray := .empty

/-- Takes all of `p`, then drops from the front of the buffer the bytes that pass the bound. A
write never fails: it reports every byte of `p` as written. -/
def TailBuffer.write (t : TailBuffer) (p : ByteArray) : Nat × TailBuffer :=
  let buf := t.bytes ++ p
  let excess := buf.size - t.max
  (p.size, { t with bytes := if excess > 0 then buf.extract excess buf.size else buf })

/-- One write into an empty buffer keeps the last `max` bytes written. -/
@[simp] theorem TailBuffer.write_empty_bytes (n : Nat) (p : ByteArray) :
    (({ max := n } : TailBuffer).write p).2.bytes = tailBytes p n := by
  simp only [TailBuffer.write, ByteArray.empty_append, tailBytes]
  split
  · rfl
  · rw [Nat.sub_eq_zero_of_le (by omega), ByteArray.extract_zero_size]

/-- The offset just after the last line feed in `bs[0:i]`, or `0`. -/
def afterLastNewline (bs : ByteArray) : Nat → Nat
  | 0 => 0
  | i + 1 => if Utf8.byteAt bs i == 0x0A then i + 1 else afterLastNewline bs i

/-- The last line of a text, trimmed of white space. -/
def lastLine (bs : ByteArray) : ByteArray :=
  let t := Utf8.trimSpace bs
  Utf8.trimSpace (t.extract (afterLastNewline t t.size) t.size)

/-- How a process ended. -/
inductive ExitStatus where
  | exited (code : Nat)
  | signaled
  deriving Inhabited, DecidableEq

/-- The exit code a failure reports: `-1` for a signal. -/
def ExitStatus.code : ExitStatus → Int
  | .exited n => n
  | .signaled => -1

/-- Whether the process succeeded. -/
def ExitStatus.success (s : ExitStatus) : Bool := s == .exited 0

/-- What a finished process wrote and how it ended. -/
structure ProcessRun where
  stdout : ByteArray
  stderr : ByteArray
  status : ExitStatus

/-- What the assistant's program does when it runs: from its argument vector and the bytes on
its standard input, what it writes and how it ends. -/
abbrev Program := List String → ByteArray → ProcessRun

/-- The results read from output lines, and whether a result line was among them. -/
def readLines : List ByteArray → List Item × Bool
  | [] => ([], false)
  | line :: rest =>
    let (items, saw) := readLines rest
    if (Utf8.trimSpace line).size == 0 then (items, saw)
    else
      match Message.parseLine line with
      | .ok (some m@(.result _)) => (.message m :: items, true)
      | .ok (some m) => (.message m :: items, saw)
      | _ => (items, saw)

/-- The failure of a process that exited before completing the turn. -/
def exitFailure (stderr : ByteArray) (status : ExitStatus) : ProcessError :=
  let base := "claude exited before completing the turn".toUTF8
  let last := lastLine stderr
  { message := if last.size == 0 then base else (base ++ ": ".toUTF8) ++ last,
    stderr := stderr, exitCode := status.code }

/-- The results of a finished process, in the order they are handed over. -/
def turnResults (run : ProcessRun) : List Item :=
  let stderr := (({ max := stderrTailSize } : TailBuffer).write run.stderr).2.bytes
  let (lines, long) := splitLines run.stdout
  let (items, sawResult) := readLines lines
  if long then
    items ++ [.failure (.process { message := "failed reading CLI output".toUTF8, stderr := stderr })]
  else if !run.status.success && !sawResult then
    items ++ [.failure (.process (exitFailure stderr run.status))]
  else items

/-- What a path names on the host. -/
inductive PathKind where
  | missing
  | notDirectory
  | directory
  | file (executable : Bool)
  deriving Inhabited, DecidableEq

/-- The file system as the relay sees it. -/
structure Host where
  kind : String → PathKind

/-- The program name used when none is configured. -/
def defaultProgram : String := "claude"

/-- Why a path is not a program that can be run, as the lookup words it; none when it is. -/
def PathKind.problem (path : String) : PathKind → Option String
  | .missing => some ("stat " ++ path ++ ": no such file or directory")
  | .notDirectory => some ("stat " ++ path ++ ": not a directory")
  | .directory => some "is a directory"
  | .file false => some "permission denied"
  | .file true => none

/-- The wording of a failed lookup of `path`. -/
def lookupFailure (path reason : String) : String := "exec: " ++ Text.quote path ++ ": " ++ reason

/-- A bare name is looked up in the search path, which is empty. -/
def notOnPath (path : String) : String := lookupFailure path "executable file not found in $PATH"

/-- Why a path cannot be run as a program, if it cannot. -/
def Host.problem (host : Host) (p : String) : Option String := (host.kind p).problem p

/-- The first directory of a search path holding the program `name`, and the path found; an
empty directory stands for the current one. -/
def searchPath (host : Host) (name : String) : List String → Option String
  | [] => none
  | dir :: rest =>
    let candidate := Text.joinPath (if dir == "" then "." else dir) name
    if (host.problem candidate).isNone then some candidate else searchPath host name rest

/-- Resolves the configured program path against a search path: a name with a `/` must be an
executable file; a bare name is looked up in the search path's directories, and one found
relative to the current directory is refused. -/
def resolveProgramOn (host : Host) (dirs : List String) (path : String) :
    Except NotFoundError String :=
  let p := if path == "" then defaultProgram else path
  if p.contains '/' then
    match host.problem p with
    | some reason => .error ⟨p, lookupFailure p reason⟩
    | none => .ok p
  else
    match searchPath host p dirs with
    | none => .error ⟨p, notOnPath p⟩
    | some found =>
      if Text.isAbsolutePath found then .ok found
      else .error ⟨p, lookupFailure p "cannot run executable found relative to current directory"⟩

/-- Resolves the configured program path with an empty search path, where a bare name is never
found. -/
def resolveProgram (host : Host) (path : String) : Except NotFoundError String :=
  resolveProgramOn host [] path

/-- Starts the program at `path` in `workDir` (the current directory when empty) for one turn:
the process gets the turn's flags as its arguments and the prompt on its standard input, and
`program` says what it does with them. -/
def startProgram (host : Host) (path workDir : String) (program : Program) (prompt : ByteArray)
    (opts : TurnOptions) : Started :=
  let cannotStart : Started := .failed (.process { message := "failed to start CLI process".toUTF8 })
  if path == "" then cannotStart
  else if !path.contains '/' then .failed (.notFound ⟨path, notOnPath path⟩)
  else if host.kind path != .file true then cannotStart
  else if workDir != "" && host.kind workDir != .directory then cannotStart
  else .items (turnResults (program opts.args prompt))

end TurnRelay.Assistant
