import DoRunner.Chunk.Assembly
import DoRunner.Completeness

/-!
# The command line

The command reads a source buffer and reports whether it is complete and, if it is, the chunk that
would be sent for it. Options choose the delimiter mode that the buffer starts in and the cache
directory that appears in the chunk. The options are read before the source, so a bad option is
reported whatever the source.
-/

namespace DoRunner.Cli

/-- What was asked for. -/
structure Options where
  /-- The delimiter mode that the buffer starts in. -/
  mode : DelimiterMode
  /-- The cache directory. -/
  cache : Text
deriving DecidableEq, Repr

/-- What is asked for without any option. -/
def Options.default : Options := ⟨.newline, "/tmp/stata_kernel_cache".toList⟩

/-- The options that arguments give, on top of those given so far. None when an argument is unknown
or lacks its value. -/
def readArgs (options : Options) : List Text → Option Options
  | [] => some options
  | arg :: args =>
    if arg = "--delimit".toList then readArgs { options with mode := .semicolon } args
    else if arg = "--cache".toList then
      match args with
      | [] => none
      | directory :: args => readArgs { options with cache := directory } args
    else none

/-- How a delimiter mode is reported. -/
def modeReport : DelimiterMode → Text
  | .newline => "Newline".toList
  | .explicit terminator => "Explicit('".toList ++ terminator :: "')".toList

/-- How a truth value is reported. -/
def boolReport (b : Bool) : Text := (if b then "true" else "false").toList

/-- The lines of the report on a source buffer. -/
def report (options : Options) (code : Text) : List Text :=
  let verdict := checkComplete code options.mode
  let complete := "complete: ".toList ++ boolReport verdict.isComplete
  match verdict.incomplete with
  | some reason => [complete, "reason: ".toList ++ reason.name.toList]
  | none =>
    let analysis := Analysis.ofCode code options.mode
    let chunk := (assemble analysis (.default ⟨options.cache⟩) ⟨options.mode, 0⟩).1
    [complete, "next delimiter: ".toList ++ modeReport verdict.nextMode,
      "indirect: ".toList ++ boolReport chunk.indirect,
      "fingerprint: ".toList ++ chunk.fingerprint, "--- body".toList] ++ chunk.body ++
      ["--- submission".toList, chunk.submission]

/-- How the command ends: its exit code and what it prints. -/
structure Outcome where
  /-- The exit code. -/
  exit : Nat
  /-- What is printed. -/
  stdout : Text
deriving DecidableEq, Repr

/-- How the command ends when its arguments are bad. -/
def badArguments : Outcome := ⟨2, []⟩

/-- How the command ends on the bytes of its input. Input that is no text ends it with code 1 and
prints nothing. -/
def onInput (options : Options) (input : List UInt8) : Outcome :=
  match Utf8.decode? input with
  | none => ⟨1, []⟩
  | some code => ⟨0, (report options code).flatMap fun line => line ++ ['\n']⟩

/-- What the command does with its arguments and its input. -/
def run (args : List Text) (input : List UInt8) : Outcome :=
  match readArgs .default args with
  | none => badArguments
  | some options => onInput options input

end DoRunner.Cli
