import DoRunner.Cli

/-!
# The program

Reads its arguments and its input, and prints what `DoRunner.Cli.run` says.
-/

namespace DoRunner

/-- All bytes of a stream, appended to those read so far. -/
partial def readAll (input : IO.FS.Stream) (bytes : ByteArray) : IO ByteArray := do
  let piece ← input.read 65536
  if piece.isEmpty then return bytes
  readAll input (bytes ++ piece)

end DoRunner

/-- Runs the command line. The input is read only when the arguments are good. -/
def main (args : List String) : IO UInt32 := do
  let outcome ← match DoRunner.Cli.readArgs .default (args.map String.toList) with
    | none => pure DoRunner.Cli.badArguments
    | some options => do
      let bytes ← DoRunner.readAll (← IO.getStdin) .empty
      pure (DoRunner.Cli.onInput options bytes.toList)
  (← IO.getStdout).putStr (String.ofList outcome.stdout)
  return outcome.exit.toUInt32
