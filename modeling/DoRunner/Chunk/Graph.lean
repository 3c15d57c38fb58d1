import DoRunner.Chunk.CachePaths

/-!
# Exporting graphs

After a statement that draws, two lines are injected: one exports the graph to a numbered file in
the cache directory, the next counts the number up. The number lives in a global macro of the
session, so that the lines are the same each time.
-/

namespace DoRunner

/-- The global macro that holds the number of the next exported graph. -/
def graphCounter : Text := "stata_kernel_graph_counter".toList

/-- The reference to the graph counter in a command. -/
def graphCounterValue : Text := "$\x7b".toList ++ graphCounter ++ "\x7d".toList

/-- How graphs are exported. -/
structure GraphExport where
  /-- The file extension, which also selects the format. -/
  extension : Text
  /-- The width in pixels, where the format takes one. -/
  width : Option Nat
  /-- The height in pixels, where the format takes one. -/
  height : Option Nat
deriving DecidableEq, Repr

namespace GraphExport

/-- Scalable graphics of 600 by 400 pixels. -/
def default : GraphExport := ⟨"svg".toList, some 600, some 400⟩

/-- An option of the export command with a number in parentheses, set off by a blank. -/
def sizeOption (name : String) : Option Nat → Text
  | some n => ' ' :: name.toList ++ '(' :: Text.ofNat n ++ [')']
  | none => []

/-- The line that exports a graph. -/
def exportLine (g : GraphExport) (cache : CachePaths) : Text :=
  "noi gr export \"".toList ++ cache.rootForCommands ++ '/' :: CachePaths.graphStem ++
    graphCounterValue ++ '.' :: g.extension ++ "\",".toList ++ sizeOption "width" g.width ++
    sizeOption "height" g.height ++ " replace".toList

/-- The line that counts the graph up. -/
def incrementLine : Text :=
  "global ".toList ++ graphCounter ++ " = ".toList ++ graphCounterValue ++ " + 1".toList

end GraphExport

end DoRunner
