import DoRunner.Statement.Head

/-!
# Statements that draw

A graph is exported after each statement that draws one. Which commands draw is a matter of their
names alone: a catalog of drawing commands, the `graph` command with all but a few of its
subcommands, and the keywords that the user adds.
-/

namespace DoRunner

/-- The commands that draw a graph. -/
def plotCommands : Catalog :=
  [⟨"twoway".toList, 2⟩, ⟨"scatter".toList, 2⟩, ⟨"line".toList, 4⟩, ⟨"histogram".toList, 4⟩,
   ⟨"kdensity".toList, 5⟩, ⟨"lowess".toList, 6⟩, ⟨"lpoly".toList, 5⟩, ⟨"tsline".toList, 6⟩,
   ⟨"tsrline".toList, 7⟩, ⟨"rvfplot".toList, 7⟩, ⟨"rvpplot".toList, 7⟩, ⟨"avplot".toList, 6⟩,
   ⟨"avplots".toList, 7⟩, ⟨"cprplot".toList, 7⟩, ⟨"acprplot".toList, 8⟩, ⟨"lvr2plot".toList, 8⟩,
   ⟨"qnorm".toList, 5⟩, ⟨"pnorm".toList, 5⟩, ⟨"qqplot".toList, 6⟩, ⟨"symplot".toList, 7⟩,
   ⟨"quantile".toList, 8⟩]

/-- The command whose subcommands draw, a few apart. -/
def graphCommand : Catalog := [⟨"graph".toList, 2⟩]

/-- The subcommands of `graph` that draw nothing. They are not abbreviated. -/
def nonDrawingSubcommands : List Text :=
  ["close", "copy", "describe", "dir", "drop", "export", "print", "query", "rename", "save",
   "set"].map String.toList

/-- The commands that draw, as one session knows them. -/
structure PlotCatalog where
  /-- Further commands that draw, written in full. -/
  userKeywords : List Text
deriving DecidableEq, Repr

namespace PlotCatalog

/-- The catalog with further keywords, blank ones left out. -/
def ofKeywords (keywords : List Text) : PlotCatalog :=
  ⟨(keywords.map Text.trim).filter (· ≠ [])⟩

/-- Whether the statement draws a graph. -/
def isPlotLine (catalog : PlotCatalog) (line : Text) : Bool :=
  let head := statementHead line
  if head.command = [] then false
  else if graphCommand.accepts head.command then
    !nonDrawingSubcommands.contains (leadingWord (Text.trimStart head.rest))
  else plotCommands.accepts head.command || catalog.userKeywords.contains head.command

end PlotCatalog

end DoRunner
