import DoRunner.Path

/-!
# The files of a session

All files that a session reads or writes are in its cache directory: the include script, the logs
and the exported graphs.
-/

namespace DoRunner

/-- The cache directory of a session. -/
structure CachePaths where
  /-- The directory. -/
  root : Text
deriving DecidableEq, Repr

namespace CachePaths

/-- What the names of all exported graphs start with. -/
def graphStem : Text := "graph".toList

/-- The script through which a chunk is run when its lines are not sent one by one. -/
def includeScript (cache : CachePaths) : Text := Path.join cache.root "include.do".toList

/-- The log with the given number. -/
def logFile (cache : CachePaths) (index : Nat) : Text :=
  Path.join cache.root ("log".toList ++ Text.ofNat index ++ ".log".toList)

/-- The directory as it is written in commands. -/
def rootForCommands (cache : CachePaths) : Text := Path.forCommands cache.root

/-- The include script as it is written in commands. -/
def includeForCommands (cache : CachePaths) : Text := Path.forCommands cache.includeScript

end CachePaths

end DoRunner
