import DoRunner.Chunk.Assembly
import DoRunner.Config.Binary64

/-!
# Configuration

A configuration says where the program is and how it is reached, where the session keeps its files,
how graphs are exported, and how patient the session is. `SessionConfig.normalize` puts it into the
form in which it is used, and `SessionConfig.validate` refuses values that no session can use.
-/

namespace DoRunner

/-- How a session reaches the program. -/
inductive ExecutionMode where
  /-- As a console process. -/
  | console
  /-- Through commands to the application, which writes a log. -/
  | automation
deriving DecidableEq, Repr

/-- The formats in which graphs are exported. -/
inductive GraphFormat where
  | svg
  | png
  | pdf
  | tif
deriving DecidableEq, Repr

namespace GraphFormat

/-- The file extension of the format. -/
def extension : GraphFormat → Text
  | svg => "svg".toList
  | png => "png".toList
  | pdf => "pdf".toList
  | tif => "tif".toList

/-- Whether graphs of the format are exported at a size in pixels. -/
def takesPixelSize : GraphFormat → Bool
  | pdf => false
  | _ => true

end GraphFormat

/-- Why a configuration cannot be used. -/
inductive ConfigError where
  /-- The text is no configuration. -/
  | parse
  /-- The file cannot be read. -/
  | read (path : Text)
  /-- A setting has a value that no session can use. -/
  | invalid (key reason : String)
deriving DecidableEq, Repr

namespace ConfigError

/-- The wording of the error. -/
def message : ConfigError → String
  | parse => "failed to parse configuration"
  | read path => "failed to read configuration file " ++ String.ofList path
  | invalid key reason => "invalid value for `" ++ key ++ "`: " ++ reason

end ConfigError

/-- The settings of one session. -/
structure SessionConfig where
  /-- Where the program is. -/
  programPath : Text
  /-- How the program is reached. -/
  executionMode : ExecutionMode
  /-- The directory of the session's files. A tilde in front stands for the home directory. -/
  cacheDirectory : Text
  /-- The format of exported graphs. -/
  graphFormat : GraphFormat
  /-- The width of graphs in pixels, before scaling. -/
  graphWidth : Nat
  /-- The height of graphs in pixels, before scaling. -/
  graphHeight : Nat
  /-- What width and height are multiplied by. -/
  graphScale : Binary64
  /-- Further commands that draw. -/
  userGraphKeywords : List Text
  /-- The width of output lines. -/
  linesize : Nat
  /-- The time that one call may take, in milliseconds. -/
  timeoutMs : Nat
  /-- The time between two looks at the program, in milliseconds. -/
  pollIntervalMs : Nat
  /-- The number of body lines beyond which a body is included from the script. -/
  indirectionThreshold : Nat
deriving DecidableEq, Repr

namespace SessionConfig

/-- The settings that hold where nothing else is said. -/
def default : SessionConfig where
  programPath := []
  executionMode := .console
  cacheDirectory := "~/.stata_kernel_cache".toList
  graphFormat := .svg
  graphWidth := 600
  graphHeight := 400
  graphScale := ⟨0x3FF0000000000000⟩
  userGraphKeywords := []
  linesize := 80
  timeoutMs := 300000
  pollIntervalMs := 50
  indirectionThreshold := 3

/-! ## Normal form -/

/-- The names of windowed programs, with those of the console programs that stand in for them. -/
def consoleVariants : List (Text × Text) :=
  [("xstata-mp".toList, "stata-mp".toList), ("xstata-se".toList, "stata-se".toList),
   ("xstata".toList, "stata".toList)]

/-- The path with a windowed program at its end replaced by the console program. -/
def consoleProgram (path : Text) : Text :=
  (consoleVariants.findSome? fun (windowed, console) =>
    (Text.before? windowed path).map (· ++ console)).getD path

/-- The configuration with the home directory put in, a console program where one is needed, and no
empty keywords. -/
def normalize (home : Option Text) (c : SessionConfig) : SessionConfig :=
  { c with
    cacheDirectory := Path.expandHome home c.cacheDirectory
    programPath :=
      if c.executionMode = .console then consoleProgram c.programPath else c.programPath
    userGraphKeywords := c.userGraphKeywords.filter (· ≠ []) }

/-! ## Validity -/

/-- The least width of output lines. -/
def leastLinesize : Nat := 40

/-- The greatest width of output lines. -/
def greatestLinesize : Nat := 255

/-- The first setting that no session can use, if there is one. -/
def fault? (c : SessionConfig) : Option ConfigError :=
  if c.linesize < leastLinesize ∨ greatestLinesize < c.linesize then
    some (.invalid "linesize" (toString c.linesize ++ " is outside " ++ toString leastLinesize ++
      "..=" ++ toString greatestLinesize))
  else if c.graphWidth = 0 ∨ c.graphHeight = 0 then
    some (.invalid "graph_width" "graph dimensions must be positive")
  else if c.graphScale.isPositive = false then
    some (.invalid "graph_scale" "must be a positive number")
  else if c.timeoutMs = 0 then some (.invalid "timeout_ms" "must be positive")
  else if c.pollIntervalMs = 0 ∨ c.timeoutMs < c.pollIntervalMs then
    some (.invalid "poll_interval_ms" "must be positive and not exceed timeout_ms")
  else if c.indirectionThreshold = 0 then
    some (.invalid "indirection_line_threshold" "must be positive")
  else if c.cacheDirectory = [] then some (.invalid "cache_directory" "must not be empty")
  else none

/-- Refuses values that no session can use. -/
def validate (c : SessionConfig) : Except ConfigError Unit :=
  match c.fault? with
  | some e => .error e
  | none => .ok ()

/-! ## What follows from a configuration -/

/-- Where the files of the session are. -/
def cachePaths (c : SessionConfig) : CachePaths := ⟨c.cacheDirectory⟩

/-- How graphs are exported: with the scale applied, where the format takes a size. -/
def graphExport (c : SessionConfig) : GraphExport :=
  let size (pixels : Nat) : Option Nat :=
    if c.graphFormat.takesPixelSize then some (Binary64.scalePixels pixels c.graphScale) else none
  ⟨c.graphFormat.extension, size c.graphWidth, size c.graphHeight⟩

/-- What assembling needs. -/
def assemblySettings (c : SessionConfig) : AssemblySettings :=
  ⟨c.cachePaths, c.graphExport, .ofKeywords c.userGraphKeywords, c.indirectionThreshold⟩

end SessionConfig

end DoRunner
