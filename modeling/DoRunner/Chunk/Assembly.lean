import DoRunner.Chunk.Graph
import DoRunner.Source.Analysis
import DoRunner.Statement.Plot
import DoRunner.Text.Sha256

/-!
# Chunks

A **chunk** is what is sent for one buffer. Its body is the buffer's statements, one to a line, with
the export lines injected after each statement that draws. What is sent is either the body itself
or one line that includes a script with that body; a **sentinel** line follows, which echoes and
does nothing else, so that its echo shows that everything before it has run.

A body is included rather than sent when it has a block, when a prefix may hide an echo, or when it
is long. Then all lines echo in one stretch, and each of them is expected there in its own way
(`EchoKind`): a statement verbatim, a line of a block in whatever form blocks are echoed, a line
under a silencing prefix perhaps not at all.

Exports are counted in a fixed number of bits, and a count that outgrows it starts again from zero.
-/

namespace DoRunner

/-! ## Counts

A count is read as the number that it stands for, and a number is kept as what is left of it in the
bits of a count. -/

scoped instance coeUInt32 : Coe UInt32 Nat := ⟨UInt32.toNat⟩

scoped instance coeUInt64 : Coe UInt64 Nat := ⟨UInt64.toNat⟩

scoped instance coeToUInt64 : Coe Nat UInt64 := ⟨UInt64.ofNat⟩

/-! ## What is expected of the echo -/

/-- How the echo of a submitted line shows up in the output. -/
inductive EchoKind where
  /-- Verbatim after the prompt. -/
  | statement
  /-- As part of a block, numbered or continued. -/
  | block
  /-- Perhaps not at all, under a silencing prefix. -/
  | silent
deriving DecidableEq, Repr

/-- A line whose echo is accounted for. -/
structure ExpectedLine where
  /-- The line as it was submitted. -/
  text : Text
  /-- How its echo shows up. -/
  kind : EchoKind
deriving DecidableEq, Repr

/-! ## Chunks -/

/-- What is sent for one buffer. -/
structure Chunk where
  /-- The statements with the injected lines. -/
  body : List Text
  /-- Whether the body is included from the script instead of sent. -/
  indirect : Bool
  /-- The digest of the body. -/
  fingerprint : Text
  /-- What is sent: the body or the line that includes it, then the sentinel. -/
  submission : Text
  /-- The lines whose echoes come before that of the sentinel, in order. -/
  exclusion : List ExpectedLine
  /-- The number of statements after which a graph is exported. -/
  plotsInjected : UInt32
deriving DecidableEq, Repr

/-- The line that refers to a fingerprint as a local macro, which echoes and does nothing. -/
def sentinelOf (fingerprint : Text) : Text := '\x60' :: fingerprint ++ ['\'']

namespace Chunk

/-- Whether there is nothing to run. -/
def isEmpty (c : Chunk) : Bool := c.body.isEmpty

/-- The sentinel line of the chunk. -/
def sentinel (c : Chunk) : Text := sentinelOf c.fingerprint

/-- The contents of the include script: each line of the body with a line feed. -/
def scriptText (c : Chunk) : Text := Text.unlines c.body ++ ['\n']

/-- The lines that are sent, one after another. -/
def submissionLines (c : Chunk) : List Text := (Text.lines c.submission).filter (· ≠ [])

end Chunk

/-- What one session carries from buffer to buffer. -/
structure SessionContext where
  /-- The delimiter mode that the next buffer starts in. -/
  mode : DelimiterMode
  /-- The number of statements so far after which a graph was exported. -/
  plotCounter : UInt64
deriving DecidableEq, Repr

/-- A session that has run nothing yet. -/
def SessionContext.initial : SessionContext := ⟨.newline, 0⟩

/-- What assembling needs besides the source. -/
structure AssemblySettings where
  /-- Where the files of the session are. -/
  cache : CachePaths
  /-- How graphs are exported. -/
  graph : GraphExport
  /-- Which commands draw. -/
  plots : PlotCatalog
  /-- The number of body lines beyond which the body is included from the script. -/
  indirectionThreshold : Nat
deriving DecidableEq, Repr

/-- The settings of a session that was given nothing but a cache directory. -/
def AssemblySettings.default (cache : CachePaths) : AssemblySettings := ⟨cache, .default, ⟨[]⟩, 3⟩

/-! ## Statement lines -/

/-- A statement line with the block it belongs to, if it belongs to one. -/
structure BodyLine where
  /-- The text of the line. -/
  text : Text
  /-- The number of the token that is the block. -/
  block : Option Nat
deriving DecidableEq, Repr

/-- Lines while they are put together. A token may begin and end anywhere in a line. -/
structure LineBuilder where
  /-- The lines that have ended, the last of them first. -/
  ended : List BodyLine
  /-- The line that goes on. -/
  current : BodyLine
deriving DecidableEq, Repr

namespace LineBuilder

/-- No line has begun. -/
def empty : LineBuilder := ⟨[], ⟨[], none⟩⟩

/-- The lines in order. -/
def lines (b : LineBuilder) : List BodyLine := (b.current :: b.ended).reverse

/-- The line has ended. -/
def endLine (b : LineBuilder) : LineBuilder := ⟨b.current :: b.ended, ⟨[], none⟩⟩

/-- The line goes on with a part of a token. Where it meets several blocks it belongs to the last. -/
def extend (b : LineBuilder) (block : Option Nat) (part : Text) : LineBuilder :=
  if part = [] then b
  else { b with current := ⟨b.current.text ++ part, block.or b.current.block⟩ }

/-- The block that a token is, by its number. -/
def blockOf (token : Token × Nat) : Option Nat :=
  if token.1.kind = .blockBody then some token.2 else none

/-- The lines go on with a token. -/
def addToken (b : LineBuilder) (token : Token × Nat) : LineBuilder :=
  match Text.lines token.1.text with
  | [] => b
  | part :: parts =>
    parts.foldl (fun b part => b.endLine.extend (blockOf token) part) (b.extend (blockOf token) part)

/-- The lines of some tokens. -/
def ofTokens (tokens : List Token) : LineBuilder := tokens.zipIdx.foldl addToken empty

end LineBuilder

namespace BodyLine

/-- The line without blanks at either end, if anything else is in it. -/
def trimmed? (line : BodyLine) : Option BodyLine :=
  let text := Text.trim line.text
  if text = [] then none else some { line with text }

/-- The statement lines of a scanned text, blank lines left out. -/
def ofScan (scan : BlockScan) : List BodyLine :=
  (LineBuilder.ofTokens scan.tokens).lines.filterMap trimmed?

/-- Whether the block that the line belongs to starts with a silenced line. -/
def inSilentBlock (lines : List BodyLine) (line : BodyLine) : Bool :=
  line.block.any fun block =>
    (lines.find? fun other => other.block == some block).any fun opener =>
      (statementHead opener.text).silenced

/-- How the echo of the line shows up. -/
def echoKind (lines : List BodyLine) (line : BodyLine) : EchoKind :=
  if inSilentBlock lines line || (statementHead line.text).silenced then .silent
  else if line.block.isSome then .block else .statement

/-- How the echo of a line that is injected after this one shows up. -/
def injectedKind (lines : List BodyLine) (line : BodyLine) : EchoKind :=
  if inSilentBlock lines line then .silent
  else if line.block.isSome then .block else .statement

end BodyLine

/-! ## Assembly -/

/-- A statement line with the lines injected after it. -/
def withInjected (settings : AssemblySettings) (lines : List BodyLine) (line : BodyLine) :
    List ExpectedLine :=
  let own := ⟨line.text, line.echoKind lines⟩
  if settings.plots.isPlotLine line.text then
    let kind := line.injectedKind lines
    [own, ⟨settings.graph.exportLine settings.cache, kind⟩, ⟨GraphExport.incrementLine, kind⟩]
  else [own]

/-- Whether the body is included from the script instead of sent. -/
def needsScript (settings : AssemblySettings) (scan : BlockScan) (lines : List BodyLine)
    (body : List Text) : Bool :=
  scan.hasBlock || (lines.any fun line => (statementHead line.text).prefixed) ||
    settings.indirectionThreshold < body.length

/-- The line that includes the script. -/
def includeLine (cache : CachePaths) : Text :=
  "include \"".toList ++ cache.includeForCommands ++ "\"".toList

/-- The chunk of statement lines that a scan found. -/
def chunkOf (settings : AssemblySettings) (scan : BlockScan) : Chunk :=
  let lines := BodyLine.ofScan scan
  let expected := lines.flatMap (withInjected settings lines)
  let body := expected.map (·.text)
  let plotsInjected := .ofNat (lines.countP fun line => settings.plots.isPlotLine line.text)
  let fingerprint := Sha256.ofText (Text.unlines body)
  if body = [] then
    { body, indirect := false, fingerprint, submission := [], exclusion := [], plotsInjected }
  else if needsScript settings scan lines body then
    let line := includeLine settings.cache
    { body, indirect := true, fingerprint, submission := line ++ '\n' :: sentinelOf fingerprint
      exclusion := ⟨line, .statement⟩ :: expected, plotsInjected }
  else
    { body, indirect := false, fingerprint
      submission := Text.unlines body ++ '\n' :: sentinelOf fingerprint
      exclusion := expected, plotsInjected }

/-- The chunk of an analysed buffer, and what the session carries on after it. -/
def assemble (analysis : Analysis) (settings : AssemblySettings) (context : SessionContext) :
    Chunk × SessionContext :=
  let chunk := chunkOf settings analysis.blocks
  (chunk, ⟨analysis.finalMode, context.plotCounter + ↑(chunk.plotsInjected : Nat)⟩)

end DoRunner
