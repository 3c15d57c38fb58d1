import DoRunner.Config.Basic
import DoRunner.Disk
import DoRunner.Text.Utf8
import DoRunner.Toml.Grammar

/-!
# Reading a configuration

A configuration file is a TOML document, and the settings are the entries of one of its tables. A
setting that is not there has its default, an entry that is no setting means nothing, and a setting
of the wrong type makes the whole document no configuration.

The settings may also stand in an array, in their order, with those at the end left out.
-/

namespace DoRunner

namespace SessionConfig

open Toml (Value)

/-! ## Types of settings -/

/-- A text. -/
def text? : Value → Option Text
  | .string t => some t
  | _ => none

/-- A natural number up to a greatest one. -/
def natUpTo? (greatest : Nat) : Value → Option Nat
  | .integer n => if 0 ≤ n ∧ n ≤ greatest then some n.toNat else none
  | _ => none

/-- A number of 32 bits. -/
def word32? : Value → Option Nat := natUpTo? 4294967295

/-- A number of 64 bits. -/
def word64? : Value → Option Nat := natUpTo? 18446744073709551615

/-- A floating point number; integers count as such. -/
def number? : Value → Option Binary64
  | .float x => some x
  | .integer n => some (.ofDecimal (n < 0) n.natAbs 0)
  | _ => none

/-- Whether a value is there only to be a value: an array or a table with nothing in it. -/
def isVoid : Value → Bool
  | .array [] | .table _ [] | .tables [] => true
  | _ => false

/-- One of several choices, given by its name. The name may also be the only key of a table, with
nothing in its value. -/
def choice? {α : Type} (choices : List (String × α)) (v : Value) : Option α :=
  let name? := match v with
    | .string name => some name
    | .table _ [(name, inner)] => if isVoid inner then some name else none
    | _ => none
  name?.bind fun name => (choices.find? fun choice => choice.1.toList == name).map (·.2)

/-- The execution modes by name. -/
def executionModes : List (String × ExecutionMode) :=
  [("console", .console), ("automation", .automation)]

/-- The graph formats by name. -/
def graphFormats : List (String × GraphFormat) :=
  [("svg", .svg), ("png", .png), ("pdf", .pdf), ("tif", .tif)]

/-- Keywords, in an array or in one text with commas between them. Blanks around them do not count,
and blank ones mean nothing. -/
def keywords? (v : Value) : Option (List Text) :=
  let written? := match v with
    | .array values => values.mapM text?
    | .string joined => some (Text.splitAt ',' joined)
    | _ => none
  written?.map fun written => (written.map Text.trim).filter (· ≠ [])

/-! ## Settings -/

/-- The settings by name, each with what a value makes of the configuration. -/
def settings : List (String × (SessionConfig → Value → Option SessionConfig)) := [
  ("stata_path", fun c v => (text? v).map fun x => { c with programPath := x }),
  ("execution_mode", fun c v =>
    (choice? executionModes v).map fun x => { c with executionMode := x }),
  ("cache_directory", fun c v => (text? v).map fun x => { c with cacheDirectory := x }),
  ("graph_format", fun c v => (choice? graphFormats v).map fun x => { c with graphFormat := x }),
  ("graph_width", fun c v => (word32? v).map fun x => { c with graphWidth := x }),
  ("graph_height", fun c v => (word32? v).map fun x => { c with graphHeight := x }),
  ("graph_scale", fun c v => (number? v).map fun x => { c with graphScale := x }),
  ("user_graph_keywords", fun c v =>
    (keywords? v).map fun x => { c with userGraphKeywords := x }),
  ("linesize", fun c v => (word32? v).map fun x => { c with linesize := x }),
  ("timeout_ms", fun c v => (word64? v).map fun x => { c with timeoutMs := x }),
  ("poll_interval_ms", fun c v => (word64? v).map fun x => { c with pollIntervalMs := x }),
  ("indirection_line_threshold", fun c v =>
    (word64? v).map fun x => { c with indirectionThreshold := x })]

/-- The configuration with one more setting. An entry that is no setting changes nothing. -/
def withEntry (c : SessionConfig) (entry : Text × Value) : Option SessionConfig :=
  match settings.find? fun setting => setting.1.toList == entry.1 with
  | some setting => setting.2 c entry.2
  | none => some c

/-- The configuration that a table or an array of settings gives. -/
def ofValue? : Value → Option SessionConfig
  | .table _ entries => entries.foldlM withEntry default
  | .array values =>
    (settings.zip values).foldlM (fun c (setting, v) => setting.2 c v) default
  | .tables tables =>
    (settings.zip tables.reverse).foldlM
      (fun c (setting, entries) => setting.2 c (.table .header entries)) default
  | _ => none

/-- The name of the table that holds the settings. -/
def tableName : Text := "stata_kernel".toList

/-- The configuration that a document gives, as it is written. Without the table it is the
default. -/
def ofDocument? (document : Text) : Option SessionConfig :=
  (Toml.parse? document).bind fun entries =>
    match Toml.Entries.get? entries tableName with
    | some v => ofValue? v
    | none => some default

/-! ## Sources -/

/-- The configuration that a document gives, in normal form and validated. -/
def ofToml (home : Option Text) (document : Text) : Except ConfigError SessionConfig :=
  match ofDocument? document with
  | none => .error .parse
  | some c =>
    let c := c.normalize home
    match c.fault? with
    | some e => .error e
    | none => .ok c

/-- The configuration that a file on the disk gives. -/
def ofFile (home : Option Text) (disk : Disk) (path : Text) : Except ConfigError SessionConfig :=
  match (disk.read path).bind Utf8.decode? with
  | none => .error (.read path)
  | some document => ofToml home document

end SessionConfig

end DoRunner
