import DoRunner.Transport.Automation

/-!
# An application driven by AppleScript

On one platform the application is reached by scripts that tell it to run a named command, with a
text as its argument if it takes one. A script is run by a program of its own, whose output is the
value of the command and whose error output says that it failed.

The argument is written as a quoted literal, in which backslashes, line ends and quotes are escaped.
-/

namespace DoRunner

/-! ## Values -/

/-- The value of a command. -/
inductive AutomationValue where
  /-- A truth value. -/
  | bool (b : Bool)
  /-- An integer of 64 bits. -/
  | int (n : Int)
  /-- Any other text. -/
  | text (t : Text)
deriving DecidableEq, Repr

namespace AutomationValue

/-- A text without the line ends at its end. -/
def withoutLineEnds (t : Text) : Text := Text.trimEndWhile (fun c => c == '\n' || c == '\r') t

/-- An integer of 64 bits: digits, perhaps after a sign. -/
def int64? (t : Text) : Option Int :=
  let signed? := match t with
    | '-' :: digits => (Text.toNat? digits).map fun n => -(n : Int)
    | '+' :: digits => (Text.toNat? digits).map Int.ofNat
    | digits => (Text.toNat? digits).map Int.ofNat
  signed?.filter fun n => decide (-9223372036854775808 ≤ n ∧ n ≤ 9223372036854775807)

/-- The value that an output is: a truth value, an integer, or the text as it is. -/
def resolve (raw : Text) : AutomationValue :=
  let t := withoutLineEnds raw
  if t = "true".toList then .bool true
  else if t = "false".toList then .bool false
  else match int64? (Text.trim t) with
    | some n => .int n
    | none => .text t

end AutomationValue

/-! ## Scripts -/

namespace AppleScript

/-- The text with a replacement at each place of a character. -/
def replaceEach (c : Char) (replacement t : Text) : Text :=
  t.flatMap fun d => if d = c then replacement else [d]

/-- A text as it stands between the quotes of a literal. Backslashes are doubled before anything else
is escaped, so that those of the other escapes stay single. -/
def escaped (t : Text) : Text :=
  replaceEach '"' ['\\', '"'] (replaceEach '\r' ['\\', 'r']
    (replaceEach '\n' ['\\', 'n'] (replaceEach '\\' ['\\', '\\'] t)))

/-- A text as a literal. -/
def literal (t : Text) : Text := '"' :: escaped t ++ ['"']

/-- The script that tells an application to run a command, with an argument if there is one. -/
def script (application name : Text) (argument : Option Text) : Text :=
  "tell application \"".toList ++ application ++ "\" to ".toList ++ name ++
    match argument with
    | some t => ' ' :: literal t
    | none => []

/-- The name of the application at a path: its last component, or all of it where there is none. -/
def applicationName (path : Text) : Text := (Path.fileName? path).getD path

/-! ### Texts in messages -/

/-- A code point in hexadecimal digits, in braces and after the mark of an escape. -/
def escapedCodePoint (c : Char) : Text :=
  "\\u\x7b".toList ++ Nat.toDigits 16 c.toNat ++ ['\x7d']

/-- A character as it is shown in a message: so that it can be told from all others. -/
def shownChar (c : Char) : Text :=
  if c = '\x00' then "\\0".toList
  else if c = '\t' then "\\t".toList
  else if c = '\r' then "\\r".toList
  else if c = '\n' then "\\n".toList
  else if c = '"' then "\\\"".toList
  else if c = '\\' then "\\\\".toList
  else if extendsGrapheme c ∨ isPrintable c = false then escapedCodePoint c
  else [c]

/-- A value as it is shown in a message. -/
def shownValue : AutomationValue → Text
  | .bool b => "Bool(".toList ++ (if b then "true" else "false").toList ++ [')']
  | .int n => "Int(".toList ++ (toString n).toList ++ [')']
  | .text t => "Text(\"".toList ++ t.flatMap shownChar ++ "\")".toList

end AppleScript

/-! ## Commands -/

/-- What running a script printed. -/
structure ScriptOutput where
  /-- What it printed as its output. -/
  stdout : List UInt8
  /-- What it printed about errors. -/
  stderr : List UInt8
deriving DecidableEq, Repr

/-- Runs scripts. -/
class ScriptRunner (ρ : Type) where
  /-- Runs a script to its end. -/
  runScript : Text → Action ρ (Timed ScriptOutput)
  /-- What becomes of everything in a time in which no script is run. -/
  pass : Nat → Host ρ → Host ρ

/-- An application that is told what to do by scripts. -/
structure ScriptedApplication (ρ : Type) where
  /-- The name of the application. -/
  name : Text
  /-- What runs the scripts. -/
  runner : ρ
deriving Repr

namespace ScriptedApplication

open AppleScript

/-- What a script has printed, as the value of its command. -/
def valueOf (script : Text) (output : ScriptOutput) : Except TransportError AutomationValue :=
  if output.stderr = [] then .ok (.resolve (Utf8.decodeLossy output.stdout))
  else .error (.automation script (Text.trim (Utf8.decodeLossy output.stderr)))

/-- A value as the return code of a command. -/
def returnCode (command : Text) : AutomationValue → Except TransportError Int
  | .int n =>
    if -2147483648 ≤ n ∧ n ≤ 2147483647 then .ok n
    else .error (.automation command
      ("return code ".toList ++ (toString n).toList ++ " out of range".toList))
  | v => .error (.automation command
      ("expected an integer, got ".toList ++ shownValue v))

/-- The command that runs code to its end. -/
def runCommand : Text := "DoCommand".toList

/-- The command that starts code. -/
def startCommand : Text := "DoCommandAsync".toList

/-- The command that gives the return code of the code last started. -/
def codeCommand : Text := "UtilStataErrorCode".toList

/-- The command that says whether nothing is running. -/
def idleCommand : Text := "UtilIsStataFree".toList

/-- Whether something is running, by the value of the command that says whether nothing is. -/
def busyFrom : AutomationValue → Except TransportError Bool
  | .bool free => .ok !free
  | .int free => .ok (free == 0)
  | .text t =>
    .error (.automation idleCommand ("unexpected reply \x60".toList ++ t ++ ['\x60']))

variable {ρ : Type} [ScriptRunner ρ]

omit [ScriptRunner ρ] in
/-- Fails where the result is a failure. -/
def orFail {β : Type} (result : Except TransportError β) : Action (ScriptedApplication ρ) β :=
  match result with
  | .ok b => return b
  | .error e => throw e

/-- Runs a named command, with an argument if there is one. -/
def command (name : Text) (argument : Option Text) :
    Action (ScriptedApplication ρ) (Timed AutomationValue) := fun h =>
  let text := script h.guest.name name argument
  (do
    let output ← Action.within (·.runner) (fun a runner => { a with runner })
      (ScriptRunner.runScript text)
    let v ← orFail (valueOf text output.value)
    return ⟨v, output.took⟩ : Action (ScriptedApplication ρ) (Timed AutomationValue)) h

/-- Runs do-file code to its end and gives its return code. -/
def submitAndWait (code : Text) : Action (ScriptedApplication ρ) (Timed Int) := do
  let v ← command runCommand (some code)
  let n ← orFail (returnCode runCommand v.value)
  return ⟨n, v.took⟩

/-- Starts do-file code. -/
def submitAsync (code : Text) : Action (ScriptedApplication ρ) Unit := do
  let _ ← command startCommand (some code)

/-- Whether something is running. -/
def pollBusy : Action (ScriptedApplication ρ) (Timed Bool) := do
  let v ← command idleCommand none
  let busy ← orFail (busyFrom v.value)
  return ⟨busy, v.took⟩

/-- The return code of the code that was last started. -/
def lastErrorCode : Action (ScriptedApplication ρ) Int := do
  let v ← command codeCommand none
  orFail (returnCode codeCommand v.value)

/-- Time passes for what runs the scripts. -/
def pass (time : Nat) (h : Host (ScriptedApplication ρ)) : Host (ScriptedApplication ρ) :=
  let after := ScriptRunner.pass time ⟨h.guest.runner, h.disk⟩
  ⟨{ h.guest with runner := after.guest }, after.disk⟩

instance : Application (ScriptedApplication ρ) where
  submitAndWait := submitAndWait
  submitAsync := submitAsync
  pollBusy := pollBusy
  lastErrorCode := lastErrorCode
  waitUntilIdle := fun _ => return none
  pass := pass

end ScriptedApplication

end DoRunner
