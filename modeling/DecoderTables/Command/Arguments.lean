import DecoderTables.Generator
import DecoderTables.Listing

/-!
The arguments of the command. Options stand anywhere before a double dash, each at most once; a
value is the next word, or follows an equality sign or the letter of a short option.
-/

namespace DecoderTables.Command

/-- What the command makes. -/
inductive Emit where
  | headers
  | json
  | table
deriving DecidableEq

namespace Emit

def name : Emit → String
  | .headers => "headers"
  | .json => "json"
  | .table => "table"

def ofName? (name : String) : Option Emit :=
  [Emit.headers, .json, .table].find? (·.name = name)

def unknown : String := "invalid output kind, expected headers, json or table"

end Emit

/-- The options that take a value. -/
inductive Setting where
  | outputDirectory
  | instrOutput
  | decodersOutput
  | scope
  | opcodeFirst
  | instrHeader
  | emit
  | color
deriving DecidableEq

def Setting.longName : Setting → String
  | .outputDirectory => "output-dir"
  | .instrOutput => "instr-output"
  | .decodersOutput => "decoders-output"
  | .scope => "namespace"
  | .opcodeFirst => "opcode-first"
  | .instrHeader => "instr-header"
  | .emit => "emit"
  | .color => "color"

def Setting.all : List Setting :=
  [.outputDirectory, .instrOutput, .decodersOutput, .scope, .opcodeFirst, .instrHeader, .emit,
    .color]

/-- An option that the command knows. -/
inductive Choice where
  | check
  | setting (setting : Setting)
deriving DecidableEq

/-- What an argument before a double dash holds. -/
inductive Argument where
  | word (text : String)
  | option (name : String) (value : Option String)
deriving DecidableEq

namespace Argument

def short (letter : Char) (value : Option String) : Argument :=
  .option (String.ofList ['-', letter]) value

/-- The parts before and after the first equality sign. -/
def cutValue (text : List Char) : String × Option String :=
  let name := text.takeWhile (· != '=')
  (String.ofList name,
    if name.length < text.length then some (String.ofList (text.drop (name.length + 1))) else none)

/-- Several short options behind one dash, each known. The text behind one that takes a value is
its value. -/
def cluster? : List Char → Option (List Argument)
  | [] => some []
  | 'h' :: letters => (short 'h' none :: ·) <$> cluster? letters
  | 'V' :: letters => (short 'V' none :: ·) <$> cluster? letters
  | ['o'] => some [short 'o' none]
  | 'o' :: value => some [short 'o' (some (String.ofList value))]
  | _ => none

/-- A long option, short options, or a word. The letter behind a lone dash is an option also when
nobody knows it, but two letters or more are a word unless all of them are known. Before an equality
sign only the first letter is a name, and it has to be of one byte. -/
def ofText (text : String) : List Argument :=
  match text.toList with
  | '-' :: '-' :: long =>
      let (name, value) := cutValue long
      [.option ("--" ++ name) value]
  | ['-', letter] => [short letter none]
  | '-' :: letter :: '=' :: value =>
      if letter.utf8Size = 1 then [short letter (some (String.ofList value))] else [.word text]
  | '-' :: letter :: rest =>
      if '=' ∈ rest then
        if letter.utf8Size = 1 then [short letter (some (String.ofList rest))] else [.word text]
      else (cluster? (letter :: rest)).getD [.word text]
  | _ => [.word text]

/-- Whether the argument is the option of the letter or of the long name, whatever its value. -/
def asks (letter : Char) (long : String) : Argument → Bool
  | .word _ => false
  | .option name _ => name = String.ofList ['-', letter] || name = "--" ++ long

end Argument

def Choice.ofName? (name : String) : Option Choice :=
  if name = "--check" then some .check
  else if name = "-o" then some (.setting .outputDirectory)
  else (Setting.all.find? (fun setting => "--" ++ setting.longName = name)).map .setting

/-- The arguments as they were found. -/
structure Found where
  check : Bool := false
  settings : List (Setting × String) := []
  words : List String := []

namespace Found

def addSetting (found : Found) (setting : Setting) (value : String) : Option Found :=
  if (found.settings.lookup setting).isSome then none
  else some { found with settings := (setting, value) :: found.settings }

/-- Reads arguments from left to right, or finds a wrong one. A value is never what an option
looks like. -/
def read (found : Found) : List Argument → Option Found
  | [] => some found
  | .word word :: arguments => read { found with words := found.words ++ [word] } arguments
  | .option name value :: arguments =>
      match Choice.ofName? name, value, arguments with
      | some .check, none, arguments =>
          if found.check then none else read { found with check := true } arguments
      | some (.setting setting), some value, arguments => do
          read (← found.addSetting setting value) arguments
      | some (.setting setting), none, .word value :: arguments => do
          read (← found.addSetting setting value) arguments
      | _, _, _ => none

end Found

/-- When the command prints in colours. -/
inductive ColorMode where
  | off
  | on
  /-- If the machine shows colours. -/
  | auto
deriving DecidableEq

def ColorMode.name : ColorMode → String
  | .off => "off"
  | .on => "on"
  | .auto => "auto"

def ColorMode.ofName? (name : String) : Option ColorMode :=
  [ColorMode.off, .on, .auto].find? (·.name = name)

/-- The work that the command is asked to do. -/
structure Task where
  generator : Generator
  emit : Emit
  check : Bool
  color : ColorMode

/-- A number in base ten, perhaps after a plus. -/
def number? (text : String) : Option Nat :=
  let digits := match text.toList with
    | '+' :: digits => digits
    | digits => digits
  if digits.isEmpty || !digits.all Char.isDigit then none
  else some (digits.foldl (fun n c => 10 * n + (c.toNat - 0x30)) 0)

/-- The lowest bit of a selector that fits in a half-word. -/
def opcodeFirst? (text : String) : Option UInt32 :=
  (number? text).bind fun n =>
    if n ≤ HeaderOptions.opcodeFirstMax.toNat then some (.ofNat n) else none

/-- The value of a setting, or its default. -/
def Found.value {α : Type} (found : Found) (setting : Setting) (read : String → Option α)
    (default : α) : Option α :=
  match found.settings.lookup setting with
  | none => some default
  | some text => read text

def Found.task? (found : Found) : Option Task := do
  let [source] := found.words | none
  let usual : Generator := { source }
  let directory ← found.value .outputDirectory some usual.directory
  let instrOutput ← found.value .instrOutput some usual.instrOutput
  let decodersOutput ← found.value .decodersOutput some usual.decodersOutput
  let scope ← found.value .scope some usual.options.scope
  let opcodeFirst ← found.value .opcodeFirst opcodeFirst? usual.options.opcodeFirst
  let instrHeader ← found.value .instrHeader some usual.options.instrHeader
  let emit ← found.value .emit Emit.ofName? .headers
  let color ← found.value .color ColorMode.ofName? .auto
  return {
    generator := {
      source, directory, instrOutput, decodersOutput
      options := { scope, opcodeFirst, instrHeader } }
    emit, check := found.check, color }

inductive Request where
  | help
  | version
  | wrong
  | task (work : Task)

/-- Help comes before the version, and both come before what is wrong with other arguments. All
texts behind a double dash are words. -/
def Request.ofArguments (texts : List String) : Request :=
  let arguments := (texts.takeWhile (· != "--")).flatMap Argument.ofText
  let words := (texts.dropWhile (· != "--")).drop 1
  if arguments.any (·.asks 'h' "help") then .help
  else if arguments.any (·.asks 'V' "version") then .version
  else
    match (Found.read {} arguments).bind fun found =>
        { found with words := found.words ++ words }.task? with
    | some work => .task work
    | none => .wrong

end DecoderTables.Command
