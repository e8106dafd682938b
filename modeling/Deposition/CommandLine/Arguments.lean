import Deposition.Preferences
import Deposition.Setting.Assignment

/-!
# Arguments of the command line

The arguments of a command are options, which begin with two dashes, and operands, which do not. An
option has a value, in the same argument behind an equals sign or in the next one, or it is a flag.
An option may be given once, unless it is one of those that add up. Two dashes alone end the
options.

The program has four commands. The options of the program itself can stand before the name of the
command or behind it; if they stand in both places, the one behind counts.
-/

namespace Deposition

namespace Arguments

/-- An option that a command has. -/
structure OptionRule where
  /-- Its name, without dashes. -/
  name : String
  /-- Which values it can have; none if it is a flag. -/
  accepts : Option (String → Bool)
  /-- Whether it can be given more than once. -/
  repeatable : Bool := false

/-- What can stand in the arguments of a command. -/
structure Grammar where
  /-- The options, besides the one that asks for help. -/
  options : List OptionRule
  /-- How many operands there can be. -/
  operands : Nat := 0
  /-- The names that end the arguments, because those behind them are another command's. -/
  commands : List String := []
  /-- Whether the version can be asked for. -/
  hasVersion : Bool := false

/-- Why the arguments make no command to carry out. -/
inductive Stop
  /-- They are wrong. -/
  | misuse
  /-- They ask for help with a command, or with the program. -/
  | help (command : Option String)
  /-- They ask for the version. -/
  | version
deriving DecidableEq

/-- The arguments of a command, sorted. -/
structure Sorted where
  /-- The options with their values, in order. -/
  given : List (String × String) := []
  /-- The operands, in order. -/
  operands : List String := []
  /-- The name that ended the arguments, and what stood behind it. -/
  command : Option (String × List String) := none
deriving DecidableEq

namespace Sorted

/-- Whether an option was given. -/
def has (s : Sorted) (name : String) : Bool := s.given.any fun (n, _) => n == name

/-- The values of an option, in order. -/
def values (s : Sorted) (name : String) : List String :=
  (s.given.filter fun (n, _) => n == name).map Prod.snd

/-- The value of an option that is given once at most. -/
def value? (s : Sorted) (name : String) : Option String := (s.values name).head?

end Sorted

/-- Whether an argument can be the value of an option or an operand; a lone dash can. -/
def isPlain (argument : String) : Bool := argument == "-" || !argument.startsWith "-"

/-- The name of an option and the value in the same argument. -/
def cutOption (argument : String) : String × Option String :=
  let body := String.ofList (argument.toList.drop 2)
  match Text.cutAt? '=' body with
  | some (name, value) => (name, some value)
  | none => (body, none)

/-- Takes an option into the sorted arguments, if it may be there again and its value is
accepted. -/
def Sorted.take? (s : Sorted) (rule : OptionRule) (value : String) : Option Sorted :=
  if s.has rule.name && !rule.repeatable then none
  else if (rule.accepts.getD fun _ => true) value then
    some { s with given := s.given ++ [(rule.name, value)] }
  else none

/-- Takes operands into the sorted arguments, as far as there can be so many. -/
def Sorted.takeOperands? (s : Sorted) (g : Grammar) (operands : List String) : Option Sorted :=
  if g.operands < s.operands.length + operands.length || operands.contains "" then none
  else some { s with operands := s.operands ++ operands }

/-- Sorts the arguments of the command with this name. -/
def sort (g : Grammar) (command : Option String) (s : Sorted) :
    List String → Except Stop Sorted
  | [] => .ok s
  | argument :: rest =>
    if argument = "--" then
      match s.takeOperands? g rest with
      | some s => .ok s
      | none => .error .misuse
    else if argument.startsWith "--" then
      match cutOption argument, rest with
      | ("help", none), _ => .error (.help command)
      | ("version", none), _ => .error (if g.hasVersion then .version else .misuse)
      | (name, attached), rest =>
        match g.options.find? fun rule => rule.name == name with
        | none => .error .misuse
        | some rule =>
          match rule.accepts, attached, rest with
          | none, none, rest =>
            match s.take? rule "" with
            | some s => sort g command s rest
            | none => .error .misuse
          | some _, some value, rest =>
            match s.take? rule value with
            | some s => sort g command s rest
            | none => .error .misuse
          | some _, none, value :: rest =>
            match if isPlain value then s.take? rule value else none with
            | some s => sort g command s rest
            | none => .error .misuse
          | _, _, _ => .error .misuse
    else if argument.startsWith "-" && argument != "-" then
      if argument.startsWith "-h" then .error (.help command)
      else if argument.startsWith "-V" && g.hasVersion then .error .version
      else .error .misuse
    else if g.commands.contains argument then .ok { s with command := some (argument, rest) }
    else
      match s.takeOperands? g [argument] with
      | some s => sort g command s rest
      | none => .error .misuse

end Arguments

/-! ### The commands of the program -/

/-- What the program is asked to do. -/
inductive Task
  /-- Run a job. -/
  | run (mixture : List (String × Nat)) (settings : List (String × Float)) (bins : Option Nat)
      (xyz : Option String) (keepArchive : Bool)
  /-- List the components that the server offers. -/
  | molecules
  /-- Compute the height map of the last frame in an archive. -/
  | analyze (archive : String) (bins : Option Nat) (json : Bool)
  /-- Show where files are kept. -/
  | paths

/-- A task, with what the command line says about the server. -/
structure Invocation where
  /-- The address of the server's page. -/
  server : Option String
  /-- The credential. -/
  token : Option String
  /-- The task. -/
  task : Task

namespace Invocation

open Arguments

/-- A number of bins. -/
def bins? (value : String) : Option Nat := Text.wholeNumber? Json.wordLimit value

/-- The options of the program itself. -/
def commonOptions : List OptionRule :=
  [{ name := "server", accepts := some fun _ => true },
    { name := "token", accepts := some fun _ => true }]

/-- The option for the number of bins. -/
def binsOption : OptionRule := { name := "bins", accepts := some fun v => (bins? v).isSome }

/-- Arguments in front of a command. -/
def programGrammar : Grammar :=
  { options := commonOptions
    commands := ["run", "molecules", "analyze", "paths", "help"]
    hasVersion := true }

/-- Arguments behind the name of a command. -/
def grammar (command : String) : Grammar :=
  if command = "run" then
    { options := commonOptions ++
        [{ name := "mix", accepts := some fun v => (Assignment.readRatio v).isOk,
            repeatable := true },
          { name := "set", accepts := some fun v => (Assignment.readSetting v).isOk,
            repeatable := true },
          binsOption,
          { name := "xyz", accepts := some fun v => !v.isEmpty },
          { name := "no-archive", accepts := none }] }
  else if command = "analyze" then
    { options := commonOptions ++ [binsOption, { name := "json", accepts := none }], operands := 1 }
  else { options := commonOptions }

/-- The task that sorted arguments of a command make. A job needs a mixture, an analysis an
archive. -/
def task? (command : String) (s : Sorted) : Option Task :=
  let bins := (s.value? "bins").bind bins?
  if command = "run" then
    if s.has "mix" then
      some (.run ((s.values "mix").filterMap fun v => (Assignment.readRatio v).toOption)
        ((s.values "set").filterMap fun v => (Assignment.readSetting v).toOption)
        bins (s.value? "xyz") (!s.has "no-archive"))
    else none
  else if command = "molecules" then some .molecules
  else if command = "analyze" then
    s.operands.head?.map fun archive => .analyze archive bins (s.has "json")
  else some .paths

/-- What a request for help is about. -/
def helpTopic : List String → Stop
  | [] => .help none
  | [topic] => if programGrammar.commands.contains topic then .help (some topic) else .misuse
  | _ => .misuse

/-- Reads the arguments of the command line. -/
def read (arguments : List String) : Except Stop Invocation :=
  match sort programGrammar none {} arguments with
  | .error stop => .error stop
  | .ok outer =>
    match outer.command with
    | none => .error .misuse
    | some ("help", rest) => .error (helpTopic rest)
    | some (command, rest) =>
      match sort (grammar command) (some command) {} rest with
      | .error stop => .error stop
      | .ok inner =>
        match task? command inner with
        | none => .error .misuse
        | some task =>
          .ok {
            server := (inner.value? "server").or (outer.value? "server")
            token := (inner.value? "token").or (outer.value? "token")
            task }

end Invocation

end Deposition
