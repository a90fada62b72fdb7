/-
# Retrieval.CommandLine.Arguments -- what is asked for on the command line

An argument is an option, a word, or the two dashes behind which everything is a
word.  An option is given by its name or its letter; its value is attached or is
the next argument, which then has to be a word.  No option may be given twice.

Arguments come in levels (`Level`).  Those of the program come before the command,
which is the first word, and the rest belongs to the command.  Reading goes from left
to right and stops at the first argument that cannot be understood, or that asks for
something else than a command.
-/
import Retrieval.Text.Number

namespace Retrieval

set_option autoImplicit false

namespace CommandLine

/-! ## Commands -/

inductive Command where
  | show
  | setMetric (name : String)
  | search (corpus : String) (k : Option UInt64) (query : String)
  deriving DecidableEq, Repr

/-- A command and the path of the configuration it works with. -/
structure Invocation where
  config : String := "config.yaml"
  command : Command
  deriving DecidableEq, Repr

/-- Why there is no command to run. -/
inductive Stop where
  | usage
  | version
  | help
  deriving DecidableEq, Repr

/-! ## Single arguments -/

/-- The form of an argument. -/
inductive Form where
  | word
  | escape
  | long (name : List Char) (attached : Option (List Char))
  | short (letter : Char) (attached : List Char)
  deriving DecidableEq, Repr

def Form.of (argument : String) : Form :=
  match argument.toList with
  | ['-', '-'] => .escape
  | '-' :: '-' :: rest =>
      .long (rest.takeWhile fun c => c ≠ '=')
        (match rest.dropWhile fun c => c ≠ '=' with
          | [] => none
          | _ :: value => some value)
  | '-' :: letter :: rest => .short letter rest
  | _ => .word

/-- An option: its name, its letter if it has one, and the values it takes. -/
structure Choice where
  name : String
  letter : Char
  hasLetter : Bool := true
  accepts : String → Bool

namespace Choice

def named? (choices : List Choice) (name : List Char) : Option Choice :=
  choices.find? fun choice => choice.name.toList = name

def lettered? (choices : List Choice) (letter : Char) : Option Choice :=
  choices.find? fun choice => choice.hasLetter && choice.letter = letter

end Choice

/-! ## Reading arguments -/

/-- What may be given in a row: options, and either so many words or, without a
number, a command, whose name is the first word.  The program itself has a version. -/
structure Level where
  choices : List Choice := []
  words : Option Nat := none
  hasVersion : Bool := false

/-- What was read: the values of options, the words, and what is left from the name
of a command on. -/
structure Given where
  values : List (String × String) := []
  words : List String := []
  left : List String := []

namespace Given

def value? (g : Given) (name : String) : Option String := g.values.lookup name

/-- Add the value of an option, which has to be the first one and to be accepted. -/
def add (g : Given) (choice : Choice) (value : String) : Except Stop Given :=
  if (g.value? choice.name).isSome || !choice.accepts value then .error .usage
  else .ok { g with values := g.values ++ [(choice.name, value)] }

end Given

namespace Level

/-- What a letter or a name that is no option asks for. -/
def stopAt (level : Level) (name : String) : Stop :=
  if level.hasVersion && (name = "version" || name = "V") then .version
  else if name = "help" || name = "h" then .help
  else .usage

/-- Add words, if so many may be given. -/
def addWords (level : Level) (g : Given) (words : List String) : Except Stop Given :=
  match level.words with
  | none => .error .usage
  | some n =>
      if g.words.length + words.length ≤ n then .ok { g with words := g.words ++ words }
      else .error .usage

def read (level : Level) (g : Given) : List String → Except Stop Given
  | [] => .ok g
  | argument :: rest =>
      match Form.of argument with
      | .word =>
          if level.words.isNone then .ok { g with left := argument :: rest }
          else do read level (← level.addWords g [argument]) rest
      | .escape => level.addWords g rest
      | .long name attached =>
          match Choice.named? level.choices name, attached with
          | none, none => .error (level.stopAt (String.ofList name))
          | none, some _ => .error .usage
          | some choice, some value => do
              read level (← g.add choice (String.ofList value)) rest
          | some choice, none =>
              match rest with
              | [] => .error .usage
              | value :: rest =>
                  if Form.of value = .word then do
                    read level (← g.add choice value) rest
                  else .error .usage
      | .short letter attached =>
          match Choice.lettered? level.choices letter, attached with
          | none, _ => .error (level.stopAt (String.singleton letter))
          | some choice, c :: value => do
              let value := if c = '=' then value else c :: value
              read level (← g.add choice (String.ofList value)) rest
          | some choice, [] =>
              match rest with
              | [] => .error .usage
              | value :: rest =>
                  if Form.of value = .word then do
                    read level (← g.add choice value) rest
                  else .error .usage

end Level

/-! ## The program's arguments -/

/-- A path is not empty. -/
def isPath (value : String) : Bool := !value.isEmpty

def programLevel : Level where
  choices := [{ name := "config", letter := 'c', accepts := isPath }]
  hasVersion := true

def searchLevel : Level where
  choices :=
    [{ name := "corpus", letter := 'c', hasLetter := false, accepts := isPath },
     { name := "k", letter := 'k', accepts := fun value => (Text.word? value.toList).isSome }]
  words := some 1

/-- The names that may follow names of commands. -/
def commandsBelow : List String → List String
  | [] => ["show", "metric", "search", "help"]
  | ["metric"] => ["set", "help"]
  | _ => []

/-- What comes of asking for help on names behind others: all have to be commands. -/
def readHelp (above : List String) : List String → Stop
  | [] => .help
  | name :: rest =>
      if (commandsBelow above).contains name then readHelp (above ++ [name]) rest else .usage

def Command.read (name : String) (rest : List String) : Except Stop Command :=
  match name with
  | "show" => do
      let _ ← Level.read { words := some 0 } {} rest
      return .show
  | "metric" => do
      match (← Level.read {} {} rest).left with
      | "set" :: rest =>
          match (← Level.read { words := some 1 } {} rest).words with
          | [metric] => .ok (.setMetric metric)
          | _ => .error .usage
      | "help" :: rest => .error (readHelp ["metric"] rest)
      | _ => .error .usage
  | "search" => do
      let g ← searchLevel.read {} rest
      match g.value? "corpus", g.words with
      | some corpus, [query] =>
          .ok (.search corpus ((g.value? "k").bind fun k => Text.word? k.toList) query)
      | _, _ => .error .usage
  | "help" => .error (readHelp [] rest)
  | _ => .error .usage

def Invocation.read (arguments : List String) : Except Stop Invocation := do
  let g ← programLevel.read {} arguments
  match g.left with
  | [] => .error .usage
  | name :: rest =>
      let command ← Command.read name rest
      match g.value? "config" with
      | none => .ok { command }
      | some config => .ok { config, command }

end CommandLine

end Retrieval
