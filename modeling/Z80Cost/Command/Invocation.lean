import Z80Cost.Command.Options

/-!
A command line, read: the command, its options and its arguments. Flags may stand anywhere; `--`
ends them.
-/

namespace Z80Cost.Command

inductive Verb where
  | meter
  | line
  | explain
  | catalog
  | report
  | help
  deriving DecidableEq

namespace Verb

def all : List Verb := [meter, line, explain, catalog, report, help]

def name : Verb → Text
  | meter => "meter"
  | line => "line"
  | explain => "explain"
  | catalog => "catalog"
  | report => "report"
  | help => "help"

def ownFlags : Verb → List Flag
  | meter => [.json, .copy, .workers, .format]
  | explain => [.dump]
  | report => [.format]
  | _ => []

end Verb

/-- The flags that are known before the command is. -/
def sharedFlags : List Flag :=
  [.platform, .dialect, .expandStorage, .maxLines, .maxCode, .maxBytes, .verbose]

/-- The flags of every command, and of none. -/
def commonFlags : List Flag := sharedFlags ++ [.help]

def program : Text := "z80meter"

inductive UsageFault where
  | unknownCommand (name : Text)
  | badFlag (argument : Text)
  | unknownFlag (name : Text)
  | unknownLetter (letter : UInt8) (letters : Text)
  | valueMissing (flag : Flag)
  | letterValueMissing (letter : UInt8) (letters : Text)
  | badValue (flag : Flag) (value cause : Text)
  | tooFewArguments (least count : Nat)
  | tooManyArguments (most count : Nat)
  | wrongArguments (due count : Nat)
  deriving DecidableEq

/-- The byte that an unknown letter is named by: its own, or past ASCII the first of the two that
encode the character with that number. -/
def letterName (letter : UInt8) : UInt8 :=
  if letter < 0x80 then letter else if letter < 0xC0 then 0xC2 else 0xC3

def UsageFault.message : UsageFault → Text
  | .unknownCommand name => "unknown command " ++ name.quoted ++ " for " ++ program.quoted
  | .badFlag argument => "bad flag syntax: " ++ argument
  | .unknownFlag name => "unknown flag: --" ++ name
  | .unknownLetter letter letters =>
      "unknown shorthand flag: " ++ Text.quotedByte (letterName letter) ++ " in -" ++ letters
  | .valueMissing flag => "flag needs an argument: --" ++ flag.name
  | .letterValueMissing letter letters =>
      "flag needs an argument: " ++ Text.quotedByte letter ++ " in -" ++ letters
  | .badValue flag value cause =>
      "invalid argument " ++ value.quoted ++ " for " ++ flag.label.quoted ++ " flag: " ++ cause
  | .tooFewArguments least count =>
      "requires at least " ++ Text.ofNat least ++ " arg(s), only received " ++ Text.ofNat count
  | .tooManyArguments most count =>
      "accepts at most " ++ Text.ofNat most ++ " arg(s), received " ++ Text.ofNat count
  | .wrongArguments due count =>
      "accepts " ++ Text.ofNat due ++ " arg(s), received " ++ Text.ofNat count

def UsageFault.hint : UsageFault → Text
  | .unknownCommand _ => "Run '" ++ program ++ " --help' for usage.\n"
  | _ => []

/-! The command among the flags -/

def startsWithDash (argument : Text) : Bool := argument.head? = some ('-' : UInt8)

/-- Whether the argument after this one is its value, as far as that is known before the command: a
flag that is not shared counts as one with a value, and so does the one for help. -/
def takesNext (argument : Text) : Bool :=
  !argument.contains ('=' : UInt8) &&
    match Text.after? "--" argument with
    | some name => !(sharedFlags.any fun flag => flag.name == name && flag.isSwitch)
    | none =>
        match argument with
        | [dash, letter] =>
            dash == '-' &&
              !(sharedFlags.any fun flag => flag.letter? == some letter && flag.isSwitch)
        | _ => false

/-- The first argument that is neither a flag nor the value of one. A flag before the last argument
hides it. -/
def firstWord? : List Text → Option Text
  | [] => none
  | argument :: rest =>
      if argument == "--" then none
      else if takesNext argument then
        match rest with
        | [] => none
        | [_] => none
        | _ :: more => firstWord? more
      else if argument.isEmpty || startsWithDash argument then firstWord? rest
      else some argument

/-- The arguments without the first that is `word` and not the value of a flag. -/
def withoutWord (word : Text) : List Text → List Text
  | [] => []
  | argument :: rest =>
      if argument == "--" then argument :: rest
      else if takesNext argument then
        match rest with
        | [] => [argument]
        | value :: more => argument :: value :: withoutWord word more
      else if !startsWithDash argument && argument == word then rest
      else argument :: withoutWord word rest

/-! Flags -/

/-- What is read of the arguments so far; the plain ones last first. -/
structure Reading where
  options : Options := {}
  arguments : List Text := []

def setFlag (options : Options) (flag : Flag) (value : Text) : Except UsageFault Options :=
  (flag.set options value).mapError (.badValue flag value)

/-- Options after a flag, and whether the argument after it was its value. -/
abbrev Taken := Except UsageFault (Options × Bool)

/-- A flag by name, with its value after an equals sign or in the next argument. -/
def takeNamed (flags : List Flag) (options : Options) (body : Text) (next : Option Text) : Taken :=
  if body.head? = some ('-' : UInt8) ∨ body.head? = some ('=' : UInt8) then
    .error (.badFlag ("--" ++ body))
  else
    let name := body.takeWhile (· != ('=' : UInt8))
    match flags.find? (·.name == name) with
    | none => .error (.unknownFlag name)
    | some flag =>
        match body.dropWhile (· != ('=' : UInt8)) with
        | _ :: value => (setFlag options flag value).map (·, false)
        | [] =>
            if flag.isSwitch then (setFlag options flag "true").map (·, false)
            else
              match next with
              | some value => (setFlag options flag value).map (·, true)
              | none => .error (.valueMissing flag)

/-- What the flags of a test runner begin with; they are passed over. -/
def testMark : Text := "test."

/-- Flags by letter: switches in a row, then at most one with a value, which follows an equals
sign, is the rest or is the next argument. -/
def takeLetters (flags : List Flag) (options : Options) (next : Option Text) : Text → Taken
  | [] => .ok (options, false)
  | letter :: rest =>
      if testMark.isPrefixOf (letter :: rest) then .ok (options, false)
      else
        match flags.find? (·.letter? == some letter) with
        | none => .error (.unknownLetter letter (letter :: rest))
        | some flag =>
            if rest.head? = some ('=' : UInt8) ∧ 1 < rest.length then
              (setFlag options flag (rest.drop 1)).map (·, false)
            else if flag.isSwitch then
              match setFlag options flag "true" with
              | .ok options => takeLetters flags options next rest
              | .error fault => .error fault
            else if !rest.isEmpty then (setFlag options flag rest).map (·, false)
            else
              match next with
              | some value => (setFlag options flag value).map (·, true)
              | none => .error (.letterValueMissing letter (letter :: rest))

/-- The flag that an argument is; `none` for a plain argument. -/
def takeFlag? (flags : List Flag) (options : Options) (argument : Text) (next : Option Text) :
    Option Taken :=
  match Text.after? "--" argument with
  | some body => some (takeNamed flags options body next)
  | none =>
      match argument with
      | dash :: letter :: rest =>
          if dash = '-' then some (takeLetters flags options next (letter :: rest)) else none
      | _ => none

def takeAll (flags : List Flag) (reading : Reading) : List Text → Except UsageFault Reading
  | [] => .ok { reading with arguments := reading.arguments.reverse }
  | argument :: rest =>
      if argument == "--" then
        .ok { reading with arguments := reading.arguments.reverse ++ rest }
      else
        match takeFlag? flags reading.options argument rest.head? with
        | none => takeAll flags { reading with arguments := argument :: reading.arguments } rest
        | some (.error fault) => .error fault
        | some (.ok (options, taken)) =>
            match rest with
            | [] => .ok { options, arguments := reading.arguments.reverse }
            | value :: more =>
                if taken then takeAll flags { reading with options } more
                else takeAll flags { reading with options } (value :: more)

/-! The whole -/

/-- A command with its options and arguments; without a command, usage is told. -/
structure Invocation where
  verb : Option Verb
  options : Options
  arguments : List Text

def checkArguments (verb : Verb) (count : Nat) : Except UsageFault Unit :=
  match verb with
  | .meter | .help => .ok ()
  | .line | .explain => if count < 1 then .error (.tooFewArguments 1 count) else .ok ()
  | .catalog => if 1 < count then .error (.tooManyArguments 1 count) else .ok ()
  | .report => if count ≠ 1 then .error (.wrongArguments 1 count) else .ok ()

def Invocation.read (arguments : List Text) : Except UsageFault Invocation :=
  match firstWord? arguments with
  | none => do
      let reading ← takeAll commonFlags {} arguments
      return ⟨none, reading.options, reading.arguments⟩
  | some word =>
      match Verb.all.find? (·.name == word) with
      | none => .error (.unknownCommand word)
      | some verb => do
          let reading ← takeAll (commonFlags ++ verb.ownFlags) {} (withoutWord word arguments)
          if reading.options.help then return ⟨none, reading.options, reading.arguments⟩
          else
            checkArguments verb reading.arguments.length
            return ⟨some verb, reading.options, reading.arguments⟩

end Z80Cost.Command
