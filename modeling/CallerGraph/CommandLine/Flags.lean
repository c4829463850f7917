/-!
# Flags

Arguments are read from left to right. A flag is `--name`; one that takes a
value has it behind an equals sign or as the next argument, which then must
not start with a dash unless it is a single dash. Some flags have a letter
as well: `-n value`, `-nvalue` or `-n=value`. A flag that may come once
must not come again, and a value that a flag does not accept is refused
where it stands. Whoever asks for help gets it if nothing was wrong before.
Behind `--` there must be nothing.
-/

namespace CallerGraph

/-- Why arguments cannot be followed. Asking for help is one of the
reasons. -/
inductive UsageError where
  | help
  | missingCommand
  | unknownCommand (name : String)
  | unknownFlag (token : String)
  | missingValue (flag : String)
  | unexpectedValue (flag : String)
  | invalidValue (flag value : String)
  | repeatedFlag (flag : String)
  | missingFlag (flag : String)
  | unexpectedArgument (token : String)
deriving DecidableEq, Repr

namespace UsageError

/-- The wording of the error; of help, there is none. -/
def message : UsageError → String
  | help => ""
  | missingCommand => "a command is required"
  | unknownCommand name => "unrecognised command '" ++ name ++ "'"
  | unknownFlag token => "unexpected flag '" ++ token ++ "'"
  | missingValue flag => "a value is required for '--" ++ flag ++ "'"
  | unexpectedValue flag => "'--" ++ flag ++ "' takes no value"
  | invalidValue flag value => "invalid value '" ++ value ++ "' for '--" ++ flag ++ "'"
  | repeatedFlag flag => "'--" ++ flag ++ "' cannot be used several times"
  | missingFlag flag => "'--" ++ flag ++ "' is required"
  | unexpectedArgument token => "unexpected argument '" ++ token ++ "'"

end UsageError

/-- A flag of a command. -/
structure Flag where
  /-- The name behind two dashes. -/
  name : String
  /-- The letter behind one dash. -/
  letter : Option Char
  takesValue : Bool
  mayRepeat : Bool
  /-- The values that the flag accepts. -/
  accepts : String → Bool

/-- The flags given, with their values, in order. A flag without a value
has the empty one. -/
abbrev Given := List (String × String)

namespace Given

/-- Was the flag given? -/
def has (given : Given) (name : String) : Bool :=
  (given.lookup name).isSome

/-- All values of a flag. -/
def all (given : Given) (name : String) : List String :=
  (given.filter (·.1 == name)).map (·.2)

end Given

namespace Flag

/-- A flag with a value, given at most once. -/
def option (name : String) (accepts : String → Bool) : Flag :=
  ⟨name, none, true, false, accepts⟩

/-- A flag without a value. -/
def switch (name : String) : Flag :=
  ⟨name, none, false, false, fun _ => true⟩

/-- Records a flag. -/
def record (flag : Flag) (given : Given) (value : String) : Except UsageError Given :=
  if !flag.accepts value then .error (.invalidValue flag.name value)
  else if given.has flag.name ∧ !flag.mayRepeat then .error (.repeatedFlag flag.name)
  else .ok (given ++ [(flag.name, value)])

/-- Can the argument be the value of the flag before it? -/
def isValue (argument : String) : Bool :=
  argument == "-" || argument.toList.head? != some '-'

/-- A flag in an argument, with the value that stands in the same
argument. -/
structure Occurrence where
  flag : Flag
  attached : Option String

/-- The flag of an argument with two dashes. -/
def longFlag (flags : List Flag) (body : List Char) : Except UsageError Occurrence :=
  let name := String.ofList (body.takeWhile (· != '='))
  let attached := match body.dropWhile (· != '=') with
    | '=' :: value => some (String.ofList value)
    | _ => none
  if name = "help" then
    .error (if attached.isSome then .unexpectedValue name else .help)
  else
    match flags.find? (·.name == name) with
    | some flag => .ok ⟨flag, attached⟩
    | none => .error (.unknownFlag ("--" ++ name))

/-- The flag of an argument with one dash. -/
def shortFlag (flags : List Flag) (letter : Char) (behind : List Char) :
    Except UsageError Occurrence :=
  if letter = 'h' then .error .help
  else
    match flags.find? (·.letter == some letter) with
    | some flag =>
        .ok ⟨flag, match behind with
          | [] => none
          | '=' :: value => some (String.ofList value)
          | value => some (String.ofList value)⟩
    | none => .error (.unknownFlag (String.ofList ['-', letter]))

/-- The flag that an argument names. -/
def occurrence (flags : List Flag) (argument : String) : Except UsageError Occurrence :=
  match argument.toList with
  | '-' :: '-' :: body => longFlag flags body
  | '-' :: letter :: behind => shortFlag flags letter behind
  | _ => .error (.unexpectedArgument argument)

/-- Reads arguments, with the flags given so far. -/
def read (flags : List Flag) : Given → List String → Except UsageError Given
  | given, [] => .ok given
  | given, argument :: rest =>
      if argument = "--" then
        match rest with
        | [] => .ok given
        | next :: _ => .error (.unexpectedArgument next)
      else
        match occurrence flags argument with
        | .error error => .error error
        | .ok ⟨flag, attached⟩ =>
            if flag.takesValue then
              match attached, rest with
              | some value, rest =>
                  match flag.record given value with
                  | .error error => .error error
                  | .ok given => read flags given rest
              | none, value :: rest =>
                  if isValue value then
                    match flag.record given value with
                    | .error error => .error error
                    | .ok given => read flags given rest
                  else .error (.missingValue flag.name)
              | none, [] => .error (.missingValue flag.name)
            else if attached.isSome then .error (.unexpectedValue flag.name)
            else
              match flag.record given "" with
              | .error error => .error error
              | .ok given => read flags given rest

end Flag

end CallerGraph
