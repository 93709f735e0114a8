/-!
# Arguments of a Command

Options with a name, with or without a value.

An option is given by its long name behind two hyphens or by its letter
behind one. A value is the next argument, or follows the name behind an
equals sign, or follows the letter at once. A value that is an argument of
its own may be a single hyphen but does not begin with one otherwise. Two
hyphens alone end the options, and as there is nothing but options, they end
the arguments. Each option is given at most once. What a command makes of the
options is its own business; here they are only told apart.

## Main definitions

* `OptionSpec`: An option that a command knows.
* `Arguments.parse`: The options among the arguments.
* `UsageError`: Why arguments cannot be understood.
* `Arguments.natural`: A value that is a number.
-/

namespace MarketFeed

/-- An option that a command knows. -/
structure OptionSpec where
  /-- Its name behind two hyphens. -/
  name : String
  /-- Its letter behind one hyphen, if it has one. -/
  letter : Option Char := none
  /-- Whether a value belongs to it. -/
  takesValue : Bool := true
  deriving DecidableEq, Repr

/-- Why arguments cannot be understood. -/
inductive UsageError
  /-- An argument is no option of the command. -/
  | unexpected (argument : String)
  /-- An option is given without its value. -/
  | valueMissing (name : String)
  /-- A value is given to an option that has none. -/
  | valueUnwanted (name : String)
  /-- An option is given twice. -/
  | repeated (name : String)
  /-- A value is not a number, or too large a one. -/
  | notANumber (name value : String)
  /-- An option that must be given is not. -/
  | required (name : String)
  deriving DecidableEq, Repr

/-- The error as a sentence. -/
def UsageError.message : UsageError → String
  | .unexpected argument => "unexpected argument " ++ argument
  | .valueMissing name => "a value is required for --" ++ name
  | .valueUnwanted name => "no value is allowed for --" ++ name
  | .repeated name => "--" ++ name ++ " cannot be given more than once"
  | .notANumber name value => "invalid value " ++ value ++ " for --" ++ name
  | .required name => "--" ++ name ++ " is required"

namespace Arguments

/-- The options that were given, with their values. An option without a value
    has an empty one. -/
abbrev Given := List (String × String)

/-- An argument taken apart: the option it names, and the value that came
    with it. -/
def split (specs : List OptionSpec) (argument : String) :
    Option (OptionSpec × Option String) :=
  match argument.toList with
  | '-' :: '-' :: rest =>
    let name := String.ofList (rest.takeWhile (· != '='))
    let value := match rest.dropWhile (· != '=') with
      | [] => none
      | _ :: value => some (String.ofList value)
    (specs.find? (·.name == name)).map (·, value)
  | '-' :: letter :: rest =>
    let value := match rest with
      | [] => none
      | '=' :: value => some (String.ofList value)
      | value => some (String.ofList value)
    (specs.find? (·.letter == some letter)).map (·, value)
  | _ => none

/-- Whether an argument can be the value of the option in front of it. -/
def isValue (argument : String) : Bool := argument == "-" || !argument.startsWith "-"

/-- What is left to do behind two hyphens: nothing may follow them. -/
def finish (rest : List String) (given : Given) : Except UsageError Given :=
  match rest with
  | [] => .ok given.reverse
  | argument :: _ => .error (.unexpected argument)

/-- The options among the arguments, added to those given before. An option
    whose name came last may still be waiting for its value. -/
def parseFrom (specs : List OptionSpec) :
    List String → Option OptionSpec → Given → Except UsageError Given
  | [], none, given => .ok given.reverse
  | [], some waiting, _ => .error (.valueMissing waiting.name)
  | argument :: rest, some waiting, given =>
    if isValue argument then parseFrom specs rest none ((waiting.name, argument) :: given)
    else .error (.valueMissing waiting.name)
  | argument :: rest, none, given =>
    if argument = "--" then finish rest given
    else
      match split specs argument with
      | none => .error (.unexpected argument)
      | some (spec, value) =>
        if given.any (·.1 == spec.name) then .error (.repeated spec.name)
        else
          match spec.takesValue, value with
          | false, none => parseFrom specs rest none ((spec.name, "") :: given)
          | false, some _ => .error (.valueUnwanted spec.name)
          | true, some value => parseFrom specs rest none ((spec.name, value) :: given)
          | true, none => parseFrom specs rest (some spec) given

/-- The options among the arguments. -/
def parse (specs : List OptionSpec) (arguments : List String) : Except UsageError Given :=
  parseFrom specs arguments none []

/-- The value of an option. -/
def value? (given : Given) (name : String) : Option String :=
  (given.find? (·.1 == name)).map (·.2)

/-- Whether an option was given. -/
def has (given : Given) (name : String) : Bool := given.any (·.1 == name)

/-- The number that decimal digits write. -/
def digits? : List Char → Option Nat
  | [] => none
  | digits =>
    digits.foldl
      (fun n c => if c.isDigit then n.map (10 * · + (c.toNat - '0'.toNat)) else none) (some 0)

/-- A value that is a number of 64 bits, a plus sign in front allowed. -/
def natural (name value : String) : Except UsageError Nat :=
  let digits := match value.toList with
    | '+' :: digits => digits
    | digits => digits
  match digits? digits with
  | some n => if n < UInt64.size then .ok n else .error (.notANumber name value)
  | none => .error (.notANumber name value)

/-- The number given for an option, or the one that stands for it. -/
def naturalOr (given : Given) (name : String) (otherwise : Nat) : Except UsageError Nat :=
  match value? given name with
  | none => .ok otherwise
  | some value => natural name value

/-- The number given for an option, if it was given. -/
def natural? (given : Given) (name : String) : Except UsageError (Option Nat) :=
  match value? given name with
  | none => .ok none
  | some value => (natural name value).map some

/-- A value that is a path, which is never empty. -/
def path (name value : String) : Except UsageError String :=
  if value.isEmpty then .error (.valueMissing name) else .ok value

/-- The path given for an option, or the one that stands for it. -/
def pathOr (given : Given) (name otherwise : String) : Except UsageError String :=
  match value? given name with
  | none => .ok otherwise
  | some value => path name value

/-- The path of an option that must be given. -/
def requiredPath (given : Given) (name : String) : Except UsageError String :=
  match value? given name with
  | none => .error (.required name)
  | some value => path name value

end Arguments

end MarketFeed
