import TypedTriples.Command.Conversion
import TypedTriples.Report

/-!
# Arguments

The command line is `[options] COMMAND [options] [operands]`. The options for
the rules file and the report format may stand on both sides of the command;
the right side wins. An option takes its value from the same argument, after
an equals sign, or from the next one, which then may not look like an option;
no option may stand twice on one side.

Main definitions:
* `Invocation`: what the command line asks for.
* `Invocation.ofArguments`: the invocation of an argument list and the value
  of the environment.
-/

namespace TypedTriples

/-- Settings of a conversion. -/
structure ConvertSettings where
  /-- The input file, none for the standard input. -/
  input : Option Text := none
  /-- The output file, none for the standard output. -/
  output : Option Text := none
  policy : InvalidPolicy := .fail
  form : StatementForm := .line
  /-- Whether statements may be computed at once. -/
  parallel : Bool := false
  deriving DecidableEq, Repr

/-- What is to be done with a ruleset. -/
inductive Command where
  | convert (settings : ConvertSettings)
  | inspect
  | resolve (predicates : List Text)
  deriving DecidableEq, Repr

/-- A command, its rules file, if one is given, and the format of reports. -/
structure Invocation where
  rules : Option Text
  format : ReportFormat
  command : Command
  deriving DecidableEq, Repr

/-- Why an argument list is no invocation. -/
inductive Refusal where
  /-- The arguments are not understood. -/
  | usage
  /-- They ask for the version instead. -/
  | version
  deriving DecidableEq, Repr

namespace Arguments

/-! ## Options -/

/-- The options of the command line. -/
inductive Flag where
  | rules
  | format
  | input
  | output
  | onInvalid
  | parallel
  | emit
  deriving DecidableEq, Repr

/-- The name of an option, without its hyphens. -/
def Flag.name : Flag → Text
  | rules => "rules".toList
  | format => "format".toList
  | input => "input".toList
  | output => "output".toList
  | onInvalid => "on-invalid".toList
  | parallel => "parallel".toList
  | emit => "emit".toList

/-- The words for the values of an option, if it has a closed list of them. -/
def reportFormats : List (Text × ReportFormat) :=
  [("table".toList, .table), ("json".toList, .json)]

/-- The words for what becomes of invalid records. -/
def policies : List (Text × InvalidPolicy) := [("fail".toList, .fail), ("skip".toList, .skip)]

/-- The words for the forms of statements. -/
def forms : List (Text × StatementForm) := [("ntriples".toList, .line), ("json".toList, .json)]

/-- Whether an option accepts a value. -/
def Flag.accepts : Flag → Text → Bool
  | rules, value => !value.isEmpty
  | input, value => !value.isEmpty
  | output, value => !value.isEmpty
  | format, value => (reportFormats.lookup value).isSome
  | onInvalid, value => (policies.lookup value).isSome
  | emit, value => (forms.lookup value).isSome
  | parallel, _ => false

/-- The options allowed on both sides of the command. -/
def commonFlags : List Flag := [.rules, .format]

/-- The options of a conversion. -/
def convertFlags : List Flag := commonFlags ++ [.input, .output, .onInvalid, .parallel, .emit]

/-- The options given on one side of the command, with their values. -/
abbrev Settings := List (Flag × Text)

/-- The settings with one more option, which must accept its value and may not
    be there yet. -/
def set (settings : Settings) (flag : Flag) (value : Text) : Except Refusal Settings :=
  if (settings.lookup flag).isSome || !flag.accepts value then .error .usage
  else .ok (settings ++ [(flag, value)])

/-- The settings with the option that has no value. -/
def setParallel (settings : Settings) : Except Refusal Settings :=
  if (settings.lookup .parallel).isSome then .error .usage
  else .ok (settings ++ [(.parallel, [])])

/-! ## Arguments of one side -/

/-- Whether an argument looks like an option; a single hyphen does not. -/
def isOption : Text → Bool
  | '-' :: _ :: _ => true
  | _ => false

/-- The name and the value of an option written with an equals sign, or the
    name alone. -/
def nameAndValue (t : Text) : Text × Option Text :=
  match t.dropWhile (· != '=') with
  | _ :: value => (t.takeWhile (· != '='), some value)
  | [] => (t, none)

/-- The arguments of one side of the command: settings, operands, and what is
    left. The left side, which knows the version option, ends at its first
    operand; the right side takes all operands. Two hyphens end the options. -/
def side (flags : List Flag) (isLeft : Bool) (settings : Settings) (operands : List Text) :
    List Text → Except Refusal (Settings × List Text × List Text)
  | [] => .ok (settings, operands, [])
  | ['-', '-'] :: rest =>
    if isLeft then .error .usage else .ok (settings, operands ++ rest, [])
  | ('-' :: '-' :: option) :: rest =>
    let (name, attached) := nameAndValue option
    match flags.find? fun flag => flag.name == name with
    | some .parallel =>
      match attached with
      | some _ => .error .usage
      | none =>
        match setParallel settings with
        | .ok settings => side flags isLeft settings operands rest
        | .error refusal => .error refusal
    | some flag =>
      match attached with
      | some value =>
        match set settings flag value with
        | .ok settings => side flags isLeft settings operands rest
        | .error refusal => .error refusal
      | none =>
        match rest with
        | value :: rest =>
          if isOption value then .error .usage
          else
            match set settings flag value with
            | .ok settings => side flags isLeft settings operands rest
            | .error refusal => .error refusal
        | [] => .error .usage
    | none =>
      if isLeft && option == "version".toList then .error .version else .error .usage
  | operand :: rest =>
    if isOption operand then
      if isLeft && "-V".toList.isPrefixOf operand then .error .version else .error .usage
    else if isLeft then .ok (settings, [], operand :: rest)
    else side flags isLeft settings (operands ++ [operand]) rest

/-! ## Values of options -/

/-- `-` stands for the standard stream. -/
def streamPath (path : Option Text) : Option Text := path.filter (· != ['-'])

/-- The settings of a conversion. -/
def convertSettings (settings : Settings) : ConvertSettings where
  input := streamPath (settings.lookup .input)
  output := streamPath (settings.lookup .output)
  policy := ((settings.lookup .onInvalid).bind fun word => policies.lookup word).getD .fail
  form := ((settings.lookup .emit).bind fun word => forms.lookup word).getD .line
  parallel := (settings.lookup .parallel).isSome

/-- The report format that the right side asks for, else the left side. -/
def reportFormat (left right : Settings) : ReportFormat :=
  (((right.lookup .format).or (left.lookup .format)).bind fun word =>
    reportFormats.lookup word).getD .table

/-- The rules file that the right side names, else the left side, else the
    environment. A side that names none looks at the environment, whose value
    may then not be empty. -/
def rulesFile (left right : Settings) (environment : Option Text) :
    Except Refusal (Option Text) :=
  let sides := [right.lookup .rules, left.lookup .rules]
  if environment == some [] && sides.any Option.isNone then .error .usage
  else .ok (((right.lookup .rules).or (left.lookup .rules)).or environment)

end Arguments

namespace Invocation

open Arguments

/-- The command with the given name, from the options and operands on its
    right side. -/
def commandOf (name : Text) (settings : Settings) (operands : List Text) :
    Except Refusal Command :=
  if name = "resolve".toList then
    if operands.isEmpty then .error .usage else .ok (.resolve operands)
  else if !operands.isEmpty then .error .usage
  else if name = "convert".toList then .ok (.convert (convertSettings settings))
  else if name = "inspect".toList then .ok .inspect
  else .error .usage

/-- The options of the command with the given name. -/
def flagsOf (name : Text) : List Flag :=
  if name = "convert".toList then convertFlags else commonFlags

/-- The invocation of an argument list, where `environment` is the rules file
    that the environment names. -/
def ofArguments (arguments : List Text) (environment : Option Text) :
    Except Refusal Invocation := do
  let (left, _, rest) ← side commonFlags true [] [] arguments
  match rest with
  | [] => throw .usage
  | name :: rest =>
    let (right, operands, _) ← side (flagsOf name) false [] [] rest
    let command ← commandOf name right operands
    let rules ← rulesFile left right environment
    return { rules, format := reportFormat left right, command }

end Invocation

end TypedTriples
