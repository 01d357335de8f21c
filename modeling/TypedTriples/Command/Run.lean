import TypedTriples.Command.Arguments
import TypedTriples.Command.Records
import TypedTriples.Ruleset.Document

/-!
# Runs

A run of the command reads a rules file and then converts records or reports
on the rules. In a conversion the input is opened, the output is created or
emptied, all records are read, and only then statements are written; the
statements before a record that ends the conversion are kept.

Main definitions:
* `Outcome`: what a run leaves behind.
* `Invocation.run`: the run of an invocation on files and a standard input.
* `CommandLine.run`: the same for an argument list.
-/

namespace TypedTriples

/-- What a run sees: files and the standard input. -/
structure World where
  files : Files
  input : Octets

/-- Why a run fails. -/
inductive RunFault where
  /-- No rules file is named. -/
  | noRules
  /-- The rules file cannot be read. -/
  | rules (path : Text) (fault : FileFault)
  /-- The input cannot be opened. -/
  | opening (path : Text) (fault : FileFault)
  /-- The output cannot be created. -/
  | creating (path : Text) (fault : FileFault)
  /-- The input is not a stream of records. -/
  | records (fault : Records.Fault)
  /-- A record has no statement. -/
  | invalid (record : InvalidRecord)
  deriving DecidableEq, Repr

/-- The message for a rules file that cannot be read. -/
def FileFault.rulesMessage (fault : FileFault) : Text := "IO error: ".toList ++ fault.message

/-- The message of a fault. The fault of a rules file is given twice, the
    second time as the cause of the first. -/
def RunFault.message : RunFault → Text
  | noRules => "no rules file given (use --rules or NTRIPLES_RULES)".toList
  | rules path fault =>
    "reading rules file ".toList ++ path ++ ": ".toList ++ fault.rulesMessage ++ ": ".toList ++
      fault.message
  | opening path fault => "opening ".toList ++ path ++ ": ".toList ++ fault.message
  | creating path fault => "creating ".toList ++ path ++ ": ".toList ++ fault.message
  | records fault => fault.message
  | invalid record => record.message

/-- What a run leaves behind. -/
structure Outcome where
  /-- The text on the standard output. -/
  output : Text := []
  /-- The records that were skipped. -/
  skipped : List InvalidRecord := []
  /-- The number of statements written. -/
  written : Nat := 0
  /-- The files after the run. -/
  files : Files
  /-- Why the run failed, if it did. -/
  fault : Option RunFault := none

/-- The number that a run ends with. -/
def Outcome.exitCode (outcome : Outcome) : Nat := if outcome.fault.isSome then 1 else 0

/-- The ruleset of a rules file. -/
def Ruleset.ofFile (files : Files) (path : Text) : Except FileFault Ruleset :=
  (files.readText path).map Ruleset.ofText

namespace World

/-- The input of a conversion after it is opened: a place, or nothing for the
    standard input. -/
def openInput (world : World) : Option Text → Except RunFault (Option Place)
  | none => .ok none
  | some path =>
    match world.files.open? path with
    | .ok place => .ok (some place)
    | .error fault => .error (.opening path fault)

/-- The output of a conversion after it is created: the files and a place, or
    nothing for the standard output. -/
def createOutput (world : World) : Option Text → Except RunFault (Files × Option Place)
  | none => .ok (world.files, none)
  | some path =>
    match world.files.create? path with
    | .ok (files, place) => .ok (files, some place)
    | .error fault => .error (.creating path fault)

/-- The octets of an opened input, as the files are now. -/
def octets (world : World) : Option Place → Except FileFault Octets
  | none => .ok world.input
  | some place => world.files.contents place

/-- The records of an opened input, as the files are now. -/
def records (world : World) (input : Option Place) : Except RunFault (List Triple) :=
  match world.octets input with
  | .error fault => .error (.records (.unreadable fault))
  | .ok octets =>
    match Records.read octets with
    | .error fault => .error (.records fault)
    | .ok records => .ok records

end World

/-- The outcome of a conversion whose output is a file, by its place, or the
    standard output. -/
def Conversion.outcome (c : Conversion) (files : Files) (output : Option Place) : Outcome where
  output := if output.isSome then [] else c.output
  skipped := c.skipped
  written := c.written
  files :=
    match output with
    | some place => files.write place c.output.toUtf8
    | none => files
  fault := c.failure.map .invalid

namespace Ruleset

/-- How the records of a conversion are divided: by halves, for eight workers. -/
def divisionOf (records : List Triple) : Division := Division.halves 3 records.length

/-- The run of a conversion. -/
def runConvert (rules : Ruleset) (settings : ConvertSettings) (world : World) : Outcome :=
  match world.openInput settings.input with
  | .error fault => { files := world.files, fault := some fault }
  | .ok input =>
    match world.createOutput settings.output with
    | .error fault => { files := world.files, fault := some fault }
    | .ok (files, output) =>
      match { world with files := files }.records input with
      | .error fault => { files := files, fault := some fault }
      | .ok records =>
        (rules.convert settings.policy settings.form settings.parallel (divisionOf records)
          records).outcome files output

/-- The run of a command under a ruleset. -/
def run (rules : Ruleset) (command : Command) (format : ReportFormat) (world : World) : Outcome :=
  match command with
  | .convert settings => rules.runConvert settings world
  | .inspect => { output := rules.inspect format, files := world.files }
  | .resolve predicates => { output := rules.resolutions predicates format, files := world.files }

end Ruleset

/-- The run of an invocation. -/
def Invocation.run (invocation : Invocation) (world : World) : Outcome :=
  match invocation.rules with
  | none => { files := world.files, fault := some .noRules }
  | some path =>
    match Ruleset.ofFile world.files path with
    | .error fault => { files := world.files, fault := some (.rules path fault) }
    | .ok rules => rules.run invocation.command invocation.format world

namespace CommandLine

/-- The version of the program. -/
def version : Text := "0.3.0".toList

/-- The answer to the version option. -/
def versionText : Text := "ntriples-rules ".toList ++ version ++ ['\n']

/-- The number that a run ends with when the arguments are not understood. -/
def usageCode : Nat := 2

/-- What a command line comes to. -/
inductive Answer where
  /-- The arguments are not understood. -/
  | usage
  /-- They are, and the run leaves an outcome behind. -/
  | outcome (outcome : Outcome)

/-- The run of an argument list, where `environment` is the rules file that
    the environment names. -/
def run (arguments : List Text) (environment : Option Text) (world : World) : Answer :=
  match Invocation.ofArguments arguments environment with
  | .ok invocation => .outcome (invocation.run world)
  | .error .version => .outcome { output := versionText, files := world.files }
  | .error .usage => .usage

end CommandLine

end TypedTriples
