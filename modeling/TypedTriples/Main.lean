import TypedTriples.Command.Run

/-!
# The program

Reads the files that the command line names, runs it, writes the output file
and prints the rest: statements and reports on the standard output, warnings
and errors on the standard error.
-/

namespace TypedTriples.Main

/-- The variable of the environment that names the rules file. -/
def rulesVariable : String := "NTRIPLES_RULES"

/-- Whether a directory stands at a path. -/
def isDirectory (path : String) : IO Bool := do
  try (← IO.FS.realPath path).isDir catch _ => return false

/-- What stands at a path, as an entry of its place. -/
def entriesAt (path : Text) : IO (List (Place × FileEntry)) := do
  let place := Place.ofPath path
  if ← isDirectory (String.ofList path) then return [(place, .directory)]
  try
    let octets ← IO.FS.readBinFile (String.ofList path)
    return [(place, .file octets.toList)]
  catch _ => return []

/-- The paths to all places on the way of a path, itself included. -/
def pathsAlong (path : Text) : List Text :=
  let steps := Place.steps path
  let paths := (List.range steps.length).map fun n => List.intercalate ['/'] (steps.take (n + 1))
  paths.filter (!·.isEmpty)

/-- The files that a run can reach by the given paths. -/
def filesAt (paths : List Text) : IO Files := do
  let entries ← (paths.flatMap pathsAlong).mapM entriesAt
  return ⟨entries.flatten⟩

/-- The paths that an invocation names. -/
def pathsOf (invocation : Invocation) : List Text :=
  match invocation.command with
  | .convert settings =>
    invocation.rules.toList ++ settings.input.toList ++ settings.output.toList
  | _ => invocation.rules.toList

/-- Whether an invocation reads the standard input. -/
def readsInput (invocation : Invocation) : Bool :=
  match invocation.command with
  | .convert settings => settings.input.isNone
  | _ => false

/-- Writes the file of a conversion, if the run has created it. -/
def writeOutput (invocation : Invocation) (before after : Files) : IO Unit := do
  match invocation.command with
  | .convert { output := some path, .. } =>
    let place := Place.ofPath path
    if before.find? place ≠ after.find? place then
      match after.contents place with
      | .ok octets => IO.FS.writeBinFile (String.ofList path) ⟨octets.toArray⟩
      | .error _ => return
  | _ => return

/-- Runs an invocation and answers with the number that it ends with. -/
def perform (invocation : Invocation) : IO UInt32 := do
  let files ← filesAt (pathsOf invocation)
  let input ← if readsInput invocation then (← IO.getStdin).readBinToEnd else pure .empty
  let outcome := invocation.run { files, input := input.toList }
  writeOutput invocation files outcome.files
  IO.print (String.ofList outcome.output)
  for record in outcome.skipped do
    IO.eprintln ("WARN " ++ String.ofList record.warning)
  if let some fault := outcome.fault then
    IO.eprintln ("Error: " ++ String.ofList fault.message)
  return outcome.exitCode.toUInt32

end TypedTriples.Main

open TypedTriples in
/-- The program: its arguments, and the number that it ends with. -/
def main (arguments : List String) : IO UInt32 := do
  let environment ← IO.getEnv Main.rulesVariable
  match Invocation.ofArguments (arguments.map String.toList) (environment.map String.toList) with
  | .ok invocation => Main.perform invocation
  | .error .version =>
    IO.print (String.ofList CommandLine.versionText)
    return 0
  | .error .usage =>
    IO.eprintln "usage: ntriples-rules --rules PATH convert | inspect | resolve PREDICATE..."
    return CommandLine.usageCode.toUInt32
