import JanetEmbedding.CommandLine.Program

/-!
The program as it is run from a shell. It has no interpreter of its own to offer, so it gets as far as
looking for one.
-/

open JanetEmbedding

namespace JanetEmbedding.CommandLine

/-- The variables of the environment that hold settings. -/
def readEnvironment : IO Config.Environment := do
  let mut settings := []
  for s in Setting.all do
    if let some value ← IO.getEnv (Config.variableName s) then
      settings := settings ++ [(Config.variableName s, Text.ofString value)]
  return settings

/-- The files below the working directory that the arguments name, as far as they can be read. -/
def readFiles (a : Arguments) : IO Files.Tree := do
  let mut tree := []
  for name in [a.config.bind Given.value?, a.file].filterMap id do
    let path := Files.Path.ofText name
    let bytes? ← try pure (some (← IO.FS.readBinFile path.text.shown)) catch _ => pure none
    if let some bytes := bytes? then
      tree := tree ++ [(path.parts, Files.Entry.file bytes.toList)]
  return tree

/-- Writes what has reached the terminal. -/
def writeShown (stream : IO.FS.Stream) (h : Host) (c : Channel) : IO Unit := do
  stream.write ⟨(h.stdio.flushAll.shown c).toArray⟩
  stream.flush

/-- A system on which no interpreter library is found, and none can be opened. -/
def bareSystem : Interpreter.System :=
  { loadError := some "cannot open shared object file: No such file or directory" }

end JanetEmbedding.CommandLine

open JanetEmbedding.CommandLine in
/-- Runs the program. -/
def main (args : List String) : IO UInt32 := do
  let args := args.map Text.ofString
  let files ← match Invocation.read args with
    | .run a => readFiles a
    | _ => pure []
  let surroundings := { files, environment := ← readEnvironment }
  let (ending, h) := run args surroundings { system := bareSystem }
  writeShown (← IO.getStdout) h .out
  writeShown (← IO.getStderr) h .err
  match ending with
  | .exit status => return status.toUInt32
  | .interrupted => return 0
  | .escaped _ => return 1
  -- Nothing is ever waited for, since there is no interpreter.
  | .waiting => return 1
