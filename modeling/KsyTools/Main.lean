/-
# The command line

The commands, run on the files of the machine.  What a command can come across is read before it
starts: all that is below the current directory, and below the directories that its arguments name
or are in.
-/
import KsyTools.Command.Includes
import KsyTools.Command.Lint

namespace KsyTools.CommandLine

/-- Reads what is at a place, with everything below it.  A link leads to where it leads in the end;
one that leads nowhere stays so. -/
partial def readEntry (place : IO.FS.DirEntry) : IO Entry := do
  match (← place.path.symlinkMetadata).type with
  | .dir =>
    let below ← (← place.path.readDir).toList.mapM fun inner => do
      return (inner.fileName, ← readEntry inner)
    return .directory below
  | .file => return .file (← IO.FS.readBinFile place.path).toList 0
  | .symlink =>
    try
      return .link (← IO.FS.realPath place.path).toString
    catch _ => return .link ""
  | .other => return .pipe

/-- Adds the directory that an argument names or is in to a tree, if there is one. -/
def addDirectory (here : String) (root : Entry) (argument : String) : IO Entry := do
  let named := (IO.FS.DirEntry.mk here argument).path
  if !(← named.pathExists) then return root
  let place ← IO.FS.realPath named
  let directory := if ← place.isDir then place.toString else (place.parent.getD place).toString
  return root.put (Path.ofString directory).parts (← readEntry ⟨directory, "."⟩)

/-- The files that a command can come across. -/
def readTree (arguments : List String) : IO FileTree := do
  let here := (← IO.currentDir).toString
  let root ← ("." :: arguments).foldlM (addDirectory here) (.directory [])
  return ⟨root, Path.ofString here, 1⟩

/-- The settings that the environment gives; warnings go to the error output. -/
def readSettings : IO Settings := do
  let names := [Settings.logLevelVariable, Settings.printLevelVariable, Settings.cacheVariable,
    Settings.cacheSizeVariable]
  let values ← names.mapM fun name => do return (name, ← IO.getEnv name)
  let (settings, warnings) := Settings.ofEnvironment fun name => (values.lookup name).join
  warnings.forM fun r => IO.eprintln r.message
  return settings

/-- Writes what a command has left behind, and gives its exit code. -/
def finish (outcome : Outcome) : IO UInt32 := do
  IO.print outcome.console.out
  IO.eprint outcome.console.err
  match outcome.result with
  | .ok code => return code.toUInt32
  | .error failure =>
    IO.eprintln failure.message
    return 1

end KsyTools.CommandLine

open KsyTools in
/-- Runs the command that the first argument names. -/
def main (arguments : List String) : IO UInt32 := do
  match arguments with
  | "lint" :: rest =>
    let settings ← CommandLine.readSettings
    CommandLine.finish (LintCommand.run settings none (← CommandLine.readTree rest) rest)
  | "includes" :: rest =>
    let settings ← CommandLine.readSettings
    CommandLine.finish (IncludesCommand.run settings none (← CommandLine.readTree rest) rest)
  | _ =>
    IO.eprintln "usage: ksytools \x7blint,includes\x7d ..."
    return 2
