import BatchScript.Command.Line

/-!
# The program

Looks at the files that the command line names, hands them to the library, and carries out what
comes back: files to write, text to print, and the exit status.
-/

open BatchScript

/-- What stands at a path on the disk. -/
def entryOnDisk (path : String) : IO (Option Directory.Entry) := do
  try
    let bytes ← IO.FS.readBinFile path
    return some (.file bytes.toList)
  catch
    | .inappropriateType .. => return some .folder
    | .noFileOrDirectory .. => return none
    | e => throw e

/-- A text as the disk and the console take it. The arguments and the files that are read hold no
surrogates, so there are none to leave out. -/
def outside (t : Text) : String :=
  String.ofList (t.filterMap CodePoint.char?)

/-- A path as the disk knows it. -/
def pathOnDisk (path : Directory.Path) : String :=
  outside ([char '/'].intercalate path)

/-- The part of the disk that the given paths lead through. -/
def survey (paths : List Text) : IO Directory := do
  let mut entries := []
  for path in paths.flatMap Directory.approach do
    if let some entry ← entryOnDisk (pathOnDisk path) then
      entries := (path, entry) :: entries
  return ⟨entries⟩

/-- Runs the command line. -/
def main (args : List String) : IO UInt32 := do
  let argv := args.map String.text
  let before ← survey (Command.paths argv)
  let outcome := Command.execute argv before
  for (path, bytes) in outcome.directory.filesBeyond before do
    IO.FS.writeBinFile (pathOnDisk path) ⟨bytes.toArray⟩
  (← IO.getStdout).putStr (outside outcome.stdout)
  (← IO.getStderr).putStr (outside outcome.stderr)
  return UInt32.ofNat outcome.exit
