import EventSim.Corridor.Program

set_option autoImplicit false

/-!
# Command line

The corridor program on the file system of the machine. The summary goes to standard output. What went
wrong goes to standard error, and the exit code tells a crash from an error.
-/

namespace EventSim

/-- The refusal of a system call in the terms of the library. -/
def FileError.ofIO : IO.Error → FileError
  | .noFileOrDirectory .. => .notFound
  | .alreadyExists .. => .alreadyExists
  | .inappropriateType _ 20 _ => .notFolder
  | .inappropriateType _ 21 _ => .isFolder
  | .invalidArgument _ 36 _ => .nameTooLong
  | e => .other (toString e)

/-- An action with its refusal as a value. -/
def attemptIO {α : Type} (act : IO α) : IO (Except FileError α) := do
  try
    return .ok (← act)
  catch e =>
    return .error (FileError.ofIO e)

instance : FileSystem IO where
  probe path := attemptIO (discard (IO.FS.Handle.mk path .read))
  read path := attemptIO do return (← IO.FS.readBinFile path).toList
  createFolders path := attemptIO (if path.isEmpty then pure () else IO.FS.createDirAll path)
  create path := attemptIO (IO.FS.writeFile path "")
  write path text := attemptIO (IO.FS.writeFile path text)

end EventSim

def main (args : List String) : IO UInt32 := do
  match ← (EventSim.Corridor.program args).run with
  | .ok lines =>
    lines.forM IO.println
    return 0
  | .error e =>
    IO.eprint e.standardError
    return e.exitCode.toUInt32
