/-!
# Faults of file operations

A file operation fails for one of a few reasons. Most of them are told by the system and can be
reported to whoever asked for the operation. The others are about the written path itself, and
nobody is prepared for them.
-/

namespace CodeGraph

/-- How a failure is treated. -/
inductive FailureSort where
  /-- The library refuses what it was asked for and says why. -/
  | refusal
  /-- The system refuses a file operation. -/
  | system
  /-- Nobody is prepared for the failure. -/
  | breach
deriving DecidableEq, Repr

/-- Why a file operation fails. -/
inductive FileFault where
  /-- Something on the way is missing. -/
  | missing
  /-- Something on the way is no directory. -/
  | notDirectory
  /-- Something stands where a directory is to be made. -/
  | taken
  /-- A directory stands where a file is wanted. -/
  | isDirectory
  /-- The path means a directory that cannot be replaced. -/
  | busy
  /-- The way leads through too many links. -/
  | tooManyLinks
  /-- A name or the whole path is too long. -/
  | tooLong
  /-- The path holds a NUL character. -/
  | nul
  /-- A character of the path has no bytes. -/
  | unencodable
  /-- The path leads into a circle of links. -/
  | circular
  /-- The path has no last segment whose name could be changed. -/
  | nameless
  /-- The path begins at the home of somebody unknown. -/
  | unknownHome
deriving DecidableEq, Repr

namespace FileFault

/-- How the fault is treated: the first seven are the system's. -/
def sort : FileFault → FailureSort
  | .nul | .unencodable | .circular | .nameless | .unknownHome => .breach
  | _ => .system

/-- The fault in words. -/
def message : FileFault → String
  | .missing => "[Errno 2] No such file or directory"
  | .notDirectory => "[Errno 20] Not a directory"
  | .taken => "[Errno 17] File exists"
  | .isDirectory => "[Errno 21] Is a directory"
  | .busy => "[Errno 16] Device or resource busy"
  | .tooManyLinks => "[Errno 40] Too many levels of symbolic links"
  | .tooLong => "[Errno 36] File name too long"
  | .nul => "the path holds a NUL character"
  | .unencodable => "a character of the path has no bytes"
  | .circular => "the path leads into a circle of links"
  | .nameless => "the path has no name"
  | .unknownHome => "the home directory is unknown"

end FileFault

end CodeGraph
