import MellivorKernel.Foundation.Dict
import MellivorKernel.Python.Exception
import MellivorKernel.Python.Printing

/-!
# The kernel's logger

`configure_logging` and `add_file_handler` of `core/logging.py`, on the logger
`mellivor_kernel` that all kernels of a process share. What the file system
answers is given; how records are formatted is left out.
-/

namespace MellivorKernel

open Python Foundation

/-- `console` is the attribute `configure_logging` marks its handler with. -/
structure Handler where
  console : Bool
  path : Option Str
  level : Int
  deriving DecidableEq

/-- The process's level names and the logger. -/
structure Logging where
  levelNames : Dict Str Int
  level : Int
  propagate : Bool
  handlers : List Handler

def configurationError : ExnClass := .foreign (lit "ConfigurationError") .kernelError

def consoleHandler : Handler := ⟨true, none, 0⟩

section
variable [Printing]

def resolveLevel (levels : Dict Str Int) (levelName : Str) : Except Exn Int :=
  match levels.get? levelName with
  | some level => .ok level
  | none => .error (.raised configurationError
      (lit "Invalid log level " ++ pyRepr levelName ++ lit "; expected one of: " ++
        join (lit ", ") (sorted (levels.keys.filter (· ≠ lit "NOTSET"))) ++ lit "."))

def configureLogging (logging : Logging) (logLevel : Str) : Except Exn Unit × Logging :=
  match resolveLevel logging.levelNames logLevel with
  | .error exc => (.error exc, logging)
  | .ok level => (.ok (), { logging with
      level := level
      propagate := false
      handlers := logging.handlers.filter (fun handler => !handler.console) ++ [consoleHandler] })

/-- `opened` is what making the parent directory and opening the file come
to. -/
def addFileHandler (logging : Logging) (path : Str) (level : Option Str)
    (opened : Except Exn Unit) : Except Exn Unit × Logging :=
  match opened with
  | .error exc => (.error exc, logging)
  | .ok () =>
    match level.elim (.ok 0) (resolveLevel logging.levelNames) with
    | .error exc => (.error exc, logging)
    | .ok level =>
      (.ok (), { logging with handlers := logging.handlers ++ [⟨false, some path, level⟩] })

end

end MellivorKernel
