import MellivorKernel.Core.Logging
import MellivorKernel.Execution.Types
import MellivorKernel.Foundation.Machine

/-!
# The kernel runtime

`Kernel` of `core/runtime.py`, and the kernels of one process with the logger
they share, as a machine. `starting` and `stopping` are set and left within
one call.
-/

namespace MellivorKernel.Core

open Python Foundation

inductive KernelState
  | notStarted
  | starting
  | running
  | stopping
  | stopped
  | failed
  deriving DecidableEq

def KernelState.value : KernelState → Str
  | .notStarted => lit "not_started"
  | .starting => lit "starting"
  | .running => lit "running"
  | .stopping => lit "stopping"
  | .stopped => lit "stopped"
  | .failed => lit "failed"

structure HealthStatus where
  healthy : Bool
  state : KernelState
  detail : Str
  deriving DecidableEq

/-- `logLevel` is what the kernel reads of its settings. -/
structure Kernel where
  logLevel : Str
  container : Handle
  state : KernelState
  failureDetail : Option Str
  deriving DecidableEq

def Kernel.new (logLevel : Str) (container : Handle) : Kernel :=
  ⟨logLevel, container, .notStarted, none⟩

def startupError : ExnClass := .foreign (lit "StartupError") .kernelError

section
variable [Printing]

def Kernel.start (kernel : Kernel) (logging : Logging) : Except Exn Unit × Kernel × Logging :=
  if kernel.state ∈ [.notStarted, .stopped, .failed] then
    match configureLogging logging kernel.logLevel with
    | (.error exc, logging) =>
      (.error (.raised startupError (lit "Kernel startup failed: " ++ exc.text)),
        { kernel with state := .failed, failureDetail := some exc.text }, logging)
    | (.ok (), logging) =>
      (.ok (), { kernel with state := .running, failureDetail := none }, logging)
  else
    (.error (.raised startupError
      (lit "Cannot start kernel from state " ++ pyRepr kernel.state.value ++ lit ".")),
      kernel, logging)

end

def Kernel.shutdown (kernel : Kernel) : Kernel :=
  if kernel.state ≠ .running then kernel else { kernel with state := .stopped }

/-- `self._failure_detail or "Kernel failed to start."` in the failed state. -/
def Kernel.health (kernel : Kernel) : HealthStatus :=
  if kernel.state = .running then ⟨true, kernel.state, []⟩
  else if kernel.state = .failed then
    let detail := kernel.failureDetail.getD []
    ⟨false, kernel.state, if detail = [] then lit "Kernel failed to start." else detail⟩
  else ⟨false, kernel.state,
    lit "Kernel is not running (state=" ++ kernel.state.value ++ lit ")."⟩

-- ---------------------------------------------------------------------------
-- The kernels of a process
-- ---------------------------------------------------------------------------

structure Kernels where
  kernels : Handle → Kernel
  logging : Logging

inductive KernelOp
  | start (kernel : Handle)
  | shutdown (kernel : Handle)
  | health (kernel : Handle)
  | addFileHandler (path : Str) (level : Option Str) (opened : Except Exn Unit)

def Kernels.set (process : Kernels) (handle : Handle) (kernel : Kernel) : Kernels :=
  { process with kernels := fun h => if h = handle then kernel else process.kernels h }

section
variable [Printing]

def kernelsMachine : Machine Kernels KernelOp (Except Exn (Option HealthStatus))
  | process, .start handle =>
    let (outcome, kernel, logging) := (process.kernels handle).start process.logging
    (outcome.map fun _ => none, { process.set handle kernel with logging })
  | process, .shutdown handle =>
    (.ok none, process.set handle (process.kernels handle).shutdown)
  | process, .health handle => (.ok (some (process.kernels handle).health), process)
  | process, .addFileHandler path level opened =>
    let (outcome, logging) := addFileHandler process.logging path level opened
    (outcome.map fun _ => none, { process with logging })

end

end MellivorKernel.Core
