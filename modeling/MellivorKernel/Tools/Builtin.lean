import MellivorKernel.Core.Runtime
import MellivorKernel.Tools.Pipeline

/-!
# The built-in tools

`EchoTool`, `HealthCheckTool` and `VersionTool` of `tools/builtin/`. A tool
context holds the kernel by its handle, so what the handles stand for is given
to the tool that asks a kernel for its health.
-/

namespace MellivorKernel.Builtin

open Python Foundation

def kernelInternal : Permission := ⟨lit "kernel.internal", by decide⟩

def packageVersion : Str := lit "1.3.0"

def succeeded (payload : Mapping) : ToolResult :=
  ⟨true, some payload, none, 0, [], outcomeOk_instant⟩

def inputSchema : Mapping := [item "type" (.str (lit "object"))]

section
variable (elapsed : Mapping → Elapsed)

def echoTool : BaseTool where
  id := lit "echo"
  description := lit "Echoes the given request payload back unchanged."
  inputSchema := inputSchema
  permissions := []
  validate _ := .ok ()
  execute _ request := .ok (succeeded request)
  elapsed := elapsed

def healthPayload (health : Core.HealthStatus) : Mapping :=
  [item "healthy" (.bool health.healthy), item "state" (.str health.state.value),
    item "detail" (.str health.detail)]

def healthCheckTool (kernels : Handle → Core.Kernel) : BaseTool where
  id := lit "health_check"
  description := lit "Reports the current health status of the kernel runtime."
  inputSchema := inputSchema
  permissions := [kernelInternal]
  validate _ := .ok ()
  execute context _ := .ok (succeeded (healthPayload (kernels context.runtime).health))
  elapsed := elapsed

def versionTool : BaseTool where
  id := lit "version"
  description := lit "Reports the installed Mellivor Kernel package version."
  inputSchema := inputSchema
  permissions := []
  validate _ := .ok ()
  execute _ _ := .ok (succeeded [item "version" (.str packageVersion)])
  elapsed := elapsed

/-- The tools that are built in, in the order in which they are registered. -/
def tools (kernels : Handle → Core.Kernel) : List BaseTool :=
  [echoTool elapsed, healthCheckTool elapsed kernels, versionTool elapsed]

end

end MellivorKernel.Builtin
