import MellivorKernel.Core.Container
import MellivorKernel.Foundation.Registration
import MellivorKernel.Tools.Builtin

/-!
# Bootstrapping

`KernelBootstrap.run` and `BootstrapBuilder` of `bootstrap/`. The objects it
works on are the container, the tool registry and the process's logger; a
service is held by its handle. What fails on the way leaves what was registered
before it.
-/

namespace MellivorKernel

open Python Foundation

/-- The types the bootstrap registers services under, and all other types. -/
inductive ServiceType (τ : Type)
  | kernelConfig
  | providerRegistry
  | toolRegistry
  | other (serviceType : τ)
  deriving DecidableEq

def bootstrapError : ExnClass := .foreign (lit "BootstrapError") .kernelError

structure Booting (τ : Type) where
  container : ServiceContainer (ServiceType τ) Handle
  tools : ToolRegistry
  logging : Logging

/-- The accumulated overrides. An object that is not overridden is created, and
`created` says under which handle. -/
structure BootstrapBuilder (τ : Type) where
  config : Handle
  logLevel : Str
  container : Option (Handle × ServiceContainer (ServiceType τ) Handle)
  providerRegistry : Option Handle
  toolRegistry : Option (Handle × ToolRegistry)
  extraServices : Dict (ServiceType τ) Handle
  registerBuiltinTools : Bool

structure Created where
  container : Handle
  providerRegistry : Handle
  toolRegistry : Handle

structure RuntimeContext where
  kernel : Core.Kernel
  configuration : Handle
  providerRegistry : Handle
  toolRegistry : Handle

namespace BootstrapBuilder

variable {τ : Type} [DecidableEq τ]

def new (config : Handle) (logLevel : Str) : BootstrapBuilder τ where
  config := config
  logLevel := logLevel
  container := none
  providerRegistry := none
  toolRegistry := none
  extraServices := Dict.empty
  registerBuiltinTools := false

def withContainer (builder : BootstrapBuilder τ) (handle : Handle)
    (container : ServiceContainer (ServiceType τ) Handle) : BootstrapBuilder τ :=
  { builder with container := some (handle, container) }

def withProviderRegistry (builder : BootstrapBuilder τ) (registry : Handle) : BootstrapBuilder τ :=
  { builder with providerRegistry := some registry }

def withToolRegistry (builder : BootstrapBuilder τ) (handle : Handle) (registry : ToolRegistry) :
    BootstrapBuilder τ :=
  { builder with toolRegistry := some (handle, registry) }

def withService (builder : BootstrapBuilder τ) (serviceType : ServiceType τ) (instance' : Handle) :
    BootstrapBuilder τ :=
  { builder with extraServices := builder.extraServices.set serviceType instance' }

def withBuiltinTools (builder : BootstrapBuilder τ) : BootstrapBuilder τ :=
  { builder with registerBuiltinTools := true }

def booting (builder : BootstrapBuilder τ) (logging : Logging) : Booting τ where
  container := builder.container.elim ServiceContainer.new Prod.snd
  tools := builder.toolRegistry.elim ToolRegistry.empty Prod.snd
  logging := logging

end BootstrapBuilder

section
variable {τ : Type} [DecidableEq τ] [Printing] (typeRepr : ServiceType τ → Str)

def Booting.registerTool (booting : Booting τ) (tool : BaseTool) : Except Exn Unit × Booting τ :=
  match booting.tools.register tool with
  | .error exc => (.error exc, booting)
  | .ok tools => (.ok (), { booting with tools })

def Booting.registerService (booting : Booting τ) (service : ServiceType τ × Handle) :
    Except Exn Unit × Booting τ :=
  let (outcome, container) := booting.container.registerInstance typeRepr service.1 service.2
  (outcome, { booting with container })

/-- `_register_default_services`, as what it registers. -/
def defaultServices (config providerRegistry toolRegistry : Handle) :
    List (ServiceType τ × Handle) :=
  [(.kernelConfig, config), (.providerRegistry, providerRegistry), (.toolRegistry, toolRegistry)]

/-- The `try` block of `KernelBootstrap.run`. -/
def BootstrapBuilder.assemble (builder : BootstrapBuilder τ) (builtinTools : List BaseTool)
    (created : Created) (booting : Booting τ) : Except Exn RuntimeContext × Booting τ :=
  let providerRegistry := builder.providerRegistry.getD created.providerRegistry
  let toolRegistry := (builder.toolRegistry.map Prod.fst).getD created.toolRegistry
  match takeEach Booting.registerTool booting
      (if builder.registerBuiltinTools then builtinTools else []) with
  | (.error exc, booting) => (.error exc, booting)
  | (.ok (), booting) =>
    match takeEach (Booting.registerService typeRepr) booting
        (defaultServices builder.config providerRegistry toolRegistry) with
    | (.error exc, booting) => (.error exc, booting)
    | (.ok (), booting) =>
      match takeEach (Booting.registerService typeRepr) booting builder.extraServices.entries with
      | (.error exc, booting) => (.error exc, booting)
      | (.ok (), booting) =>
        let kernel := Core.Kernel.new builder.logLevel
          ((builder.container.map Prod.fst).getD created.container)
        match kernel.start booting.logging with
        | (.error exc, _, logging) => (.error exc, { booting with logging })
        | (.ok (), kernel, logging) =>
          (.ok ⟨kernel, builder.config, providerRegistry, toolRegistry⟩, { booting with logging })

/-- `KernelBootstrap.run` on these overrides, which is what `build` calls. -/
def BootstrapBuilder.build (builder : BootstrapBuilder τ) (builtinTools : List BaseTool)
    (created : Created) (logging : Logging) : Except Exn RuntimeContext × Booting τ :=
  let (outcome, booting) := builder.assemble typeRepr builtinTools created (builder.booting logging)
  (outcome.mapError fun exc =>
    if exc.isA .kernelError then
      .raised bootstrapError (lit "Kernel bootstrap failed: " ++ exc.text)
    else exc, booting)

end

def RuntimeContext.executionContext (context : RuntimeContext) (kernel : Handle) (logger : Handle) :
    ExecutionContext where
  configuration := context.configuration
  logger := logger
  runtime := kernel
  services := context.kernel.container

end MellivorKernel
