import MellivorKernel.Foundation.Dict
import MellivorKernel.Python.Exception

/-!
# The service container

`ServiceContainer` of `core/container.py` with factories that may use it. What
code does with the container is a `ServiceScript`: it registers, resolves,
reacts to what each call gives back, and returns an object or raises. Where it
resolves, `made` is what the registered factory does if it is called this time,
whichever factory that is and whatever state it keeps. Running a script records
every call, those of the factories among them, in the order they end.
-/

namespace MellivorKernel

open Python Foundation

/-- A factory by its identity. -/
abbrev Factory := Nat

/-- Services of types `τ`, which are objects `α`. -/
structure ServiceContainer (τ α : Type) where
  factories : Dict τ Factory
  singletons : Dict τ Bool
  instances : Dict τ α

inductive ServiceCall (τ α : Type)
  | register (serviceType : τ) (factory : Factory) (singleton : Bool)
  | registerInstance (serviceType : τ) (instance' : α)
  | resolve (serviceType : τ)

/-- What code that holds the container does with it. -/
inductive ServiceScript (τ α : Type)
  | returns (instance' : α)
  | raises (exc : Exn)
  | register (serviceType : τ) (factory : Factory) (singleton : Bool)
      (next : Except Exn Unit → ServiceScript τ α)
  | registerInstance (serviceType : τ) (instance' : α)
      (next : Except Exn Unit → ServiceScript τ α)
  | resolve (serviceType : τ) (made : ServiceScript τ α)
      (next : Except Exn α → ServiceScript τ α)

variable {τ α : Type} [DecidableEq τ]

namespace ServiceContainer

def new : ServiceContainer τ α := ⟨Dict.empty, Dict.empty, Dict.empty⟩

def isRegistered (container : ServiceContainer τ α) (serviceType : τ) : Bool :=
  serviceType ∈ container.factories || serviceType ∈ container.instances

section
variable (typeRepr : τ → Str)

def alreadyRegistered (serviceType : τ) : Exn :=
  .raised .serviceRegistrationError
    (lit "Service " ++ typeRepr serviceType ++ lit " is already registered.")

def notRegistered (serviceType : τ) : Exn :=
  .raised .serviceRegistrationError
    (lit "Service " ++ typeRepr serviceType ++ lit " is not registered.")

def register (container : ServiceContainer τ α) (serviceType : τ) (factory : Factory)
    (singleton : Bool) : Except Exn Unit × ServiceContainer τ α :=
  if container.isRegistered serviceType then
    (.error (alreadyRegistered typeRepr serviceType), container)
  else (.ok (), { container with
    factories := container.factories.set serviceType factory
    singletons := container.singletons.set serviceType singleton })

def registerInstance (container : ServiceContainer τ α) (serviceType : τ) (instance' : α) :
    Except Exn Unit × ServiceContainer τ α :=
  if container.isRegistered serviceType then
    (.error (alreadyRegistered typeRepr serviceType), container)
  else (.ok (), { container with
    instances := container.instances.set serviceType instance'
    singletons := container.singletons.set serviceType true })

/-- What `resolve` does with what the factory returned or raised. -/
def keep (container : ServiceContainer τ α) (serviceType : τ) :
    Except Exn α → Except Exn α × ServiceContainer τ α
  | .error exc => (.error exc, container)
  | .ok instance' =>
    match container.singletons.get? serviceType with
    | none => (.error (.raised .keyError (typeRepr serviceType)), container)
    | some true => (.ok instance', { container with
        instances := container.instances.set serviceType instance' })
    | some false => (.ok instance', container)

end

end ServiceContainer

-- ---------------------------------------------------------------------------
-- Running scripts
-- ---------------------------------------------------------------------------

/-- A call that has ended: the container before and after it, what it returned
or raised, and for a `resolve` that called the factory how that ended and which
container it left. -/
structure EndedCall (τ α : Type) where
  call : ServiceCall τ α
  before : ServiceContainer τ α
  factoryRun : Option (Factory × Except Exn α)
  during : ServiceContainer τ α
  outcome : Except Exn (Option α)
  after : ServiceContainer τ α

/-- How code that holds the container ends, the container it leaves and the
calls it made. -/
abbrev Served (τ α : Type) := Except Exn α × ServiceContainer τ α × List (EndedCall τ α)

section
variable (typeRepr : τ → Str)

def ServiceContainer.resolve (container : ServiceContainer τ α) (serviceType : τ)
    (callFactory : ServiceContainer τ α → Served τ α) : Served τ α :=
  let ended (factoryRun : Option (Factory × Except Exn α)) (during : ServiceContainer τ α)
      (outcome : Except Exn α) (after : ServiceContainer τ α) : EndedCall τ α :=
    ⟨.resolve serviceType, container, factoryRun, during, outcome.map some, after⟩
  match container.instances.get? serviceType with
  | some instance' =>
    (.ok instance', container, [ended none container (.ok instance') container])
  | none =>
    match container.factories.get? serviceType with
    | none =>
      let exc := notRegistered typeRepr serviceType
      (.error exc, container, [ended none container (.error exc) container])
    | some factory =>
      let (made, during, calls) := callFactory container
      let (outcome, after) := during.keep typeRepr serviceType made
      (outcome, after, calls ++ [ended (some (factory, made)) during outcome after])

def ServiceScript.run : ServiceScript τ α → ServiceContainer τ α → Served τ α
  | .returns instance', container => (.ok instance', container, [])
  | .raises exc, container => (.error exc, container, [])
  | .register serviceType factory singleton next, container =>
    let (outcome, after) := container.register typeRepr serviceType factory singleton
    let (ended, last, calls) := (next outcome).run after
    (ended, last, ⟨.register serviceType factory singleton, container, none, container,
      outcome.map fun _ => none, after⟩ :: calls)
  | .registerInstance serviceType instance' next, container =>
    let (outcome, after) := container.registerInstance typeRepr serviceType instance'
    let (ended, last, calls) := (next outcome).run after
    (ended, last, ⟨.registerInstance serviceType instance', container, none, container,
      outcome.map fun _ => none, after⟩ :: calls)
  | .resolve serviceType made next, container =>
    let (outcome, after, calls) := container.resolve typeRepr serviceType made.run
    let (ended, last, more) := (next outcome).run after
    (ended, last, calls ++ more)

/-- No factory is called for a type while it is running for it. -/
def ServiceScript.Acyclic : ServiceScript τ α → List τ → ServiceContainer τ α → Prop
  | .returns _, _, _ | .raises _, _, _ => True
  | .register serviceType factory singleton next, running, container =>
    (next (container.register typeRepr serviceType factory singleton).1).Acyclic running
      (container.register typeRepr serviceType factory singleton).2
  | .registerInstance serviceType instance' next, running, container =>
    (next (container.registerInstance typeRepr serviceType instance').1).Acyclic running
      (container.registerInstance typeRepr serviceType instance').2
  | .resolve serviceType made next, running, container =>
    (container.instances.get? serviceType = none → serviceType ∈ container.factories →
      serviceType ∉ running ∧ made.Acyclic (serviceType :: running) container) ∧
    (next (container.resolve typeRepr serviceType (made.run typeRepr)).1).Acyclic running
      (container.resolve typeRepr serviceType (made.run typeRepr)).2.1

end

end MellivorKernel
