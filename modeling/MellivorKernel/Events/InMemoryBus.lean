import MellivorKernel.Foundation.Dict
import MellivorKernel.Python.Exception

/-!
# The in-memory event bus

`InMemoryEventBus` of `events/in_memory.py` with handlers that may use the bus
while they handle an event. What a handler does is a `Script`: it subscribes,
unsubscribes and publishes, reacts to what each call gives back, shares a world
of any type with the other handlers, and returns or raises. A script of depth
`d` publishes events whose handlers run scripts of depth below `d`, so that
nesting is bounded. Running a script records what it did to the bus, with the
deliveries of each event inside the call that published it.
-/

namespace MellivorKernel

open Python Foundation

structure EventRegistration (T : Type) where
  eventType : T
  registrationId : Str
  deriving DecidableEq

inductive Script (E T H W : Type) : Nat → Type
  | returns : Script E T H W d
  | raises (exc : Exn) : Script E T H W d
  | read (next : W → Script E T H W d) : Script E T H W d
  | write (world : W) (next : Script E T H W d) : Script E T H W d
  | subscribe (eventType : T) (handler : H) (next : EventRegistration T → Script E T H W d) :
      Script E T H W d
  | unsubscribe (registration : EventRegistration T) (next : Except Exn Unit → Script E T H W d) :
      Script E T H W d
  | publish (event : E) (next : Except Exn Unit → Script E T H W (d + 1)) : Script E T H W (d + 1)

inductive BusStep (E T H : Type)
  | subscribed (registration : EventRegistration T) (handler : H)
  | unsubscribe (registration : EventRegistration T) (result : Except Exn Unit)
  | publish (event : E)
      (deliveries : List (EventRegistration T × H × List (BusStep E T H) × Except Exn Unit))
      (result : Except Exn Unit)

/-- One handler called with an event: its registration, the handler, what it
did to the bus and how it ended. -/
abbrev Delivery (E T H : Type) :=
  EventRegistration T × H × List (BusStep E T H) × Except Exn Unit

/-- The bus, how many registration ids were generated, and the handlers' world. -/
structure BusState (T H W : Type) where
  handlers : Dict T (Dict Str H)
  issued : Nat
  world : W

def BusState.new (world : W) : BusState T H W := ⟨Dict.empty, 0, world⟩

/-- What the bus is used with: the exact type of an event, the handlers' code
at each depth, the ids `uuid4` generates, and how a type prints. -/
structure BusCode (E T H W : Type) where
  typeOf : E → T
  handle : (d : Nat) → H → E → Script E T H W d
  uuid4 : Nat → Str
  typeRepr : T → Str

section
variable {E T H W : Type} [DecidableEq T] (code : BusCode E T H W)

def BusState.handlersOf (s : BusState T H W) (t : T) : Dict Str H := (s.handlers.get? t).getD Dict.empty

def BusState.subscribe (s : BusState T H W) (eventType : T) (handler : H) :
    EventRegistration T × BusState T H W :=
  let registration : EventRegistration T := ⟨eventType, code.uuid4 s.issued⟩
  (registration,
    { s with
      handlers := s.handlers.set eventType
        ((s.handlersOf eventType).set registration.registrationId handler)
      issued := s.issued + 1 })

def notActive (registration : EventRegistration T) : Exn :=
  .raised .eventDispatchError (lit "EventRegistration(event_type=" ++
    code.typeRepr registration.eventType ++ lit ", registration_id='" ++
    registration.registrationId ++ lit "') is not an active subscription.")

def BusState.unsubscribe (s : BusState T H W) (registration : EventRegistration T) :
    Except Exn Unit × BusState T H W :=
  match s.handlers.get? registration.eventType with
  | none => (.error (notActive code registration), s)
  | some handlers =>
    if registration.registrationId ∈ handlers then
      (.ok (), { s with
        handlers := s.handlers.set registration.eventType
          (handlers.erase registration.registrationId) })
    else (.error (notActive code registration), s)

-- ---------------------------------------------------------------------------
-- Running scripts
-- ---------------------------------------------------------------------------

abbrev BusRun (T H W : Type) (α : Type) := (Except Exn Unit × List α) × BusState T H W

/-- Run a script whose published events are delivered by `nested`. -/
def Script.run (nested : E → BusState T H W → BusRun T H W (Delivery E T H)) :
    Script E T H W d → BusState T H W → BusRun T H W (BusStep E T H)
  | .returns, s => ((.ok (), []), s)
  | .raises exc, s => ((.error exc, []), s)
  | .read next, s => (next s.world).run nested s
  | .write world next, s => next.run nested { s with world }
  | .subscribe eventType handler next, s =>
    let (registration, s) := s.subscribe code eventType handler
    let ((result, steps), s) := (next registration).run nested s
    ((result, .subscribed registration handler :: steps), s)
  | .unsubscribe registration next, s =>
    let (answer, s) := s.unsubscribe code registration
    let ((result, steps), s) := (next answer).run nested s
    ((result, .unsubscribe registration answer :: steps), s)
  | .publish event next, s =>
    let ((answer, deliveries), s) := nested event s
    let ((result, steps), s) := (next answer).run nested s
    ((result, .publish event deliveries answer :: steps), s)

/-- The loop of `publish` over the handlers it found at its start. -/
def publishLoop (handler : H → BusState T H W → BusRun T H W (BusStep E T H)) (eventType : T) :
    List (Str × H) → BusState T H W → BusRun T H W (Delivery E T H)
  | [], s => ((.ok (), []), s)
  | (id, h) :: rest, s =>
    let ((result, steps), s) := handler h s
    let delivery : Delivery E T H := (⟨eventType, id⟩, h, steps, result)
    match result with
    | .ok () =>
      let ((answer, deliveries), s) := publishLoop handler eventType rest s
      ((answer, delivery :: deliveries), s)
    | .error exc =>
      -- `except Exception`: logged, and on to the next handler
      if exc.isA .exception then
        let ((answer, deliveries), s) := publishLoop handler eventType rest s
        ((answer, delivery :: deliveries), s)
      else ((.error exc, [delivery]), s)

def publishAt (d : Nat) (nested : E → BusState T H W → BusRun T H W (Delivery E T H)) (event : E)
    (s : BusState T H W) : BusRun T H W (Delivery E T H) :=
  publishLoop (fun h s => (code.handle d h event).run code nested s) (code.typeOf event)
    (s.handlersOf (code.typeOf event)).entries s

/-- `publish`, nested at most `d` deep. A script of depth 0 publishes nothing. -/
def publish : Nat → E → BusState T H W → BusRun T H W (Delivery E T H)
  | 0 => publishAt code 0 fun _ s => ((.ok (), []), s)
  | d + 1 => publishAt code (d + 1) (publish d)

def runProgram (program : Script E T H W (d + 1)) (s : BusState T H W) :
    BusRun T H W (BusStep E T H) :=
  program.run code (publish code d) s

end

end MellivorKernel
