import MellivorKernel.Core.Runtime
import MellivorKernel.Foundation.Returns

/-!
# Kernels that share a logger

Several kernels are started, shut down and asked for their health in any
order, and file handlers are attached in between. Each kernel is as its own
starts and shutdowns leave it, whatever the others do; the logger keeps every
other handler and never has a second console handler (`kernels_law`).
-/

namespace MellivorKernel.Core

open Python Foundation

inductive KernelMove
  | start
  | shutdown
  deriving DecidableEq

def KernelOp.move? (handle : Handle) : KernelOp → Option KernelMove
  | .start h => if h = handle then some .start else none
  | .shutdown h => if h = handle then some .shutdown else none
  | .health _ | .addFileHandler .. => none

def movesOf (handle : Handle) (ops : List KernelOp) : List KernelMove :=
  ops.filterMap (·.move? handle)

def Kernels.new (logLevels : Handle → Str) (containers : Handle → Handle) (logging : Logging) :
    Kernels :=
  ⟨fun h => Kernel.new (logLevels h) (containers h), logging⟩

/-- The kernel whose `start` returned in this call, if any. -/
def startedBy : KernelOp × Except Exn (Option HealthStatus) → Option Handle
  | (.start handle, .ok _) => some handle
  | _ => none

def startsOf (ops : List KernelOp) (replies : List (Except Exn (Option HealthStatus))) :
    List Handle :=
  (ops.zip replies).filterMap startedBy

section
variable [Printing]

/-- What its moves make of a new kernel. -/
def Kernel.settled (levels : Dict Str Int) (kernel : Kernel) (moves : List KernelMove) : Kernel :=
  if .start ∉ moves then kernel
  else match resolveLevel levels kernel.logLevel with
    | .error exc => { kernel with state := .failed, failureDetail := some exc.text }
    | .ok _ =>
      { kernel with state := if moves.getLast? = some .start then .running else .stopped }

def attached (levels : Dict Str Int) : KernelOp → List Handler
  | .addFileHandler path level (.ok ()) =>
    match level.elim (.ok 0) (resolveLevel levels) with
    | .ok level => [⟨false, some path, level⟩]
    | .error _ => []
  | _ => []

/-- What holds after any operations on kernels none of which was started. -/
structure KernelsLaw (fresh : Kernels) (ops : List KernelOp)
    (replies : List (Except Exn (Option HealthStatus))) (now : Kernels) : Prop where
  kernels : ∀ h, now.kernels h =
    (fresh.kernels h).settled fresh.logging.levelNames (movesOf h ops)
  levelNames : now.logging.levelNames = fresh.logging.levelNames
  others : now.logging.handlers.filter (fun handler => !handler.console) =
    fresh.logging.handlers.filter (fun handler => !handler.console) ++
      ops.flatMap (attached fresh.logging.levelNames)
  console : now.logging.handlers.filter Handler.console =
    if startsOf ops replies = [] then fresh.logging.handlers.filter Handler.console
    else [consoleHandler]
  level : now.logging.level =
    ((startsOf ops replies).getLast?.bind fun h =>
      fresh.logging.levelNames.get? (fresh.kernels h).logLevel).getD fresh.logging.level
  length : replies.length = ops.length

-- ---------------------------------------------------------------------------
-- One kernel
-- ---------------------------------------------------------------------------

theorem configureLogging_ok {logging : Logging} {logLevel : Str} {level : Int}
    (h : resolveLevel logging.levelNames logLevel = .ok level) :
    configureLogging logging logLevel = (.ok (), { logging with
      level := level
      propagate := false
      handlers := logging.handlers.filter (fun handler => !handler.console) ++
        [consoleHandler] }) := by
  rw [configureLogging, h]

theorem configureLogging_error {logging : Logging} {logLevel : Str} {exc : Exn}
    (h : resolveLevel logging.levelNames logLevel = .error exc) :
    configureLogging logging logLevel = (.error exc, logging) := by
  rw [configureLogging, h]

theorem resolveLevel_ok {levels : Dict Str Int} {name : Str} {level : Int}
    (h : resolveLevel levels name = .ok level) : levels.get? name = some level := by
  unfold resolveLevel at h
  split at h
  · cases h
    assumption
  · cases h

omit [Printing] in
theorem others_configured (handlers : List Handler) :
    (handlers.filter (fun handler => !handler.console) ++ [consoleHandler]).filter
      (fun handler => !handler.console) = handlers.filter (fun handler => !handler.console) := by
  simp [List.filter_append, consoleHandler]

omit [Printing] in
theorem console_configured (handlers : List Handler) :
    (handlers.filter (fun handler => !handler.console) ++ [consoleHandler]).filter Handler.console =
      [consoleHandler] := by
  simp [List.filter_append, List.filter_filter, consoleHandler]

theorem resolveLevel_returns {levels : Dict Str Int} {name : Str} :
    Returns (resolveLevel levels name) ↔ name ∈ levels.keys := by
  rw [Dict.mem_keys, resolveLevel]
  cases levels.get? name with
  | none => simp [not_returns_error]
  | some level => simp [returns_ok]

omit [Printing] in
theorem health_healthy {kernel : Kernel} : kernel.health.healthy = true ↔ kernel.state = .running := by
  unfold Kernel.health
  split
  · simp [*]
  · split <;> simp [*]

variable {levels : Dict Str Int} {kernel : Kernel} {moves : List KernelMove}

theorem settled_unstarted (h : .start ∉ moves) : kernel.settled levels moves = kernel := if_pos h

theorem settled_refused (h : .start ∈ moves) {exc : Exn}
    (hlevel : resolveLevel levels kernel.logLevel = .error exc) :
    kernel.settled levels moves =
      { kernel with state := .failed, failureDetail := some exc.text } := by
  rw [Kernel.settled, if_neg (not_not.mpr h), hlevel]

theorem settled_begun (h : .start ∈ moves) {level : Int}
    (hlevel : resolveLevel levels kernel.logLevel = .ok level) :
    kernel.settled levels moves =
      { kernel with state := if moves.getLast? = some .start then .running else .stopped } := by
  rw [Kernel.settled, if_neg (not_not.mpr h), hlevel]

theorem settled_settings : (kernel.settled levels moves).logLevel = kernel.logLevel ∧
    (kernel.settled levels moves).container = kernel.container := by
  unfold Kernel.settled
  split
  · exact ⟨rfl, rfl⟩
  · split <;> exact ⟨rfl, rfl⟩

def Kernel.IsNew (kernel : Kernel) : Prop := kernel.state = .notStarted ∧ kernel.failureDetail = none

theorem settled_shutdown (hnew : kernel.IsNew) :
    (kernel.settled levels moves).shutdown = kernel.settled levels (moves ++ [.shutdown]) := by
  by_cases hstart : KernelMove.start ∈ moves
  · have hlater : KernelMove.start ∈ moves ++ [.shutdown] := List.mem_append_left _ hstart
    cases hlevel : resolveLevel levels kernel.logLevel with
    | error exc => rw [settled_refused hstart hlevel, settled_refused hlater hlevel]; rfl
    | ok level =>
      rw [settled_begun hstart hlevel, settled_begun hlater hlevel, List.getLast?_concat]
      by_cases hlast : moves.getLast? = some .start <;> simp [hlast, Kernel.shutdown]
  · have hlater : KernelMove.start ∉ moves ++ [.shutdown] := by simp [hstart]
    rw [settled_unstarted hstart, settled_unstarted hlater, Kernel.shutdown, hnew.1]
    rfl

theorem settled_running (hnew : kernel.IsNew) :
    (kernel.settled levels moves).state = .running ↔
      Returns (resolveLevel levels kernel.logLevel) ∧ moves.getLast? = some .start := by
  by_cases hstart : KernelMove.start ∈ moves
  · cases hlevel : resolveLevel levels kernel.logLevel with
    | error exc => simp [settled_refused hstart hlevel, not_returns_error]
    | ok level =>
      rw [settled_begun hstart hlevel]
      by_cases hlast : moves.getLast? = some .start <;> simp [hlast, returns_ok]
  · rw [settled_unstarted hstart, hnew.1]
    exact iff_of_false KernelState.noConfusion fun h => hstart (List.mem_of_getLast? h.2)

/-- Between calls a kernel is neither starting nor stopping. -/
theorem settled_rests (hnew : kernel.IsNew) (h : (kernel.settled levels moves).state ≠ .running) :
    (kernel.settled levels moves).state ∈ [KernelState.notStarted, .stopped, .failed] := by
  by_cases hstart : KernelMove.start ∈ moves
  · cases hlevel : resolveLevel levels kernel.logLevel with
    | error exc => simp [settled_refused hstart hlevel]
    | ok level =>
      rw [settled_begun hstart hlevel] at h ⊢
      by_cases hlast : moves.getLast? = some .start
      · simp [hlast] at h
      · simp [hlast]
  · simp [settled_unstarted hstart, hnew.1]

theorem settled_start (logging : Logging) (hnew : kernel.IsNew) :
    let now := kernel.settled logging.levelNames moves
    let later := kernel.settled logging.levelNames (moves ++ [.start])
    (∃ exc, now.start logging = (.error exc, later, logging)) ∨
      ∃ level, resolveLevel logging.levelNames kernel.logLevel = .ok level ∧
        now.start logging = (.ok (), later, (configureLogging logging kernel.logLevel).2) := by
  intro now later
  have hlater : KernelMove.start ∈ moves ++ [.start] := by simp
  obtain ⟨hlogLevel, hcontainer⟩ : now.logLevel = kernel.logLevel ∧
      now.container = kernel.container := settled_settings
  by_cases hrunning : now.state = .running
  · obtain ⟨⟨level, hlevel⟩, hlast⟩ := (settled_running hnew).mp hrunning
    have hsame : later = now := by
      simp only [now, later, settled_begun hlater hlevel,
        settled_begun (List.mem_of_getLast? hlast) hlevel, hlast, List.getLast?_concat]
    refine .inl ⟨.raised startupError (lit "Cannot start kernel from state " ++
      pyRepr now.state.value ++ lit "."), ?_⟩
    rw [hsame]
    exact if_neg (by simp [hrunning])
  · have hrests : now.state ∈ [KernelState.notStarted, .stopped, .failed] :=
      settled_rests hnew hrunning
    cases hlevel : resolveLevel logging.levelNames kernel.logLevel with
    | error exc =>
      refine .inl ⟨.raised startupError (lit "Kernel startup failed: " ++ exc.text), ?_⟩
      simp only [Kernel.start, if_pos hrests, hlogLevel, hcontainer, configureLogging_error hlevel,
        later, settled_refused hlater hlevel]
    | ok level =>
      refine .inr ⟨level, rfl, ?_⟩
      simp only [Kernel.start, if_pos hrests, hlogLevel, hcontainer, configureLogging_ok hlevel,
        later, settled_begun hlater hlevel, List.getLast?_concat, if_true, hnew.2]

-- ---------------------------------------------------------------------------
-- All of them
-- ---------------------------------------------------------------------------

omit [Printing] in
theorem movesOf_concat (handle : Handle) (ops : List KernelOp) (op : KernelOp) :
    movesOf handle (ops ++ [op]) = movesOf handle ops ++ (op.move? handle).toList := by
  rw [movesOf, movesOf, List.filterMap_append]
  cases h : op.move? handle <;> simp [h]

variable {fresh now : Kernels} {ops : List KernelOp}
  {replies : List (Except Exn (Option HealthStatus))}

omit [Printing] in
theorem startsOf_concat (h : replies.length = ops.length) (op : KernelOp)
    (reply : Except Exn (Option HealthStatus)) :
    startsOf (ops ++ [op]) (replies ++ [reply]) =
      startsOf ops replies ++ (startedBy (op, reply)).toList := by
  rw [startsOf, startsOf, List.zip_append h.symm, List.filterMap_append]
  cases hstarted : startedBy (op, reply) <;> simp [hstarted]

theorem KernelsLaw.unlogged (law : KernelsLaw fresh ops replies now) {op : KernelOp}
    {reply : Except Exn (Option HealthStatus)} {next : Kernels}
    (hkernels : ∀ h, next.kernels h = (fresh.kernels h).settled fresh.logging.levelNames
      (movesOf h (ops ++ [op])))
    (hlogging : next.logging = now.logging) (hstarted : startedBy (op, reply) = none)
    (hattached : attached fresh.logging.levelNames op = []) :
    KernelsLaw fresh (ops ++ [op]) (replies ++ [reply]) next where
  kernels := hkernels
  levelNames := hlogging ▸ law.levelNames
  others := by simp [hlogging, law.others, hattached]
  console := by simp [hlogging, law.console, startsOf_concat law.length, hstarted]
  level := by simp [hlogging, law.level, startsOf_concat law.length, hstarted]
  length := by simp [law.length]

theorem KernelsLaw.kernel_of_none (law : KernelsLaw fresh ops replies now) {op : KernelOp}
    {h : Handle} (hmove : op.move? h = none) :
    now.kernels h = (fresh.kernels h).settled fresh.logging.levelNames
      (movesOf h (ops ++ [op])) := by
  rw [movesOf_concat, hmove, law.kernels h]
  simp

theorem KernelsLaw.start (law : KernelsLaw fresh ops replies now)
    (hnew : ∀ h, (fresh.kernels h).IsNew) (handle : Handle) :
    KernelsLaw fresh (ops ++ [.start handle]) (replies ++ [(kernelsMachine now (.start handle)).1])
      (kernelsMachine now (.start handle)).2 := by
  have hmoves : movesOf handle (ops ++ [.start handle]) = movesOf handle ops ++ [.start] := by
    simp [movesOf_concat, KernelOp.move?]
  have hstart := @settled_start _ _ (movesOf handle ops) now.logging (hnew handle)
  simp only [law.levelNames, ← law.kernels, ← hmoves] at hstart
  -- the kernel that is started, and the others
  have hkernels (logging : Logging) (h : Handle) :
      ({ now.set handle ((fresh.kernels handle).settled fresh.logging.levelNames
        (movesOf handle (ops ++ [.start handle]))) with logging } : Kernels).kernels h =
      (fresh.kernels h).settled fresh.logging.levelNames (movesOf h (ops ++ [.start handle])) := by
    by_cases hh : h = handle
    · subst hh
      exact if_pos rfl
    · refine (if_neg hh).trans (law.kernel_of_none (if_neg (Ne.symm hh)))
  rcases hstart with ⟨exc, hraised⟩ | ⟨level, hlevel, hstarted⟩
  · simp only [kernelsMachine, hraised]
    exact law.unlogged (hkernels _) rfl rfl rfl
  · simp only [kernelsMachine, hstarted]
    have hnow : resolveLevel now.logging.levelNames (fresh.kernels handle).logLevel = .ok level := by
      rw [law.levelNames, hlevel]
    rw [configureLogging_ok hnow]
    refine
      { kernels := hkernels _
        levelNames := law.levelNames
        others := ?_
        console := ?_
        level := ?_
        length := by simp [law.length] }
    · change (now.logging.handlers.filter _ ++ [consoleHandler]).filter _ = _
      rw [others_configured, law.others, List.flatMap_append]
      exact congrArg _ (List.append_nil _).symm
    · change (now.logging.handlers.filter _ ++ [consoleHandler]).filter _ = _
      rw [console_configured, startsOf_concat law.length]
      exact (if_neg (List.append_ne_nil_of_right_ne_nil _ (List.cons_ne_nil _ _))).symm
    · rw [startsOf_concat law.length]
      change level = ((startsOf ops replies ++ [handle]).getLast?.bind _).getD _
      rw [List.getLast?_concat, Option.bind_some, resolveLevel_ok hlevel]
      rfl

theorem addFileHandler_cases (logging : Logging) (path : Str) (level : Option Str)
    (opened : Except Exn Unit) :
    (attached logging.levelNames (.addFileHandler path level opened) = [] ∧
      ∃ exc, addFileHandler logging path level opened = (.error exc, logging)) ∨
    ∃ handler, attached logging.levelNames (.addFileHandler path level opened) = [handler] ∧
      handler.console = false ∧ addFileHandler logging path level opened =
        (.ok (), { logging with handlers := logging.handlers ++ [handler] }) := by
  cases opened with
  | error exc => exact .inl ⟨rfl, exc, rfl⟩
  | ok u =>
    simp only [attached, addFileHandler]
    cases hlevel : level.elim (.ok 0) (resolveLevel logging.levelNames) with
    | error exc => exact .inl ⟨rfl, exc, rfl⟩
    | ok level => exact .inr ⟨_, rfl, rfl, rfl⟩

theorem KernelsLaw.addFileHandler (law : KernelsLaw fresh ops replies now) (path : Str)
    (level : Option Str) (opened : Except Exn Unit) :
    let op : KernelOp := .addFileHandler path level opened
    KernelsLaw fresh (ops ++ [op]) (replies ++ [(kernelsMachine now op).1])
      (kernelsMachine now op).2 := by
  intro op
  have hkernels (h : Handle) := @KernelsLaw.kernel_of_none _ _ _ _ _ law op h rfl
  rcases addFileHandler_cases now.logging path level opened with
    ⟨hattached, exc, hraised⟩ | ⟨handler, hattached, hconsole, hadded⟩
  · simp only [op, kernelsMachine, hraised]
    exact law.unlogged hkernels rfl rfl (law.levelNames ▸ hattached)
  · rw [law.levelNames] at hattached
    simp only [op, kernelsMachine, hadded]
    refine
      { kernels := hkernels
        levelNames := law.levelNames
        others := ?_
        console := ?_
        level := ?_
        length := by simp [law.length] }
    · simp [law.others, hattached, hconsole]
    · rw [startsOf_concat law.length, List.filter_append, law.console]
      simp [startedBy, hconsole]
    · rw [startsOf_concat law.length]
      simp [startedBy, law.level]

theorem KernelsLaw.step (law : KernelsLaw fresh ops replies now)
    (hnew : ∀ h, (fresh.kernels h).IsNew) (op : KernelOp) :
    KernelsLaw fresh (ops ++ [op]) (replies ++ [(kernelsMachine now op).1])
      (kernelsMachine now op).2 := by
  cases op with
  | start handle => exact law.start hnew handle
  | shutdown handle =>
    refine law.unlogged (fun h => ?_) rfl rfl rfl
    by_cases hh : h = handle
    · subst hh
      refine (if_pos rfl).trans ?_
      rw [law.kernels, settled_shutdown (hnew h), movesOf_concat]
      simp [KernelOp.move?]
    · exact (if_neg hh).trans (law.kernel_of_none (if_neg (Ne.symm hh)))
  | health handle => exact law.unlogged (fun h => law.kernel_of_none rfl) rfl rfl rfl
  | addFileHandler path level opened => exact law.addFileHandler path level opened

theorem KernelsLaw.run (law : KernelsLaw fresh ops replies now)
    (hnew : ∀ h, (fresh.kernels h).IsNew) (rest : List KernelOp) :
    KernelsLaw fresh (ops ++ rest) (replies ++ (Machine.run kernelsMachine now rest).1)
      (Machine.run kernelsMachine now rest).2 := by
  induction rest generalizing ops replies now with
  | nil => simpa [Machine.run] using law
  | cons op rest ih => simpa [Machine.run] using ih (law.step hnew op)

/-- Whatever is done with the kernels of a process: they are healthy exactly
where they may start and their last move was a start. -/
theorem kernels_law (logLevels : Handle → Str) (containers : Handle → Handle) (logging : Logging)
    (ops : List KernelOp) :
    let fresh := Kernels.new logLevels containers logging
    let run := Machine.run kernelsMachine fresh ops
    KernelsLaw fresh ops run.1 run.2 ∧
      ∀ h, (run.2.kernels h).health.healthy = true ↔
        logLevels h ∈ logging.levelNames.keys ∧ (movesOf h ops).getLast? = some .start := by
  intro fresh run
  have hnew (h : Handle) : (fresh.kernels h).IsNew := ⟨rfl, rfl⟩
  have hstart : KernelsLaw fresh [] [] fresh :=
    { kernels := fun h => rfl
      levelNames := rfl
      others := (List.append_nil _).symm
      console := rfl
      level := rfl
      length := rfl }
  have hlaw : KernelsLaw fresh ops run.1 run.2 := hstart.run hnew ops
  refine ⟨hlaw, fun h => ?_⟩
  rw [health_healthy, hlaw.kernels h, settled_running (hnew h)]
  exact and_congr_left' resolveLevel_returns

end

end MellivorKernel.Core
