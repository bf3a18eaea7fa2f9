import MellivorKernel.Providers.ChatGrammar
import MellivorKernel.Providers.ChatTools
import MellivorKernel.Python.JsonErrors

/-!
# Which tool calls are read

What `tool_calls_from_chat` makes of the calls of a response. An id or a name
that is blank and not empty passes `_read_call`; the constructor of `ToolCall`
then raises its own error, which no factory built.
-/

namespace MellivorKernel

open Python Foundation

-- ---------------------------------------------------------------------------
-- One call
-- ---------------------------------------------------------------------------

def argumentText? : PyValue → Option Str
  | .none => some []
  | .str arguments => some arguments
  | _ => none

def readCall? (raw : PyValue) : Option (Str × Str × Str) :=
  let raw := raw.mapping?.getD []
  let function := ((raw.get? "function").bind PyValue.mapping?).getD []
  (nonEmptyText raw "id").bind fun callId => (nonEmptyText function "name").bind fun name =>
    (argumentText? ((function.get? "arguments").getD .none)).map fun arguments =>
      (callId, name, arguments)

/-- Arguments that are blank stand for none; others are a JSON object. -/
def arguments? (arguments : Str) : Option Mapping :=
  if blank arguments then some [] else (loads arguments).toOption.bind PyValue.mapping?

def toolCallOf? (callId name : Str) (arguments : Mapping) : Option ToolCall :=
  (ToolCall.new callId name arguments).toOption

/-- What building the call raises. -/
def callEscape (callId name : Str) : Option Exn :=
  if blank callId then
    some (.raised .toolCallingError (lit "ToolCall.id must not be blank."))
  else if blank name then
    some (.raised .toolCallingError (lit "ToolCall.name must not be blank."))
  else none

theorem new_yields {P : Exn → Prop} (callId name : Str) (arguments : Mapping) :
    YieldsUnless P (callEscape callId name) (ToolCall.new callId name arguments)
      (toolCallOf? callId name arguments) := by
  unfold callEscape toolCallOf? ToolCall.new
  by_cases hi : blank callId = false
  · by_cases hn : blank name = false
    · simp only [hi, hn, dite_true, Bool.false_eq_true, if_false]
      exact Yields.returned _
    · simp [YieldsUnless, hi, hn]
  · simp [YieldsUnless, hi]

section
variable [Printing] (error : Str → Exn)

theorem readCall_yields (raw : PyValue) :
    Yields (Built error) (readCall error raw) (readCall? raw) := by
  simp only [readCall, readCall?]
  cases nonEmptyText (raw.mapping?.getD []) "id" with
  | none => exact .raised (built error _)
  | some callId =>
    simp only [Option.bind_some]
    generalize (((raw.mapping?.getD []).get? "function").bind PyValue.mapping?).getD [] = function
    cases nonEmptyText function "name" with
    | none => exact .raised (built error _)
    | some name =>
      simp only [Option.bind_some]
      cases (function.get? "arguments").getD .none with
      | none => exact .returned _
      | str arguments => exact .returned _
      | _ => exact .raised (built error _)

theorem parseArguments_yields (callId arguments : Str) :
    Yields (Built error) (parseArguments error callId arguments) (arguments? arguments) := by
  unfold parseArguments arguments?
  split
  · exact .returned []
  · cases h : loads arguments with
    | error exc =>
      simp only [loads_raises h, if_true]
      exact .raised (built error _)
    | ok parsed =>
      simp only [Except.toOption, Option.bind_some]
      cases parsed.mapping? with
      | none => exact .raised (built error _)
      | some parsed => exact .returned parsed

theorem parsed_yields (callId name arguments : Str) :
    YieldsUnless (Built error) ((arguments? arguments).bind fun _ => callEscape callId name)
      (do
        let parsed ← parseArguments error callId arguments
        ToolCall.new callId name parsed)
      ((arguments? arguments).bind (toolCallOf? callId name)) :=
  YieldsUnless.after (parseArguments_yields error callId arguments) (new_yields callId name)

end

-- ---------------------------------------------------------------------------
-- The calls of a response
-- ---------------------------------------------------------------------------

def toolCallFromChat? (raw : PyValue) : Option ToolCall :=
  (readCall? raw).bind fun read => (arguments? read.2.2).bind (toolCallOf? read.1 read.2.1)

/-- What reading it raises that is no error of the provider. -/
def rawEscape (raw : PyValue) : Option Exn :=
  (readCall? raw).bind fun read => (arguments? read.2.2).bind fun _ => callEscape read.1 read.2.1

def toolCallsFromChat? : PyValue → Option (List ToolCall)
  | .none => some []
  | rawCalls => rawCalls.sequence?.bind (List.mapM toolCallFromChat?)

/-- The id or the name of the first call that cannot be built is blank, and
all calls before it can be read. -/
def rawCallsEscape (rawCalls : PyValue) : Option Exn :=
  firstEscape rawEscape toolCallFromChat? (rawCalls.sequence?.getD [])

section
variable [Printing] (error : Str → Exn)

theorem toolCallFromChat_yields (raw : PyValue) :
    YieldsUnless (Built error) (rawEscape raw) (toolCallFromChat error raw)
      (toolCallFromChat? raw) :=
  YieldsUnless.after (readCall_yields error raw) fun read =>
    parsed_yields error read.1 read.2.1 read.2.2

theorem toolCallsFromChat_yields (rawCalls : PyValue) :
    YieldsUnless (Built error) (rawCallsEscape rawCalls) (toolCallsFromChat error rawCalls)
      (toolCallsFromChat? rawCalls) := by
  have hlist (raws : List PyValue) := YieldsUnless.mapM (toolCallFromChat_yields error) raws
  cases rawCalls with
  | none => exact Yields.returned []
  | list raws | tuple raws => exact hlist raws
  | _ => exact Yields.raised (built error _)

end

end MellivorKernel
