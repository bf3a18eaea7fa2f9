import MellivorKernel.Python.Text

/-!
# Exceptions

The exception classes the modelled code raises or catches, with their bases,
so that an `except` clause selects what it selects in Python. The classes of
the `openai` package are called `sdk…`. `foreign` is any other class deriving
from one of these, such as a tool author's own.
-/

namespace Python

inductive ExnClass
  | exception
  | valueError
  | typeError
  | lookupError
  | keyError
  | indexError
  | assertionError
  | arithmeticError
  | overflowError
  | attributeError
  | unicodeEncodeError
  | unicodeDecodeError
  | jsonDecodeError
  | sqliteError
  | kernelError
  | toolError
  | toolRegistrationError
  | toolValidationError
  | executionError
  | executionValidationError
  | toolLoopError
  | providerCapabilityError
  | authorizationError
  | workflowError
  | agentError
  | memoryError
  | vectorStoreError
  | eventDispatchError
  | serviceRegistrationError
  | pluginError
  | pluginValidationError
  | pluginRegistrationError
  | pluginLoadError
  | pluginLifecycleError
  | pluginDiscoveryError
  | manifestNotFoundError
  | manifestParseError
  | entryPointError
  | securityError
  | secretNotFoundError
  | secretValueError
  | secretConfigurationError
  | aiEngineError
  | providerError
  | providerConfigurationError
  | providerRegistrationError
  | toolCallingError
  | claudeProviderError
  | localProviderError
  | localAuthenticationError
  | localTimeoutError
  | localConnectionError
  | localResponseError
  | embeddingError
  | geminiProviderError
  | openAIProviderError
  | openAIAuthenticationError
  | openAITimeoutError
  | openAIConnectionError
  | openAIResponseError
  | sdkOpenAIError
  | sdkAuthenticationError
  | sdkAPIConnectionError
  | sdkAPITimeoutError
  | foreign (name : Str) (base : ExnClass)
  deriving DecidableEq

/-- Every proper base class, nearest first, up to `Exception`. -/
def ExnClass.bases : ExnClass → List ExnClass
  | .exception => []
  | .valueError | .typeError | .sqliteError | .kernelError | .lookupError | .assertionError
  | .arithmeticError | .attributeError | .sdkOpenAIError => [.exception]
  | .overflowError => [.arithmeticError, .exception]
  | .keyError | .indexError => [.lookupError, .exception]
  | .unicodeEncodeError | .unicodeDecodeError | .jsonDecodeError => [.valueError, .exception]
  | .toolError | .executionError | .authorizationError | .workflowError | .agentError | .memoryError
  | .eventDispatchError | .providerError | .serviceRegistrationError | .pluginError
  | .aiEngineError | .pluginDiscoveryError | .securityError => [.kernelError, .exception]
  | .manifestNotFoundError | .manifestParseError
  | .entryPointError => [.pluginDiscoveryError, .kernelError, .exception]
  | .secretNotFoundError | .secretValueError
  | .secretConfigurationError => [.securityError, .kernelError, .exception]
  | .vectorStoreError => [.memoryError, .kernelError, .exception]
  | .pluginValidationError | .pluginRegistrationError | .pluginLoadError
  | .pluginLifecycleError => [.pluginError, .kernelError, .exception]
  | .toolRegistrationError | .toolValidationError => [.toolError, .kernelError, .exception]
  | .executionValidationError | .toolLoopError => [.executionError, .kernelError, .exception]
  | .providerCapabilityError => [.toolLoopError, .executionError, .kernelError, .exception]
  | .providerConfigurationError | .providerRegistrationError | .toolCallingError
  | .claudeProviderError | .localProviderError | .embeddingError | .geminiProviderError
  | .openAIProviderError => [.providerError, .kernelError, .exception]
  | .localAuthenticationError | .localTimeoutError | .localConnectionError
  | .localResponseError => [.localProviderError, .providerError, .kernelError, .exception]
  | .openAIAuthenticationError | .openAITimeoutError | .openAIConnectionError
  | .openAIResponseError => [.openAIProviderError, .providerError, .kernelError, .exception]
  | .sdkAuthenticationError | .sdkAPIConnectionError => [.sdkOpenAIError, .exception]
  | .sdkAPITimeoutError => [.sdkAPIConnectionError, .sdkOpenAIError, .exception]
  | .foreign _ base => base :: base.bases

/-- `issubclass(c, target)`. -/
def ExnClass.isA (c target : ExnClass) : Bool := c = target || target ∈ c.bases

/-- An exception object: an ordinary one with the text `str` gives it, or an
`ExceptionGroup`. -/
inductive Exn
  | raised (cls : ExnClass) (message : Str)
  | group (message : Str) (members : List Exn)

/-- Whether `except target` catches the exception. -/
def Exn.isA : Exn → ExnClass → Bool
  | .raised cls _, target => cls.isA target
  | .group .., target => target = .exception

def Exn.text : Exn → Str
  | .raised _ message => message
  | .group message members =>
    message ++ lit " (" ++ decimal members.length ++
      (if members.length = 1 then lit " sub-exception)" else lit " sub-exceptions)")

@[simp] theorem Exn.raised_isA (cls target : ExnClass) (message : Str) :
    (Exn.raised cls message).isA target = cls.isA target := rfl

@[simp] theorem Exn.raised_text (cls : ExnClass) (message : Str) :
    (Exn.raised cls message).text = message := rfl

theorem ExnClass.isA_foreign (name : Str) (base target : ExnClass) :
    (ExnClass.foreign name base).isA target =
      (decide (ExnClass.foreign name base = target) || base.isA target) := by
  simp [ExnClass.isA, ExnClass.bases, eq_comm]

/-- `except Exception` catches everything modelled here. -/
theorem ExnClass.isA_exception (c : ExnClass) : c.isA .exception = true := by
  induction c with
  | foreign name base ih => simp [isA_foreign, ih]
  | _ => decide

theorem Exn.isA_exception (e : Exn) : e.isA .exception = true := by
  cases e with
  | raised cls message => exact cls.isA_exception
  | group message members => simp [Exn.isA]

example : ExnClass.isA (.foreign (lit "BadRequest") .toolValidationError) .toolError = true := by
  decide

end Python
