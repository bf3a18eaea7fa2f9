import MellivorKernel.Execution.Enforcement
import MellivorKernel.Execution.Terminal
import MellivorKernel.Execution.ToolLoop
import MellivorKernel.Execution.LoopRun
import MellivorKernel.Execution.Transcript
import MellivorKernel.Execution.OfferedCalls
import MellivorKernel.Execution.Conversation
import MellivorKernel.Workflow.Refinement
import MellivorKernel.Memory.StoreRefinement
import MellivorKernel.Events.Delivery
import MellivorKernel.Agents.Recording
import MellivorKernel.Agents.Trace
import MellivorKernel.AIEngine.Ownership
import MellivorKernel.Memory.VectorRefinement
import MellivorKernel.Core.ContainerLaw
import MellivorKernel.Tools.StageOrder
import MellivorKernel.Providers.LocalBoundary
import MellivorKernel.Memory.SearchMeaning
import MellivorKernel.Memory.Durability
import MellivorKernel.AIEngine.Stopping
import MellivorKernel.AIEngine.Building
import MellivorKernel.Plugins.HookTrace
import MellivorKernel.Providers.Replay
import MellivorKernel.Providers.OpenAIBoundary
import MellivorKernel.Memory.VectorQuery
import MellivorKernel.Foundation.Placement
import MellivorKernel.Providers.Embeddings
import MellivorKernel.Providers.EmbeddingOrder
import MellivorKernel.Providers.EmbeddingBoundary
import MellivorKernel.Workflow.RaisingSiblings
import MellivorKernel.Workflow.OptionsLaw
import MellivorKernel.Providers.Gemini
import MellivorKernel.Providers.Endpoint
import MellivorKernel.Plugins.Versioning
import MellivorKernel.Plugins.Manifest
import MellivorKernel.Plugins.Loader
import MellivorKernel.Plugins.ManifestFile
import MellivorKernel.Plugins.DiscoveryRun
import MellivorKernel.Execution.PermissionGrammar
import MellivorKernel.Security.Secrets
import MellivorKernel.Providers.RetryLaw
import MellivorKernel.Execution.Observers
import MellivorKernel.Execution.ClaudeDialog
import MellivorKernel.Execution.Told
import MellivorKernel.Agents.Enforcement
import MellivorKernel.Core.KernelLaw
import MellivorKernel.Bootstrap.Law
import MellivorKernel.Python.JsonSettled
import MellivorKernel.Execution.ChatDialog
import MellivorKernel.Workflow.Progress
import MellivorKernel.Workflow.Ledger
import MellivorKernel.Plugins.RootDiscovery
import MellivorKernel.Memory.SameThread
import MellivorKernel.Workflow.Filing
import MellivorKernel.Agents.Ledger
