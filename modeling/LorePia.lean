import LorePia.Orchestration.Proof.Cuts
import LorePia.Orchestration.Proof.History
import LorePia.Orchestration.Proof.Reseal
import LorePia.Orchestration.Proof.KnowledgeScan
import LorePia.Orchestration.Proof.KnowledgeRules
import LorePia.Orchestration.Proof.Evaluators
import LorePia.Orchestration.Proof.MemoryRewind
import LorePia.Orchestration.Proof.MemoryJobs
import LorePia.Orchestration.Proof.MemoryKey
import LorePia.Orchestration.Proof.InteractionEffects
import LorePia.Orchestration.Proof.InteractionImports
import LorePia.Orchestration.Proof.InteractionExpiry
import LorePia.Orchestration.Proof.TransformDiff
import LorePia.Orchestration.Proof.ModuleRuntime
import LorePia.Orchestration.Proof.PackagePlan
import LorePia.Providers.Proof.Sse
import LorePia.Providers.Proof.OllamaNative
import LorePia.Providers.Proof.UrlPolicy
import LorePia.Content.Proof.Path
import LorePia.Content.Proof.Archive
import LorePia.Content.Proof.ArchivePaths
import LorePia.Content.Proof.MessagePack
import LorePia.Chat.Proof.Prompt
import LorePia.Domain.Proof.DiscoverySaga
import LorePia.Providers.Proof.ParameterMapping
import LorePia.Providers.Proof.RequestPlan
import LorePia.Providers.Proof.OpenAiResponses
import LorePia.Providers.Proof.GeminiGenerateContent
import LorePia.Providers.Proof.AnthropicMessages
import LorePia.Content.Proof.Package
import LorePia.Content.Proof.JsonHazards
import LorePia.Orchestration.Proof.ModuleRollback
import LorePia.Orchestration.Proof.Replacement
import LorePia.Content.Proof.Png
import LorePia.Orchestration.Proof.PortableExpansion
import LorePia.Domain.Proof.KnowledgeParents
import LorePia.Orchestration.Proof.Dice
import LorePia.Orchestration.Proof.DependencyCycles
import LorePia.Orchestration.Proof.VerificationCache
import LorePia.Storage.Proof.VerificationBudget
import LorePia.Providers.Proof.CurlTokens
import LorePia.Providers.Proof.OpenRouterReasoning
import LorePia.Core.Proof.Forwarding
import LorePia.Core.Proof.GenerationWorkflow
import LorePia.Storage.LifecycleOutbox
import LorePia.Storage.Proof.LifecycleOutbox
