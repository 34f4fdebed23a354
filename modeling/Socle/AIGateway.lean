import Socle.Procedures
import Socle.TokenExchange
import Socle.UsageRollup

/-!
The AI gateway: the resolved policy of a tenant, the choice of a provider and of
its key, and the three entry points `chat`, `chat_stream` and `embed` as
procedures.  Every `await` is a request, answered as the environment chooses.
-/

namespace Socle.AIGateway

open Socle.Procedures
open Socle.TokenExchange (Json PyFloat Failure intOf)
open Socle.UsageRollup (UsageStatus)

/-- What an `await`, or an attribute of a provider's object, can raise.
`interrupt` stands for the other classes outside `Exception`: `CancelledError`,
`KeyboardInterrupt`, `SystemExit`. -/
inductive Thrown where
  | timeoutError
  | exception (className : String)
  | generatorExit
  | interrupt (className : String)
  deriving DecidableEq, Repr

/-- `type(exc).__name__`. -/
def Thrown.className : Thrown → String
  | .timeoutError => "TimeoutError"
  | .exception className => className
  | .generatorExit => "GeneratorExit"
  | .interrupt className => className

/-- `isinstance(exc, Exception)`. -/
def Thrown.isException : Thrown → Bool
  | .timeoutError => true
  | .exception _ => true
  | .generatorExit => false
  | .interrupt _ => false

/-- What the gateway raises: an exception of its own or one that passes through. -/
inductive Raised where
  | tenantContextError
  | notAllowed (provider : String)
  | notZeroRetention (provider : String)
  | providerUnavailable (provider : String)
  | gatewayError (provider : String) (cause : String)
  | thrown (exc : Thrown)
  deriving DecidableEq, Repr

/-- `isinstance(exc, GatewayError)`. -/
def Raised.isGatewayError : Raised → Bool
  | .providerUnavailable _ => true
  | .gatewayError _ _ => true
  | _ => false

/-! ### Policies -/

/-- `ZERO_RETENTION_PROVIDERS`. -/
def zeroRetentionProviders : List String := ["mistral"]

/-- The settings the gateway reads. -/
structure Settings where
  mistralApiKey : String := ""
  anthropicApiKey : String := ""
  openaiApiKey : String := ""
  aiDefaultProvider : String := "mistral"
  aiDefaultModel : String := "mistral-small-latest"
  aiQuotaDefaultMonthlyTokens : Int := 5000000

/-- A row of `tenant_ai_policies`. -/
structure TenantAIPolicy where
  defaultProvider : Option String := none
  defaultModel : Option String := none
  allowedProviders : List String := []
  zeroRetention : Bool := false
  monthlyTokenQuota : Option Int := none
  hardLimitEnabled : Bool := false
  fallbackProvider : Option String := none
  fallbackModel : Option String := none
  byokKeysEnc : Option (List Nat) := none

structure ResolvedPolicy where
  slug : String
  defaultProvider : String
  defaultModel : String
  allowedProviders : List String
  zeroRetention : Bool
  monthlyTokenQuota : Int
  hardLimitEnabled : Bool
  fallbackProvider : Option String
  fallbackModel : Option String
  byokKeys : String → Option String

/-- `value or default` of an optional text. -/
def orDefault (value : Option String) (default : String) : String :=
  match value with
  | some text => if text = "" then default else text
  | none => default

/-- `ResolvedPolicy.select`. -/
def ResolvedPolicy.select (policy : ResolvedPolicy) (provider model : Option String) :
    Except Raised (String × String) :=
  let resolvedProvider := orDefault provider policy.defaultProvider
  let resolvedModel := orDefault model policy.defaultModel
  if policy.allowedProviders ≠ [] ∧ resolvedProvider ∉ policy.allowedProviders then
    .error (.notAllowed resolvedProvider)
  else if policy.zeroRetention = true ∧ resolvedProvider ∉ zeroRetentionProviders then
    .error (.notZeroRetention resolvedProvider)
  else .ok (resolvedProvider, resolvedModel)

def ResolvedPolicy.byokKeyFor (policy : ResolvedPolicy) (provider : String) : Option String :=
  policy.byokKeys provider

/-- `_decrypt_byok`.  `openSealed` decrypts the column and reads the object in it. -/
def decryptByok (openSealed : List Nat → Except Thrown (String → Option String)) :
    Option (List Nat) → Except Thrown (String → Option String)
  | none => .ok fun _ => none
  | some [] => .ok fun _ => none
  | some content => openSealed content

/-- `resolve_record`. -/
def resolveRecord (settings : Settings)
    (openSealed : List Nat → Except Thrown (String → Option String)) (slug : String) :
    Option TenantAIPolicy → Except Thrown ResolvedPolicy
  | none =>
      .ok {
        slug := slug
        defaultProvider := settings.aiDefaultProvider
        defaultModel := settings.aiDefaultModel
        allowedProviders := []
        zeroRetention := false
        monthlyTokenQuota := settings.aiQuotaDefaultMonthlyTokens
        hardLimitEnabled := false
        fallbackProvider := none
        fallbackModel := none
        byokKeys := fun _ => none }
  | some record => do
      let byokKeys ← decryptByok openSealed record.byokKeysEnc
      return {
        slug := slug
        defaultProvider := orDefault record.defaultProvider settings.aiDefaultProvider
        defaultModel := orDefault record.defaultModel settings.aiDefaultModel
        allowedProviders := record.allowedProviders
        zeroRetention := record.zeroRetention
        monthlyTokenQuota := record.monthlyTokenQuota.getD settings.aiQuotaDefaultMonthlyTokens
        hardLimitEnabled := record.hardLimitEnabled
        fallbackProvider := record.fallbackProvider
        fallbackModel := record.fallbackModel
        byokKeys := byokKeys }

/-- The platform key of a provider; empty when there is none. -/
def platformKey (settings : Settings) (provider : String) : String :=
  if provider = "mistral" then settings.mistralApiKey
  else if provider = "anthropic" then settings.anthropicApiKey
  else if provider = "openai" then settings.openaiApiKey
  else ""

/-- `_api_key`. -/
def apiKey (settings : Settings) (policy : ResolvedPolicy) (provider : String) :
    Except Raised String :=
  let byok := (policy.byokKeyFor provider).getD ""
  if byok ≠ "" then .ok byok
  else if platformKey settings provider = "" then .error (.providerUnavailable provider)
  else .ok (platformKey settings provider)

/-! ### What a provider answers -/

/-- What `getattr` gives on a provider's object, or the class of the exception
that reading the attribute raises. -/
abbrev Attr (α : Type) := Except String α

/-- The attributes of a `usage` object; of the details only `cached_tokens` is
read. -/
structure UsageObject where
  promptTokens : Attr Json
  completionTokens : Attr Json
  promptTokensDetails : Attr (Option (Attr Json))

structure TokenUsage where
  inputTokens : Int
  outputTokens : Int
  cachedTokens : Int
  deriving DecidableEq, Repr

def noTokens : TokenUsage := ⟨0, 0, 0⟩

/-- `bool(value)`.  A float of truncation 0 counts as false: `int()` of it is 0
as well. -/
def truthy : Json → Bool
  | .null => false
  | .bool value => value
  | .int value => value != 0
  | .float (.finite truncated) => truncated != 0
  | .float _ => true
  | .str text => !text.isEmpty
  | .arr items => !items.isEmpty
  | .obj fields => !fields.isEmpty

/-- `int(value or 0)` of an attribute. -/
def countOf (attr : Attr Json) : Attr Int := do
  let value ← attr
  if truthy value then (intOf value).mapError Failure.className else .ok 0

/-- `_usage_from`. -/
def usageFrom (raw : Attr (Option UsageObject)) : Attr TokenUsage := do
  match ← raw with
  | none => return noTokens
  | some usage =>
      let prompt ← countOf usage.promptTokens
      let completion ← countOf usage.completionTokens
      let cached ← match ← usage.promptTokensDetails with
        | none => pure 0
        | some cachedTokens => countOf cachedTokens
      return ⟨prompt, completion, cached⟩

/-- What `chat` reads of the first choice of an answer. -/
structure Choice where
  content : String := ""
  finishReason : Option String := none
  toolCalls : Option (List (Option String × Option String × Option String)) := none
  deriving DecidableEq, Repr

structure Completion where
  usage : Attr (Option UsageObject)
  choice : Attr Choice

structure Embedding where
  usage : Attr (Option UsageObject)
  data : Attr (List (List PyFloat))

/-- A chunk of a stream: the text to yield, if any, and its usage. -/
structure Chunk where
  delta : Attr (Option String)
  usage : Attr (Option UsageObject)

/-! ### Requests and results -/

structure TenantContext where
  tenantId : Nat
  slug : String
  deriving DecidableEq, Repr

structure ChatRequest where
  provider : Option String := none
  model : Option String := none
  module : String := "core"
  userId : Option Nat := none
  deriving DecidableEq, Repr

structure EmbedRequest where
  provider : Option String := none
  model : Option String := none
  module : String := "core"
  userId : Option Nat := none
  deriving DecidableEq, Repr

structure ChatResult where
  choice : Choice
  provider : String
  model : String
  usage : TokenUsage
  deriving DecidableEq, Repr

structure EmbedResult where
  embeddings : List (List PyFloat)
  provider : String
  model : String
  usage : TokenUsage
  deriving DecidableEq, Repr

inductive CallKind where
  | completion
  | stream
  | embedding
  deriving DecidableEq, Repr

/-- A call handed to LiteLLM. -/
structure ProviderCall where
  kind : CallKind
  provider : String
  model : String
  apiKey : String
  deriving DecidableEq, Repr

/-- The `model` argument of the call. -/
def ProviderCall.modelString (call : ProviderCall) : String :=
  call.provider ++ "/" ++ call.model

/-- A price of `PRICES`, in micro-euros for a million tokens. -/
structure ModelPrice where
  inputPerMtok : Int
  outputPerMtok : Int
  cachedInputPerMtok : Int

/-- `PRICES`. -/
def prices : List ((String × String) × ModelPrice) :=
  [(("mistral", "mistral-small-latest"), ⟨200000, 600000, 200000⟩),
    (("mistral", "mistral-large-latest"), ⟨2000000, 6000000, 2000000⟩),
    (("mistral", "mistral-embed"), ⟨100000, 0, 100000⟩),
    (("anthropic", "claude-3-5-haiku-latest"), ⟨800000, 4000000, 80000⟩),
    (("anthropic", "claude-3-5-sonnet-latest"), ⟨3000000, 15000000, 300000⟩),
    (("openai", "gpt-4o-mini"), ⟨150000, 600000, 75000⟩),
    (("openai", "gpt-4o"), ⟨2500000, 10000000, 1250000⟩),
    (("openai", "text-embedding-3-small"), ⟨20000, 0, 20000⟩)]

/-- `estimate_cost`; `//` rounds down. -/
def estimateCost (provider model : String) (usage : TokenUsage) : Int :=
  match prices.lookup (provider, model) with
  | none => 0
  | some price =>
      (max (usage.inputTokens - usage.cachedTokens) 0 * price.inputPerMtok +
        usage.cachedTokens * price.cachedInputPerMtok +
        usage.outputTokens * price.outputPerMtok) / 1000000

example : estimateCost "mistral" "mistral-large-latest" ⟨1000, 500, 200⟩ = 5000 := by decide

/-- `UsageRecord`, and the row of `ai_usage_events` made of it. -/
structure UsageRecord where
  tenantId : Nat
  module : String
  provider : String
  model : String
  status : UsageStatus
  usage : TokenUsage
  estimatedCostMicroeur : Int
  userId : Option Nat
  errorKind : Option String
  deriving DecidableEq, Repr

/-! ### The environment -/

/-- How the insertion of a usage event ends.  One that raises may have been
committed all the same. -/
inductive Insertion where
  | committed
  | failed (exc : Thrown) (written : Bool)

def Insertion.written : Insertion → Bool
  | .committed => true
  | .failed _ written => written

def Insertion.outcome : Insertion → Except Thrown Unit
  | .committed => .ok ()
  | .failed exc _ => .error exc

inductive Request where
  | loadPolicy
  | complete (call : ProviderCall)
  | openStream (call : ProviderCall)
  | endOfStream
  | yieldChunk (delta : String)
  | embedding (call : ProviderCall)
  | insertUsage (record : UsageRecord)
  | recordAndAlert (addedTokens quota : Int)

/-- The awaits of the gateway.  A stream is opened on the chunks it delivers;
after them it ends or raises. -/
abbrev gateway : Interface where
  Request := Request
  Answer
    | .loadPolicy => Except Thrown (Option TenantAIPolicy)
    | .complete _ => Except Thrown Completion
    | .openStream _ => Except Thrown (List Chunk)
    | .endOfStream => Except Thrown Unit
    | .yieldChunk _ => Except Thrown Unit
    | .embedding _ => Except Thrown Embedding
    | .insertUsage _ => Except Thrown Unit
    | .recordAndAlert _ _ => Except Thrown Unit

/-- What the environment does at one await: the policy row it reads, what the
provider answers, how the consumer of a stream resumes it, and so on.  Raising
covers the cancellation of the caller. -/
structure Await where
  policyRow : Except Thrown (Option TenantAIPolicy) := .ok none
  completion : Except Thrown Completion := .ok ⟨.ok none, .ok {}⟩
  stream : Except Thrown (List Chunk) := .ok []
  streamEnd : Except Thrown Unit := .ok ()
  consumer : Except Thrown Unit := .ok ()
  embedding : Except Thrown Embedding := .ok ⟨.ok none, .ok []⟩
  insertion : Insertion := .committed
  alert : Except Thrown Unit := .ok ()

/-- A provider call that was started, whether its whole answer arrived, and the
usage events written since. -/
structure CallEntry where
  call : ProviderCall
  complete : Bool
  rows : List UsageRecord
  deriving DecidableEq, Repr

/-- The calls of a run, the last one first. -/
abbrev CallLog := List CallEntry

/-- The end of the stream was received. -/
def CallLog.finish : CallLog → CallLog
  | [] => []
  | entry :: rest => { entry with complete := true } :: rest

/-- A row was written. -/
def CallLog.record (row : UsageRecord) : CallLog → CallLog
  | [] => []
  | entry :: rest => { entry with rows := entry.rows ++ [row] } :: rest

def serve : Serve gateway CallLog Unit Await := fun log _ request choice =>
  match request with
  | .loadPolicy => (log, (), choice.policyRow)
  | .complete call => (⟨call, choice.completion.isOk, []⟩ :: log, (), choice.completion)
  | .openStream call => (⟨call, false, []⟩ :: log, (), choice.stream)
  | .endOfStream =>
      (if choice.streamEnd.isOk then CallLog.finish log else log, (), choice.streamEnd)
  | .yieldChunk _ => (log, (), choice.consumer)
  | .embedding call => (⟨call, choice.embedding.isOk, []⟩ :: log, (), choice.embedding)
  | .insertUsage row =>
      (if choice.insertion.written then CallLog.record row log else log, (),
        choice.insertion.outcome)
  | .recordAndAlert _ _ => (log, (), choice.alert)

abbrev Act (α : Type) := Proc gateway Raised α

/-! ### The gateway -/

/-- Continue with what an `await` brought, or raise what it raised. -/
def settle {α : Type} : Except Thrown α → Act α
  | .ok a => .ret a
  | .error exc => .raise (.thrown exc)

/-- Continue with what was read of a provider's object. -/
def reading {α : Type} (value : Attr α) : Act α := settle (value.mapError .exception)

/-- `current_tenant`. -/
def currentTenant : Option TenantContext → Except Raised TenantContext
  | none => .error .tenantContextError
  | some ctx => .ok ctx

/-- The parts of the program outside the gateway that it is run with. -/
structure Platform where
  settings : Settings
  openSealed : List Nat → Except Thrown (String → Option String)

/-- The policy that the row read for the tenant resolves to. -/
def policyOf (platform : Platform) (ctx : TenantContext)
    (row : Except Thrown (Option TenantAIPolicy)) : Except Thrown ResolvedPolicy :=
  row >>= resolveRecord platform.settings platform.openSealed ctx.slug

/-- `_load_policy`. -/
def loadPolicy (platform : Platform) (ctx : TenantContext) : Act ResolvedPolicy := do
  let row ← request (I := gateway) Request.loadPolicy
  settle (policyOf platform ctx row)

/-- `record_usage`: an exception of the insertion is logged, not raised. -/
def recordUsage (record : UsageRecord) : Act Unit := do
  let inserted ← request (I := gateway) (Request.insertUsage record)
  match inserted with
  | .ok () => return ()
  | .error exc => if exc.isException then return () else throw (.thrown exc)

/-- Whom a usage event is for, and the call it is about. -/
structure Metered where
  tenantId : Nat
  quota : Int
  module : String
  userId : Option Nat
  provider : String
  model : String

def Metered.record (m : Metered) (status : UsageStatus) (usage : TokenUsage)
    (errorKind : Option String) : UsageRecord where
  tenantId := m.tenantId
  module := m.module
  provider := m.provider
  model := m.model
  status := status
  usage := usage
  estimatedCostMicroeur := estimateCost m.provider m.model usage
  userId := m.userId
  errorKind := errorKind

/-- `_meter_wrap`. -/
def meterWrap (m : Metered) (status : UsageStatus) (usage : TokenUsage)
    (errorKind : Option String) : Act Unit := do
  recordUsage (m.record status usage errorKind)
  let totalTokens := usage.inputTokens + usage.outputTokens
  if 0 < totalTokens then
    let alerted ← request (I := gateway) (Request.recordAndAlert totalTokens m.quota)
    settle alerted

/-- The two `except` clauses around a provider call. -/
def meterFailure {α : Type} (m : Metered) (exc : Thrown) : Act α :=
  if exc = .timeoutError then do
    meterWrap m .timeout noTokens (some "timeout")
    throw (.gatewayError m.provider "timeout")
  else if exc.isException then do
    meterWrap m .error noTokens (some exc.className)
    throw (.gatewayError m.provider exc.className)
  else throw (.thrown exc)

/-- `_chat_once`. -/
def chatOnce (platform : Platform) (ctx : TenantContext) (policy : ResolvedPolicy)
    (provider model : String) (req : ChatRequest) : Act ChatResult := do
  let key ← Proc.ofExcept (apiKey platform.settings policy provider)
  let m : Metered :=
    ⟨ctx.tenantId, policy.monthlyTokenQuota, req.module, req.userId, provider, model⟩
  let answer ← request (I := gateway) (Request.complete ⟨.completion, provider, model, key⟩)
  match answer with
  | .error exc => meterFailure m exc
  | .ok raw =>
      let usage ← reading (usageFrom raw.usage)
      meterWrap m .ok usage none
      let choice ← reading raw.choice
      return ⟨choice, provider, model, usage⟩

/-- `chat`, once the policy is loaded. -/
def chatUnder (platform : Platform) (ctx : TenantContext) (policy : ResolvedPolicy)
    (req : ChatRequest) : Act ChatResult := do
  let target ← Proc.ofExcept (policy.select req.provider req.model)
  let first ← (chatOnce platform ctx policy target.1 target.2 req).attempt
  match first with
  | .ok result => return result
  | .error exc =>
      if exc.isGatewayError ∧ policy.fallbackProvider ≠ none then
        let fallback ← Proc.ofExcept (policy.select policy.fallbackProvider policy.fallbackModel)
        chatOnce platform ctx policy fallback.1 fallback.2 req
      else throw exc

/-- `chat`. -/
def chat (platform : Platform) (tenant : Option TenantContext) (req : ChatRequest) :
    Act ChatResult := do
  let ctx ← Proc.ofExcept (currentTenant tenant)
  let policy ← loadPolicy platform ctx
  chatUnder platform ctx policy req

/-- The text of a chunk is handed to the consumer, who resumes the generator or
raises at the `yield`. -/
def yieldDelta (delta : Option String) : Act (Except Thrown Unit) :=
  match delta with
  | none => return .ok ()
  | some text =>
      if text = "" then return .ok () else request (I := gateway) (Request.yieldChunk text)

/-- The loop of `chat_stream`: the last usage seen, and what ended the loop. -/
def consume (usage : TokenUsage) : List Chunk → Act (TokenUsage × Except Thrown Unit)
  | [] => do
      let ending ← request (I := gateway) Request.endOfStream
      return (usage, ending)
  | chunk :: rest =>
      match chunk.delta with
      | .error className => return (usage, .error (.exception className))
      | .ok delta => do
          let resumed ← yieldDelta delta
          match resumed, usageFrom chunk.usage with
          | .error exc, _ => return (usage, .error exc)
          | .ok (), .error className => return (usage, .error (.exception className))
          | .ok (), .ok seen =>
              consume (if seen.inputTokens ≠ 0 ∨ seen.outputTokens ≠ 0 then seen else usage) rest

/-- What follows the loop: the `except` clauses set the status, `finally` meters. -/
def meterStream (m : Metered) (usage : TokenUsage) : Except Thrown Unit → Act Unit
  | .ok () => meterWrap m .ok usage none
  | .error exc => do
      if exc = .generatorExit then
        meterWrap m .error usage (some "stream_interrupted")
        throw (.thrown exc)
      else if exc.isException then
        meterWrap m .error usage (some exc.className)
        throw (.gatewayError m.provider exc.className)
      else
        -- no clause catches it: the status is still the initial one
        meterWrap m .ok usage none
        throw (.thrown exc)

/-- `chat_stream`, once the policy is loaded. -/
def chatStreamUnder (platform : Platform) (ctx : TenantContext) (policy : ResolvedPolicy)
    (req : ChatRequest) : Act Unit := do
  let target ← Proc.ofExcept (policy.select req.provider req.model)
  let key ← Proc.ofExcept (apiKey platform.settings policy target.1)
  let m : Metered :=
    ⟨ctx.tenantId, policy.monthlyTokenQuota, req.module, req.userId, target.1, target.2⟩
  let opened ← request (I := gateway) (Request.openStream ⟨.stream, target.1, target.2, key⟩)
  match opened with
  | .error exc => meterStream m noTokens (.error exc)
  | .ok chunks =>
      let received ← consume noTokens chunks
      meterStream m received.1 received.2

/-- `chat_stream`, driven to its end by its consumer. -/
def chatStream (platform : Platform) (tenant : Option TenantContext) (req : ChatRequest) :
    Act Unit := do
  let ctx ← Proc.ofExcept (currentTenant tenant)
  let policy ← loadPolicy platform ctx
  chatStreamUnder platform ctx policy req

/-- `embed`, once the policy is loaded. -/
def embedUnder (platform : Platform) (ctx : TenantContext) (policy : ResolvedPolicy)
    (req : EmbedRequest) : Act EmbedResult := do
  let target ← Proc.ofExcept (policy.select req.provider req.model)
  let key ← Proc.ofExcept (apiKey platform.settings policy target.1)
  let m : Metered :=
    ⟨ctx.tenantId, policy.monthlyTokenQuota, req.module, req.userId, target.1, target.2⟩
  let answer ← request (I := gateway) (Request.embedding ⟨.embedding, target.1, target.2, key⟩)
  match answer with
  | .error exc => meterFailure m exc
  | .ok raw =>
      let usage ← reading (usageFrom raw.usage)
      meterWrap m .ok usage none
      let vectors ← reading raw.data
      return ⟨vectors, target.1, target.2, usage⟩

/-- `embed`. -/
def embed (platform : Platform) (tenant : Option TenantContext) (req : EmbedRequest) :
    Act EmbedResult := do
  let ctx ← Proc.ofExcept (currentTenant tenant)
  let policy ← loadPolicy platform ctx
  embedUnder platform ctx policy req

/-- The entry points. -/
inductive Operation where
  | chat (request : ChatRequest)
  | chatStream (request : ChatRequest)
  | embed (request : EmbedRequest)

/-- An entry point as a procedure whose result is not kept. -/
def perform (platform : Platform) (tenant : Option TenantContext) : Operation → Act Unit
  | .chat req => do let _ ← chat platform tenant req
  | .chatStream req => chatStream platform tenant req
  | .embed req => do let _ ← embed platform tenant req

/-- The kind of call an entry point makes, and the target its request names. -/
def Operation.kind : Operation → CallKind
  | .chat _ => .completion
  | .chatStream _ => .stream
  | .embed _ => .embedding

def Operation.provider : Operation → Option String
  | .chat req => req.provider
  | .chatStream req => req.provider
  | .embed req => req.provider

def Operation.model : Operation → Option String
  | .chat req => req.model
  | .chatStream req => req.model
  | .embed req => req.model

/-- The policy under which an entry point runs, if it gets one. -/
def policyInForce (platform : Platform) (tenant : Option TenantContext) (choices : Nat → Await) :
    Option ResolvedPolicy :=
  tenant.bind fun ctx => (policyOf platform ctx (choices 0).policyRow).toOption

/-- The provider calls of an entry point, the last one first. -/
def callsOf (platform : Platform) (tenant : Option TenantContext) (operation : Operation)
    (choices : Nat → Await) : CallLog :=
  (eval serve (perform platform tenant operation) [] () choices).1

end Socle.AIGateway
