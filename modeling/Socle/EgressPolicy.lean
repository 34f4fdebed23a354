import Socle.UsageMetering

/-!
The provider calls of the gateway obey the policy of the tenant: their provider,
the provider that the model string routes to, and the key they carry.
-/

namespace Socle.EgressPolicy

open Socle.Procedures Socle.AIGateway Socle.UsageMetering

/-- The part of a model string before its first slash. -/
def routingPart (modelString : String) : String :=
  String.ofList (modelString.toList.takeWhile (· != '/'))

/-- A provider call that the policy allows. -/
structure Permitted (settings : Settings) (policy : ResolvedPolicy) (call : ProviderCall) :
    Prop where
  allowed : policy.allowedProviders ≠ [] → call.provider ∈ policy.allowedProviders
  zeroRetention : policy.zeroRetention = true → call.provider ∈ zeroRetentionProviders
  routed : policy.zeroRetention = true → routingPart call.modelString ∈ zeroRetentionProviders
  keyed : call.apiKey ≠ ""
  /-- The tenant's own key, and without one the key of the platform. -/
  key : policy.byokKeyFor call.provider = some call.apiKey ∨
    (policy.byokKeyFor call.provider).getD "" = "" ∧
      platformKey settings call.provider = call.apiKey

variable {settings : Settings} {policy : ResolvedPolicy}

theorem select_eq_ok {provider model : Option String} {target : String × String}
    (h : policy.select provider model = .ok target) :
    target = (orDefault provider policy.defaultProvider, orDefault model policy.defaultModel) ∧
      (policy.allowedProviders ≠ [] → target.1 ∈ policy.allowedProviders) ∧
      (policy.zeroRetention = true → target.1 ∈ zeroRetentionProviders) := by
  unfold ResolvedPolicy.select at h
  by_cases hallowed : policy.allowedProviders ≠ [] ∧
      orDefault provider policy.defaultProvider ∉ policy.allowedProviders
  · simp only [if_pos hallowed, reduceCtorEq] at h
  · by_cases hretention : policy.zeroRetention = true ∧
        orDefault provider policy.defaultProvider ∉ zeroRetentionProviders
    · simp only [if_neg hallowed, if_pos hretention, reduceCtorEq] at h
    · simp only [if_neg hallowed, if_neg hretention, Except.ok.injEq] at h
      subst h
      refine ⟨rfl, ?_, ?_⟩
      · intro hne
        by_contra hmem
        exact hallowed ⟨hne, hmem⟩
      · intro hzero
        by_contra hmem
        exact hretention ⟨hzero, hmem⟩

theorem apiKey_eq_ok {provider key : String} (h : apiKey settings policy provider = .ok key) :
    key ≠ "" ∧ (policy.byokKeyFor provider = some key ∨
      (policy.byokKeyFor provider).getD "" = "" ∧ platformKey settings provider = key) := by
  unfold apiKey at h
  by_cases hbyok : (policy.byokKeyFor provider).getD "" ≠ ""
  · simp only [if_pos hbyok, Except.ok.injEq] at h
    subst h
    refine ⟨hbyok, .inl ?_⟩
    cases hkey : policy.byokKeyFor provider with
    | none => simp [hkey] at hbyok
    | some key => rfl
  · by_cases hplatform : platformKey settings provider = ""
    · simp only [if_neg hbyok, if_pos hplatform, reduceCtorEq] at h
    · simp only [if_neg hbyok, if_neg hplatform, Except.ok.injEq] at h
      subst h
      exact ⟨hplatform, .inr ⟨by simpa using hbyok, rfl⟩⟩

theorem routingPart_eq {provider : String} (model : String)
    (hprovider : provider ∈ zeroRetentionProviders) :
    routingPart (provider ++ "/" ++ model) = provider := by
  obtain rfl : provider = "mistral" := by simpa [zeroRetentionProviders] using hprovider
  simp [routingPart, String.toList_append]

theorem permitted_of_keyed {platform : Platform} {kind : CallKind} {provider model : Option String}
    {target : String × String} {call : ProviderCall}
    (hselect : policy.select provider model = .ok target)
    (hkeyed : Keyed platform policy kind target call) :
    Permitted platform.settings policy call := by
  obtain ⟨key, hkey, rfl⟩ := hkeyed
  obtain ⟨-, hallowed, hretention⟩ := select_eq_ok hselect
  obtain ⟨hne, hsource⟩ := apiKey_eq_ok hkey
  refine ⟨hallowed, hretention, ?_, hne, hsource⟩
  intro hzero
  show routingPart (target.1 ++ "/" ++ target.2) ∈ zeroRetentionProviders
  rw [routingPart_eq target.2 (hretention hzero)]
  exact hretention hzero

/-- All calls of a run are permitted; there are at most two, the second to the
fallback and after a first one that brought no answer. -/
structure Obeys (platform : Platform) (policy : ResolvedPolicy) (operation : Operation)
    (calls : CallLog) : Prop where
  permitted : ∀ entry ∈ calls, Permitted platform.settings policy entry.call
  atMostTwo : calls.length ≤ 2
  second : ∀ second first, calls = [second, first] →
    (∃ req, operation = .chat req) ∧ first.complete = false ∧
      ∃ fallback, policy.fallbackProvider = some fallback ∧
        second.call.provider = orDefault (some fallback) policy.defaultProvider ∧
        second.call.model = orDefault policy.fallbackModel policy.defaultModel

theorem obeys_of_spent {platform : Platform} {operation : Operation} {calls : CallLog} {P : Prop}
    (hspent : Spent platform policy operation.kind operation.provider operation.model (calls, P)) :
    Obeys platform policy operation calls := by
  obtain ⟨seconds, firsts, hcalls, hseconds, hfirsts, hfirst, hsecond, -⟩ := hspent
  have hcalls : calls = seconds ++ firsts := hcalls
  subst hcalls
  refine ⟨?_, ?_, ?_⟩
  · intro entry hentry
    rcases List.mem_append.mp hentry with hmem | hmem
    · obtain ⟨-, -, ⟨target, hselect, hkeyed⟩, -⟩ := hsecond entry hmem
      exact permitted_of_keyed hselect hkeyed
    · obtain ⟨target, hselect, hkeyed⟩ := hfirst entry hmem
      exact permitted_of_keyed hselect hkeyed
  · rw [List.length_append]
    omega
  · intro second first hlist
    obtain ⟨hseconds', hfirsts'⟩ : seconds = [second] ∧ firsts = [first] := by
      have hlength : seconds.length + firsts.length = 2 := by
        rw [← List.length_append, hlist]
        rfl
      have hlength' : seconds.length = [second].length := by
        rw [List.length_singleton]
        omega
      exact List.append_inj (show seconds ++ firsts = [second] ++ [first] from hlist) hlength'
    obtain ⟨hkind, hfallback, ⟨target, hselect, hkeyed⟩, hfailed⟩ :=
      hsecond second (by simp [hseconds'])
    obtain ⟨fallback, hfallback⟩ := Option.ne_none_iff_exists'.mp hfallback
    obtain ⟨key, -, hcall⟩ := hkeyed
    obtain ⟨htarget, -⟩ := select_eq_ok hselect
    refine ⟨?_, hfailed first (by simp [hfirsts']), fallback, hfallback, ?_, ?_⟩
    · cases operation with
      | chat req => exact ⟨req, rfl⟩
      | chatStream req => cases hkind
      | embed req => cases hkind
    · rw [hcall, htarget, hfallback]
    · rw [hcall, htarget]

/-- AI egress obeys the policy in force, for every request, every platform and
every behaviour of the providers; without a policy nothing leaves. -/
theorem egress_obeys_policy (platform : Platform) (tenant : Option TenantContext)
    (operation : Operation) (choices : Nat → Await) :
    match policyInForce platform tenant choices with
    | none => callsOf platform tenant operation choices = []
    | some policy => Obeys platform policy operation (callsOf platform tenant operation choices) := by
  have hrun := spent_of_run platform tenant operation choices
  cases hpolicy : policyInForce platform tenant choices with
  | none =>
      simp only [hpolicy] at hrun
      exact hrun.1
  | some policy =>
      simp only [hpolicy] at hrun
      exact obeys_of_spent hrun

end Socle.EgressPolicy
