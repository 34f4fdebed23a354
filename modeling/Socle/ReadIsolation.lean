import Mathlib.Algebra.Order.BigOperators.Group.List
import Mathlib.Data.Multiset.OrderedMonoid
import Mathlib.Data.Multiset.Bind
import Socle.TenantGuards

/-!
Tenant read isolation as noninterference: what a SELECT that passes the guard
under a tenant can tell about the rows of other tenants.
-/

namespace Socle.ReadIsolation

open Socle.TenantGuards

variable {Table Label Value : Type} (schema : Schema Table)

/-- The two states look the same to the tenant. -/
def Agree (tenantId : Nat) (db db' : DatabaseState Table Value) : Prop :=
  ∀ table,
    if schema.isScoped table then
      (db table).filter (ofTenant tenantId) = (db' table).filter (ofTenant tenantId)
    else db table = db' table

/-- The statement of a session, before the guard. -/
def ormStatement (statement : Statement Table Label) : ORMExecuteState Table Label :=
  { statement := statement }

/-- Executed under the tenant, the statement does not depend on the rows of
other tenants, whatever its operators compute. -/
def NonInterfering (Value : Type) (statement : Statement Table Label) (tenantId : Nat) : Prop :=
  ∀ (meaning : Meaning Label Value) (db db' : DatabaseState Table Value),
    Agree schema tenantId db db' →
    ∀ (slug : String) (role : Option String) (state : ORMExecuteState Table Label),
      guardOrmExecute schema (some ⟨tenantId, slug, role⟩) (ormStatement statement) = .ok state →
      executeStatement schema meaning db state = executeStatement schema meaning db' state

/-- Without a context, a statement that mentions a scoped table is refused. -/
def RefusedWithoutContext (statement : Statement Table Label) : Prop :=
  (∃ table ∈ statement.findTables, schema.isScoped table = true) →
    ∃ e, guardOrmExecute schema none (ormStatement statement) = .error e

/-- The statement has a scoped entity at its top level and a scoped table that
stands somewhere without its entity. -/
def Mixed (statement : Statement Table Label) : Prop :=
  (∃ table ∈ statement.allMappers, schema.isScoped table = true) ∧
    ∃ table ∈ statement.coreTables, schema.isScoped table = true

variable {schema}

theorem touchesScopedMapper_iff (statement : Statement Table Label) :
    touchesScopedMapper schema (ormStatement statement) = true ↔
      ∃ table ∈ statement.allMappers, schema.isScoped table = true := by
  simp [touchesScopedMapper, ormStatement]

theorem leakedNames_ne_nil {statement : Statement Table Label} {table : Table}
    (hmem : table ∈ statement.findTables) (hscoped : schema.isScoped table = true) :
    leakedNames schema statement ≠ [] := by
  refine List.ne_nil_of_mem (List.mem_filter.mpr ⟨List.mem_map_of_mem hmem, ?_⟩)
  refine List.any_eq_true.mpr ⟨table, ?_, by simp⟩
  exact List.mem_filter.mpr ⟨schema.registered table hscoped, hscoped⟩

theorem refuseUnscopedTableAccess_eq_ok {statement : Statement Table Label} {u : Unit}
    (h : refuseUnscopedTableAccess schema (ormStatement statement) = .ok u) {table : Table}
    (hmem : table ∈ statement.findTables) : schema.isScoped table = false := by
  by_contra hscoped
  have hleaked := leakedNames_ne_nil hmem (by simpa using hscoped)
  simp [refuseUnscopedTableAccess, ormStatement, hleaked] at h

variable {statement : Statement Table Label} {context : Option TenantContext}

theorem guard_of_touches (hkind : statement.kind ≠ .insert)
    (htouches : touchesScopedMapper schema (ormStatement statement) = true) :
    guardOrmExecute schema context (ormStatement statement) =
      (currentTenant context).map fun ctx =>
        { ormStatement statement with loaderCriteria := some ctx.tenantId } := by
  have hkind' : (ormStatement statement).statement.kind ≠ .insert := hkind
  simp only [guardOrmExecute, hkind', if_false, htouches]
  cases context <;> rfl

theorem guard_of_not_touches (hkind : statement.kind ≠ .insert)
    (htouches : touchesScopedMapper schema (ormStatement statement) = false) :
    guardOrmExecute schema context (ormStatement statement) =
      (refuseUnscopedTableAccess schema (ormStatement statement)).map
        fun _ => ormStatement statement := by
  have hkind' : (ormStatement statement).statement.kind ≠ .insert := hkind
  simp only [guardOrmExecute, hkind', if_false, htouches]
  cases refuseUnscopedTableAccess schema (ormStatement statement) <;> rfl

/-- What the guard does to a statement: it adds the criterion of the context
when a top-level entity is scoped, and otherwise lets through only statements
without scoped tables. -/
theorem guard_cases (hkind : statement.kind ≠ .insert) {state : ORMExecuteState Table Label}
    (h : guardOrmExecute schema context (ormStatement statement) = .ok state) :
    (touchesScopedMapper schema (ormStatement statement) = true ∧ ∃ ctx, context = some ctx ∧
      state = { ormStatement statement with loaderCriteria := some ctx.tenantId }) ∨
    state = ormStatement statement ∧
      ∀ table ∈ statement.findTables, schema.isScoped table = false := by
  cases htouches : touchesScopedMapper schema (ormStatement statement) with
  | true =>
      rw [guard_of_touches hkind htouches] at h
      cases context with
      | none => cases h
      | some ctx => exact .inl ⟨rfl, ctx, rfl, (Except.ok.inj h).symm⟩
  | false =>
      rw [guard_of_not_touches hkind htouches] at h
      cases hrefuse : refuseUnscopedTableAccess schema (ormStatement statement) with
      | error e =>
          rw [hrefuse] at h
          cases h
      | ok u =>
          rw [hrefuse] at h
          refine .inr ⟨(Except.ok.inj h).symm, fun table hmem => ?_⟩
          exact refuseUnscopedTableAccess_eq_ok hrefuse hmem

theorem refused_without_context (hkind : statement.kind ≠ .insert) :
    RefusedWithoutContext schema statement := by
  rintro ⟨table, hmem, hscoped⟩
  cases hguard : guardOrmExecute schema none (ormStatement statement) with
  | error e => exact ⟨e, rfl⟩
  | ok state =>
      rcases guard_cases hkind hguard with ⟨-, ctx, hctx, -⟩ | ⟨-, hnone⟩
      · cases hctx
      · rw [hnone table hmem] at hscoped
        cases hscoped

theorem evalClause_congr (meaning : Meaning Label Value) {criteria : Option Nat}
    {db db' : DatabaseState Table Value} {clause : Clause Table Label}
    (hentity : ∀ table ∈ clause.tables,
      entityRows schema criteria db table = entityRows schema criteria db' table)
    (hcore : ∀ table ∈ clause.coreTables, db table = db' table) :
    evalClause schema meaning criteria db clause =
      evalClause schema meaning criteria db' clause := by
  induction clause with
  | entity table aliased => simp only [evalClause, hentity table (by simp [Clause.tables])]
  | core table => simp only [evalClause, hcore table (by simp [Clause.coreTables])]
  | combine label left right ihl ihr =>
      simp only [Clause.tables, Clause.coreTables, List.mem_append] at hentity hcore
      rw [evalClause, evalClause,
        ihl (fun t ht => hentity t (.inl ht)) (fun t ht => hcore t (.inl ht)),
        ihr (fun t ht => hentity t (.inr ht)) (fun t ht => hcore t (.inr ht))]
  | select label body ih => rw [evalClause, evalClause, ih hentity hcore]

theorem executeStatement_congr (meaning : Meaning Label Value)
    {db db' : DatabaseState Table Value} {state : ORMExecuteState Table Label}
    (hentity : ∀ table ∈ state.statement.findTables,
      entityRows schema state.loaderCriteria db table =
        entityRows schema state.loaderCriteria db' table)
    (hcore : ∀ table ∈ state.statement.coreTables, db table = db' table) :
    executeStatement schema meaning db state = executeStatement schema meaning db' state := by
  unfold executeStatement
  congr 1
  apply List.map_congr_left
  intro clause hclause
  apply evalClause_congr
  · intro table htable
    exact hentity table (List.mem_flatMap.mpr ⟨clause, hclause, htable⟩)
  · intro table htable
    exact hcore table (List.mem_flatMap.mpr ⟨clause, hclause, htable⟩)

theorem Agree.unscoped {tenantId : Nat} {db db' : DatabaseState Table Value}
    (h : Agree schema tenantId db db') {table : Table}
    (hscoped : schema.isScoped table = false) : db table = db' table := by
  simpa [hscoped] using h table

theorem Agree.entityRows {tenantId : Nat} {db db' : DatabaseState Table Value}
    (h : Agree schema tenantId db db') (table : Table) :
    entityRows schema (some tenantId) db table = entityRows schema (some tenantId) db' table := by
  have htable := h table
  cases hscoped : schema.isScoped table with
  | true => simpa [TenantGuards.entityRows, hscoped] using htable
  | false => simpa [TenantGuards.entityRows, hscoped] using htable

theorem mem_findTables_of_mem_coreTables {table : Table} (h : table ∈ statement.coreTables) :
    table ∈ statement.findTables := by
  have hclause : ∀ clause : Clause Table Label, table ∈ clause.coreTables →
      table ∈ clause.tables := by
    intro clause
    induction clause with
    | entity table aliased => simp [Clause.coreTables]
    | core table => simp [Clause.coreTables, Clause.tables]
    | combine label left right ihl ihr =>
        simp only [Clause.coreTables, Clause.tables, List.mem_append]
        exact Or.imp ihl ihr
    | select label body ih => exact ih
  obtain ⟨clause, hmem, htable⟩ := List.mem_flatMap.mp h
  exact List.mem_flatMap.mpr ⟨clause, hmem, hclause clause htable⟩

theorem nonInterfering_of_not_mixed (hkind : statement.kind ≠ .insert)
    (hmixed : ¬ Mixed schema statement) (tenantId : Nat) :
    NonInterfering schema Value statement tenantId := by
  intro meaning db db' hagree slug role state hguard
  rcases guard_cases hkind hguard with ⟨htouches, ctx, hctx, rfl⟩ | ⟨rfl, hnone⟩
  · cases hctx
    refine executeStatement_congr meaning (fun table _ => hagree.entityRows table) ?_
    intro table hcore
    -- A scoped table without its entity would make the statement a mixed one.
    refine hagree.unscoped ?_
    by_contra hscoped
    exact hmixed ⟨(touchesScopedMapper_iff statement).mp htouches, table, hcore,
      by simpa using hscoped⟩
  · refine executeStatement_congr meaning ?_ ?_
    · intro table hmem
      exact hagree.unscoped (hnone table hmem)
    · intro table hmem
      exact hagree.unscoped (hnone table (mem_findTables_of_mem_coreTables hmem))

/-- Every operator keeps all the rows of its parts. -/
def unionMeaning (Label Value : Type) : Meaning Label Value where
  combine _ left right := left + right
  select _ body := body
  statement _ relations := relations.sum

theorem evalClause_union_empty (criteria : Option Nat) (clause : Clause Table Label) :
    evalClause schema (unionMeaning Label Value) criteria (fun _ => 0) clause = 0 := by
  induction clause with
  | entity table aliased => cases criteria <;> simp [evalClause, entityRows]
  | core table => simp [evalClause]
  | combine label left right ihl ihr => exact (congrArg₂ (· + ·) ihl ihr).trans (add_zero 0)
  | select label body ih => exact ih

theorem mem_evalClause_union (schema : Schema Table) (criteria : Option Nat)
    {db : DatabaseState Table Value} {clause : Clause Table Label} {table : Table}
    (hcore : table ∈ clause.coreTables) {row : StoredRow Value} (hrow : row ∈ db table) :
    row.values ∈ evalClause schema (unionMeaning Label Value) criteria db clause := by
  induction clause with
  | entity table aliased => simp [Clause.coreTables] at hcore
  | core table =>
      simp only [Clause.coreTables, List.mem_singleton] at hcore
      subst hcore
      exact Multiset.mem_map_of_mem _ hrow
  | combine label left right ihl ihr =>
      refine Multiset.mem_add.mpr ?_
      exact (List.mem_append.mp hcore).imp ihl ihr
  | select label body ih => exact ih hcore

theorem executeStatement_union_empty (state : ORMExecuteState Table Label) :
    executeStatement schema (unionMeaning Label Value) (fun _ => 0) state = 0 := by
  refine List.sum_eq_zero ?_
  intro relation hrelation
  obtain ⟨clause, -, rfl⟩ := List.mem_map.mp hrelation
  exact evalClause_union_empty _ clause

theorem mem_executeStatement_union {state : ORMExecuteState Table Label}
    {db : DatabaseState Table Value} {table : Table} (hcore : table ∈ state.statement.coreTables)
    {row : StoredRow Value} (hrow : row ∈ db table) :
    row.values ∈ executeStatement schema (unionMeaning Label Value) db state := by
  obtain ⟨clause, hclause, htable⟩ := List.mem_flatMap.mp hcore
  have hmem := mem_evalClause_union schema state.loaderCriteria htable hrow
  refine Multiset.mem_of_le ?_ hmem
  exact List.single_le_sum (fun _ _ => Multiset.zero_le _) _ (List.mem_map_of_mem hclause)

/-- One row of another tenant in every scoped table. -/
def foreignRows (schema : Schema Table) (Value : Type) (tenantId : Nat) :
    DatabaseState Table Value := fun table =>
  if schema.isScoped table then {⟨some (tenantId + 1), []⟩} else 0

theorem agree_foreignRows (tenantId : Nat) :
    Agree schema tenantId (fun _ => 0) (foreignRows schema Value tenantId) := by
  intro table
  cases hscoped : schema.isScoped table with
  | true =>
      rw [if_pos rfl, foreignRows, if_pos hscoped, Multiset.filter_zero,
        Multiset.filter_singleton, if_neg]
      · rfl
      · simp [ofTenant]
  | false => simp [foreignRows, hscoped]

theorem not_nonInterfering_of_mixed (hkind : statement.kind ≠ .insert)
    (hmixed : Mixed schema statement) (tenantId : Nat) :
    ¬ NonInterfering schema Value statement tenantId := by
  intro hsame
  obtain ⟨htop, table, hcore, hscoped⟩ := hmixed
  have hguard : guardOrmExecute schema (some ⟨tenantId, "", none⟩) (ormStatement statement) =
      .ok { ormStatement statement with loaderCriteria := some tenantId } :=
    guard_of_touches hkind ((touchesScopedMapper_iff statement).mpr htop)
  have heq := hsame (unionMeaning Label Value) (fun _ => 0) (foreignRows schema Value tenantId)
    (agree_foreignRows tenantId) "" none _ hguard
  rw [executeStatement_union_empty] at heq
  have hrow : ⟨some (tenantId + 1), []⟩ ∈ foreignRows schema Value tenantId table := by
    simp [foreignRows, hscoped]
  have hmem : [] ∈ executeStatement schema (unionMeaning Label Value)
      (foreignRows schema Value tenantId)
      { ormStatement statement with loaderCriteria := some tenantId } :=
    mem_executeStatement_union hcore hrow
  rw [← heq] at hmem
  exact Multiset.notMem_zero _ hmem

/-- A SELECT is isolated, for every meaning of its operators, if and only if it
does not mix a scoped entity at its top level with a bare scoped table. -/
theorem select_isolated_iff (schema : Schema Table) (tenantId : Nat) (label : Label)
    (columns parts : List (Clause Table Label)) :
    (NonInterfering schema Value ⟨.select, label, columns, parts⟩ tenantId ∧
      RefusedWithoutContext schema ⟨.select, label, columns, parts⟩) ↔
      ¬ Mixed schema ⟨.select, label, columns, parts⟩ := by
  have hkind : StatementKind.select ≠ .insert := by decide
  constructor
  · rintro ⟨hsame, -⟩ hmixed
    exact not_nonInterfering_of_mixed hkind hmixed tenantId hsame
  · intro hmixed
    exact ⟨nonInterfering_of_not_mixed hkind hmixed tenantId, refused_without_context hkind⟩

inductive SocleTable where
  | tenants
  | users
  | memberships
  | userCredentials
  | authRecoveryCodes
  | sessions
  | loginChallenges
  | oauthIdentities
  | invitations
  | webhookRoutes
  | tenantModules
  | tenantAiPolicies
  | aiUsageEvents
  | aiUsageDaily
  | auditEvents
  | teams
  | teamMembers
  | connectorConnections
  | connectorSubscriptions
  | sampleDigestDigests
  deriving DecidableEq

def SocleTable.name : SocleTable → String
  | tenants => "tenants"
  | users => "users"
  | memberships => "memberships"
  | userCredentials => "user_credentials"
  | authRecoveryCodes => "auth_recovery_codes"
  | sessions => "sessions"
  | loginChallenges => "login_challenges"
  | oauthIdentities => "oauth_identities"
  | invitations => "invitations"
  | webhookRoutes => "webhook_routes"
  | tenantModules => "tenant_modules"
  | tenantAiPolicies => "tenant_ai_policies"
  | aiUsageEvents => "ai_usage_events"
  | aiUsageDaily => "ai_usage_daily"
  | auditEvents => "audit_events"
  | teams => "teams"
  | teamMembers => "team_members"
  | connectorConnections => "connector_connections"
  | connectorSubscriptions => "connector_subscriptions"
  | sampleDigestDigests => "sample_digest_digests"

def SocleTable.isScoped : SocleTable → Bool
  | auditEvents | teams | teamMembers | connectorConnections | connectorSubscriptions
  | sampleDigestDigests => true
  | _ => false

def socleSchema : Schema SocleTable where
  tableName := SocleTable.name
  isScoped := SocleTable.isScoped
  mappers := [.tenants, .users, .memberships, .userCredentials, .authRecoveryCodes, .sessions,
    .loginChallenges, .oauthIdentities, .invitations, .webhookRoutes, .tenantModules,
    .tenantAiPolicies, .aiUsageEvents, .aiUsageDaily, .auditEvents, .teams, .teamMembers,
    .connectorConnections, .connectorSubscriptions, .sampleDigestDigests]
  registered table _ := by cases table <;> decide

/-- `select(Team, TeamMember.__table__)`. -/
def teamsWithMembersTable : Statement SocleTable Unit :=
  ⟨.select, (), [.entity .teams false, .core .teamMembers], []⟩

/-- The Cartesian product of the columns, as SQL has it. -/
def productMeaning : Meaning Unit String where
  combine _ left right := left.bind fun row => right.map fun row' => row ++ row'
  select _ body := body
  statement _ relations :=
    relations.foldr (fun left right => left.bind fun row => right.map fun row' => row ++ row') {[]}

/-- Tenant 1 has one team; tenant 2 has the given team members. -/
def oneTeam (members : Multiset (StoredRow String)) : DatabaseState SocleTable String
  | .teams => {⟨some 1, ["equipe-a"]⟩}
  | .teamMembers => members
  | _ => 0

/-- Under tenant 1 the statement passes the guard, and shows the team member of
tenant 2. -/
theorem core_table_next_to_entity_leaks :
    Agree socleSchema 1 (oneTeam 0) (oneTeam {⟨some 2, ["bob"]⟩}) ∧
      guardOrmExecute socleSchema (some ⟨1, "acme", none⟩) (ormStatement teamsWithMembersTable) =
        .ok { ormStatement teamsWithMembersTable with loaderCriteria := some 1 } ∧
      executeStatement socleSchema productMeaning (oneTeam 0)
          { ormStatement teamsWithMembersTable with loaderCriteria := some 1 } = 0 ∧
      executeStatement socleSchema productMeaning (oneTeam {⟨some 2, ["bob"]⟩})
          { ormStatement teamsWithMembersTable with loaderCriteria := some 1 } =
        {["equipe-a", "bob"]} := by
  refine ⟨?_, rfl, by decide +kernel, by decide +kernel⟩
  intro table
  cases table <;> rfl

end Socle.ReadIsolation
