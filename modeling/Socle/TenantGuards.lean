import Mathlib.Data.Multiset.Filter

/-!
The guard on ORM statements and what a guarded SELECT can see.  A statement is
a tree of ORM entities, Core tables, joins and subqueries; the meaning of its
operators is a parameter, so that every clause of SQL is covered.
-/

namespace Socle.TenantGuards

structure TenantContext where
  tenantId : Nat
  slug : String
  role : Option String
  deriving DecidableEq

/-- `TenantContextError`, with what its message is made of. -/
inductive TenantContextError where
  | noContext
  | unscopedTables (leaked : List String)
  | insertRefused (tenantId context : Nat)
  | writeRefused (tenantId : Option Nat) (context : Nat)
  deriving DecidableEq

/-- Python's rendering of an optional id. -/
def strOption : Option Nat → String
  | some tenantId => toString tenantId
  | none => "None"

/-- Python's rendering of a list of table names. -/
def strList (names : List String) : String :=
  let quote := String.singleton (Char.ofNat 39)
  "[" ++ ", ".intercalate (names.map fun name => quote ++ name ++ quote) ++ "]"

def TenantContextError.message : TenantContextError → String
  | .noContext =>
      "Aucun contexte tenant résolu — toute requête métier exige un tenant " ++
        "(dépendance resolve_tenant ou tenant_context())."
  | .unscopedTables leaked =>
      s!"Requête sur table(s) scopée(s) {strList leaked} sans entité ORM : le filtre " ++
        "tenant automatique ne peut pas s'appliquer. Référencez la classe mappée " ++
        "(ex. func.count(Model.id) plutôt que select_from(Model))."
  | .insertRefused tenantId context =>
      s!"tenant_id {tenantId} ≠ contexte courant {context} (insert refusé)"
  | .writeRefused tenantId context =>
      s!"tenant_id {strOption tenantId} ≠ contexte courant {context} (écriture refusée)"

def currentTenant : Option TenantContext → Except TenantContextError TenantContext
  | some ctx => .ok ctx
  | none => .error .noContext

/-- The mapped tables: `isScoped` says that the class of a table inherits
`TenantScoped`, and `mappers` is the registry. -/
structure Schema (Table : Type) where
  tableName : Table → String
  isScoped : Table → Bool
  mappers : List Table
  registered : ∀ table, isScoped table = true → table ∈ mappers

/-- A part of a statement: an ORM entity (or an alias of one), a bare Core
table, two parts brought together (a join, a FROM list, a WHERE with a
subquery), or a nested SELECT. -/
inductive Clause (Table Label : Type) where
  | entity (table : Table) (aliased : Bool)
  | core (table : Table)
  | combine (label : Label) (left right : Clause Table Label)
  | select (label : Label) (body : Clause Table Label)

inductive StatementKind where
  | select
  | insert
  | update
  | delete
  deriving DecidableEq

/-- An ORM statement.  `subjects` are its top-level columns, or the table an
UPDATE or a DELETE is about; `parts` is the rest. -/
structure Statement (Table Label : Type) where
  kind : StatementKind
  label : Label
  subjects : List (Clause Table Label)
  parts : List (Clause Table Label)

/-- `ORMExecuteState`; the criterion is that of `with_loader_criteria`. -/
structure ORMExecuteState (Table Label : Type) where
  statement : Statement Table Label
  isColumnLoad : Bool := false
  isRelationshipLoad : Bool := false
  loaderCriteria : Option Nat := none

variable {Table Label : Type}

namespace Clause

/-- The tables of a part, in any position. -/
def tables : Clause Table Label → List Table
  | entity table _ => [table]
  | core table => [table]
  | combine _ left right => left.tables ++ right.tables
  | select _ body => body.tables

/-- The tables of a part that stand in it without their entity. -/
def coreTables : Clause Table Label → List Table
  | entity .. => []
  | core table => [table]
  | combine _ left right => left.coreTables ++ right.coreTables
  | select _ body => body.coreTables

def mapper : Clause Table Label → Option Table
  | entity table _ => some table
  | _ => none

end Clause

namespace Statement

variable (statement : Statement Table Label)

def clauses : List (Clause Table Label) := statement.subjects ++ statement.parts

/-- `find_tables` on the whole statement. -/
def findTables : List Table := statement.clauses.flatMap Clause.tables

def coreTables : List Table := statement.clauses.flatMap Clause.coreTables

/-- `all_mappers`: the mappers of the top-level entities. -/
def allMappers : List Table := statement.subjects.filterMap Clause.mapper

end Statement

section Guard

variable (schema : Schema Table)

/-- `_scoped_tables`. -/
def scopedTables : List Table := schema.mappers.filter schema.isScoped

/-- `_touches_scoped_mapper`. -/
def touchesScopedMapper (state : ORMExecuteState Table Label) : Bool :=
  state.statement.allMappers.any schema.isScoped

/-- The scoped table names of the statement. -/
def leakedNames (statement : Statement Table Label) : List String :=
  (statement.findTables.map schema.tableName).filter fun name =>
    (scopedTables schema).any fun table => schema.tableName table == name

/-- `_refuse_unscoped_table_access`. -/
def refuseUnscopedTableAccess (state : ORMExecuteState Table Label) :
    Except TenantContextError Unit :=
  let leaked := leakedNames schema state.statement
  if leaked.isEmpty then .ok ()
  else .error (.unscopedTables (leaked.eraseDups.mergeSort fun a b => decide (a ≤ b)))

/-- `_guard_orm_execute`. -/
def guardOrmExecute (context : Option TenantContext) (state : ORMExecuteState Table Label) :
    Except TenantContextError (ORMExecuteState Table Label) :=
  if state.statement.kind = .insert then .ok state
  else if state.isColumnLoad || state.isRelationshipLoad then .ok state
  else if !touchesScopedMapper schema state then
    match refuseUnscopedTableAccess schema state with
    | .ok _ => .ok state
    | .error e => .error e
  else
    match currentTenant context with
    | .ok ctx => .ok { state with loaderCriteria := some ctx.tenantId }
    | .error e => .error e

end Guard

/-! ### The meaning of a SELECT -/

/-- A stored row; a row of a scoped table has a tenant. -/
structure StoredRow (Value : Type) where
  tenantId : Option Nat
  values : List Value
  deriving DecidableEq

abbrev DatabaseState (Table Value : Type) := Table → Multiset (StoredRow Value)

/-- The rows a part of a statement produces. -/
abbrev Relation (Value : Type) := Multiset (List Value)

/-- What the operators of SQL compute from the relations of their parts. -/
structure Meaning (Label Value : Type) where
  combine : Label → Relation Value → Relation Value → Relation Value
  select : Label → Relation Value → Relation Value
  statement : Label → List (Relation Value) → Relation Value

variable {Value : Type}

def ofTenant (tenantId : Nat) (row : StoredRow Value) : Prop := row.tenantId = some tenantId

instance (tenantId : Nat) (row : StoredRow Value) : Decidable (ofTenant tenantId row) :=
  inferInstanceAs (Decidable (_ = _))

section Execute

variable (schema : Schema Table) (meaning : Meaning Label Value) (criteria : Option Nat)
variable (db : DatabaseState Table Value)

/-- The rows an ORM entity stands for: a criterion filters scoped classes. -/
def entityRows (table : Table) : Multiset (StoredRow Value) :=
  match criteria with
  | some tenantId =>
      if schema.isScoped table then (db table).filter (ofTenant tenantId) else db table
  | none => db table

def evalClause : Clause Table Label → Relation Value
  | .entity table _ => (entityRows schema criteria db table).map StoredRow.values
  | .core table => (db table).map StoredRow.values
  | .combine label left right => meaning.combine label (evalClause left) (evalClause right)
  | .select label body => meaning.select label (evalClause body)

def executeStatement (state : ORMExecuteState Table Label) : Relation Value :=
  meaning.statement state.statement.label
    (state.statement.clauses.map (evalClause schema meaning state.loaderCriteria db))

end Execute

end Socle.TenantGuards
