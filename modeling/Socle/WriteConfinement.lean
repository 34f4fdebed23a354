import Socle.GuardedRuns
import Socle.KeyedTable
import Socle.ReadIsolation

/-!
What a session can write under a tenant: unit-of-work flushes, guarded by the
in-memory `tenant_id` of the objects while rows are addressed by primary key,
and ORM-enabled INSERT, UPDATE and DELETE statements, upserts and updates by a
list of primary keys among them.
-/

namespace Socle.WriteConfinement

open Socle.GuardedRuns
open Socle.KeyedTable (nodup_map_snoc)
open Socle.TenantGuards
open Socle.ReadIsolation

/-- The columns of a row but its primary key: the tenant, the foreign keys that
cascade, and the others. -/
structure Columns (Table : Type) where
  tenantId : Option Nat
  references : List (Table × Nat) := []
  values : List (String × String) := []
  deriving DecidableEq

structure Row (Table : Type) where
  table : Table
  id : Nat
  columns : Columns Table
  deriving DecidableEq

/-- A persistent object of a session: its attributes when it was loaded or last
flushed, and its attributes in memory now. -/
structure Mapped (Table : Type) where
  table : Table
  id : Nat
  loaded : Columns Table
  current : Columns Table
  deriving DecidableEq

/-- What a flush has to write. -/
structure UnitOfWork (Table : Type) where
  new : List (Row Table)
  dirty : List (Mapped Table)
  deleted : List (Mapped Table)
  deriving DecidableEq

variable {Table Label : Type} [DecidableEq Table]

def Row.key (row : Row Table) : Table × Nat := (row.table, row.id)

def Mapped.key (object : Mapped Table) : Table × Nat := (object.table, object.id)

section Guard

variable (schema : Schema Table)

/-- The new objects after the guard: those without a tenant get that of the
context. -/
def stampNew (ctx : TenantContext) (object : Row Table) :
    Except TenantContextError (Row Table) :=
  if schema.isScoped object.table then
    match object.columns.tenantId with
    | none => .ok { object with columns := { object.columns with tenantId := some ctx.tenantId } }
    | some tenantId =>
        if tenantId ≠ ctx.tenantId then .error (.insertRefused tenantId ctx.tenantId)
        else .ok object
  else .ok object

def checkTouched (ctx : TenantContext) (object : Mapped Table) : Except TenantContextError Unit :=
  if schema.isScoped object.table ∧ object.current.tenantId ≠ some ctx.tenantId then
    .error (.writeRefused object.current.tenantId ctx.tenantId)
  else .ok ()

/-- `_guard_flush`: the new objects as they will be inserted. -/
def guardFlush (context : Option TenantContext) (work : UnitOfWork Table) :
    Except TenantContextError (List (Row Table)) :=
  if (work.new.any fun o => schema.isScoped o.table) ||
      ((work.dirty ++ work.deleted).any fun o => schema.isScoped o.table) then do
    let ctx ← currentTenant context
    let new ← work.new.mapM (stampNew schema ctx)
    forM (work.dirty ++ work.deleted) (checkTouched schema ctx)
    return new
  else .ok work.new

end Guard

/-! ### SQL on rows -/

/-- INSERT one row; its primary key must be free. -/
def insertRow (db : List (Row Table)) (row : Row Table) : Option (List (Row Table)) :=
  if db.any fun r => r.key = row.key then none else some (db ++ [row])

/-- The columns an UPDATE sets are those whose value in memory has changed. -/
def Columns.write (loaded current stored : Columns Table) : Columns Table where
  tenantId := if current.tenantId = loaded.tenantId then stored.tenantId else current.tenantId
  references :=
    if current.references = loaded.references then stored.references else current.references
  values := stored.values.map fun (column, value) =>
    match current.values.lookup column with
    | some value' => (column, if loaded.values.lookup column = some value' then value else value')
    | none => (column, value)

def setColumns (db : List (Row Table)) (key : Table × Nat)
    (set_ : Columns Table → Columns Table) : List (Row Table) :=
  db.map fun r => if r.key = key then { r with columns := set_ r.columns } else r

/-- UPDATE of the row with a primary key, which must be stored. -/
def updateKeyed (db : List (Row Table)) (key : Table × Nat)
    (set_ : Columns Table → Columns Table) : Option (List (Row Table)) :=
  if db.any fun r => r.key = key then some (setColumns db key set_) else none

/-- UPDATE of the row with the primary key of a dirty object. -/
def updateRow (db : List (Row Table)) (object : Mapped Table) : Option (List (Row Table)) :=
  if object.current = object.loaded then some db
  else updateKeyed db object.key (object.loaded.write object.current)

/-- The ON CONFLICT clause of an INSERT.  `index` says that a stored row has
the index elements of a new one, `set_` makes the columns of the stored row
from its own and those of the new row. -/
inductive OnConflict (Table : Type) where
  | error
  | doNothing (index : Row Table → Row Table → Bool)
  | doUpdate (index : Row Table → Row Table → Bool)
      (set_ : Columns Table → Columns Table → Columns Table)

/-- The stored row is one the clause acts on when the new row is given. -/
def OnConflict.inTheWay (row stored : Row Table) : OnConflict Table → Bool
  | .error => false
  | .doNothing index => stored.table = row.table && index stored row
  | .doUpdate index _ => stored.table = row.table && index stored row

/-- An INSERT under way: the stored rows, those it has inserted, and the keys
its current command has inserted or updated. -/
structure Inserting (Table : Type) where
  db : List (Row Table)
  inserted : List (Row Table) := []
  touched : List (Table × Nat) := []

/-- INSERT one row with its ON CONFLICT clause.  A command does not update a
row it has inserted or updated. -/
def insertOr (onConflict : OnConflict Table) (s : Inserting Table) (row : Row Table) :
    Option (Inserting Table) :=
  match s.db.find? fun stored => onConflict.inTheWay row stored, onConflict with
  | some stored, .doUpdate _ set_ =>
      if s.touched.contains stored.key then none
      else some { s with
        db := setColumns s.db stored.key fun columns => set_ columns row.columns
        touched := stored.key :: s.touched }
  | some _, _ => some s
  | none, _ => do
      let db ← insertRow s.db row
      return ⟨db, s.inserted ++ [row], row.key :: s.touched⟩

def insertCommand (onConflict : OnConflict Table) (s : Inserting Table) (rows : List (Row Table)) :
    Option (Inserting Table) :=
  rows.foldlM (insertOr onConflict) { s with touched := [] }

/-- The rows a row cascades from: the row of its tenant, and those its foreign
keys refer to.  The catalogue of tenants refers to nothing. -/
def parents (schema : Schema Table) (tenants : Table) (row : Row Table) : List (Table × Nat) :=
  if row.table = tenants then []
  else if schema.isScoped row.table then
    (row.columns.tenantId.toList.map fun tenantId => (tenants, tenantId)) ++
      row.columns.references
  else row.columns.references

/-- The row is deleted with the rows of `keys`: it is one of them, or one of
its parents is deleted.  `depth` bounds the length of a cascade. -/
def doomed (schema : Schema Table) (tenants : Table) (db : List (Row Table))
    (keys : List (Table × Nat)) : Nat → Row Table → Bool
  | 0, row => keys.contains row.key
  | depth + 1, row =>
      keys.contains row.key ||
        db.any fun parent => (parents schema tenants row).contains parent.key &&
          doomed schema tenants db keys depth parent

/-- DELETE by primary key, with `ON DELETE CASCADE`. -/
def deleteRows (schema : Schema Table) (tenants : Table) (db : List (Row Table))
    (keys : List (Table × Nat)) : List (Row Table) :=
  if keys.isEmpty then db
  else db.filter fun row => !doomed schema tenants db keys db.length row

/-! ### Steps -/

/-- An INSERT, UPDATE or DELETE given to `Session.execute`: on a mapped class,
or on a bare table.  `parts` is what its other clauses mention; its WHERE and
SET may read the whole database.  An INSERT is one command for each set of
parameters, with one or several rows; an UPDATE of a mapped class with sets of
parameters addresses the row of each by primary key. -/
inductive Write (Table Label : Type) where
  | insert (commands : List (List (Row Table))) (onConflict : OnConflict Table)
  | updateByKey (table : Table) (parameters : List (Nat × (Columns Table → Columns Table)))
  | update (subject : Clause Table Label) (parts : List (Clause Table Label))
      (where_ : List (Row Table) → Row Table → Bool)
      (set_ : List (Row Table) → Columns Table → Columns Table)
  | delete (subject : Clause Table Label) (parts : List (Clause Table Label))
      (where_ : List (Row Table) → Row Table → Bool)

inductive Step (Table Label : Type) where
  | flush (work : UnitOfWork Table)
  | execute (label : Label) (write : Write Table Label)

inductive Outcome where
  | done
  | refused (error : TenantContextError)
  | databaseError
  deriving DecidableEq

/-- The stored rows after a step, the rows it inserted, and how it ended. -/
structure Result (Table : Type) where
  db : List (Row Table)
  inserted : List (Row Table)
  outcome : Outcome
  deriving DecidableEq

/-- The schema, its catalogue of tenants, and the constraints of the database
(unique indexes, NOT NULL, foreign keys), which refuse whole transactions. -/
structure Store (Table : Type) where
  schema : Schema Table
  tenants : Table
  accepts : List (Row Table) → Bool

section Perform

variable (store : Store Table) (context : Option TenantContext)

/-- End a step: the database checks its constraints, or rolls back. -/
def settle (db : List (Row Table)) (inserted : List (Row Table)) (db' : Option (List (Row Table))) :
    Result Table :=
  match db' with
  | some db' => if store.accepts db' then ⟨db', inserted, .done⟩ else ⟨db, [], .databaseError⟩
  | none => ⟨db, [], .databaseError⟩

/-- A flush: guard, INSERTs, UPDATEs, DELETEs. -/
def flush (db : List (Row Table)) (work : UnitOfWork Table) : Result Table :=
  match guardFlush store.schema context work with
  | .error e => ⟨db, [], .refused e⟩
  | .ok new =>
      settle store db new do
        let db₁ ← new.foldlM insertRow db
        let db₂ ← work.dirty.foldlM updateRow db₁
        return deleteRows store.schema store.tenants db₂ (work.deleted.map Mapped.key)

/-- The table an UPDATE or a DELETE is about. -/
def subjectTable : Clause Table Label → Option Table
  | .entity table _ => some table
  | .core table => some table
  | _ => none

/-- The rows such a statement addresses, with the criterion of the guard. -/
def addressed (subject : Clause Table Label) (criteria : Option Nat) (where_ : Row Table → Bool)
    (row : Row Table) : Bool :=
  subjectTable subject = some row.table && where_ row &&
    match subject, criteria with
    | .entity table _, some tenantId =>
        !store.schema.isScoped table || row.columns.tenantId = some tenantId
    | _, _ => true

def execute (label : Label) (db : List (Row Table)) (write : Write Table Label) : Result Table :=
  match write with
  | .insert commands onConflict =>
      match commands.foldlM (insertCommand onConflict) { db := db } with
      | some s => settle store db s.inserted (some s.db)
      | none => settle store db [] none
  | .updateByKey table parameters =>
      -- The criterion of the guard is not put on the commands of such an UPDATE.
      match guardOrmExecute store.schema context
        (ormStatement ⟨.update, label, [.entity table false], []⟩) with
      | .error e => ⟨db, [], .refused e⟩
      | .ok _ =>
          settle store db [] (parameters.foldlM
            (fun db parameter => updateKeyed db (table, parameter.1) parameter.2) db)
  | .update subject parts where_ set_ =>
      match guardOrmExecute store.schema context (ormStatement ⟨.update, label, [subject], parts⟩)
      with
      | .error e => ⟨db, [], .refused e⟩
      | .ok state =>
          settle store db [] (some (db.map fun row =>
            if addressed store subject state.loaderCriteria (where_ db) row then
              { row with columns := set_ db row.columns } else row))
  | .delete subject parts where_ =>
      match guardOrmExecute store.schema context (ormStatement ⟨.delete, label, [subject], parts⟩)
      with
      | .error e => ⟨db, [], .refused e⟩
      | .ok state =>
          settle store db [] (some (deleteRows store.schema store.tenants db
            ((db.filter (addressed store subject state.loaderCriteria (where_ db))).map Row.key)))

def perform (db : List (Row Table)) : Step Table Label → Result Table
  | .flush work => flush store context db work
  | .execute label write => execute store context label db write

end Perform

/-! ### Confinement -/

/-- A row of a scoped table that is not the tenant's. -/
def Foreign (store : Store Table) (tenantId : Nat) (row : Row Table) : Prop :=
  store.schema.isScoped row.table = true ∧ row.columns.tenantId ≠ some tenantId

instance (store : Store Table) (tenantId : Nat) (row : Row Table) :
    Decidable (Foreign store tenantId row) := inferInstanceAs (Decidable (_ ∧ _))

/-- Foreign rows are as before, inserted rows are the tenant's, and a refused
step has changed nothing. -/
structure Confined (store : Store Table) (tenantId : Nat) (db : List (Row Table))
    (result : Result Table) : Prop where
  unchanged : ∀ row ∈ db, Foreign store tenantId row → row ∈ result.db
  stamped : ∀ row ∈ result.inserted, store.schema.isScoped row.table = true →
    row.columns.tenantId = some tenantId
  refused : ∀ e, result.outcome = .refused e → result.db = db

/-- No foreign row hangs below a row of the tenant, and no tenant but this one
is deleted while it has rows. -/
def CascadesStayInside (store : Store Table) (tenantId : Nat) (db : List (Row Table))
    (keys : List (Table × Nat)) : Prop :=
  keys ≠ [] → ∀ row ∈ db, Foreign store tenantId row →
    (∀ parent ∈ row.columns.references,
      (∃ q ∈ db, q.key = parent) ∧ ∀ q ∈ db, q.key = parent → Foreign store tenantId q) ∧
    ∀ owner ∈ row.columns.tenantId, (store.tenants, owner) ∉ keys

instance (store : Store Table) (tenantId : Nat) (db : List (Row Table))
    (keys : List (Table × Nat)) : Decidable (CascadesStayInside store tenantId db keys) :=
  inferInstanceAs (Decidable (_ → _))

/-- The objects a flush updates or deletes have in memory the tenant their rows
have in the database. -/
def TenantsKept (store : Store Table) (db : List (Row Table)) (work : UnitOfWork Table) : Prop :=
  ∀ object ∈ work.dirty ++ work.deleted, store.schema.isScoped object.table = true →
    ∀ row ∈ db, row.key = object.key → row.columns.tenantId = object.current.tenantId

instance (store : Store Table) (db : List (Row Table)) (work : UnitOfWork Table) :
    Decidable (TenantsKept store db work) :=
  inferInstanceAs (Decidable (∀ object ∈ work.dirty ++ work.deleted, _))

/-- The keys a DELETE statement of the tenant addresses. -/
def deletedKeys (store : Store Table) (tenantId : Nat) (db : List (Row Table))
    (subject : Clause Table Label) (where_ : List (Row Table) → Row Table → Bool) :
    List (Table × Nat) :=
  (db.filter (addressed store subject (some tenantId) (where_ db))).map Row.key

/-- No row an INSERT gives meets a stored row of another tenant that its ON
CONFLICT clause would overwrite. -/
def UpsertsStayInside (store : Store Table) (tenantId : Nat) (db rows : List (Row Table)) :
    OnConflict Table → Prop
  | .doUpdate index set_ =>
      ∀ row ∈ rows, ∀ stored ∈ db, Foreign store tenantId stored →
        (OnConflict.doUpdate index set_).inTheWay row stored = false
  | _ => True

instance (store : Store Table) (tenantId : Nat) (db rows : List (Row Table))
    (onConflict : OnConflict Table) :
    Decidable (UpsertsStayInside store tenantId db rows onConflict) := by
  unfold UpsertsStayInside
  split <;> infer_instance

/-- The side condition on a step under the tenant. -/
def staysInside (store : Store Table) (tenantId : Nat) (db : List (Row Table)) :
    Step Table Label → Prop
  | .flush work =>
      TenantsKept store db work ∧
        CascadesStayInside store tenantId db (work.deleted.map Mapped.key)
  | .execute _ (.insert commands onConflict) =>
      (∀ row ∈ commands.flatten, store.schema.isScoped row.table = true →
        row.columns.tenantId = some tenantId) ∧
      UpsertsStayInside store tenantId db commands.flatten onConflict
  | .execute _ (.updateByKey table parameters) =>
      ∀ row ∈ db, Foreign store tenantId row →
        ∀ parameter ∈ parameters, (table, parameter.1) ≠ row.key
  | .execute _ (.update ..) => True
  | .execute _ (.delete subject _ where_) =>
      CascadesStayInside store tenantId db (deletedKeys store tenantId db subject where_)

instance (store : Store Table) (tenantId : Nat) (db : List (Row Table))
    (step : Step Table Label) : Decidable (staysInside store tenantId db step) := by
  unfold staysInside
  split <;> infer_instance

variable {store : Store Table} {ctx : TenantContext} {db db' : List (Row Table)}

omit [DecidableEq Table] in
theorem stampNew_eq_ok {schema : Schema Table} {object row : Row Table}
    (h : stampNew schema ctx object = .ok row) (hscoped : schema.isScoped row.table = true) :
    row.columns.tenantId = some ctx.tenantId := by
  unfold stampNew at h
  split at h
  · split at h
    · cases h
      rfl
    · rename_i tenantId htenant
      split at h
      · cases h
      · rename_i hsame
        cases h
        rw [htenant, not_not.mp hsame]
  · rename_i hunscoped
    cases h
    exact absurd hscoped hunscoped

theorem mem_mapM_eq_ok {α β ε : Type} {f : α → Except ε β} {xs : List α} {ys : List β}
    (h : xs.mapM f = .ok ys) {y : β} (hy : y ∈ ys) : ∃ x ∈ xs, f x = .ok y := by
  induction xs generalizing ys with
  | nil =>
      cases h
      cases hy
  | cons x xs ih =>
      rw [List.mapM_cons] at h
      cases hx : f x with
      | error e => rw [hx] at h; cases h
      | ok z =>
          rw [hx] at h
          cases hrest : xs.mapM f with
          | error e => rw [hrest] at h; cases h
          | ok zs =>
              rw [hrest] at h
              cases h
              rcases List.mem_cons.mp hy with rfl | hy
              · exact ⟨x, List.mem_cons_self, hx⟩
              · obtain ⟨x', hx', hfx'⟩ := ih hrest hy
                exact ⟨x', List.mem_cons_of_mem _ hx', hfx'⟩

theorem forM_eq_ok {α ε : Type} {f : α → Except ε Unit} {xs : List α} {u : PUnit}
    (h : forM xs f = .ok u) {x : α} (hx : x ∈ xs) : f x = .ok () := by
  induction xs with
  | nil => cases hx
  | cons y xs ih =>
      rw [List.forM_cons] at h
      cases hy : f y with
      | error e => rw [hy] at h; cases h
      | ok v =>
          rw [hy] at h
          rcases List.mem_cons.mp hx with rfl | hx
          · exact hy
          · exact ih h hx

omit [DecidableEq Table] in
theorem guardFlush_eq_ok {schema : Schema Table} {work : UnitOfWork Table}
    {new : List (Row Table)} (h : guardFlush schema (some ctx) work = .ok new) :
    (∀ row ∈ new, schema.isScoped row.table = true →
      row.columns.tenantId = some ctx.tenantId) ∧
    ∀ object ∈ work.dirty ++ work.deleted, schema.isScoped object.table = true →
      object.current.tenantId = some ctx.tenantId := by
  unfold guardFlush at h
  split at h
  · cases hnew : work.new.mapM (stampNew schema ctx) with
    | error e => simp [currentTenant, hnew, bind, Except.bind] at h
    | ok new' =>
        cases htouched : forM (work.dirty ++ work.deleted) (checkTouched schema ctx) with
        | error e => simp [currentTenant, hnew, htouched, bind, Except.bind] at h
        | ok u =>
            have heq : new' = new := by
              simpa [currentTenant, hnew, htouched, bind, Except.bind, pure, Except.pure] using h
            subst heq
            refine ⟨?_, ?_⟩
            · intro row hrow hscoped
              obtain ⟨object, -, hstamp⟩ := mem_mapM_eq_ok hnew hrow
              exact stampNew_eq_ok hstamp hscoped
            · intro object hobject hscoped
              have hcheck := forM_eq_ok htouched hobject
              unfold checkTouched at hcheck
              split at hcheck
              · cases hcheck
              · rename_i hsame
                by_contra hother
                exact hsame ⟨hscoped, hother⟩
  · rename_i hnone
    cases h
    simp only [Bool.or_eq_true, List.any_eq_true, not_or, not_exists, not_and] at hnone
    exact ⟨fun row hrow hscoped => absurd hscoped (hnone.1 row hrow),
      fun object hobject hscoped => absurd hscoped (hnone.2 object hobject)⟩

theorem foldlM_keeps {α β : Type} {f : β → α → Option β} {P : β → Prop} {xs : List α}
    (hstep : ∀ {b x b'}, x ∈ xs → P b → f b x = some b' → P b') {b b' : β}
    (h : xs.foldlM f b = some b') (hb : P b) : P b' := by
  induction xs generalizing b with
  | nil =>
      cases h
      exact hb
  | cons x rest ih =>
      rw [List.foldlM_cons] at h
      obtain ⟨b₁, hfirst, hrest⟩ := Option.bind_eq_some_iff.mp h
      exact ih (fun hx => hstep (List.mem_cons_of_mem _ hx)) hrest
        (hstep List.mem_cons_self hb hfirst)

theorem mem_foldlM_insertRow {new : List (Row Table)}
    (h : new.foldlM insertRow db = some db') :
    (∀ row ∈ db, row ∈ db') ∧
      ∀ row ∈ db', row ∈ db ∨ ∀ old ∈ db, old.key ≠ row.key := by
  induction new generalizing db with
  | nil =>
      cases h
      exact ⟨fun _ hrow => hrow, fun _ hrow => .inl hrow⟩
  | cons x rest ih =>
      rw [List.foldlM_cons] at h
      obtain ⟨db₁, hinsert, hrest⟩ := Option.bind_eq_some_iff.mp h
      unfold insertRow at hinsert
      split at hinsert
      · cases hinsert
      · rename_i hfree
        cases hinsert
        obtain ⟨hkeep, hback⟩ := ih hrest
        refine ⟨fun row hrow => hkeep row (List.mem_append_left _ hrow), ?_⟩
        intro row hrow
        rcases hback row hrow with hmem | hfresh
        · rcases List.mem_append.mp hmem with hold | hnew
          · exact .inl hold
          · rw [List.mem_singleton.mp hnew]
            refine .inr fun old hold hkey => hfree ?_
            exact List.any_eq_true.mpr ⟨old, hold, by simpa using hkey⟩
        · exact .inr fun old hold => hfresh old (List.mem_append_left _ hold)

theorem nodup_foldlM_insertRow {new : List (Row Table)}
    (h : new.foldlM insertRow db = some db') (hnodup : (db.map Row.key).Nodup) :
    (db'.map Row.key).Nodup := by
  induction new generalizing db with
  | nil =>
      cases h
      exact hnodup
  | cons x rest ih =>
      rw [List.foldlM_cons] at h
      obtain ⟨db₁, hinsert, hrest⟩ := Option.bind_eq_some_iff.mp h
      unfold insertRow at hinsert
      split at hinsert
      · cases hinsert
      · rename_i hfree
        cases hinsert
        refine ih hrest (nodup_map_snoc hnodup fun hmem => ?_)
        obtain ⟨old, hold, hkey⟩ := List.mem_map.mp hmem
        exact hfree (List.any_eq_true.mpr ⟨old, hold, by simpa using hkey⟩)

omit [DecidableEq Table] in
/-- The step from `db` to `db'` has touched no row but that of the key. -/
structure TouchesOnly (key : Table × Nat) (db db' : List (Row Table)) : Prop where
  kept : ∀ row ∈ db, key ≠ row.key → row ∈ db'
  back : ∀ row ∈ db', row ∈ db ∨ key = row.key
  keys : db'.map Row.key = db.map Row.key

theorem touchesOnly_setColumns (key : Table × Nat) (set_ : Columns Table → Columns Table) :
    TouchesOnly key db (setColumns db key set_) where
  kept row hrow hkey := List.mem_map.mpr ⟨row, hrow, if_neg fun heq => hkey heq.symm⟩
  back row hrow := by
    obtain ⟨old, hold, rfl⟩ := List.mem_map.mp hrow
    by_cases hkey : old.key = key
    · rw [if_pos hkey]
      exact .inr hkey.symm
    · rw [if_neg hkey]
      exact .inl hold
  keys := by
    rw [setColumns, List.map_map]
    apply List.map_congr_left
    intro row _
    rw [Function.comp_apply]
    split <;> rfl

theorem touchesOnly_updateKeyed {key : Table × Nat} {set_ : Columns Table → Columns Table}
    (h : updateKeyed db key set_ = some db') : TouchesOnly key db db' := by
  unfold updateKeyed at h
  split at h
  · cases h
    exact touchesOnly_setColumns key set_
  · cases h

theorem touchesOnly_updateRow {object : Mapped Table} (h : updateRow db object = some db') :
    TouchesOnly object.key db db' := by
  unfold updateRow at h
  split at h
  · cases h
    exact ⟨fun _ hrow _ => hrow, fun _ hrow => .inl hrow, rfl⟩
  · exact touchesOnly_updateKeyed h

omit [DecidableEq Table] in
theorem touches_foldlM {α : Type} {update : List (Row Table) → α → Option (List (Row Table))}
    {key : α → Table × Nat}
    (hone : ∀ {db x db'}, update db x = some db' → TouchesOnly (key x) db db') {xs : List α}
    (h : xs.foldlM update db = some db') :
    (∀ row ∈ db, (∀ x ∈ xs, key x ≠ row.key) → row ∈ db') ∧
      (∀ row ∈ db', row ∈ db ∨ ∃ x ∈ xs, key x = row.key) ∧
      db'.map Row.key = db.map Row.key := by
  induction xs generalizing db with
  | nil =>
      cases h
      exact ⟨fun _ hrow _ => hrow, fun _ hrow => .inl hrow, rfl⟩
  | cons x rest ih =>
      rw [List.foldlM_cons] at h
      obtain ⟨db₁, hupdate, hrest⟩ := Option.bind_eq_some_iff.mp h
      obtain ⟨hkeep, hback, hkeys⟩ := ih hrest
      have hfirst := hone hupdate
      refine ⟨?_, ?_, hkeys.trans hfirst.keys⟩
      · intro row hrow hfree
        refine hkeep row (hfirst.kept row hrow (hfree x List.mem_cons_self)) ?_
        exact fun y hy => hfree y (List.mem_cons_of_mem _ hy)
      · intro row hrow
        rcases hback row hrow with hmem | ⟨y, hy, hkey⟩
        · rcases hfirst.back row hmem with hold | hkey
          · exact .inl hold
          · exact .inr ⟨x, List.mem_cons_self, hkey⟩
        · exact .inr ⟨y, List.mem_cons_of_mem _ hy, hkey⟩

/-- What holds while an INSERT runs: keys are unique, the foreign rows of `db`
are stored, and the rows inserted are among those given. -/
structure InsertsInside (store : Store Table) (tenantId : Nat) (db given : List (Row Table))
    (s : Inserting Table) : Prop where
  nodup : (s.db.map Row.key).Nodup
  unchanged : ∀ row ∈ db, Foreign store tenantId row → row ∈ s.db
  inserted : ∀ row ∈ s.inserted, row ∈ given

theorem insertsInside_insertOr {tenantId : Nat} {given : List (Row Table)}
    {onConflict : OnConflict Table} {s t : Inserting Table} {row : Row Table}
    (hs : InsertsInside store tenantId db given s)
    (hupserts : UpsertsStayInside store tenantId db given onConflict) (hrow : row ∈ given)
    (h : insertOr onConflict s row = some t) : InsertsInside store tenantId db given t := by
  unfold insertOr at h
  split at h
  · rename_i stored index set_ hstored
    split at h
    · cases h
    · cases h
      have htouches : TouchesOnly stored.key s.db _ :=
        touchesOnly_setColumns stored.key fun columns => set_ columns row.columns
      refine ⟨htouches.keys ▸ hs.nodup, fun q hq hforeign => ?_, hs.inserted⟩
      refine htouches.kept q (hs.unchanged q hq hforeign) fun hkey => ?_
      -- The row in the way would be the foreign row itself.
      have heq : stored = q := List.inj_on_of_nodup_map hs.nodup (List.mem_of_find?_eq_some hstored)
        (hs.unchanged q hq hforeign) hkey
      have hmet := List.find?_some hstored
      rw [heq, hupserts row hrow q hq hforeign] at hmet
      cases hmet
  · cases h
    exact hs
  · obtain ⟨db', hinsert, ht⟩ := Option.bind_eq_some_iff.mp h
    cases ht
    have hfold : [row].foldlM insertRow s.db = some db' := by simp [hinsert]
    refine ⟨nodup_foldlM_insertRow hfold hs.nodup, fun q hq hforeign => ?_, fun q hq => ?_⟩
    · exact (mem_foldlM_insertRow hfold).1 q (hs.unchanged q hq hforeign)
    · rcases List.mem_append.mp hq with hold | hnew
      · exact hs.inserted q hold
      · exact List.mem_singleton.mp hnew ▸ hrow

theorem insertsInside_insertCommand {tenantId : Nat} {given rows : List (Row Table)}
    {onConflict : OnConflict Table} {s t : Inserting Table}
    (hs : InsertsInside store tenantId db given s)
    (hupserts : UpsertsStayInside store tenantId db given onConflict)
    (hrows : ∀ row ∈ rows, row ∈ given) (h : insertCommand onConflict s rows = some t) :
    InsertsInside store tenantId db given t :=
  foldlM_keeps
    (fun hrow hs hinsert => insertsInside_insertOr hs hupserts (hrows _ hrow) hinsert)
    h ⟨hs.nodup, hs.unchanged, hs.inserted⟩

/-- Rows that are not deleted, and whose parents are such rows or tenants that
are not deleted, survive a cascade of any depth. -/
theorem not_doomed {schema : Schema Table} {tenants : Table} {keys : List (Table × Nat)}
    {P : Row Table → Prop} (hkeys : ∀ row, P row → row.key ∉ keys)
    (hparents : ∀ row, P row → ∀ parent ∈ db, parent.key ∈ parents schema tenants row →
      P parent ∨ parent.table = tenants ∧ parent.key ∉ keys)
    {row : Row Table} (hrow : P row) (depth : Nat) :
    doomed schema tenants db keys depth row = false := by
  induction depth generalizing row with
  | zero => simpa [doomed] using hkeys row hrow
  | succ depth ih =>
      rw [doomed, Bool.or_eq_false_iff]
      refine ⟨by simpa using hkeys row hrow, ?_⟩
      rw [List.any_eq_false]
      intro parent hparent
      rw [Bool.not_eq_true, Bool.and_eq_false_imp]
      intro hcontains
      rcases hparents row hrow parent hparent (by simpa using hcontains) with hsafe | ⟨htable, hkey⟩
      · exact ih hsafe
      · cases depth with
        | zero => simpa [doomed] using hkey
        | succ depth => simpa [doomed, parents, htable] using hkey

theorem mem_deleteRows {schema : Schema Table} {tenants : Table} {keys : List (Table × Nat)}
    {row : Row Table} (hrow : row ∈ db)
    (hsafe : keys ≠ [] → doomed schema tenants db keys db.length row = false) :
    row ∈ deleteRows schema tenants db keys := by
  unfold deleteRows
  split
  · exact hrow
  · rename_i hkeys
    have hkeep := hsafe (by simpa using hkeys)
    exact List.mem_filter.mpr ⟨hrow, by simp [hkeep]⟩

theorem nodup_deleteRows {schema : Schema Table} {tenants : Table} {keys : List (Table × Nat)}
    (hnodup : (db.map Row.key).Nodup) :
    ((deleteRows schema tenants db keys).map Row.key).Nodup := by
  unfold deleteRows
  split
  · exact hnodup
  · exact hnodup.sublist (List.filter_sublist.map _)

omit [DecidableEq Table] in
theorem confined_settle {tenantId : Nat} {inserted : List (Row Table)}
    {out : Option (List (Row Table))}
    (hunchanged : ∀ db', out = some db' → ∀ row ∈ db, Foreign store tenantId row → row ∈ db')
    (hstamped : ∀ row ∈ inserted, store.schema.isScoped row.table = true →
      row.columns.tenantId = some tenantId) :
    Confined store tenantId db (settle store db inserted out) := by
  unfold settle
  split
  · rename_i db'
    split
    · exact ⟨hunchanged db' rfl, hstamped, by simp⟩
    · exact ⟨fun _ hrow _ => hrow, by simp, by simp⟩
  · exact ⟨fun _ hrow _ => hrow, by simp, by simp⟩

omit [DecidableEq Table] in
theorem nodup_settle {inserted : List (Row Table)} {out : Option (List (Row Table))}
    (hnodup : (db.map Row.key).Nodup)
    (hout : ∀ db', out = some db' → (db'.map Row.key).Nodup) :
    ((settle store db inserted out).db.map Row.key).Nodup := by
  unfold settle
  split
  · split
    · exact hout _ rfl
    · exact hnodup
  · exact hnodup

omit [DecidableEq Table] in
theorem confined_refused (tenantId : Nat) (e : TenantContextError) :
    Confined store tenantId db ⟨db, [], .refused e⟩ :=
  ⟨fun _ hrow _ => hrow, by simp, by simp⟩

theorem parents_of_foreign {tenantId : Nat} {keys : List (Table × Nat)}
    (hcascade : CascadesStayInside store tenantId db keys) (hkeys : keys ≠ [])
    {row : Row Table} (hrow : row ∈ db) (hforeign : Foreign store tenantId row)
    {parent : Row Table} (hparent : parent.key ∈ parents store.schema store.tenants row)
    (hback : ∀ q ∈ db, Foreign store tenantId q → q.key = parent.key → parent = q) :
    (parent ∈ db ∧ Foreign store tenantId parent) ∨
      parent.table = store.tenants ∧ parent.key ∉ keys := by
  obtain ⟨hreferences, howner⟩ := hcascade hkeys row hrow hforeign
  unfold parents at hparent
  split at hparent
  · cases hparent
  · rw [if_pos hforeign.1] at hparent
    rcases List.mem_append.mp hparent with htenant | hreference
    · obtain ⟨owner, hmem, hkey⟩ := List.mem_map.mp htenant
      refine .inr ⟨(congrArg Prod.fst hkey).symm, ?_⟩
      rw [← hkey]
      exact howner owner (by simpa using hmem)
    · obtain ⟨⟨q, hq, hkey⟩, hall⟩ := hreferences _ hreference
      have heq := hback q hq (hall q hq hkey) hkey
      exact .inl ⟨heq ▸ hq, heq ▸ hall q hq hkey⟩

theorem confined_flush (hnodup : (db.map Row.key).Nodup) {work : UnitOfWork Table}
    (hkept : TenantsKept store db work)
    (hcascade : CascadesStayInside store ctx.tenantId db (work.deleted.map Mapped.key)) :
    Confined store ctx.tenantId db (flush store (some ctx) db work) ∧
      ((flush store (some ctx) db work).db.map Row.key).Nodup := by
  unfold flush
  split
  · exact ⟨confined_refused _ _, hnodup⟩
  rename_i new hguard
  obtain ⟨hstamped, htouched⟩ := guardFlush_eq_ok hguard
  -- No object of the unit of work addresses a foreign row.
  have haddressed : ∀ object ∈ work.dirty ++ work.deleted, ∀ row ∈ db,
      Foreign store ctx.tenantId row → object.key ≠ row.key := by
    intro object hobject row hrow hforeign hkey
    have htable : object.table = row.table := congrArg Prod.fst hkey
    have hscoped : store.schema.isScoped object.table = true := htable ▸ hforeign.1
    have hsame := hkept object hobject hscoped row hrow hkey.symm
    exact hforeign.2 (hsame.trans (htouched object hobject hscoped))
  refine ⟨confined_settle ?_ hstamped, nodup_settle hnodup ?_⟩
  · intro db' hdb' row hrow hforeign
    obtain ⟨db₁, hinsert, hrest⟩ := Option.bind_eq_some_iff.mp hdb'
    obtain ⟨db₂, hupdate, hdelete⟩ := Option.bind_eq_some_iff.mp hrest
    cases hdelete
    obtain ⟨hkeep₁, hback₁⟩ := mem_foldlM_insertRow hinsert
    obtain ⟨hkeep₂, hback₂, -⟩ := touches_foldlM touchesOnly_updateRow hupdate
    have hsurvives : ∀ q ∈ db, Foreign store ctx.tenantId q → q ∈ db₂ := by
      intro q hq hqforeign
      refine hkeep₂ q (hkeep₁ q hq) fun object hobject => ?_
      exact haddressed object (List.mem_append_left _ hobject) q hq hqforeign
    -- What is stored under the key of a foreign row after the UPDATEs is that row.
    have hsame : ∀ parent ∈ db₂, ∀ q ∈ db, Foreign store ctx.tenantId q → q.key = parent.key →
        parent = q := by
      intro parent hparent q hq hqforeign hkey
      rcases hback₂ parent hparent with hmem | ⟨object, hobject, hokey⟩
      · rcases hback₁ parent hmem with hold | hfresh
        · exact List.inj_on_of_nodup_map hnodup hold hq hkey.symm
        · exact absurd hkey (hfresh q hq)
      · exact absurd (hokey.trans hkey.symm)
          (haddressed object (List.mem_append_left _ hobject) q hq hqforeign)
    refine mem_deleteRows (hsurvives row hrow hforeign) fun hkeys => ?_
    refine not_doomed (P := fun q => q ∈ db ∧ Foreign store ctx.tenantId q) ?_ ?_
      ⟨hrow, hforeign⟩ _
    · rintro q ⟨hq, hqforeign⟩ hmem
      obtain ⟨object, hobject, hkey⟩ := List.mem_map.mp hmem
      exact haddressed object (List.mem_append_right _ hobject) q hq hqforeign hkey
    · rintro q ⟨hq, hqforeign⟩ parent hparent hkey
      exact parents_of_foreign hcascade hkeys hq hqforeign hkey (hsame parent hparent)
  · intro db' hdb'
    obtain ⟨db₁, hinsert, hrest⟩ := Option.bind_eq_some_iff.mp hdb'
    obtain ⟨db₂, hupdate, hdelete⟩ := Option.bind_eq_some_iff.mp hrest
    cases hdelete
    obtain ⟨-, -, hkeys⟩ := touches_foldlM touchesOnly_updateRow hupdate
    refine nodup_deleteRows ?_
    rw [hkeys]
    exact nodup_foldlM_insertRow hinsert hnodup

omit [DecidableEq Table] in
/-- An UPDATE or a DELETE that passes the guard is about an unscoped table, or
about a mapped class with the criterion of the tenant. -/
theorem subject_of_guard {label : Label} {kind : StatementKind} (hkind : kind ≠ .insert)
    {subject : Clause Table Label} {parts : List (Clause Table Label)}
    {state : ORMExecuteState Table Label}
    (hguard : guardOrmExecute store.schema (some ctx)
      (ormStatement ⟨kind, label, [subject], parts⟩) = .ok state) :
    (∃ table aliased, subject = .entity table aliased ∧
      state.loaderCriteria = some ctx.tenantId) ∨
    ∀ table, subjectTable subject = some table → store.schema.isScoped table = false := by
  rcases guard_cases hkind hguard with ⟨htouches, ctx', hctx, rfl⟩ | ⟨-, hnone⟩
  · cases hctx
    cases subject with
    | entity table aliased => exact .inl ⟨table, aliased, rfl, rfl⟩
    | core table => simp [touchesScopedMapper, ormStatement, Statement.allMappers,
        Clause.mapper] at htouches
    | combine label left right => exact .inr (by simp [subjectTable])
    | select label body => exact .inr (by simp [subjectTable])
  · refine .inr fun table htable => hnone table ?_
    cases subject <;> simp [subjectTable] at htable
    all_goals simp [Statement.findTables, Statement.clauses, Clause.tables, htable]

theorem addressed_of_guard {label : Label} {kind : StatementKind} (hkind : kind ≠ .insert)
    {subject : Clause Table Label} {parts : List (Clause Table Label)}
    {state : ORMExecuteState Table Label}
    (hguard : guardOrmExecute store.schema (some ctx)
      (ormStatement ⟨kind, label, [subject], parts⟩) = .ok state)
    (where_ : Row Table → Bool) (row : Row Table) :
    addressed store subject state.loaderCriteria where_ row =
        addressed store subject (some ctx.tenantId) where_ row ∧
      (Foreign store ctx.tenantId row →
        addressed store subject state.loaderCriteria where_ row = false) := by
  rcases subject_of_guard hkind hguard with ⟨table, aliased, rfl, hcriteria⟩ | hunscoped
  · rw [hcriteria]
    refine ⟨rfl, ?_⟩
    rintro ⟨hscoped, hother⟩
    by_cases htable : table = row.table
    · subst htable
      simp [addressed, hscoped, hother]
    · simp [addressed, subjectTable, htable]
  · by_cases htable : subjectTable subject = some row.table
    · have hscoped := hunscoped row.table htable
      refine ⟨?_, fun hforeign => ?_⟩
      · cases subject with
        | entity table aliased =>
            have : table = row.table := by simpa [subjectTable] using htable
            subst this
            cases state.loaderCriteria <;> simp [addressed, hscoped]
        | _ => cases state.loaderCriteria <;> rfl
      · rw [hforeign.1] at hscoped
        cases hscoped
    · simp [addressed, htable]

theorem confined_execute (hnodup : (db.map Row.key).Nodup) {label : Label}
    {write : Write Table Label}
    (hinside : staysInside store ctx.tenantId db (.execute label write)) :
    Confined store ctx.tenantId db (execute store (some ctx) label db write) ∧
      ((execute store (some ctx) label db write).db.map Row.key).Nodup := by
  cases write with
  | insert commands onConflict =>
      obtain ⟨hstamped, hupserts⟩ := hinside
      simp only [execute]
      split
      · rename_i s hs
        have hends : InsertsInside store ctx.tenantId db commands.flatten s :=
          foldlM_keeps
            (fun hrows hinserts hcommand => insertsInside_insertCommand hinserts hupserts
              (fun row hrow => List.mem_flatten.mpr ⟨_, hrows, hrow⟩) hcommand)
            hs ⟨hnodup, fun _ hrow _ => hrow, by simp⟩
        refine ⟨confined_settle ?_ fun row hrow => hstamped row (hends.inserted row hrow),
          nodup_settle hnodup ?_⟩
        · rintro db' ⟨⟩
          exact hends.unchanged
        · rintro db' ⟨⟩
          exact hends.nodup
      · exact ⟨confined_settle (by simp) (by simp), nodup_settle hnodup (by simp)⟩
  | updateByKey table parameters =>
      simp only [execute]
      split
      · exact ⟨confined_refused _ _, hnodup⟩
      · refine ⟨confined_settle ?_ (by simp), nodup_settle hnodup ?_⟩
        · intro db' hdb' row hrow hforeign
          obtain ⟨hkeep, -, -⟩ := touches_foldlM touchesOnly_updateKeyed hdb'
          exact hkeep row hrow (hinside row hrow hforeign)
        · intro db' hdb'
          obtain ⟨-, -, hkeys⟩ := touches_foldlM touchesOnly_updateKeyed hdb'
          exact hkeys ▸ hnodup
  | update subject parts where_ set_ =>
      simp only [execute]
      split
      · exact ⟨confined_refused _ _, hnodup⟩
      · rename_i state hguard
        have haddressed := addressed_of_guard (by decide) hguard (where_ db)
        refine ⟨confined_settle ?_ (by simp), nodup_settle hnodup ?_⟩
        · rintro db' ⟨⟩ row hrow hforeign
          exact List.mem_map.mpr ⟨row, hrow, by simp [(haddressed row).2 hforeign]⟩
        · rintro db' ⟨⟩
          have hkeys : (db.map fun row =>
              if addressed store subject state.loaderCriteria (where_ db) row then
                { row with columns := set_ db row.columns } else row).map Row.key =
              db.map Row.key := by
            rw [List.map_map]
            apply List.map_congr_left
            intro row _
            rw [Function.comp_apply]
            split <;> rfl
          rw [hkeys]
          exact hnodup
  | delete subject parts where_ =>
      simp only [execute]
      split
      · exact ⟨confined_refused _ _, hnodup⟩
      · rename_i state hguard
        have haddressed := addressed_of_guard (by decide) hguard (where_ db)
        have hkeys : (db.filter (addressed store subject state.loaderCriteria (where_ db))).map
            Row.key = deletedKeys store ctx.tenantId db subject where_ := by
          have hfilter : addressed store subject state.loaderCriteria (where_ db) =
              addressed store subject (some ctx.tenantId) (where_ db) :=
            funext fun row => (haddressed row).1
          rw [hfilter, deletedKeys]
        refine ⟨confined_settle ?_ (by simp), nodup_settle hnodup ?_⟩
        · rintro db' ⟨⟩ row hrow hforeign
          rw [hkeys]
          refine mem_deleteRows hrow fun hne => ?_
          refine not_doomed (P := fun q => q ∈ db ∧ Foreign store ctx.tenantId q) ?_ ?_
            ⟨hrow, hforeign⟩ _
          · rintro q ⟨hq, hqforeign⟩ hmem
            rw [← hkeys] at hmem
            obtain ⟨r, hr, hkey⟩ := List.mem_map.mp hmem
            obtain ⟨hrmem, hraddressed⟩ := List.mem_filter.mp hr
            have heq : r = q := List.inj_on_of_nodup_map hnodup hrmem hq hkey
            rw [heq, (haddressed q).2 hqforeign] at hraddressed
            cases hraddressed
          · rintro q ⟨hq, hqforeign⟩ parent hparent hkey
            refine parents_of_foreign hinside hne hq hqforeign hkey ?_
            intro r hr _ hrkey
            exact List.inj_on_of_nodup_map hnodup hparent hr hrkey.symm
        · rintro db' ⟨⟩
          exact nodup_deleteRows hnodup

theorem confined_perform (hnodup : (db.map Row.key).Nodup) {step : Step Table Label}
    (hinside : staysInside store ctx.tenantId db step) :
    Confined store ctx.tenantId db (perform store (some ctx) db step) ∧
      ((perform store (some ctx) db step).db.map Row.key).Nodup := by
  cases step with
  | flush work => exact confined_flush hnodup hinside.1 hinside.2
  | execute label write => exact confined_execute hnodup hinside

/-- The stored rows after a step, for runs. -/
def next (store : Store Table) (ctx : TenantContext) (db : List (Row Table))
    (step : Step Table Label) : Option (List (Row Table)) :=
  some (perform store (some ctx) db step).db

/-- Primary keys are unique, and the foreign rows of `start` are there. -/
def Keeps (store : Store Table) (tenantId : Nat) (start db : List (Row Table)) : Prop :=
  (db.map Row.key).Nodup ∧ ∀ row ∈ start, Foreign store tenantId row → row ∈ db

/-- In a run under the tenant whose steps all stay inside, every step is
confined, and every foreign row is at the end as it was at the beginning. -/
theorem writes_confined_when_inside (store : Store Table) (ctx : TenantContext)
    (db dbn : List (Row Table)) (steps : List (Step Table Label))
    (hkeys : (db.map Row.key).Nodup)
    (hinside : Along (next store ctx) (staysInside store ctx.tenantId) db steps)
    (hrun : run (next store ctx) db steps = some dbn) :
    (∀ before step after between, steps = before ++ step :: after →
      run (next store ctx) db before = some between →
      Confined store ctx.tenantId between (perform store (some ctx) between step)) ∧
    ∀ row ∈ db, Foreign store ctx.tenantId row → row ∈ dbn := by
  have hstep : ∀ s (step : Step Table Label) t, Keeps store ctx.tenantId db s →
      staysInside store ctx.tenantId s step → next store ctx s step = some t →
      Keeps store ctx.tenantId db t := by
    rintro s step t ⟨hnodup, hkept⟩ hstays ⟨⟩
    obtain ⟨hconfined, hnodup'⟩ := confined_perform hnodup hstays
    refine ⟨hnodup', fun row hrow hforeign => ?_⟩
    exact hconfined.unchanged row (hkept row hrow hforeign) hforeign
  have hinit : Keeps store ctx.tenantId db db := ⟨hkeys, fun _ hrow _ => hrow⟩
  refine ⟨?_, (run_invariant hstep hinit hinside hrun).2⟩
  rintro before step after between rfl hbefore
  obtain ⟨halong, hafter⟩ := (along_append hbefore).mp hinside
  have hbetween := run_invariant hstep hinit halong hbefore
  exact (confined_perform hbetween.1 hafter.1).1

def socle : Store SocleTable := ⟨socleSchema, .tenants, fun _ => true⟩

def tenantRow (id : Nat) : Row SocleTable := ⟨.tenants, id, { tenantId := none }⟩

def teamRow (id tenantId : Nat) (name : String) : Row SocleTable :=
  ⟨.teams, id, { tenantId := some tenantId, values := [("name", name)] }⟩

/-- Two tenants with a team each. -/
def twoTeams : List (Row SocleTable) :=
  [tenantRow 1, tenantRow 2, teamRow 10 1 "equipe-a", teamRow 20 2 "equipe-b"]

/-- A team object loaded with its tenant, then given another tenant and name. -/
def renamed (id loaded current : Nat) (name : String) : Mapped SocleTable :=
  ⟨.teams, id, (teamRow id loaded "equipe").columns, (teamRow id current name).columns⟩

def acmeContext : TenantContext := ⟨1, "acme", none⟩

def named (name : String) (columns : Columns SocleTable) : Columns SocleTable :=
  { columns with values := [("name", name)] }

/-- Under tenant 1: an object loaded under tenant 2 and reassigned to tenant 1
passes the guard, and its row is overwritten; an INSERT statement stores a row
of tenant 2; an upsert on the primary key and an UPDATE by primary key rename
the row of tenant 2. -/
theorem reassigned_object_overwrites_foreign_row :
    teamRow 20 2 "equipe-b" ∈ twoTeams ∧ Foreign socle 1 (teamRow 20 2 "equipe-b") ∧
      flush socle (some acmeContext) twoTeams ⟨[], [renamed 20 2 1 "volée"], []⟩ =
        ⟨[tenantRow 1, tenantRow 2, teamRow 10 1 "equipe-a", teamRow 20 1 "volée"], [], .done⟩ ∧
      execute socle (some acmeContext) () twoTeams (.insert [[teamRow 30 2 "intruse"]] .error) =
        ⟨twoTeams ++ [teamRow 30 2 "intruse"], [teamRow 30 2 "intruse"], .done⟩ ∧
      execute socle (some acmeContext) () twoTeams (.insert [[teamRow 20 1 "volée"]]
          (.doUpdate (fun stored row => stored.id = row.id) fun columns _ => named "volée" columns)) =
        ⟨[tenantRow 1, tenantRow 2, teamRow 10 1 "equipe-a", teamRow 20 2 "volée"], [], .done⟩ ∧
      execute socle (some acmeContext) () twoTeams (.updateByKey .teams [(20, named "volée")]) =
        ⟨[tenantRow 1, tenantRow 2, teamRow 10 1 "equipe-a", teamRow 20 2 "volée"], [], .done⟩ := by
  decide +kernel

/-- Under tenant 1: a new team, a team renamed by a flush, by an upsert and by
primary key, then every team deleted. -/
def ownWrites : List (Step SocleTable Unit) :=
  [.flush ⟨[⟨.teams, 30, { tenantId := none, values := [("name", "neuve")] }⟩],
      [renamed 10 1 1 "equipe-c"], []⟩,
    .execute () (.insert [[teamRow 10 1 "equipe-d", teamRow 40 1 "autre"]]
      (.doUpdate (fun stored row => stored.id = row.id) fun _ excluded => excluded)),
    .execute () (.updateByKey .teams [(40, named "equipe-e")]),
    .execute () (.delete (.entity .teams false) [] fun _ _ => true)]

theorem writes_confined_when_inside_own : ∃ dbn,
    run (next socle acmeContext) twoTeams ownWrites = some dbn ∧
      teamRow 20 2 "equipe-b" ∈ dbn := by
  refine ⟨_, rfl, ?_⟩
  have hends := writes_confined_when_inside socle acmeContext twoTeams _ ownWrites
    (by decide) (by decide +kernel) rfl
  exact hends.2 _ (by decide) (by decide)

end Socle.WriteConfinement
