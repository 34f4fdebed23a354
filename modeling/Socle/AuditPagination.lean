import Mathlib.Data.Prod.Lex
import Socle.DirectoryStore
import Socle.KeysetPages
import Socle.TokenExchange

/-!
The route that lists the audit events of a tenant, page by page under a textual
cursor, and what a reader gets who follows it while events come in.
-/

namespace Socle.AuditPagination

open Socle.DirectoryStore (Instant)
open Socle.TokenExchange (PyStr)
open Socle.KeysetPages

/-- `AuditEventOut`. -/
structure AuditEventOut where
  id : Nat
  occurredAt : Instant
  actorUserId : Option Nat
  actorLabel : String
  action : String
  resourceType : String
  resourceId : String
  payload : List (String × String)
  deriving DecidableEq

/-- A row of `audit_events`. -/
structure AuditEvent extends AuditEventOut where
  tenantId : Nat
  deriving DecidableEq

/-- The filters of the query. -/
structure Filters where
  action : Option String := none
  actorUserId : Option Nat := none
  occurredFrom : Option Instant := none
  occurredTo : Option Instant := none

structure AuditEventPage where
  items : List AuditEventOut
  nextCursor : Option PyStr
  deriving DecidableEq

/-- An `HTTPException`. -/
structure Refusal where
  status : Nat
  detail : String
  deriving DecidableEq

/-- The texts a cursor is made of: `datetime.isoformat` and `fromisoformat`,
`str` and `uuid.UUID` of an identifier, and the URL-safe base64 of a text.  Where
a reading gives `none` it raises a `ValueError`. -/
structure CursorText where
  isoformat : Instant → PyStr
  fromisoformat : PyStr → Option Instant
  uuidText : Nat → PyStr
  parseUuid : PyStr → Option Nat
  b64encode : PyStr → PyStr
  b64decode : PyStr → Option PyStr
  isoformat_ascii : ∀ t, ∀ c ∈ isoformat t, c < 128
  uuidText_ascii : ∀ id, ∀ c ∈ uuidText id, c < 128
  uuidText_bar : ∀ id, 124 ∉ uuidText id
  fromisoformat_isoformat : ∀ t, fromisoformat (isoformat t) = some t
  parseUuid_uuidText : ∀ id, parseUuid (uuidText id) = some id
  b64decode_b64encode : ∀ raw, (∀ c ∈ raw, c < 128) → b64decode (b64encode raw) = some raw

/-! ### `app.audit.router` -/

/-- `raw.rsplit("|", 1)`, when it gives two parts. -/
def rsplitBar (raw : PyStr) : Option (PyStr × PyStr) :=
  let tail := (raw.reverse.takeWhile fun c => c != 124).reverse
  if tail.length < raw.length then some (raw.take (raw.length - tail.length - 1), tail) else none

def encodeCursor (text : CursorText) (occurredAt : Instant) (eventId : Nat) : PyStr :=
  text.b64encode (text.isoformat occurredAt ++ 124 :: text.uuidText eventId)

def readCursor (text : CursorText) (cursor : PyStr) : Option (Instant × Nat) := do
  let raw ← text.b64decode cursor
  let (occurredAtRaw, idRaw) ← rsplitBar raw
  let occurredAt ← text.fromisoformat occurredAtRaw
  let id ← text.parseUuid idRaw
  return (occurredAt, id)

def decodeCursor (text : CursorText) (cursor : PyStr) : Except Refusal (Instant × Nat) :=
  match readCursor text cursor with
  | some position => .ok position
  | none => .error ⟨400, "Curseur de pagination invalide"⟩

/-- The comparison with the cursor. -/
def AuditEvent.before (e : AuditEvent) (position : Instant × Nat) : Bool :=
  decide (e.occurredAt < position.1) || (e.occurredAt == position.1 && decide (e.id < position.2))

/-- `ORDER BY occurred_at DESC, id DESC`. -/
def AuditEvent.first (a b : AuditEvent) : Bool :=
  decide (b.occurredAt < a.occurredAt) || (b.occurredAt == a.occurredAt && decide (b.id ≤ a.id))

def Filters.accepts (filters : Filters) (e : AuditEvent) : Bool :=
  filters.action.all (fun action => e.action == action) &&
    filters.actorUserId.all (fun userId => e.actorUserId == some userId) &&
    filters.occurredFrom.all (fun t => decide (t ≤ e.occurredAt)) &&
    filters.occurredTo.all fun t => decide (e.occurredAt ≤ t)

def positionOf (text : CursorText) : Option PyStr → Except Refusal (Option (Instant × Nat))
  | none => .ok none
  | some cursor => (decodeCursor text cursor).map some

/-- `audit_events_list`, behind its permission check, on the rows of all tenants. -/
def auditEventsList (text : CursorText) (tenantId limit : Nat) (cursor : Option PyStr)
    (filters : Filters) (table : List AuditEvent) : Except Refusal AuditEventPage := do
  let position ← positionOf text cursor
  let selected := table.filter fun e =>
    e.tenantId == tenantId && position.all e.before && filters.accepts e
  let rows := (selected.mergeSort AuditEvent.first).take (limit + 1)
  let hasMore := decide (limit < rows.length)
  let rows := rows.take limit
  let nextCursor := if hasMore then
      rows.getLast?.map fun row => encodeCursor text row.occurredAt row.id else none
  return ⟨rows.map (·.toAuditEventOut), nextCursor⟩

/-- All that a reader has after the requests up to the `n`-th: each one sends the
cursor of the one before, until there is none.  The `n`-th one finds the table
`tables n`. -/
def readEvents (text : CursorText) (tenantId limit : Nat) (filters : Filters)
    (tables : Nat → List AuditEvent) : Nat → Except Refusal AuditEventPage
  | 0 => auditEventsList text tenantId limit none filters (tables 0)
  | n + 1 => do
      let before ← readEvents text tenantId limit filters tables n
      match before.nextCursor with
      | none => return before
      | some cursor => do
          let page ← auditEventsList text tenantId limit (some cursor) filters (tables (n + 1))
          return ⟨before.items ++ page.items, page.nextCursor⟩

/-- The position of an event in the order of the pages. -/
def AuditEvent.position (e : AuditEvent) : Int ×ₗ Nat := toLex (e.occurredAt, e.id)

/-- The events of the tenant that the filters let through. -/
def matching (tenantId : Nat) (filters : Filters) (table : List AuditEvent) : List AuditEvent :=
  table.filter fun e => e.tenantId == tenantId && filters.accepts e

def cursorAt (text : CursorText) (position : Int ×ₗ Nat) : PyStr :=
  encodeCursor text (ofLex position).1 (ofLex position).2

section Cursor

variable {text : CursorText}

theorem rsplitBar_append {front tail : PyStr} (htail : 124 ∉ tail) :
    rsplitBar (front ++ 124 :: tail) = some (front, tail) := by
  have hwhile : ((front ++ 124 :: tail).reverse.takeWhile fun c => c != 124) = tail.reverse := by
    rw [List.reverse_append, List.reverse_cons, List.append_assoc,
      List.takeWhile_append_of_pos, List.singleton_append, List.takeWhile_cons_of_neg,
      List.append_nil]
    · simp
    · intro c hc
      have hne : c ≠ 124 := fun h => htail (h ▸ List.mem_reverse.mp hc)
      simpa using hne
  unfold rsplitBar
  simp only [hwhile, List.reverse_reverse, List.length_append, List.length_cons]
  rw [if_pos (by omega)]
  have hlength : front.length + (tail.length + 1) - tail.length - 1 = front.length := by omega
  rw [hlength, List.take_left]

theorem decodeCursor_encodeCursor (occurredAt : Instant) (eventId : Nat) :
    decodeCursor text (encodeCursor text occurredAt eventId) = .ok (occurredAt, eventId) := by
  have hascii : ∀ c ∈ text.isoformat occurredAt ++ 124 :: text.uuidText eventId, c < 128 := by
    intro c hc
    rcases List.mem_append.mp hc with hiso | hrest
    · exact text.isoformat_ascii occurredAt c hiso
    · rcases List.mem_cons.mp hrest with rfl | huuid
      · decide
      · exact text.uuidText_ascii eventId c huuid
  have hread : readCursor text (encodeCursor text occurredAt eventId) =
      some (occurredAt, eventId) := by
    simp only [readCursor, encodeCursor, text.b64decode_b64encode _ hascii, Option.bind_eq_bind,
      Option.bind_some, rsplitBar_append (text.uuidText_bar eventId),
      text.fromisoformat_isoformat, text.parseUuid_uuidText]
    rfl
  rw [decodeCursor, hread]

theorem positionOf_cursorAt (position : Option (Int ×ₗ Nat)) :
    positionOf text (position.map (cursorAt text)) = .ok (position.map fun p => ofLex p) := by
  cases position with
  | none => rfl
  | some p => simp [positionOf, cursorAt, decodeCursor_encodeCursor, Except.map]

end Cursor

theorem before_eq (e : AuditEvent) (position : Int ×ₗ Nat) :
    e.before (ofLex position) = decide (e.position < position) := by
  rw [Bool.eq_iff_iff]
  simp [AuditEvent.before, AuditEvent.position, Prod.Lex.lt_iff]

theorem mergeSort_first (rows : List AuditEvent) :
    rows.mergeSort AuditEvent.first = descending AuditEvent.position rows := by
  unfold descending
  congr 1
  funext a b
  rw [Bool.eq_iff_iff]
  simp [AuditEvent.first, AuditEvent.position, Prod.Lex.le_iff]

theorem auditEventsList_eq (text : CursorText) (tenantId limit : Nat)
    (position : Option (Int ×ₗ Nat)) (filters : Filters) (table : List AuditEvent) :
    auditEventsList text tenantId limit (position.map (cursorAt text)) filters table =
      .ok ⟨(page AuditEvent.position limit position (matching tenantId filters table)).items.map
          (·.toAuditEventOut),
        (page AuditEvent.position limit position (matching tenantId filters table)).next.map
          (cursorAt text)⟩ := by
  have hselected : (table.filter fun e => e.tenantId == tenantId &&
      (position.map fun p => ofLex p).all e.before && filters.accepts e) =
      below AuditEvent.position position (matching tenantId filters table) := by
    rw [below, matching, List.filter_filter]
    refine List.filter_congr fun e _ => ?_
    have hcursor : (position.map fun p => ofLex p).all e.before =
        position.all fun k => decide (e.position < k) := by
      cases position with
      | none => rfl
      | some p => simp [before_eq]
    rw [hcursor, Bool.and_assoc, Bool.and_left_comm]
  simp only [auditEventsList, positionOf_cursorAt, bind, Except.bind, pure, Except.pure, hselected,
    mergeSort_first, page, decide_eq_true_eq]
  congr 2
  split
  · rw [Option.map_map]
    rfl
  · rfl

theorem readEvents_eq (text : CursorText) (tenantId limit : Nat) (filters : Filters)
    (tables : Nat → List AuditEvent) (n : Nat) :
    readEvents text tenantId limit filters tables n =
      .ok ⟨(follow AuditEvent.position limit (fun i => matching tenantId filters (tables i))
          n).items.map (·.toAuditEventOut),
        (follow AuditEvent.position limit (fun i => matching tenantId filters (tables i))
          n).next.map (cursorAt text)⟩ := by
  induction n with
  | zero => exact auditEventsList_eq text tenantId limit none filters (tables 0)
  | succ n ih =>
      rw [readEvents, ih, follow]
      simp only [bind, Except.bind]
      cases hnext : (follow AuditEvent.position limit
          (fun i => matching tenantId filters (tables i)) n).next with
      | none =>
          simp only [hnext]
          rfl
      | some k =>
          have hpage := auditEventsList_eq text tenantId limit (some k) filters (tables (n + 1))
          rw [Option.map_some] at hpage ⊢
          simp only [hpage, pure, Except.pure, List.map_append]

theorem position_eq_iff {a b : AuditEvent} :
    a.position = b.position ↔ a.occurredAt = b.occurredAt ∧ a.id = b.id := by
  simp [AuditEvent.position]

theorem nodup_matching {tenantId : Nat} {filters : Filters} {table : List AuditEvent}
    (hids : (table.map (·.id)).Nodup) :
    ((matching tenantId filters table).map AuditEvent.position).Nodup := by
  have hsub : ((matching tenantId filters table).map (·.id)).Nodup :=
    hids.sublist (List.filter_sublist.map _)
  rw [List.Nodup, List.pairwise_map] at hsub ⊢
  exact hsub.imp fun hne h => hne (position_eq_iff.mp h).2

theorem mem_matching {tenantId : Nat} {filters : Filters} {table : List AuditEvent}
    {e : AuditEvent} : e ∈ matching tenantId filters table ↔
      e ∈ table ∧ e.tenantId = tenantId ∧ filters.accepts e = true := by
  simp [matching]

/-- In strictly decreasing order of `(occurred_at, id)`. -/
def Descending (items : List AuditEventOut) : Prop :=
  items.Pairwise fun a b =>
    b.occurredAt < a.occurredAt ∨ b.occurredAt = a.occurredAt ∧ b.id < a.id

/-- What a reader has after the requests up to the `n`-th. -/
structure Faithful (text : CursorText) (tenantId : Nat) (filters : Filters)
    (tables : Nat → List AuditEvent) (n : Nat) (read : AuditEventPage) : Prop where
  descending : Descending read.items
  noneTwice : read.items.Nodup
  genuine : ∀ item ∈ read.items, ∃ i ≤ n, ∃ e ∈ tables i, e.tenantId = tenantId ∧
    filters.accepts e = true ∧ e.toAuditEventOut = item
  complete : read.nextCursor = none → ∀ e ∈ tables 0, e.tenantId = tenantId →
    filters.accepts e = true → e.toAuditEventOut ∈ read.items
  cursor : ∀ cursor, read.nextCursor = some cursor → ∃ item, read.items.getLast? = some item ∧
    decodeCursor text cursor = .ok (item.occurredAt, item.id)

theorem descending_map {items : List AuditEvent}
    (h : items.Pairwise fun a b => b.position < a.position) :
    Descending (items.map (·.toAuditEventOut)) := by
  refine List.pairwise_map.mpr (h.imp fun hlt => ?_)
  simpa [AuditEvent.position, Prod.Lex.lt_iff] using hlt

theorem nodup_of_descending {items : List AuditEventOut} (h : Descending items) :
    items.Nodup := by
  refine h.imp fun hlt heq => ?_
  subst heq
  rcases hlt with hlt | ⟨-, hlt⟩
  · exact absurd hlt (Int.lt_irrefl _)
  · exact absurd hlt (Nat.lt_irrefl _)

theorem faithful_of_reading {text : CursorText} {tenantId : Nat} {filters : Filters}
    {tables : Nat → List AuditEvent} {n : Nat} {p : Page AuditEvent (Int ×ₗ Nat)}
    (h : Reading AuditEvent.position (fun i => matching tenantId filters (tables i)) n p) :
    Faithful text tenantId filters tables n
      ⟨p.items.map (·.toAuditEventOut), p.next.map (cursorAt text)⟩ := by
  have hdescending := descending_map h.decreasing
  refine ⟨hdescending, nodup_of_descending hdescending, ?_, ?_, ?_⟩
  · intro item hitem
    obtain ⟨e, he, rfl⟩ := List.mem_map.mp hitem
    obtain ⟨i, hi, hmem⟩ := h.inside e he
    obtain ⟨htable, htenant, haccepts⟩ := mem_matching.mp hmem
    exact ⟨i, hi, e, htable, htenant, haccepts, rfl⟩
  · intro hnext e he htenant haccepts
    have hnone : p.next = none := Option.map_eq_none_iff.mp hnext
    refine List.mem_map_of_mem (h.complete e (mem_matching.mpr ⟨he, htenant, haccepts⟩) ?_)
    simp [hnone]
  · intro cursor hcursor
    obtain ⟨k, hk, rfl⟩ := Option.map_eq_some_iff.mp hcursor
    obtain ⟨e, hlast, rfl⟩ := h.last k hk
    refine ⟨e.toAuditEventOut, by simp [List.getLast?_map, hlast], ?_⟩
    exact decodeCursor_encodeCursor e.occurredAt e.id

/-- Whatever is inserted between the requests of a reader, every request is
answered, what has been read is in strictly decreasing order without repetition,
each cursor is that of the last row, all the events of the first request have
been returned once the cursor is null, and it becomes null once insertions
stop. -/
theorem pagination_is_faithful (text : CursorText) (tenantId limit : Nat) (filters : Filters)
    (tables : Nat → List AuditEvent) (hlimit : 1 ≤ limit ∧ limit ≤ 200)
    (hids : ∀ n, ((tables n).map (·.id)).Nodup) (happend : ∀ n, tables n ⊆ tables (n + 1)) :
    (∀ n, ∃ read, readEvents text tenantId limit filters tables n = .ok read ∧
      Faithful text tenantId filters tables n read) ∧
    ∀ N, (∀ n, N ≤ n → tables n = tables N) →
      ∃ n read, readEvents text tenantId limit filters tables n = .ok read ∧
        read.nextCursor = none := by
  have hkeys (n : Nat) : ((matching tenantId filters (tables n)).map AuditEvent.position).Nodup :=
    nodup_matching (hids n)
  constructor
  · intro n
    refine ⟨_, readEvents_eq text tenantId limit filters tables n, faithful_of_reading ?_⟩
    refine reading_follow hlimit.1 hkeys (fun i e he => ?_) n
    obtain ⟨htable, hrest⟩ := mem_matching.mp he
    exact mem_matching.mpr ⟨happend i htable, hrest⟩
  · intro N hstable
    obtain ⟨n, hn⟩ := exists_next_eq_none (N := N) hlimit.1 hkeys fun n hn => by rw [hstable n hn]
    exact ⟨n, _, readEvents_eq text tenantId limit filters tables n, by rw [hn]; rfl⟩

theorem zeros_ascii {n c : Nat} (h : c ∈ List.replicate n 48) : c < 128 := by
  rw [List.eq_of_mem_replicate h]
  decide

theorem bar_notMem_zeros (n : Nat) : 124 ∉ List.replicate n 48 := by
  intro h
  exact absurd (List.eq_of_mem_replicate h) (by decide)

theorem length_zeros (n : Nat) : some (List.replicate n 48).length = some n := by
  rw [List.length_replicate]

/-- An instant as as many characters, after a sign. -/
def unaryInstant (t : Instant) : PyStr :=
  if 0 ≤ t then List.replicate t.toNat 48 else 45 :: List.replicate (-t).toNat 48

def readUnary : PyStr → Option Instant
  | 45 :: rest => some (-(rest.length : Int))
  | rest => some rest.length

theorem unaryInstant_ascii (t : Instant) {c : Nat} (hc : c ∈ unaryInstant t) : c < 128 := by
  unfold unaryInstant at hc
  split at hc
  · exact zeros_ascii hc
  · rcases List.mem_cons.mp hc with rfl | hc
    · decide
    · exact zeros_ascii hc

theorem readUnary_unaryInstant (t : Int) : readUnary (unaryInstant t) = some t := by
  unfold unaryInstant
  by_cases h : 0 ≤ t
  · rw [if_pos h]
    cases hn : t.toNat with
    | zero =>
        show some ((0 : Nat) : Int) = some t
        congr 1
        omega
    | succ n =>
        show some (((List.replicate (n + 1) 48).length : Nat) : Int) = some t
        rw [List.length_replicate]
        congr 1
        omega
  · rw [if_neg h]
    show some (-((List.replicate (-t).toNat 48).length : Int)) = some t
    rw [List.length_replicate]
    congr 1
    omega

/-- Texts in which a number is as many characters. -/
def unaryText : CursorText where
  isoformat := unaryInstant
  fromisoformat := readUnary
  uuidText id := List.replicate id 48
  parseUuid s := some s.length
  b64encode raw := raw
  b64decode raw := some raw
  isoformat_ascii t _ hc := unaryInstant_ascii t hc
  uuidText_ascii _ _ hc := zeros_ascii hc
  uuidText_bar := bar_notMem_zeros
  fromisoformat_isoformat := readUnary_unaryInstant
  parseUuid_uuidText := length_zeros
  b64decode_b64encode _ _ := rfl

/-- An event of tenant 1. -/
def teamCreated (id : Nat) (occurredAt : Instant) : AuditEvent :=
  ⟨⟨id, occurredAt, none, "system", "core.team.created", "team", "1", []⟩, 1⟩

/-- Two events at one instant, and an older one that comes in after the first
page. -/
def twoThenThree : Nat → List AuditEvent
  | 0 => [teamCreated 1 5, teamCreated 2 5]
  | _ + 1 => [teamCreated 1 5, teamCreated 2 5, teamCreated 3 4]

theorem twoThenThree_is_read :
    (∃ read, readEvents unaryText 1 1 {} twoThenThree 1 = .ok read ∧
      Faithful unaryText 1 {} twoThenThree 1 read) ∧
    ∃ n read, readEvents unaryText 1 1 {} twoThenThree n = .ok read ∧ read.nextCursor = none := by
  have hread := pagination_is_faithful unaryText 1 1 {} twoThenThree (by decide) ?_ ?_
  · refine ⟨hread.1 1, hread.2 1 fun n hn => ?_⟩
    cases n with
    | zero => omega
    | succ n => rfl
  · intro n
    cases n with
    | zero => decide
    | succ n => exact (by decide : ([1, 2, 3] : List Nat).Nodup)
  · intro n e he
    cases n with
    | zero => exact List.mem_of_mem_take (i := 2) he
    | succ n => exact he

end Socle.AuditPagination
