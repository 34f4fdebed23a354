import Socle.ConnectorJobs

/-!
Where the events of the audit trails come from: through the queue and a worker, whatever else runs
meanwhile, each goes back to a notification that carried the secret of a stored subscription.
-/

namespace Socle.EventProvenance

open Socle.GuardedRuns
open Socle.Procedures
open Socle.Knowledge
open Socle.DirectoryStore (Tenant AuditEvent)
open Socle.TokenExchange
open Socle.ConnectorStore
open Socle.ConnectorService
open Socle.ConnectorTransactions
open Socle.WebhookDispatch hiding receiveWebhook
open Socle.WebhookReception
open Socle.ConnectorKnowledge
open Socle.ConnectorJobs

/-- The event that the worker of a task records. -/
def Records : Task → AuditEvent → Prop
  | .eventReceived _ connectionId provider capability changeType resourceId, e =>
      e.resourceId = connectionId ∧ e.payload = received provider capability changeType resourceId
  | .syncSubscriptions .., _ => False

def Reception (e : AuditEvent) : Prop := e.action = "connector.event_received"

def isEvent : Task → Bool
  | .eventReceived .. => true
  | .syncSubscriptions .. => false

/-- The task that a worker runs in a job. -/
def deliveredTask : Job → Option Task
  | .processConnectorEvent slug connectionId provider capability changeType resourceId =>
      some (.eventReceived slug connectionId provider capability changeType resourceId)
  | _ => none

section Accounts

variable {π : Type} {endpoint : TokenEndpoint π} {env : Env}
  {noted : Nat → List (String × Option String) → Prop} {stored : Subscription → Prop}
  {before w : World π} {l : Session} {known : Set Fact} {r : Request} {c : Choice}

/-- The task is called for on a subscription that was stored. -/
def Called (env : Env) (stored : Subscription → Prop) (task : Task) : Prop :=
  ∃ s, stored s ∧ task ∈ env.calls s

/-- The rows of the trails, in the order of their commits. -/
abbrev trail (w : World π) : List AuditEvent := w.tables.directory.auditEvents

/-- Every new event of the queue is called for, and the trails only grow, by events that were
noted. -/
structure Accounted (env : Env) (stored : Subscription → Prop)
    (noted : Nat → List (String × Option String) → Prop) (before w : World π) : Prop where
  actives : w.tables.activeTenants = env.actives
  queue : ∀ task ∈ w.queue, isEvent task = true → task ∈ before.queue ∨ Called env stored task
  kept : trail before <+: trail w
  events : ∀ (n : Nat) e, (trail w)[n]? = some e → (trail before).length ≤ n → Reception e →
    noted e.resourceId e.payload

/-- What the session is to hand on is called for, and what it is to record was noted. -/
structure Entitled (env : Env) (stored : Subscription → Prop)
    (noted : Nat → List (String × Option String) → Prop) (l : Session) (known : Set Fact) :
    Prop where
  pending : ∀ e, .addAuditEvent e ∈ l.pending → Reception e → noted e.resourceId e.payload
  control : ∀ e, .addAuditEvent e ∈ l.control → Reception e → noted e.resourceId e.payload
  handed : ∀ task, .handed task ∈ known → Called env stored task
  records : ∀ connectionId payload, .record connectionId payload ∈ known →
    noted connectionId payload

theorem record_not_told {a : Answer r} {connectionId : Nat}
    {payload : List (String × Option String)} : .record connectionId payload ∉ told env r a := by
  intro htold
  cases r with
  | addConnection => rcases htold with htold | htold <;> cases htold
  | _ => grind [told, about]

theorem activeTenants_applyAll {t t' : Tables} {changes : List Change}
    (happly : t.applyAll changes = .ok t') : t'.activeTenants = t.activeTenants := by
  induction changes generalizing t with
  | nil =>
      cases happly
      rfl
  | cons change rest ih =>
      simp only [Tables.applyAll] at happly
      split at happly
      · rename_i u hu
        rw [ih happly]
        cases change <;> simp only [Tables.apply] at hu <;> repeat' split at hu
        all_goals cases hu
        all_goals rfl
      · cases happly

theorem Accounted.grow (h : Accounted env stored noted before w) {new events : List AuditEvent}
    (hevents : events = trail w ++ new)
    (hnoted : ∀ e ∈ new, Reception e → noted e.resourceId e.payload) :
    trail before <+: events ∧ ∀ (n : Nat) e, events[n]? = some e → (trail before).length ≤ n →
      Reception e → noted e.resourceId e.payload := by
  subst hevents
  refine ⟨h.kept.trans (List.prefix_append _ _), fun n e he hn hreception => ?_⟩
  by_cases hold : n < (trail w).length
  · rw [List.getElem?_append_left hold] at he
    exact h.events n e he hn hreception
  · rw [List.getElem?_append_right (not_lt.mp hold)] at he
    exact hnoted e (List.mem_of_getElem? he) hreception

theorem Accounted.commit (h : Accounted env stored noted before w)
    (hl : Entitled env stored noted l known) :
    Accounted env stored noted before (w.commit l).1 := by
  unfold World.commit
  split
  · rename_i t ht
    obtain ⟨new, hnew, hmem⟩ := connectorEvents_commit ht
    obtain ⟨hkept, hevents⟩ := h.grow hnew fun e he => hl.pending e ((hmem e).mpr he)
    refine ⟨?_, h.queue, hkept, hevents⟩
    simp only [Tables.commit] at ht
    split at ht
    · rename_i u hu
      rw [activeTenants_applyAll ht, Tables.activeTenants, directory_writeObjects hu]
      exact h.actives
    · cases ht
  · exact h

theorem Accounted.commitControl (h : Accounted env stored noted before w)
    (hl : Entitled env stored noted l known) :
    Accounted env stored noted before (w.commitControl l).1 := by
  unfold World.commitControl
  split
  · rename_i t ht
    obtain ⟨new, hnew, hmem⟩ := connectorEvents_applyAll ht
    obtain ⟨hkept, hevents⟩ := h.grow hnew fun e he => hl.control e ((hmem e).mpr he)
    exact ⟨(activeTenants_applyAll ht).trans h.actives, h.queue, hkept, hevents⟩
  · exact h

theorem possible_serve (h : Accounted env stored noted before w) :
    possible env r (serve endpoint w l r c).2.2 := by
  cases r with
  | activeTenants => exact h.actives
  | selectSubscriptions connectionId =>
      intro s hs
      exact beq_iff_eq.mp (Bool.and_eq_true_iff.mp (List.mem_filter.mp hs).2).2
  | _ => trivial

theorem accounted_serve (h : Accounted env stored noted before w)
    (hl : Entitled env stored noted l known) (hneeds : needs r ⊆ known) :
    Accounted env stored noted before (serve endpoint w l r c).1 := by
  cases r with
  | commit => exact h.commit hl
  | commitControl => exact h.commitControl hl
  | enqueue task =>
      refine ⟨h.actives, fun task' htask' hevent => ?_, h.kept, h.events⟩
      rcases List.mem_append.mp htask' with hold | hnew
      · exact h.queue task' hold hevent
      · cases List.mem_singleton.mp hnew
        cases task with
        | eventReceived => exact .inr (hl.handed _ (hneeds (Set.mem_singleton _)))
        | syncSubscriptions => cases hevent
  | acquireLock name =>
      simp only [serve, World.acquireLock]
      split <;> exact ⟨h.actives, h.queue, h.kept, h.events⟩
  | getConnection | findConnection | refreshObject =>
      simp only [serve]
      repeat' split
      all_goals exact h
  | assign =>
      simp only [serve]
      repeat' split
      all_goals exact h
  | _ => exact ⟨h.actives, h.queue, h.kept, h.events⟩

theorem entitled_serve (hstored : ∀ s ∈ w.tables.subscriptions, stored s)
    (hl : Entitled env stored noted l known) (hneeds : needs r ⊆ known) :
    Entitled env stored noted (serve endpoint w l r c).2.1
      (known ∪ told env r (serve endpoint w l r c).2.2) := by
  refine ⟨fun e he hreception => ?_, fun e he hreception => ?_, fun task htask => ?_,
    fun connectionId payload hrecord => ?_⟩
  · rcases mem_pending_serve he with hold | hadded
    · exact hl.pending e hold hreception
    · cases r with
      | addAuditEvent event =>
          cases hadded
          exact hl.records _ _ (hneeds ⟨hreception, rfl⟩)
      | _ => cases hadded
  · rcases mem_control_serve he with hold | hadded
    · exact hl.control e hold hreception
    · cases r <;> cases hadded
  · rcases htask with hold | htold
    · exact hl.handed task hold
    · cases r with
      | selectSubscriptions connectionId =>
          obtain ⟨s, hs, task', hcalls, heq⟩ := htold
          cases heq
          exact ⟨s, hstored s (List.mem_of_mem_filter hs), hcalls⟩
      | addConnection => rcases htold with htold | htold <;> cases htold
      | _ => grind [told, about]
  · rcases hrecord with hold | htold
    · exact hl.records connectionId payload hold
    · exact (record_not_told htold).elim

end Accounts

section Runs

variable {π : Type} {endpoint : TokenEndpoint π} {python : Python} {settings : Settings}
  {handlers : String → List (ConnectorProc Unit)}

theorem entitled_start {env : Env} {stored : Subscription → Prop} {jobs : List Job} {job : Job}
    (hjob : job ∈ jobs) :
    Entitled env stored
      (fun connectionId payload =>
        ∃ job ∈ jobs, .record connectionId payload ∈ job.facts env.actives)
      {} (job.facts env.actives) := by
  refine ⟨fun e he => (List.not_mem_nil he).elim, fun e he => (List.not_mem_nil he).elim,
    fun task htask => ?_, fun connectionId payload hrecord => ⟨job, hjob, hrecord⟩⟩
  cases job with
  | syncConnectionSubscriptions => cases htask.2
  | refreshExpiringTokens | renewExpiringSubscriptions | connectorOauthCallback =>
      exact htask.elim
  | _ => cases htask

theorem records_of_mem_facts {actives : List Tenant} {job : Job} {e : AuditEvent}
    (h : .record e.resourceId e.payload ∈ job.facts actives) :
    ∃ task, deliveredTask job = some task ∧ Records task e ∧ isEvent task = true := by
  cases job with
  | processConnectorEvent slug connectionId provider capability changeType resourceId =>
      obtain ⟨hid, hpayload⟩ := Fact.record.inj h
      exact ⟨_, rfl, ⟨hid, hpayload⟩, rfl⟩
  | syncConnectionSubscriptions => cases h.2
  | refreshExpiringTokens | renewExpiringSubscriptions | connectorOauthCallback => exact h.elim
  | _ => cases h

/-- Workers only run what the run queues.  Then the trails only grow, and an event that they gain,
a repeated one included, was queued before, or a webhook was sent a notification of it that named a
subscription, stored at some moment of the run, of that connection and with that capability, and
carried its secret. -/
theorem event_notified (hhandlers : Abiding handlers) {w : World π} {jobs : List Job}
    {schedule : List (Nat × Choice)} {pool : Pool ConnectorInterface Failure (World π) Session Unit}
    (hrun : run (Pool.step (serve endpoint)) (start python settings handlers w jobs) schedule =
      some pool)
    (hdelivered : ∀ job ∈ jobs, ∀ task ∈ deliveredTask job, task ∈ pool.shared.queue) :
    trail w <+: trail pool.shared ∧
      ∀ (n : Nat) e, (trail pool.shared)[n]? = some e → (trail w).length ≤ n → Reception e →
        ∃ task, Records task e ∧ (task ∈ w.queue ∨ ∃ provider routeKey request,
          .receiveWebhook provider routeKey request ∈ jobs ∧ ∃ first before, first <+: schedule ∧
            run (Pool.step (serve endpoint)) (start python settings handlers w jobs) first =
              some before ∧
            ∃ s ∈ before.shared.tables.subscriptions, task ∈ callsOn python provider request s) := by
  let env : Env :=
    ⟨w.tables.activeTenants, fun s => {task | ∃ job ∈ jobs, task ∈ job.calls python s}⟩
  let stored (s : Subscription) : Prop := ∃ first before, first <+: schedule ∧
    run (Pool.step (serve endpoint)) (start python settings handlers w jobs) first =
      some before ∧ s ∈ before.shared.tables.subscriptions
  let noted (connectionId : Nat) (payload : List (String × Option String)) : Prop :=
    ∃ job ∈ jobs, .record connectionId payload ∈ job.facts env.actives
  have hkeeps : Keeps (rules env) (serve endpoint)
      (fun s _ _ => ∀ x ∈ s.tables.subscriptions, stored x) (Accounted env stored noted w)
      (Entitled env stored noted) := by
    refine ⟨fun s l known r c hs hl hneeds hstored => ?_⟩
    exact ⟨accounted_serve hs hl hneeds, possible_serve hs, entitled_serve hstored hl hneeds⟩
  have hthreads : ∀ thread ∈ (start python settings handlers w jobs).threads, ∃ known,
      Entitled env stored noted thread.1 known ∧ ConnectorKnowledge.Heeds env known thread.2 := by
    intro thread hthread
    obtain ⟨job, hjob, rfl⟩ := List.mem_map.mp hthread
    exact ⟨_, entitled_start hjob, heeds_job hhandlers fun s task htask => ⟨job, hjob, htask⟩⟩
  have hinit : Accounted env stored noted w w :=
    ⟨rfl, fun task htask _ => .inl htask, List.prefix_refl _, fun n e he hn => by
      rw [List.getElem?_eq_none hn] at he
      cases he⟩
  have halong : Along (Pool.step (serve endpoint))
      (ActionMeets fun s _ _ _ _ => ∀ x ∈ s.tables.subscriptions, stored x)
      (start python settings handlers w jobs) schedule := by
    refine along_of_prefixes fun first action before hprefix hfirst => ?_
    have hstored : ∀ x ∈ before.shared.tables.subscriptions, stored x := fun x hx =>
      ⟨first, before, (List.prefix_append _ _).trans hprefix, hfirst, hx⟩
    unfold ActionMeets
    split
    · exact hstored
    · trivial
  have hend := (pool_heeds hkeeps ⟨hinit, hthreads⟩ halong hrun).1
  refine ⟨hend.kept, fun n e he hn hreception => ?_⟩
  obtain ⟨job, hjob, hrecord⟩ := hend.events n e he hn hreception
  obtain ⟨task, htask, hrecords, hevent⟩ := records_of_mem_facts hrecord
  refine ⟨task, hrecords, (hend.queue task (hdelivered job hjob task htask) hevent).imp id ?_⟩
  rintro ⟨s, ⟨first, before, hprefix, hfirst, hs⟩, sender, hsender, hcalls⟩
  cases sender with
  | receiveWebhook provider routeKey request =>
      exact ⟨provider, routeKey, request, hsender, first, before, hprefix, hfirst, s, hs, hcalls⟩
  | _ => exact hcalls.elim

/-- Acme with its connection to Microsoft, subscribed to mail. -/
def watched : World Unit where
  tables := { subscribed with connections := [expiredConnection 7] }
  locks := []
  queue := []
  endpoint := ()
  history := []

/-- A notification and the worker of its event. -/
def mailArrives : List Job :=
  [.receiveWebhook .microsoft "key" (secretRequest (py "secret")),
    .processConnectorEvent "acme" 7 "microsoft" "mail" "updated" none]

/-- What the worker records. -/
def mailReceived : AuditEvent :=
  ⟨1, "connector.event_received", "connector_connection", 7,
    received "microsoft" "mail" "updated" none, none, "system"⟩

theorem mail_was_notified :
    ∃ pool, run (Pool.step (serve anyAnswer))
        (start secretPython configured (fun _ => []) watched mailArrives) (steps 0 5 ++ steps 1 6) =
        some pool ∧
      (trail pool.shared)[0]? = some mailReceived ∧
      ∃ task, Records task mailReceived ∧ (task ∈ watched.queue ∨ ∃ provider routeKey request,
        .receiveWebhook provider routeKey request ∈ mailArrives ∧ ∃ first before,
          first <+: steps 0 5 ++ steps 1 6 ∧
          run (Pool.step (serve anyAnswer))
            (start secretPython configured (fun _ => []) watched mailArrives) first = some before ∧
          ∃ s ∈ before.shared.tables.subscriptions,
            task ∈ callsOn secretPython provider request s) := by
  have hends : (run (Pool.step (serve anyAnswer))
      (start secretPython configured (fun _ => []) watched mailArrives)
      (steps 0 5 ++ steps 1 6)).map
        (fun pool => (pool.shared.tables.directory.auditEvents, pool.shared.queue)) =
      some ([mailReceived], [.eventReceived "acme" 7 "microsoft" "mail" "updated" none]) := by
    decide +kernel
  obtain ⟨pool, hrun, hpool⟩ := Option.map_eq_some_iff.mp hends
  obtain ⟨hevents, hqueue⟩ := Prod.mk.inj hpool
  have hdelivered : ∀ job ∈ mailArrives, ∀ task ∈ deliveredTask job, task ∈ pool.shared.queue := by
    rw [hqueue]
    decide
  have hfirst : (trail pool.shared)[0]? = some mailReceived := by
    rw [trail, hevents]
    rfl
  exact ⟨pool, hrun, hfirst,
    (event_notified abiding_none hrun hdelivered).2 0 mailReceived hfirst (Nat.le_refl _) rfl⟩

end Runs

end Socle.EventProvenance
