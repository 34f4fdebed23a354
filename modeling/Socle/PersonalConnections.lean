import Socle.ConnectorTransactions
import Socle.DirectoryService

/-!
The accounts behind the connections, over runs of the OAuth flows: a callback
looks its connection up without the user, and gives it whatever label the
provider answers.
-/

namespace Socle.PersonalConnections

open Socle.GuardedRuns
open Socle.Procedures
open Socle.DirectoryStore (Tenant User)
open Socle.TokenExchange
open Socle.ConnectorStore
open Socle.ConnectorService
open Socle.ConnectorTransactions

/-- `KNOWN_CAPABILITIES`. -/
def knownCapabilities : List String := [capabilityMail, capabilityCalendar]

/-- Python's `repr` of a list of strings. -/
def reprList (texts : List String) : String :=
  "[" ++ String.intercalate ", " (texts.map DirectoryService.reprStr) ++ "]"

/-- `validate_capabilities`, with the text of its exception. -/
def validateCapabilities (provider : ConnectorProvider) (capabilities : List String) :
    Except String (List String) :=
  let unknown := capabilities.filter fun c => !knownCapabilities.contains c
  let unsupported := capabilities.filter fun c =>
    !(getProvider provider).capabilityScopes.any fun entry => entry.1 == c
  let named := if unknown = [] then "aucune" else reprList unknown
  if unknown ≠ [] ∨ capabilities = [] then
    .error s!"Capabilities invalides : {named}"
  else if unsupported ≠ [] then
    .error s!"Capabilities non supportées par {provider.value} : {reprList unsupported}"
  else .ok capabilities

/-- `connector_start`, after its permission check: the state of the flow. -/
def connectorStart (settings : Settings) (slug returnHost : String) (actor : User)
    (provider : ConnectorProvider) (kind : ConnectionKind) (capabilities : Option (List String)) :
    Except Failure OAuthState :=
  let wanted := match capabilities with
    | none | some [] => [capabilityMail, capabilityCalendar]
    | some wanted => wanted
  match validateCapabilities provider wanted with
  | .error message => .error (.http 400 message)
  | .ok wanted =>
      match clientCredentials settings provider with
      | .error (.connectorError message) => .error (.http 503 message)
      | .error e => .error e
      | .ok _ => .ok ⟨slug, some actor.id, kind, wanted, validateReturnHost settings returnHost,
          none⟩

/-- The re-consent with the provider of the connection, which its state carries
too. -/
def reconsentFlow (settings : Settings) (tenant : Tenant) (returnHost : String) (actor : User)
    (connectionId : Nat) : ConnectorProc (ConnectorProvider × OAuthState) := do
  let state ← connectorReconsent settings tenant.id tenant.slug returnHost actor connectionId
  let connection ← readObject connectionId
  return (connection.provider, state)

/-- The database and the locks, and the states signed so far, each for its
provider. -/
structure Flows where
  world : World Unit
  issued : List (ConnectorProvider × OAuthState)

inductive ConnectorRequest where
  | start (tenant : Tenant) (returnHost : String) (actor : User) (provider : ConnectorProvider)
      (kind : ConnectionKind) (capabilities : Option (List String))
  | reconsent (tenant : Tenant) (returnHost : String) (actor : User) (connectionId : Nat)
      (choices : Nat → Choice)
  /-- `state` is `none` when `parse_state` refuses the parameter. -/
  | callback (provider : ConnectorProvider) (state : Option OAuthState) (code error : Option String)
      (choices : Nat → Choice)
  | revoke (tenantId : Nat) (actor : User) (connectionId : Nat) (choices : Nat → Choice)

section Requests

variable (settings : Settings)

/-- What a procedure leaves, run alone in a session of its own. -/
def served {α : Type} (w : World Unit) (p : ConnectorProc α) (choices : Nat → Choice) :
    World Unit := (eval (serve anyAnswer) p w {} choices).1

/-- One request.  A callback comes with a state that was signed for its
provider, or with one that is refused. -/
def step (s : Flows) : ConnectorRequest → Option Flows
  | .start tenant returnHost actor provider kind capabilities =>
      match connectorStart settings tenant.slug returnHost actor provider kind capabilities with
      | .ok state => some { s with issued := s.issued ++ [(provider, state)] }
      | .error _ => some s
  | .reconsent tenant returnHost actor connectionId choices =>
      let out := eval (serve anyAnswer)
        (reconsentFlow settings tenant returnHost actor connectionId) s.world {} choices
      match out.2.2 with
      | .ok flow => some ⟨out.1, s.issued ++ [flow]⟩
      | .error _ => some { s with world := out.1 }
  | .callback provider state code error choices =>
      if ∀ signed ∈ state, (provider, signed) ∈ s.issued then
        some { s with
          world := served s.world
            (connectorOauthCallback settings provider state code error) choices }
      else none
  | .revoke tenantId actor connectionId choices =>
      some { s with
        world := served s.world (connectorRevoke settings tenantId actor connectionId) choices }

end Requests

/-! ### Accounts -/

/-- Tenant, provider, kind, user and account label. -/
abbrev Account := Nat × ConnectorProvider × ConnectionKind × Option Nat × String

/-- The account a connection is for under this label. -/
def accountAs (row : Connection) (label : String) : Account :=
  (row.tenantId, row.provider, row.kind, row.userId, label)

def account (row : Connection) : Account := accountAs row row.attributes.accountLabel

def Live (row : Connection) : Prop := row.attributes.status ≠ .revoked

instance (row : Connection) : Decidable (Live row) :=
  inferInstanceAs (Decidable (_ ≠ _))

/-- At most one connection that is not revoked for each account. -/
def OnePerAccount (t : Tables) : Prop :=
  t.connections.Pairwise fun a b => Live a → Live b → account a ≠ account b

/-- The primary key of the connections. -/
def DistinctIds (t : Tables) : Prop := (t.connections.map (·.id)).Nodup

/-- A callback of kind USER leaves no new or changed connection that is not of
its user. -/
def OwnOnly (settings : Settings) (s : Flows) : ConnectorRequest → Prop
  | .callback provider (some state) code error choices =>
      let after := served s.world
        (connectorOauthCallback settings provider (some state) code error) choices
      state.kind = .user → ∀ row ∈ after.tables.connections,
        row ∈ s.world.tables.connections ∨ row.userId = state.userId
  | _ => True

/-! ### The connection a callback is for -/

/-- The connection the state names, else the live one of the label: the user is
not looked at. -/
def targetOf (t : Tables) (tenantId : Nat) (provider : ConnectorProvider) (state : OAuthState)
    (label : String) : Option Connection :=
  let named := state.connectionId.bind fun connectionId =>
    t.connections.find? fun c => c.id == connectionId && c.tenantId == tenantId
  named.or (t.connections.find? fun c =>
    c.tenantId == tenantId && c.provider == provider && c.kind == state.kind &&
      c.attributes.accountLabel == label && c.attributes.status != .revoked)

/-- The connection is of the user of the flow, and no other live one has the
account it gets. -/
def Placed (t : Tables) (state : OAuthState) (label : String) (row : Connection) : Prop :=
  (state.kind = .user → row.userId = state.userId) ∧
    ∀ other ∈ t.connections, other.id ≠ row.id → Live other → account other ≠ accountAs row label

instance (t : Tables) (state : OAuthState) (label : String) (row : Connection) :
    Decidable (Placed t state label row) :=
  inferInstanceAs (Decidable (_ ∧ _))

/-- The label an answer of the account endpoint is written as. -/
def answeredLabel (provider : ConnectorProvider) (answer : HttpAnswer) : Option String :=
  match accountLabelOf provider answer with
  | .ok label => (labelText label).toOption
  | .error _ => none

/-- The account the provider answers is one the connection of the callback may
be given. -/
def ownAccount (provider : ConnectorProvider) (state : OAuthState) (w : World Unit) (_ : Session) :
    Request → Choice → Prop
  | .accountInfo .., c =>
      ∀ label ∈ answeredLabel provider c.answer,
        ∀ tenant ∈ w.tables.directory.tenants.find? fun t => t.slug == state.tenantSlug,
          ∀ row ∈ targetOf w.tables tenant.id provider state label,
            Placed w.tables state label row
  | _, _ => True

instance (provider : ConnectorProvider) (state : OAuthState) (w : World Unit) (l : Session)
    (r : Request) (c : Choice) : Decidable (ownAccount provider state w l r c) := by
  unfold ownAccount
  split <;> infer_instance

/-- Every callback meets `ownAccount`. -/
def Meets (settings : Settings) (s : Flows) : ConnectorRequest → Prop
  | .callback provider (some state) code error choices =>
      EvalMeets (serve anyAnswer) (ownAccount provider state)
        (connectorOauthCallback settings provider (some state) code error) s.world {} choices
  | _ => True

/-- What every database of a run satisfies. -/
structure Sound (t : Tables) : Prop where
  ids : DistinctIds t
  accounts : OnePerAccount t

theorem sound_iff {t : Tables} :
    Sound t ↔ t.connections.Pairwise fun a b =>
      a.id ≠ b.id ∧ (Live a → Live b → account a ≠ account b) := by
  rw [List.pairwise_and_iff]
  constructor
  · rintro ⟨hids, haccounts⟩
    exact ⟨List.pairwise_map.mp hids, haccounts⟩
  · rintro ⟨hids, haccounts⟩
    exact ⟨List.pairwise_map.mpr hids, haccounts⟩

theorem Sound.congr {t t' : Tables} (h : t'.connections = t.connections) (hsound : Sound t) :
    Sound t' := by
  rw [sound_iff, h]
  exact sound_iff.mp hsound

/-- No other live connection has the account of this one. -/
def Alone (t : Tables) (row : Connection) : Prop :=
  Live row → ∀ other ∈ t.connections, other.id ≠ row.id → Live other → account other ≠ account row

/-- The object was inserted, or was loaded from a row that is there. -/
def Loaded (t : Tables) (o : Object) : Prop := o.isNew = false → o.row ∈ t.connections

theorem connections_writeObject {t t' : Tables} {o : Object} (hids : DistinctIds t)
    (hloaded : Loaded t o) (hwrite : t.writeObject o = .ok t') :
    (t'.connections = t.connections ++ [o.view] ∧ ∀ row ∈ t.connections, row.id ≠ o.row.id) ∨
      t'.connections = t.connections ∨
      t'.connections = t.connections.map fun c => if c.id = o.row.id then o.view else c := by
  simp only [Tables.writeObject] at hwrite
  split at hwrite
  · split at hwrite
    · cases hwrite
    · rename_i habsent
      cases hwrite
      refine .inl ⟨rfl, fun row hrow hid => habsent ?_⟩
      exact List.any_eq_true.mpr ⟨row, hrow, by simp [hid]⟩
  · rename_i hold
    have hrow : o.row ∈ t.connections := hloaded (by simpa using hold)
    split at hwrite
    · cases hwrite
      exact .inr (.inl rfl)
    · split at hwrite
      · cases hwrite
        refine .inr (.inr (List.map_congr_left fun c hc => ?_))
        by_cases hid : c.id = o.row.id
        · -- The primary key makes the row the one that was loaded.
          obtain rfl : c = o.row := List.inj_on_of_nodup_map hids hc hrow hid
          simp [Object.view]
        · simp [hid]
      · cases hwrite

theorem sound_writeObject {t t' : Tables} {o : Object} (hsound : Sound t) (hloaded : Loaded t o)
    (halone : Alone t o.view) (hwrite : t.writeObject o = .ok t') :
    Sound t' ∧ ∀ row ∈ t'.connections, row ∈ t.connections ∨ row = o.view := by
  have hpairs := sound_iff.mp hsound
  rcases connections_writeObject hsound.ids hloaded hwrite with ⟨hadded, hnew⟩ | hsame | hmapped
  · rw [sound_iff, hadded]
    refine ⟨List.pairwise_append.mpr ⟨hpairs, List.pairwise_singleton _ _, ?_⟩, ?_⟩
    · rintro row hrow added hadd
      obtain rfl := List.mem_singleton.mp hadd
      exact ⟨hnew row hrow, fun hlive hlive' => halone hlive' row hrow (hnew row hrow) hlive⟩
    · rintro row hrow
      rcases List.mem_append.mp hrow with hold | hadd
      · exact .inl hold
      · exact .inr (List.mem_singleton.mp hadd)
  · exact ⟨hsound.congr hsame, fun row hrow => .inl (hsame ▸ hrow)⟩
  · rw [sound_iff, hmapped]
    refine ⟨List.pairwise_map.mpr (hpairs.imp_of_mem ?_), ?_⟩
    · rintro a b ha hb ⟨hne, hapart⟩
      by_cases hida : a.id = o.row.id
      · have hidb : b.id ≠ o.row.id := fun h => hne (hida.trans h.symm)
        rw [if_pos hida, if_neg hidb]
        refine ⟨hidb.symm, fun hlive hlive' => ?_⟩
        exact (halone hlive b hb hidb hlive').symm
      · rw [if_neg hida]
        by_cases hidb : b.id = o.row.id
        · rw [if_pos hidb]
          exact ⟨hida, fun hlive hlive' => halone hlive' a ha hida hlive⟩
        · rw [if_neg hidb]
          exact ⟨hne, hapart⟩
    · intro row hrow
      obtain ⟨c, hc, rfl⟩ := List.mem_map.mp hrow
      split
      · exact .inr rfl
      · exact .inl hc

theorem sound_commit {t t' : Tables} {o : Object} {changes : List Change} (hsound : Sound t)
    (hloaded : Loaded t o) (halone : Alone t o.view) (hcommit : t.commit [o] changes = .ok t') :
    Sound t' ∧ ∀ row ∈ t'.connections, row ∈ t.connections ∨ row = o.view := by
  obtain ⟨u, hwrite, happly⟩ := commit_eq_ok hcommit
  have hobject : t.writeObject o = .ok u := by
    simp only [Tables.writeObjects] at hwrite
    split at hwrite
    · rename_i v hv
      rw [hv, ← hwrite]
    · cases hwrite
  obtain ⟨hu, hrows⟩ := sound_writeObject hsound hloaded halone hobject
  have hsame := connections_applyAll happly
  exact ⟨hu.congr hsame, fun row hrow => hrows row (hsame ▸ hrow)⟩

/-- The session holds one object. -/
def Holds (P : Object → Prop) (l : Session) : Prop := ∃ o, l.objects = [o] ∧ P o

/-- The object of a callback once it has its label. -/
structure Prepared (t : Tables) (state : OAuthState) (label : String) (o : Object) : Prop where
  loaded : Loaded t o
  labelled : o.current.accountLabel = label
  placed : Placed t state label o.row

theorem Prepared.alone {t : Tables} {state : OAuthState} {label : String} {o : Object}
    (h : Prepared t state label o) : Alone t o.view := by
  intro _ other hother hne hlive
  have hapart := h.placed.2 other hother hne hlive
  rwa [← h.labelled] at hapart

theorem objects_update {l : Session} {o : Object} {connectionId : Nat} {f : Object → Object}
    (hobjects : l.objects = [o]) (hid : o.row.id = connectionId) :
    (l.update connectionId f).objects = [f o] := by
  simp [Session.update, hobjects, hid]

section Procedures

variable {α : Type} {cond : World Unit → Session → Request → Choice → Prop}
variable {w : World Unit} {l : Session}

theorem ensuresIf_ofExcept {Q : World Unit → Session → Except Failure α → Prop}
    {x : Except Failure α} (h : Q w l x) :
    EnsuresIf (serve anyAnswer) cond Q w l (.ofExcept x) := by
  cases x <;> exact h

/-- Reads of the identity map, and assignments that leave the label. -/
def assigning : Request → Prop
  | .readObject _ => True
  | .assign _ value =>
      ∀ stamp a a', value stamp a = .ok a' → a'.accountLabel = a.accountLabel
  | _ => False

theorem serve_assigning {P : Object → Prop}
    (hP : ∀ o a, P o → a.accountLabel = o.current.accountLabel → P { o with current := a })
    {r : Request} (hr : assigning r) (hl : Holds P l) (c : Choice) :
    (serve anyAnswer w l r c).1 = w ∧ Holds P (serve anyAnswer w l r c).2.1 := by
  cases r with
  | readObject connectionId => exact ⟨rfl, hl⟩
  | assign connectionId value =>
      have hw : (serve anyAnswer w l (.assign connectionId value) c).1 = w := by
        simp only [serve]
        repeat' split
        all_goals rfl
      refine ⟨hw, ?_⟩
      have hassigned : Assigned connectionId value l
          (serve anyAnswer w l (.assign connectionId value) c).2.1 _ := assigned_serve w l _ _ c
      rcases hassigned with ⟨-, -, hsame⟩ | ⟨x, stamp, a, -, hx, hvalue, hupdate⟩ |
        ⟨x, stamp, e, -, -, -, hsame⟩
      · rwa [hsame]
      · obtain ⟨o, hobjects, ho⟩ := hl
        obtain ⟨hmem, hid⟩ := mem_of_object? hx
        rw [hobjects, List.mem_singleton] at hmem
        subst hmem
        rw [hupdate]
        exact ⟨_, objects_update hobjects hid, hP x a ho (hr stamp x.current a hvalue)⟩
      · rwa [hsame]
  | _ => cases hr

theorem ensuresIf_assigning {P : Object → Prop}
    (hP : ∀ o a, P o → a.accountLabel = o.current.accountLabel → P { o with current := a })
    {p : ConnectorProc α} (hp : Makes assigning p) (hl : Holds P l) :
    EnsuresIf (serve anyAnswer) cond (fun w' l' _ => w' = w ∧ Holds P l') w l p := by
  refine EnsuresIf.mono (fun w' l' out h => h.1) ((hp.follows (serve anyAnswer) l).ensuresIf
    (G := fun w' l' => w' = w ∧ Holds P l') ?_ ⟨rfl, hl⟩)
  rintro w' l' r c ⟨rfl, hl'⟩ hr
  exact serve_assigning hP hr hl' c

theorem accountLabel_of_map {β : Type} {x : Except Failure β} {f : β → Attributes}
    {a a' : Attributes} (h : x.map f = .ok a') (hf : ∀ b, (f b).accountLabel = a.accountLabel) :
    a'.accountLabel = a.accountLabel := by
  cases x with
  | error e => cases h
  | ok b =>
      cases h
      exact hf b

theorem makes_applyTokenBundle (settings : Settings) (connectionId : Nat) (bundle : TokenBundle) :
    Makes assigning (applyTokenBundle settings connectionId bundle) := by
  refine (makes_assign ?_).bind fun _ => (makes_assign ?_).bind fun _ =>
    (makes_assign ?_).bind fun _ => makes_assign ?_
  · exact fun stamp a a' h => accountLabel_of_map h fun _ => rfl
  · intro stamp a a' h
    unfold sealRefreshToken at h
    split at h
    · cases h
      rfl
    · cases h
      rfl
    · exact accountLabel_of_map h fun _ => rfl
  · exact fun stamp a a' h => accountLabel_of_map h fun _ => rfl
  · intro stamp a a' h
    cases h
    rfl

variable {tenantId : Nat} {provider : ConnectorProvider} {state : OAuthState} {label : String}

theorem load_of_empty (hl : l.objects = []) (mark : Nat) (row : Connection) :
    (l.load mark row).objects = [Object.ofRow mark row] := by
  simp [Session.load, Session.object?, hl]

/-- The lookup of the callback, in a session that holds nothing yet. -/
def Found (w : World Unit) (tenantId : Nat) (provider : ConnectorProvider) (state : OAuthState)
    (label : String) (w' : World Unit) (l' : Session) : Except Failure (Option Nat) → Prop
  | .ok (some connectionId) =>
      w' = w ∧ ∃ row mark, targetOf w.tables tenantId provider state label = some row ∧
        row.id = connectionId ∧ l'.objects = [Object.ofRow mark row]
  | .ok none =>
      w' = w ∧ l'.tenantId = tenantId ∧ l'.objects = [] ∧
        targetOf w.tables tenantId provider state label = none
  | .error _ => False

theorem ensuresIf_findConnection (htenant : l.tenantId = tenantId) (hobjects : l.objects = [])
    (hnamed : (state.connectionId.bind fun connectionId =>
      w.tables.connections.find? fun c => c.id == connectionId && c.tenantId == tenantId) = none) :
    EnsuresIf (serve anyAnswer) cond (Found w tenantId provider state label) w l
      (ask (.findConnection provider state.kind label)) := by
  intro c _
  simp only [serve]
  subst htenant
  split
  · rename_i row hrow
    exact ⟨rfl, row, _, by rw [targetOf, hnamed, Option.none_or, hrow], rfl,
      load_of_empty hobjects _ row⟩
  · rename_i hrow
    exact ⟨rfl, rfl, hobjects, by rw [targetOf, hnamed, Option.none_or, hrow]⟩

theorem ensuresIf_connectionFor (htenant : l.tenantId = tenantId) (hobjects : l.objects = []) :
    EnsuresIf (serve anyAnswer) cond (Found w tenantId provider state label) w l
      (connectionFor provider state.kind label state.connectionId) := by
  cases hid : state.connectionId with
  | none => exact ensuresIf_findConnection htenant hobjects (by rw [hid]; rfl)
  | some connectionId =>
      intro c _
      have hnone : l.object? connectionId = none := by simp [Session.object?, hobjects]
      simp only [serve, hnone]
      cases hrow : w.tables.connections.find? fun c =>
          c.id == connectionId && c.tenantId == l.tenantId with
      | some row =>
          refine ⟨rfl, row, _, ?_, ?_, load_of_empty hobjects _ row⟩
          · rw [targetOf, hid, ← htenant]
            simp [hrow]
          · have := List.find?_some hrow
            simp only [Bool.and_eq_true, beq_iff_eq] at this
            exact this.1
      | none =>
          refine ensuresIf_findConnection htenant hobjects ?_
          rw [hid, ← htenant]
          exact hrow

theorem placed_of_none {t : Tables} {row : Connection}
    (htarget : targetOf t tenantId provider state label = none) (htenant : row.tenantId = tenantId)
    (hprovider : row.provider = provider) (hkind : row.kind = state.kind)
    (huser : row.userId = if state.kind = .user then state.userId else none) :
    Placed t state label row := by
  refine ⟨fun h => by rw [huser, if_pos h], fun other hother _ hlive haccount => ?_⟩
  have hnone := (Option.or_eq_none_iff.mp htarget).2
  have hother := List.find?_eq_none.mp hnone other hother
  simp only [account, accountAs, Prod.mk.injEq] at haccount
  obtain ⟨h₁, h₂, h₃, -, h₅⟩ := haccount
  refine hother ?_
  simp only [h₁, h₂, h₃, h₅, htenant, hprovider, hkind, beq_self_eq_true, Bool.and_self,
    Bool.true_and, bne_iff_ne, ne_eq]
  exact hlive

theorem ensuresIf_upsertTarget {scopes : List PyStr} {bundle : TokenBundle}
    (htenant : l.tenantId = tenantId) (hobjects : l.objects = [])
    (hplaced : ∀ row ∈ targetOf w.tables tenantId provider state label,
      Placed w.tables state label row) :
    EnsuresIf (serve anyAnswer) cond
      (fun w' l' out => w' = w ∧ ∀ id, out = .ok id → Holds (Prepared w.tables state label) l') w l
      (upsertTarget provider state.kind (if state.kind = .user then state.userId else none) label
        scopes bundle state.connectionId) := by
  refine ensuresIf_bind (ensuresIf_connectionFor htenant hobjects) ?_ fun _ _ _ h => h.elim
  rintro w' l' (_ | connectionId) hfound
  · obtain ⟨rfl, htenant, hobjects, hnone⟩ := hfound
    dsimp only
    split
    · exact ⟨rfl, fun _ h => by cases h⟩
    · intro c _
      refine ⟨rfl, fun _ _ => ⟨_, congrArg (List.cons _) hobjects, ?_⟩⟩
      exact ⟨(fun h => by cases h), rfl, placed_of_none hnone htenant rfl rfl rfl⟩
  · obtain ⟨rfl, row, mark, htarget, hid, hobjects⟩ := hfound
    have hmem : row ∈ w'.tables.connections := by
      rcases Option.or_eq_some_iff.mp htarget with hnamed | ⟨-, hlive⟩
      · obtain ⟨_, -, hrow⟩ := Option.bind_eq_some_iff.mp hnamed
        exact List.mem_of_find?_eq_some hrow
      · exact List.mem_of_find?_eq_some hlive
    have hobject : l'.object? connectionId = some (Object.ofRow mark row) := by
      simp [Session.object?, hobjects, Object.ofRow, hid]
    intro c _
    simp only [serve, hobject, widenScopes]
    refine ⟨rfl, fun _ _ => ⟨_, objects_update hobjects hid, ?_⟩⟩
    exact ⟨fun _ => hmem, rfl, hplaced row htarget⟩

/-- What a callback may leave: sound tables, in which every new or changed
connection of a flow of kind USER is of its user. -/
def Kept (state : OAuthState) (t t' : Tables) : Prop :=
  Sound t' ∧ (state.kind = .user →
    ∀ row ∈ t'.connections, row ∈ t.connections ∨ row.userId = state.userId)

theorem Kept.refl {t : Tables} (hsound : Sound t) : Kept state t t :=
  ⟨hsound, fun _ _ hrow => .inl hrow⟩

theorem Kept.congr {t t' t'' : Tables} (h : t''.connections = t'.connections)
    (hkept : Kept state t t') : Kept state t t'' :=
  ⟨hkept.1.congr h, fun hkind row hrow => hkept.2 hkind row (h ▸ hrow)⟩

theorem ensuresIf_upsertConnection (settings : Settings) {scopes : List PyStr}
    {bundle : TokenBundle} (htenant : l.tenantId = tenantId) (hobjects : l.objects = [])
    (hplaced : ∀ row ∈ targetOf w.tables tenantId provider state label,
      Placed w.tables state label row) :
    EnsuresIf (serve anyAnswer) cond
      (fun w' l' out => w' = w ∧ ∀ id, out = .ok id → Holds (Prepared w.tables state label) l') w l
      (upsertConnection settings provider state.kind
        (if state.kind = .user then state.userId else none) label scopes bundle
        state.connectionId) := by
  refine ensuresIf_bind (ensuresIf_upsertTarget htenant hobjects hplaced) ?_ ?_
  · rintro w' l' target ⟨rfl, hprepared⟩
    have hrest : Makes assigning (do
        applyTokenBundle settings target bundle
        let connection ← readObject target
        if connection.attributes.refreshTokenEnc = [] then
          throw (.missingRefreshToken
            s!"{provider.value} n'a pas émis de refresh token pour cette connexion.")
        return target : ConnectorProc Nat) := by
      refine (makes_applyTokenBundle settings target bundle).bind fun _ =>
        (makes_readObject trivial).bind fun connection => ?_
      split <;> trivial
    refine (ensuresIf_assigning ?_ hrest (hprepared target rfl)).mono ?_
    · intro o a ho hlabel
      exact ⟨ho.loaded, hlabel.trans ho.labelled, ho.placed⟩
    · rintro w'' l'' out ⟨rfl, hholds⟩
      exact ⟨rfl, fun _ _ => hholds⟩
  · rintro w' l' e ⟨rfl, -⟩
    exact ⟨rfl, fun _ h => by cases h⟩

theorem ensuresIf_commit {P : Object → Prop} (hl : Holds P l) (hsound : Sound w.tables)
    (hloaded : ∀ o, P o → Loaded w.tables o) (halone : ∀ o, P o → Alone w.tables o.view) :
    EnsuresIf (serve anyAnswer) cond
      (fun w' _ _ => Sound w'.tables ∧ ∃ o, P o ∧
        ∀ row ∈ w'.tables.connections, row ∈ w.tables.connections ∨ row = o.view) w l commit := by
  obtain ⟨o, hobjects, ho⟩ := hl
  refine ensuresIf_request_bind.mpr fun c _ => ensuresIf_ofExcept ?_
  simp only [serve, World.commit, hobjects]
  split
  · rename_i t hcommit
    obtain ⟨ht, hrows⟩ := sound_commit hsound (hloaded o ho) (halone o ho) hcommit
    exact ⟨ht, o, ho, hrows⟩
  · exact ⟨hsound, o, ho, fun row hrow => .inl hrow⟩

theorem ensuresIf_connectInSession (settings : Settings) {bundle : TokenBundle}
    {accountLabel : PyStr} {scopes : List PyStr} (hsound : Sound w.tables)
    (hplaced : ∀ label ∈ (labelText accountLabel).toOption,
      ∀ row ∈ targetOf w.tables tenantId provider state label, Placed w.tables state label row) :
    EnsuresIf (serve anyAnswer) cond (fun w' _ _ => Kept state w.tables w'.tables) w l
      (connectInSession settings provider state tenantId bundle accountLabel scopes) := by
  refine ensuresIf_request_bind.mpr fun _ _ => ?_
  simp only [serve]
  cases hlabel : labelText accountLabel with
  | error e => exact Kept.refl hsound
  | ok label =>
      simp only [Proc.ofExcept, Proc.ret_bind]
      have htarget := hplaced label (by rw [hlabel]; rfl)
      refine ensuresIf_bind (Q := fun w' l' out => w' = w ∧
        ∀ id, out = .ok id → Holds (Prepared w.tables state label) l')
        (ensuresIf_attempt_bind (ensuresIf_upsertConnection settings rfl rfl htarget) ?_) ?_ ?_
      · rintro w' l' (e | id) ⟨rfl, hprepared⟩
        · exact ⟨rfl, fun _ h => by cases h⟩
        · exact ⟨rfl, fun id h => hprepared id h⟩
      · rintro w' l' id ⟨rfl, hprepared⟩
        refine ensuresIf_request_bind.mpr fun _ _ => ?_
        simp only [serve]
        refine ensuresIf_bind (Q := fun w'' _ _ => Kept state w'.tables w''.tables)
          ((ensuresIf_commit (P := Prepared w'.tables state label) ?_ hsound
            (fun o ho => ho.loaded) fun o ho => ho.alone).mono ?_)
          (fun _ _ _ h => by exact h) fun _ _ _ h => h
        · exact hprepared id rfl
        · rintro w'' l'' out ⟨ht, o, ho, hrows⟩
          refine ⟨ht, fun hkind row hrow => (hrows row hrow).imp_right ?_⟩
          rintro rfl
          exact ho.placed.1 hkind
      · rintro w' l' e ⟨rfl, -⟩
        exact Kept.refl hsound

/-- Requests of the control plane, which leave the connections. -/
def closing : Request → Prop
  | .selectRoute _ => True
  | .generateToken => True
  | .addRoute _ => True
  | .deleteRoutesOf _ => True
  | .commitControl => True
  | .enqueue _ => True
  | _ => False

theorem connections_serve_closing {r : Request} (hr : closing r) (c : Choice) :
    (serve anyAnswer w l r c).1.tables.connections = w.tables.connections := by
  cases r with
  | selectRoute connectionId => rfl
  | generateToken => rfl
  | addRoute route => rfl
  | deleteRoutesOf connectionId => rfl
  | enqueue task => rfl
  | commitControl =>
      simp only [serve, World.commitControl]
      split
      · rename_i t happly
        exact connections_applyAll happly
      · rfl
  | _ => cases hr

theorem ensuresIf_closing {p : ConnectorProc α} (hp : Makes closing p) :
    EnsuresIf (serve anyAnswer) cond
      (fun w' _ _ => w'.tables.connections = w.tables.connections) w l p := by
  refine EnsuresIf.mono (fun w' l' out h => h.1) ((hp.follows (serve anyAnswer) l).ensuresIf
    (G := fun w' _ => w'.tables.connections = w.tables.connections) ?_ rfl)
  intro w' l' r c hsame hr
  rw [connections_serve_closing hr c, hsame]

theorem makes_commitControl : Makes closing commitControl :=
  makes_request_bind.mpr ⟨trivial, fun _ => makes_ofExcept _⟩

theorem makes_ensureWebhookRoute (tenantId : Nat) (provider : ConnectorProvider)
    (connectionId : Nat) : Makes closing (ensureWebhookRoute tenantId provider connectionId) := by
  refine makes_request_bind.mpr ⟨trivial, fun route => ?_⟩
  cases route with
  | none => exact ⟨trivial, fun _ => ⟨trivial, fun _ => trivial⟩⟩
  | some route => trivial

theorem ensuresIf_exchangeAndLabel (settings : Settings) {code : String} {tenant : Tenant}
    (htenant : w.tables.directory.tenants.find? (fun t => t.slug == state.tenantSlug) =
      some tenant) :
    EnsuresIf (serve anyAnswer) (ownAccount provider state)
      (fun w' _ out => w'.tables = w.tables ∧
        ∀ bundle accountLabel, out = .ok (bundle, accountLabel) →
          ∀ label ∈ (labelText accountLabel).toOption,
            ∀ row ∈ targetOf w.tables tenant.id provider state label,
              Placed w.tables state label row) w l
      (rethrow oauthFailure (exchangeAndLabel settings tenant.id provider code)) := by
  refine ensuresIf_attempt_bind (Q := fun w' _ out => w'.tables = w.tables ∧
    ∀ bundle accountLabel, out = .ok (bundle, accountLabel) →
      ∀ label ∈ (labelText accountLabel).toOption,
        ∀ row ∈ targetOf w.tables tenant.id provider state label, Placed w.tables state label row)
    (ensuresIf_bind (Q := fun w' _ _ => w'.tables = w.tables) ?_ ?_ ?_) ?_
  · unfold exchangeCode
    cases clientCredentials settings provider with
    | error e => exact rfl
    | ok credentials => exact fun c _ => ensuresIf_ofExcept rfl
  · rintro w' l' bundle htables
    simp only [fetchAccountLabel, Proc.bind_assoc]
    refine ensuresIf_request_bind.mpr fun c hc => ?_
    simp only [serve]
    cases hlabel : accountLabelOf provider c.answer with
    | error e => exact ⟨htables, fun _ _ h => by cases h⟩
    | ok accountLabel =>
        refine ⟨htables, fun _ _ h label hmem => ?_⟩
        cases h
        simp only [ownAccount, htables] at hc
        refine hc label ?_ tenant htenant
        rw [answeredLabel, hlabel]
        exact hmem
  · rintro w' l' e htables
    exact ⟨htables, fun _ _ h => by cases h⟩
  · rintro w' l' (e | pair) ⟨htables, hpair⟩
    · exact ⟨htables, fun _ _ h => by cases h⟩
    · exact ⟨htables, hpair⟩

theorem ensuresIf_connectorOauthCallback (settings : Settings) {code error : Option String}
    (hsound : Sound w.tables) :
    EnsuresIf (serve anyAnswer) (ownAccount provider state)
      (fun w' _ _ => Kept state w.tables w'.tables) w l
      (connectorOauthCallback settings provider (some state) code error) := by
  unfold connectorOauthCallback
  cases code with
  | none => exact Kept.refl hsound
  | some code =>
      dsimp only
      split
      · exact Kept.refl hsound
      refine ensuresIf_request_bind.mpr fun _ _ => ?_
      simp only [serve]
      cases htenant : w.tables.directory.tenants.find? fun t => t.slug == state.tenantSlug with
      | none => exact Kept.refl hsound
      | some tenant =>
          dsimp only
          split
          · exact Kept.refl hsound
          refine ensuresIf_bind (ensuresIf_exchangeAndLabel settings htenant) ?_ ?_
          · rintro w' l' ⟨bundle, accountLabel⟩ ⟨htables, hplaced⟩
            rw [← htables] at hsound hplaced ⊢
            cases grantedScopes provider state.capabilities bundle with
            | error e => exact Kept.refl hsound
            | ok scopes =>
                simp only [Proc.ofExcept, Proc.ret_bind]
                refine ensuresIf_bind (Q := fun w'' _ _ => Kept state w'.tables w''.tables)
                  (ensuresIf_connectInSession settings hsound (hplaced bundle accountLabel rfl))
                  ?_ fun _ _ _ h => h
                intro w'' l'' connectionId hkept
                refine (ensuresIf_closing ?_).mono fun _ _ _ hsame => hkept.congr hsame
                refine (makes_ensureWebhookRoute ..).bind fun _ =>
                  makes_commitControl.bind fun _ => ?_
                exact ⟨trivial, fun _ => trivial⟩
          · rintro w' l' e ⟨htables, -⟩
            rw [htables]
            exact Kept.refl hsound

/-- The object of a revocation, before and after it is marked. -/
structure Revoking (t : Tables) (o : Object) : Prop where
  loaded : o.row ∈ t.connections
  revoked : o.current.status = .revoked

theorem Revoking.alone {t : Tables} {o : Object} (h : Revoking t o) : Alone t o.view :=
  fun hlive => absurd h.revoked hlive

theorem ensuresIf_getConnection {connectionId : Nat} (hobjects : l.objects = []) :
    EnsuresIf (serve anyAnswer) cond
      (fun w' l' out => w' = w ∧ (out = .ok true →
        ∃ row mark, row ∈ w.tables.connections ∧ row.id = connectionId ∧
          l'.objects = [Object.ofRow mark row])) w l (ask (.getConnection connectionId)) := by
  intro c _
  have hnone : l.object? connectionId = none := by simp [Session.object?, hobjects]
  simp only [serve, hnone]
  split
  · rename_i row hrow
    refine ⟨rfl, fun _ => ⟨row, _, List.mem_of_find?_eq_some hrow, ?_,
      load_of_empty hobjects _ row⟩⟩
    have := List.find?_some hrow
    simp only [Bool.and_eq_true, beq_iff_eq] at this
    exact this.1
  · exact ⟨rfl, fun h => by cases h⟩

theorem ensuresIf_readObject {connectionId : Nat} :
    EnsuresIf (serve anyAnswer) cond (fun w' l' _ => w' = w ∧ l' = l) w l
      (readObject connectionId) := by
  refine ensuresIf_request_bind.mpr fun c _ => ?_
  simp only [serve]
  cases l.object? connectionId with
  | none => exact ⟨rfl, rfl⟩
  | some o => exact ⟨rfl, rfl⟩

theorem ensuresIf_revokeConnection (settings : Settings) {connectionId mark : Nat}
    {row : Connection} (hrow : row ∈ w.tables.connections) (hid : row.id = connectionId)
    (hobjects : l.objects = [Object.ofRow mark row]) :
    EnsuresIf (serve anyAnswer) cond
      (fun w' l' out => w'.tables = w.tables ∧ (out = .ok () → Holds (Revoking w.tables) l')) w l
      (revokeConnection settings connectionId) := by
  have hmark (w₁ : World Unit) (htables : w₁.tables = w.tables) :
      EnsuresIf (serve anyAnswer) cond (fun w' l' out => w'.tables = w.tables ∧
        (out = .ok () → Holds (Revoking w.tables) l')) w₁ l (assign connectionId markRevoked) := by
    have hobject : l.object? connectionId = some (Object.ofRow mark row) := by
      simp [Session.object?, hobjects, Object.ofRow, hid]
    intro c _
    simp only [serve, hobject, markRevoked]
    exact ⟨htables, fun _ => ⟨_, objects_update hobjects hid, hrow, rfl⟩⟩
  refine ensuresIf_bind ensuresIf_readObject ?_ ?_
  · rintro w' l' connection ⟨rfl, rfl⟩
    split
    · refine ensuresIf_attempt_bind (Q := fun w'' l'' _ => w''.tables = w'.tables ∧ l'' = l') ?_ ?_
      · unfold revokeAtProvider
        cases settings.keys.decrypt connection.attributes.refreshTokenEnc with
        | error e => exact ⟨rfl, rfl⟩
        | ok token => exact fun _ _ => ⟨rfl, rfl⟩
      · rintro w'' l'' outcome ⟨htables, rfl⟩
        exact hmark w'' htables
    · exact hmark w' rfl
  · rintro w' l' e ⟨rfl, -⟩
    exact ⟨rfl, fun h => by cases h⟩

theorem ensuresIf_connectorRevoke (settings : Settings) (actor : User) (connectionId : Nat)
    (hsound : Sound w.tables) :
    EnsuresIf (serve anyAnswer) cond (fun w' _ _ => Sound w'.tables) w l
      (connectorRevoke settings tenantId actor connectionId) := by
  refine ensuresIf_request_bind.mpr fun _ _ => ?_
  simp only [serve]
  refine ensuresIf_bind (ensuresIf_getConnection rfl) ?_ ?_
  · rintro w' l' found ⟨rfl, hfound⟩
    cases found with
    | false => exact hsound
    | true =>
        obtain ⟨row, mark, hrow, hid, hobjects⟩ := hfound rfl
        refine ensuresIf_bind ensuresIf_readObject ?_ ?_
        · rintro w'' l'' connection ⟨rfl, rfl⟩
          split
          · exact hsound
          refine ensuresIf_bind (ensuresIf_revokeConnection settings hrow hid hobjects) ?_ ?_
          · rintro w' l' ⟨⟩ ⟨htables, hrevoking⟩
            rw [← htables] at hsound hrevoking
            refine ensuresIf_request_bind.mpr fun _ _ => ensuresIf_request_bind.mpr fun _ _ => ?_
            refine ensuresIf_bind (ensuresIf_commit (P := Revoking w'.tables) ?_ hsound
              (fun o ho _ => ho.loaded) fun o ho => ho.alone) ?_ fun _ _ _ h => h.1
            · exact hrevoking rfl
            · rintro w'' l'' ⟨⟩ ⟨ht, -⟩
              refine (ensuresIf_closing ?_).mono fun _ _ _ hsame => ht.congr hsame
              exact makes_request_bind.mpr ⟨trivial, fun _ => makes_commitControl⟩
          · rintro w' l' e ⟨htables, -⟩
            rw [htables]
            exact hsound
        · rintro w'' l'' e ⟨rfl, -⟩
          exact hsound
  · rintro w' l' e ⟨rfl, -⟩
    exact hsound

theorem ensuresIf_reconsentFlow (settings : Settings) (tenant : Tenant) (returnHost : String)
    (actor : User) (connectionId : Nat) :
    EnsuresIf (serve anyAnswer) cond (fun w' _ _ => w' = w) w l
      (reconsentFlow settings tenant returnHost actor connectionId) := by
  refine ensuresIf_bind (Q := fun w' _ _ => w' = w) ?_ ?_ fun _ _ _ h => h
  · refine ensuresIf_request_bind.mpr fun _ _ => ?_
    simp only [serve]
    refine ensuresIf_bind (ensuresIf_getConnection rfl) ?_ fun _ _ _ h => h.1
    rintro w' l' found ⟨rfl, -⟩
    cases found with
    | false => exact rfl
    | true =>
        refine ensuresIf_bind ensuresIf_readObject ?_ fun _ _ _ h => h.1
        rintro w'' l'' connection ⟨rfl, rfl⟩
        repeat' split
        all_goals exact rfl
  · rintro w' l' state rfl
    refine ensuresIf_bind ensuresIf_readObject ?_ fun _ _ _ h => h.1
    rintro w'' l'' connection ⟨rfl, -⟩
    exact rfl

end Procedures

theorem evalMeets_true {α : Type} (p : ConnectorProc α) (w : World Unit) (l : Session)
    (choices : Nat → Choice) :
    EvalMeets (serve anyAnswer) (fun _ _ _ _ => True) p w l choices :=
  evalMeets_of_choices (P := fun _ => True) (fun _ => trivial) p w l

variable {settings : Settings}

theorem kept_callback {s : Flows} {provider : ConnectorProvider} {state : OAuthState}
    {code error : Option String} {choices : Nat → Choice} (hsound : Sound s.world.tables)
    (hmeets : Meets settings s (.callback provider (some state) code error choices)) :
    Kept state s.world.tables (served s.world
      (connectorOauthCallback settings provider (some state) code error) choices).tables :=
  eval_of_ensuresIf (ensuresIf_connectorOauthCallback settings hsound) choices hmeets

theorem sound_step {s t : Flows} {request : ConnectorRequest} (hsound : Sound s.world.tables)
    (hmeets : Meets settings s request) (hstep : step settings s request = some t) :
    Sound t.world.tables := by
  cases request with
  | start tenant returnHost actor provider kind capabilities =>
      simp only [step] at hstep
      split at hstep
      · cases hstep
        exact hsound
      · cases hstep
        exact hsound
  | reconsent tenant returnHost actor connectionId choices =>
      have hworld := eval_of_ensuresIf (ensuresIf_reconsentFlow (w := s.world) (l := {}) settings
        tenant returnHost actor connectionId) choices (evalMeets_true _ _ _ _)
      simp only [step, hworld] at hstep
      split at hstep
      · cases hstep
        exact hsound
      · cases hstep
        exact hsound
  | callback provider state code error choices =>
      simp only [step] at hstep
      split at hstep
      · cases hstep
        cases state with
        | none => exact hsound
        | some state => exact (kept_callback hsound hmeets).1
      · cases hstep
  | revoke tenantId actor connectionId choices =>
      cases hstep
      exact eval_of_ensuresIf (ensuresIf_connectorRevoke settings actor connectionId hsound) choices
        (evalMeets_true _ _ _ _)

theorem ownOnly_of_meets {s : Flows} {request : ConnectorRequest} (hsound : Sound s.world.tables)
    (hmeets : Meets settings s request) : OwnOnly settings s request := by
  cases request with
  | callback provider state code error choices =>
      cases state with
      | none => trivial
      | some state => exact (kept_callback hsound hmeets).2
  | _ => trivial

/-- Over every sequence of requests: when each callback is answered an account
that its connection may be given, a callback of kind USER only creates or updates
connections of its user, and no account has two connections that are not
revoked. -/
theorem personal_connections_apart {s t : Flows} {schedule : List ConnectorRequest}
    (hids : DistinctIds s.world.tables) (haccounts : OnePerAccount s.world.tables)
    (halong : Along (step settings) (Meets settings) s schedule)
    (hrun : run (step settings) s schedule = some t) :
    Along (step settings) (OwnOnly settings) s schedule ∧ OnePerAccount t.world.tables := by
  have hstep : ∀ s request t, Sound s.world.tables → Meets settings s request →
      step settings s request = some t → Sound t.world.tables :=
    fun s request t hsound hmeets => sound_step hsound hmeets
  refine ⟨?_, ?_⟩
  · exact halong.of_invariant hstep (fun s request => ownOnly_of_meets) ⟨hids, haccounts⟩
  · exact (@run_invariant _ _ (step settings) (Meets settings) (fun s => Sound s.world.tables) hstep
      _ _ _ ⟨hids, haccounts⟩ halong hrun).accounts

instance (settings : Settings) (s : Flows) (request : ConnectorRequest) :
    Decidable (Meets settings s request) := by
  unfold Meets
  split <;> infer_instance

instance (settings : Settings) (s : Flows) (request : ConnectorRequest) :
    Decidable (OwnOnly settings s request) := by
  unfold OwnOnly
  split <;> infer_instance

instance (t : Tables) : Decidable (OnePerAccount t) := by
  unfold OnePerAccount
  infer_instance

instance (t : Tables) : Decidable (DistinctIds t) :=
  inferInstanceAs (Decidable (List.Nodup _))

def acme : Tenant := ⟨1, "acme", "Acme", .active, none⟩

def alice : User := ⟨1, "alice@example.org", none⟩

def bob : User := ⟨2, "bob@example.org", none⟩

/-- No state is signed yet. -/
def before (connections : List Connection) : Flows :=
  ⟨⟨tablesWith connections [] [], [], [], (), []⟩, []⟩

def stateOf (user : User) (connectionId : Option Nat) : OAuthState :=
  ⟨"acme", some user.id, .user, ["mail", "calendar"],
    validateReturnHost configured "acme.localhost:8000", connectionId⟩

/-- The code is exchanged, then the account endpoint answers. -/
def answering (connectionId : Nat) (answer : HttpAnswer) (n : Nat) : Choice where
  uuid := connectionId
  nonce := connectionId
  token := toString connectionId
  answer := if n = 1 then tokenAnswer "access" "refresh" else answer

def callbackOf (state : OAuthState) (connectionId : Nat) (answer : HttpAnswer) : ConnectorRequest :=
  .callback .google (some state) (some "code") none (answering connectionId answer)

/-- The callback has been served. -/
def calledBack (s : Flows) (state : OAuthState) (connectionId : Nat) (answer : HttpAnswer) :
    Flows :=
  { s with
    world := served s.world
      (connectorOauthCallback configured .google (some state) (some "code") none)
      (answering connectionId answer) }

theorem step_callback {s : Flows} {state : OAuthState} (hsigned : (.google, state) ∈ s.issued)
    (connectionId : Nat) (answer : HttpAnswer) :
    step configured s (callbackOf state connectionId answer) =
      some (calledBack s state connectionId answer) := by
  simp [step, callbackOf, calledBack, hsigned]

def accountOf (user : User) : HttpAnswer :=
  .response ⟨200, .json (.obj [(py "email", .str (py user.email))])⟩

def unavailable : HttpAnswer := .response ⟨503, .invalid "JSONDecodeError"⟩

/-- A user starts a flow of kind USER, and the provider calls back. -/
def flow (user : User) (connectionId : Nat) (answer : HttpAnswer) : List ConnectorRequest :=
  [.start acme "acme.localhost:8000" user .google .user none,
    callbackOf (stateOf user none) connectionId answer]

/-- The state of a flow is signed. -/
def started (s : Flows) (user : User) : Flows :=
  { s with issued := s.issued ++ [(.google, stateOf user none)] }

/-- The flow has come to its end. -/
def connected (s : Flows) (user : User) (connectionId : Nat) (answer : HttpAnswer) : Flows :=
  calledBack (started s user) (stateOf user none) connectionId answer

section Flow

variable (s : Flows) (user : User) (connectionId : Nat) (answer : HttpAnswer)

theorem step_start : step configured s (.start acme "acme.localhost:8000" user .google .user none) =
    some (started s user) := rfl

theorem step_started : step configured (started s user)
    (callbackOf (stateOf user none) connectionId answer) =
      some (connected s user connectionId answer) :=
  step_callback (List.mem_append_right _ (List.mem_singleton.mpr rfl)) connectionId answer

theorem run_flow : run (step configured) s (flow user connectionId answer) =
    some (connected s user connectionId answer) := by
  rw [flow, run, step_start, Option.bind_some, run, step_started]
  rfl

theorem along_flow {ok : Flows → ConnectorRequest → Prop} :
    Along (step configured) ok s (flow user connectionId answer) ↔
      ok s (.start acme "acme.localhost:8000" user .google .user none) ∧
        ok (started s user) (callbackOf (stateOf user none) connectionId answer) := by
  rw [flow, along_cons_of_step (step_start s user),
    along_cons_of_step (step_started s user connectionId answer)]
  simp [Along]

end Flow

/-- Two users connect their accounts. -/
theorem own_flows_apart :
    ∃ t, run (step configured) (before [])
        (flow alice 11 (accountOf alice) ++ flow bob 12 (accountOf bob)) = some t ∧
      Along (step configured) (OwnOnly configured) (before [])
        (flow alice 11 (accountOf alice) ++ flow bob 12 (accountOf bob)) ∧
      OnePerAccount t.world.tables := by
  have hrun := run_append_eq_some.mpr ⟨_, run_flow (before []) alice 11 (accountOf alice),
    run_flow _ bob 12 (accountOf bob)⟩
  refine ⟨_, hrun, personal_connections_apart (by decide) (by decide) ?_ hrun⟩
  refine (along_append (run_flow ..)).mpr ⟨(along_flow ..).mpr ⟨trivial, ?_⟩,
    (along_flow ..).mpr ⟨trivial, ?_⟩⟩
  · decide +kernel
  · decide +kernel

/-- Two Google accounts of a user: one has lost its consent, the label of the
other could not be read. -/
def accountsOfAlice : List Connection :=
  [⟨21, 1, .google, .user, some 1,
      ⟨"alice@example.org", [], framedKeys.encrypt 1 (py "access"),
        framedKeys.encrypt 2 (py "refresh"), 0, .needsReconsent, none, none⟩⟩,
    ⟨22, 1, .google, .user, some 1,
      ⟨"compte google", [], framedKeys.encrypt 3 (py "access"),
        framedKeys.encrypt 4 (py "refresh"), 0, .active, none, none⟩⟩]

def reconsentState : OAuthState :=
  { stateOf alice (some 21) with capabilities := ["calendar", "mail"] }

def reconsented : Flows :=
  { before accountsOfAlice with issued := [(.google, reconsentState)] }

theorem step_reconsent : step configured (before accountsOfAlice)
    (.reconsent acme "acme.localhost:8000" alice 21 fun _ => {}) = some reconsented := rfl

/-- When the account endpoint fails, the flow of a second user updates the
connection of the first, and a re-consent gives a connection the account of
another one. -/
theorem accounts_merged :
    ¬ Along (step configured) (OwnOnly configured) (before [])
        (flow alice 11 unavailable ++ flow bob 12 unavailable) ∧
      OnePerAccount (before accountsOfAlice).world.tables ∧
      ∃ t, run (step configured) (before accountsOfAlice)
          [.reconsent acme "acme.localhost:8000" alice 21 fun _ => {},
            callbackOf reconsentState 13 unavailable] = some t ∧
        ¬ OnePerAccount t.world.tables := by
  refine ⟨?_, by decide, ?_⟩
  · rw [along_append (run_flow ..), along_flow, along_flow]
    rintro ⟨-, -, hown⟩
    revert hown
    decide +kernel
  · have hcallback := step_callback (s := reconsented) (List.mem_singleton.mpr rfl) 13 unavailable
    refine ⟨_, run_cons_eq_some.mpr ⟨_, step_reconsent,
      run_cons_eq_some.mpr ⟨_, hcallback, rfl⟩⟩, ?_⟩
    decide +kernel

end Socle.PersonalConnections
