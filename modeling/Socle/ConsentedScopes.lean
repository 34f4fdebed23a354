import Socle.PersonalConnections

/-!
Consented scopes: what a flow asks for the capabilities of a manifest, what a connection
that holds it grants, and what a new consent leaves granted.
-/

namespace Socle.ConsentedScopes

open Socle.Procedures
open Socle.TokenExchange (PyStr py Failure ConnectorProvider TokenBundle)
open Socle.ConnectorStore
open Socle.ConnectorService (ProviderManifest ConnectorProc scopesFor getProvider
  upsertConnection upsertTarget connectionFor applyTokenBundle widenScopes scopeUnion insertScope
  assign commit readObject Settings sealAccessToken sealRefreshToken stampExpiry markHealthy)
open Socle.ConnectorTransactions (mem_of_object? mem_load commit_eq_ok connections_applyAll)
open Socle.PersonalConnections (DistinctIds knownCapabilities reprList)

/-- `validate_capabilities`. -/
def validateCapabilities (manifest : ProviderManifest) (provider : ConnectorProvider)
    (capabilities : List String) : Except String (List String) :=
  let unknown := capabilities.filter fun c => !knownCapabilities.contains c
  let unsupported := capabilities.filter fun c =>
    !manifest.capabilityScopes.any fun entry => entry.1 == c
  let named := if unknown = [] then "aucune" else reprList unknown
  if unknown ≠ [] ∨ capabilities = [] then
    .error s!"Capabilities invalides : {named}"
  else if unsupported ≠ [] then
    .error s!"Capabilities non supportées par {provider.value} : {reprList unsupported}"
  else .ok capabilities

/-- `granted_capabilities`, with the manifests of any registry. -/
def grantedCapabilities (registry : ConnectorProvider → ProviderManifest)
    (connection : Connection) : List String :=
  ((registry connection.provider).capabilityScopes.filter fun entry =>
    entry.2.all fun scope => connection.attributes.scopes.contains (py scope)).map (·.1)

/-- `manifest.capability_scopes[capability]`. -/
def scopesOf (manifest : ProviderManifest) (capability : String) : List String :=
  ((manifest.capabilityScopes.find? fun entry => entry.1 == capability).map Prod.snd).getD []

theorem validateCapabilities_getProvider (provider : ConnectorProvider)
    (capabilities : List String) :
    validateCapabilities (getProvider provider) provider capabilities =
      PersonalConnections.validateCapabilities provider capabilities := rfl

theorem grantedCapabilities_getProvider (connection : Connection) :
    grantedCapabilities getProvider connection =
      ConnectorService.grantedCapabilities connection := rfl

section Manifests

variable {manifest : ProviderManifest} {provider : ConnectorProvider}
  {capabilities accepted : List String}

theorem find_of_validateCapabilities
    (h : validateCapabilities manifest provider capabilities = .ok accepted) :
    ∀ c ∈ capabilities, ∃ entry,
      manifest.capabilityScopes.find? (fun entry => entry.1 == c) = some entry := by
  rw [validateCapabilities] at h
  split at h
  · cases h
  · split at h
    · cases h
    · rename_i hsupported
      intro c hc
      have hany := List.filter_eq_nil_iff.mp (not_not.mp hsupported) c hc
      rw [Bool.not_not_eq, List.any_eq_true] at hany
      obtain ⟨entry, hentry, hkey⟩ := hany
      exact Option.isSome_iff_exists.mp (List.find?_isSome.mpr ⟨entry, hentry, hkey⟩)

/-- `scopes.extend(scope for scope in new if scope not in scopes)`: the filter sees what
was appended before. -/
def extendNew (scopes new : List String) : List String :=
  new.foldl
    (fun scopes scope => if scopes.contains scope then scopes else scopes ++ [scope]) scopes

theorem nodup_extendNew {scopes : List String} (h : scopes.Nodup) (new : List String) :
    (extendNew scopes new).Nodup := by
  induction new generalizing scopes with
  | nil => exact h
  | cons scope rest ih =>
      refine ih ?_
      show (if scopes.contains scope then scopes else scopes ++ [scope]).Nodup
      by_cases hmem : scopes.contains scope = true
      · rwa [if_pos hmem]
      · rw [if_neg hmem]
        rw [List.contains_iff_mem] at hmem
        exact List.nodup_append.mpr ⟨h, List.nodup_singleton scope, fun a ha b hb heq =>
          hmem (List.mem_singleton.mp hb ▸ heq ▸ ha)⟩

theorem mem_extendNew {scopes new : List String} {s : String} :
    s ∈ extendNew scopes new ↔ s ∈ scopes ∨ s ∈ new := by
  induction new generalizing scopes with
  | nil => simp [extendNew]
  | cons scope rest ih =>
      have hstep : s ∈ (if scopes.contains scope then scopes else scopes ++ [scope]) ↔
          s ∈ scopes ∨ s = scope := by
        by_cases hmem : scopes.contains scope = true
        · rw [if_pos hmem]
          rw [List.contains_iff_mem] at hmem
          exact ⟨.inl, fun h => h.elim id fun heq => heq ▸ hmem⟩
        · rw [if_neg hmem, List.mem_append, List.mem_singleton]
      rw [List.mem_cons, ← or_assoc, ← hstep]
      exact ih

theorem scopesFor_cons {c : String} {rest : List String} {entry : String × List String}
    (h : manifest.capabilityScopes.find? (fun entry => entry.1 == c) = some entry) :
    scopesFor manifest (c :: rest) =
      scopesFor { manifest with baseScopes := extendNew manifest.baseScopes entry.2 } rest := by
  rw [scopesFor, List.foldlM_cons, h]
  rfl

theorem scopesFor_ok (hfound : ∀ c ∈ capabilities, ∃ entry,
      manifest.capabilityScopes.find? (fun entry => entry.1 == c) = some entry)
    (hbase : manifest.baseScopes.Nodup) :
    ∃ scopes, scopesFor manifest capabilities = .ok scopes ∧ scopes.Nodup ∧
      ∀ s, s ∈ scopes ↔
        s ∈ manifest.baseScopes ∨ ∃ c ∈ capabilities, s ∈ scopesOf manifest c := by
  induction capabilities generalizing manifest with
  | nil => exact ⟨manifest.baseScopes, rfl, hbase, fun s => by simp⟩
  | cons c rest ih =>
      obtain ⟨entry, hentry⟩ := hfound c List.mem_cons_self
      have hscopes : scopesOf manifest c = entry.2 := by rw [scopesOf, hentry]; rfl
      obtain ⟨scopes, hok, hnodup, hmem⟩ :=
        @ih { manifest with baseScopes := extendNew manifest.baseScopes entry.2 }
          (fun c' hc' => hfound c' (List.mem_cons_of_mem _ hc')) (nodup_extendNew hbase entry.2)
      refine ⟨scopes, (scopesFor_cons hentry).trans hok, hnodup, fun s => ?_⟩
      rw [hmem s, mem_extendNew, or_assoc, List.exists_mem_cons_iff, hscopes]
      rfl

theorem mem_grantedCapabilities {registry : ConnectorProvider → ProviderManifest}
    {connection : Connection} {capability : String} :
    capability ∈ grantedCapabilities registry connection ↔
      ∃ entry ∈ (registry connection.provider).capabilityScopes, entry.1 = capability ∧
        ∀ scope ∈ entry.2, py scope ∈ connection.attributes.scopes := by
  simp only [grantedCapabilities, List.mem_map, List.mem_filter, List.all_eq_true,
    List.contains_iff_mem]
  constructor
  · rintro ⟨entry, ⟨hentry, hscopes⟩, hkey⟩
    exact ⟨entry, hentry, hkey, hscopes⟩
  · rintro ⟨entry, hentry, hkey, hscopes⟩
    exact ⟨entry, ⟨hentry, hscopes⟩, hkey⟩

theorem granted_of_scopesOf {registry : ConnectorProvider → ProviderManifest}
    {connection : Connection} {capability : String} {entry : String × List String}
    (hentry : (registry connection.provider).capabilityScopes.find?
      (fun entry => entry.1 == capability) = some entry)
    (hscopes : ∀ scope ∈ scopesOf (registry connection.provider) capability,
      py scope ∈ connection.attributes.scopes) :
    capability ∈ grantedCapabilities registry connection := by
  rw [scopesOf, hentry] at hscopes
  have hkey : entry.1 = capability := by simpa using List.find?_some hentry
  exact mem_grantedCapabilities.mpr ⟨entry, List.mem_of_find?_eq_some hentry, hkey, hscopes⟩

end Manifests

/-- A row that has at least the scopes of another, which it replaces. -/
structure Widens (before after : Connection) : Prop where
  sameId : after.id = before.id
  provider : after.provider = before.provider
  scopes : ∀ scope ∈ before.attributes.scopes, scope ∈ after.attributes.scopes

theorem Widens.refl (row : Connection) : Widens row row := ⟨rfl, rfl, fun _ => id⟩

theorem Widens.granted {registry : ConnectorProvider → ProviderManifest}
    {before after : Connection} (h : Widens before after) {capability : String}
    (hgranted : capability ∈ grantedCapabilities registry before) :
    capability ∈ grantedCapabilities registry after := by
  obtain ⟨entry, hentry, hkey, hscopes⟩ := mem_grantedCapabilities.mp hgranted
  exact mem_grantedCapabilities.mpr
    ⟨entry, h.provider ▸ hentry, hkey, fun scope hscope => h.scopes _ (hscopes scope hscope)⟩

theorem mem_insertScope {s scope : PyStr} {scopes : List PyStr} :
    s ∈ insertScope scope scopes ↔ s = scope ∨ s ∈ scopes := by
  induction scopes with
  | nil => simp [insertScope]
  | cons first rest ih =>
      rw [insertScope]
      by_cases hsame : scope = first
      · rw [if_pos hsame, hsame, List.mem_cons]
        exact ⟨.inr, fun h => h.elim .inl id⟩
      · rw [if_neg hsame]
        split
        · rw [List.mem_cons]
        · rw [List.mem_cons, List.mem_cons, ih]
          exact or_left_comm

theorem mem_scopeUnion {s : PyStr} {a b : List PyStr} :
    s ∈ scopeUnion a b ↔ s ∈ a ∨ s ∈ b := by
  have hfold : ∀ scopes : List PyStr, s ∈ scopes.foldr insertScope [] ↔ s ∈ scopes := by
    intro scopes
    induction scopes with
    | nil => rfl
    | cons first rest ih => rw [List.foldr_cons, mem_insertScope, ih, List.mem_cons]
  rw [scopeUnion, hfold, List.mem_append]

/-- An assignment that leaves a connection the scopes it has. -/
def Widening (value : Stamp → Attributes → Except Failure Attributes) : Prop :=
  ∀ stamp a b, value stamp a = .ok b → ∀ scope ∈ a.scopes, scope ∈ b.scopes

theorem widening_map {β : Type} {x : Except Failure β} {f : β → Attributes} {a b : Attributes}
    (h : x.map f = .ok b) (hf : ∀ y, (f y).scopes = a.scopes) :
    ∀ scope ∈ a.scopes, scope ∈ b.scopes := by
  cases x with
  | error e => cases h
  | ok y =>
      cases h
      exact fun scope hscope => (hf y).symm ▸ hscope

section Assignments

variable {settings : Settings} {bundle : TokenBundle}

theorem widening_sealAccessToken : Widening (sealAccessToken settings bundle) :=
  fun _ _ _ h => widening_map h fun _ => rfl

theorem widening_sealRefreshToken : Widening (sealRefreshToken settings bundle) := by
  intro stamp a b h
  rw [sealRefreshToken] at h
  split at h
  · cases h
    exact fun _ => id
  · cases h
    exact fun _ => id
  · exact widening_map h fun _ => rfl

theorem widening_stampExpiry : Widening (stampExpiry bundle) :=
  fun _ _ _ h => widening_map h fun _ => rfl

theorem widening_markHealthy : Widening markHealthy := by
  intro stamp a b h
  cases h
  exact fun _ => id

theorem widening_widenScopes (accountLabel : String) (scopes : List PyStr) :
    Widening (widenScopes accountLabel scopes) := by
  intro stamp a b h scope hscope
  cases h
  exact mem_scopeUnion.mpr (.inl hscope)

end Assignments

/-- The object is new or loaded from a row that is there, and keeps its scopes. -/
structure KeepsScopes (t : Tables) (o : Object) : Prop where
  row : o.isNew = false → o.row ∈ t.connections
  scopes : ∀ scope ∈ o.row.attributes.scopes, scope ∈ o.current.scopes

/-- A session with the object of at most one connection. -/
structure Holding (t : Tables) (l : Session) : Prop where
  one : l.objects.length ≤ 1
  keeps : ∀ o ∈ l.objects, KeepsScopes t o

theorem holding_of_nil {t : Tables} {l : Session} (h : l.objects = []) : Holding t l := by
  refine ⟨by rw [h]; exact Nat.zero_le 1, fun o ho => ?_⟩
  rw [h] at ho
  cases ho

theorem holding_load {t : Tables} {l : Session} (mark : Nat) {row : Connection}
    (hrow : row ∈ t.connections) (h : l.objects = []) : Holding t (l.load mark row) := by
  have hload : (l.load mark row).objects = [Object.ofRow mark row] := by
    rw [Session.load, Session.object?, h]
    rfl
  refine ⟨by rw [hload]; exact Nat.le_refl 1, fun o ho => ?_⟩
  rw [hload] at ho
  exact List.mem_singleton.mp ho ▸ ⟨fun _ => hrow, fun _ => id⟩

/-- The session has the object of the connection, with these scopes. -/
def Consents (scopes : List PyStr) (connectionId : Nat) (l : Session) : Prop :=
  ∃ o ∈ l.objects, o.row.id = connectionId ∧ ∀ scope ∈ scopes, scope ∈ o.current.scopes

section Runs

variable {π : Type} {endpoint : TokenEndpoint π} {w : World π} {l : Session}

/-- The rows stay, and the session still holds one object at most. -/
abbrev StaysHolding (w : World π) {α : Type} : World π → Session → Except Failure α → Prop :=
  fun w' l' _ => w' = w ∧ Holding w.tables l'

theorem ensures_ofExcept {α : Type} {w' : World π} (hw : w' = w) (h : Holding w.tables l)
    (outcome : Except Failure α) :
    Ensures (serve endpoint) (StaysHolding w) w' l (Proc.ofExcept outcome) := by
  cases outcome with
  | ok a => exact ⟨hw, h⟩
  | error e => exact ⟨hw, h⟩

theorem ensures_assign {value : Stamp → Attributes → Except Failure Attributes}
    (hvalue : Widening value) (connectionId : Nat) (h : Holding w.tables l) :
    Ensures (serve endpoint) (fun w' l' out => StaysHolding w w' l' out ∧ (out = .ok () →
      ∀ o ∈ l.objects, o.row.id = connectionId → ∃ stamp attributes,
        value stamp o.current = .ok attributes ∧ { o with current := attributes } ∈ l'.objects))
      w l (assign connectionId value) := by
  intro c
  simp only [serve]
  split
  · rename_i hnone
    exact ⟨⟨rfl, h⟩, fun _ o ho hid => absurd (List.find?_eq_none.mp hnone o ho) (by simp [hid])⟩
  · rename_i o hfound
    obtain ⟨hmem, hid⟩ := mem_of_object? hfound
    obtain ⟨only, honly⟩ := List.length_eq_one_iff.mp
      (Nat.le_antisymm h.one (List.length_pos_of_mem hmem))
    have hkeeps := h.keeps o hmem
    rw [honly] at hmem
    cases List.mem_singleton.mp hmem
    split
    · rename_i attributes hassigned
      have hupdate : (l.update connectionId fun o => { o with current := attributes }).objects =
          [{ o with current := attributes }] := by
        rw [Session.update, honly, List.map_singleton, if_pos hid]
      refine ⟨⟨rfl, by rw [hupdate]; exact Nat.le_refl 1, fun o' ho' => ?_⟩, fun _ o' ho' _ => ?_⟩
      · rw [hupdate] at ho'
        exact List.mem_singleton.mp ho' ▸ ⟨hkeeps.row, fun scope hscope =>
          hvalue _ _ _ hassigned scope (hkeeps.scopes scope hscope)⟩
      · rw [honly] at ho'
        cases List.mem_singleton.mp ho'
        exact ⟨_, attributes, hassigned, hupdate ▸ List.mem_singleton_self _⟩
    · exact ⟨⟨rfl, h⟩, fun hout => by cases hout⟩

theorem ensures_assign_consents {value : Stamp → Attributes → Except Failure Attributes}
    (hvalue : Widening value) {scopes : List PyStr} {connectionId : Nat}
    (h : Holding w.tables l) (hconsents : Consents scopes connectionId l) :
    Ensures (serve endpoint) (fun w' l' out => StaysHolding w w' l' out ∧
      (out = .ok () → Consents scopes connectionId l')) w l (assign connectionId value) := by
  refine (ensures_assign hvalue connectionId h).mono fun w' l' out hout => ⟨hout.1, fun hok => ?_⟩
  obtain ⟨o, ho, hid, hscopes⟩ := hconsents
  obtain ⟨stamp, attributes, hassigned, hmem⟩ := hout.2 hok o ho hid
  exact ⟨_, hmem, hid, fun scope hscope => hvalue _ _ _ hassigned scope (hscopes scope hscope)⟩

theorem ensures_readObject (connectionId : Nat) :
    Ensures (serve endpoint) (fun w' l' _ => w' = w ∧ l' = l) w l (readObject connectionId) := by
  intro c
  simp only [serve]
  cases (l.object? connectionId).map Object.view with
  | some connection => exact ⟨rfl, rfl⟩
  | none => exact ⟨rfl, rfl⟩

theorem ensures_connectionFor (provider : ConnectorProvider) (kind : ConnectionKind)
    (accountLabel : String) (connectionId : Option Nat) (h : l.objects = []) :
    Ensures (serve endpoint) (fun w' l' out => StaysHolding w w' l' out ∧
      (out = .ok none → l'.objects = []) ∧
      ∀ found, out = .ok (some found) → ∃ o ∈ l'.objects, o.row.id = found) w l
      (connectionFor provider kind accountLabel connectionId) := by
  have hnone : Holding w.tables l := holding_of_nil h
  have hloaded (mark : Nat) (row : Connection) :
      ∃ o ∈ (l.load mark row).objects, o.row.id = row.id := by
    refine ⟨Object.ofRow mark row, ?_, rfl⟩
    rw [Session.load, Session.object?, h]
    exact List.mem_singleton_self _
  have hfind : Ensures (serve endpoint) (fun w' l' out => StaysHolding w w' l' out ∧
      (out = .ok none → l'.objects = []) ∧
      ∀ found, out = .ok (some found) → ∃ o ∈ l'.objects, o.row.id = found) w l
      (ConnectorService.ask (.findConnection provider kind accountLabel)) := by
    intro c
    simp only [serve]
    split
    · rename_i row hfound
      refine ⟨⟨rfl, holding_load _ (List.mem_of_find?_eq_some hfound) h⟩,
        (fun hout => by cases hout), fun found hout => ?_⟩
      cases hout
      exact hloaded _ row
    · exact ⟨⟨rfl, hnone⟩, fun _ => h, fun found hout => by cases hout⟩
  cases connectionId with
  | none => exact hfind
  | some connectionId =>
      intro c
      simp only [serve, Session.object?, h, List.find?_nil]
      split
      · rename_i row hfound
        have hid : row.id = connectionId := by
          have hkey := List.find?_some hfound
          simp only [Bool.and_eq_true, beq_iff_eq] at hkey
          exact hkey.1
        refine ⟨⟨rfl, holding_load _ (List.mem_of_find?_eq_some hfound) h⟩,
          (fun hout => by cases hout), fun found hout => ?_⟩
        cases hout
        exact hid ▸ hloaded _ row
      · exact hfind

/-- The rows stay, and a target that is returned is in the session with the scopes. -/
abbrev StaysConsenting (w : World π) (scopes : List PyStr) :
    World π → Session → Except Failure Nat → Prop :=
  fun w' l' out => (w' = w ∧ Holding w.tables l') ∧
    ∀ target, out = .ok target → Consents scopes target l'

theorem ensures_upsertTarget (provider : ConnectorProvider) (kind : ConnectionKind)
    (userId : Option Nat) (accountLabel : String) (scopes : List PyStr) (bundle : TokenBundle)
    (connectionId : Option Nat) (h : l.objects = []) :
    Ensures (serve endpoint) (StaysConsenting w scopes) w l
      (upsertTarget provider kind userId accountLabel scopes bundle connectionId) := by
  refine ensures_bind (ensures_connectionFor provider kind accountLabel connectionId h) ?_ ?_
  · rintro w' l' found ⟨⟨rfl, hholding⟩, hnew, hloaded⟩
    cases found with
    | some found =>
        refine ensures_bind
          (ensures_assign (widening_widenScopes accountLabel scopes) found hholding) ?_ ?_
        · rintro w₁ l₁ _ ⟨hstays, hassigned⟩
          refine ⟨hstays, fun target hout => ?_⟩
          cases hout
          obtain ⟨o, ho, hid⟩ := hloaded found rfl
          obtain ⟨stamp, attributes, hwidened, hmem⟩ := hassigned rfl o ho hid
          cases hwidened
          exact ⟨_, hmem, hid, fun scope hscope => mem_scopeUnion.mpr (.inr hscope)⟩
        · exact fun w₁ l₁ e hstays => ⟨hstays.1, fun target hout => by cases hout⟩
    | none =>
        have hempty : l'.objects = [] := hnew rfl
        by_cases hrefresh : bundle.refreshToken = none
        · dsimp only
          rw [if_pos hrefresh]
          exact ⟨⟨rfl, hholding⟩, fun target hout => by cases hout⟩
        · dsimp only
          rw [if_neg hrefresh]
          intro c
          refine ⟨⟨rfl, ?_, fun o ho => ?_⟩, fun target hout => ?_⟩
          · show (_ :: l'.objects).length ≤ 1
            rw [hempty]
            exact Nat.le_refl 1
          · rcases List.mem_cons.mp ho with rfl | hold
            · exact ⟨nofun, fun _ => id⟩
            · rw [hempty] at hold
              cases hold
          · cases hout
            exact ⟨_, List.mem_cons_self, rfl, fun _ => id⟩
  · exact fun w₁ l₁ e hstays => ⟨hstays.1, fun target hout => by cases hout⟩

theorem ensures_applyTokenBundle (settings : Settings) {scopes : List PyStr} {connectionId : Nat}
    (bundle : TokenBundle) (h : Holding w.tables l) (hconsents : Consents scopes connectionId l) :
    Ensures (serve endpoint) (fun w' l' out => StaysHolding w w' l' out ∧
      (out = .ok () → Consents scopes connectionId l')) w l
      (applyTokenBundle settings connectionId bundle) := by
  refine ensures_bind (ensures_assign_consents widening_sealAccessToken h hconsents) ?_
    fun _ _ _ hfailed => ⟨hfailed.1, fun hout => by cases hout⟩
  rintro _ l₁ _ ⟨⟨rfl, h₁⟩, hconsents₁⟩
  refine ensures_bind (ensures_assign_consents widening_sealRefreshToken h₁ (hconsents₁ rfl)) ?_
    fun _ _ _ hfailed => ⟨hfailed.1, fun hout => by cases hout⟩
  rintro _ l₂ _ ⟨⟨rfl, h₂⟩, hconsents₂⟩
  refine ensures_bind (ensures_assign_consents widening_stampExpiry h₂ (hconsents₂ rfl)) ?_
    fun _ _ _ hfailed => ⟨hfailed.1, fun hout => by cases hout⟩
  rintro _ l₃ _ ⟨⟨rfl, h₃⟩, hconsents₃⟩
  exact ensures_assign_consents widening_markHealthy h₃ (hconsents₃ rfl)

theorem ensures_upsertConnection (settings : Settings) (provider : ConnectorProvider)
    (kind : ConnectionKind) (userId : Option Nat) (accountLabel : String) (scopes : List PyStr)
    (bundle : TokenBundle) (connectionId : Option Nat) (h : l.objects = []) :
    Ensures (serve endpoint) (StaysConsenting w scopes) w l (upsertConnection settings provider
      kind userId accountLabel scopes bundle connectionId) := by
  refine ensures_bind (ensures_upsertTarget provider kind userId accountLabel scopes bundle
    connectionId h) ?_ fun _ _ _ hfailed => ⟨hfailed.1, fun _ hout => by cases hout⟩
  rintro _ l₁ target ⟨⟨rfl, h₁⟩, hconsents₁⟩
  refine ensures_bind (ensures_applyTokenBundle settings bundle h₁ (hconsents₁ target rfl)) ?_
    fun _ _ _ hfailed => ⟨hfailed.1, fun _ hout => by cases hout⟩
  rintro _ l₂ _ ⟨⟨rfl, h₂⟩, hconsents₂⟩
  refine ensures_bind (ensures_readObject target) ?_ ?_
  · rintro _ l₃ connection ⟨rfl, rfl⟩
    by_cases hrefresh : connection.attributes.refreshTokenEnc = []
    · dsimp only
      rw [if_pos hrefresh]
      exact ⟨⟨rfl, h₂⟩, fun _ hout => by cases hout⟩
    · dsimp only
      rw [if_neg hrefresh]
      refine ⟨⟨rfl, h₂⟩, fun target' hout => ?_⟩
      cases hout
      exact hconsents₂ rfl
  · rintro _ l₃ e ⟨rfl, rfl⟩
    exact ⟨⟨rfl, h₂⟩, fun _ hout => by cases hout⟩

/-- The re-consent of a callback, to its commit. -/
def upsertAndCommit (settings : Settings) (provider : ConnectorProvider) (kind : ConnectionKind)
    (userId : Option Nat) (accountLabel : String) (scopes : List PyStr) (bundle : TokenBundle)
    (connectionId : Option Nat) : ConnectorProc Nat := do
  let target ← upsertConnection settings provider kind userId accountLabel scopes bundle
    connectionId
  commit
  return target

end Runs

/-- Every row of the first tables is in the second, with at least its scopes. -/
def RowsWiden (t t' : Tables) : Prop :=
  ∀ before ∈ t.connections, ∃ after ∈ t'.connections, Widens before after

theorem rowsWiden_of_eq {t t' : Tables} (h : t'.connections = t.connections) : RowsWiden t t' :=
  fun before hbefore => ⟨before, h ▸ hbefore, Widens.refl before⟩

theorem rowsWiden_writeObject {t t' : Tables} {o : Object} (hids : DistinctIds t)
    (hkeeps : KeepsScopes t o) (hwrite : t.writeObject o = .ok t') : RowsWiden t t' := by
  rw [Tables.writeObject] at hwrite
  by_cases hnew : o.isNew = true
  · rw [if_pos hnew] at hwrite
    split at hwrite
    · cases hwrite
    · cases hwrite
      exact fun before hbefore =>
        ⟨before, List.mem_append_left _ hbefore, Widens.refl before⟩
  · have hrow : o.row ∈ t.connections := hkeeps.row (Bool.not_eq_true _ ▸ hnew)
    rw [if_neg hnew] at hwrite
    split at hwrite
    · cases hwrite
      exact rowsWiden_of_eq rfl
    · split at hwrite
      · cases hwrite
        intro before hbefore
        refine ⟨_, List.mem_map.mpr ⟨before, hbefore, rfl⟩, ?_⟩
        by_cases hid : before.id = o.row.id
        · -- The primary key makes the row the one that was loaded.
          obtain rfl : before = o.row := List.inj_on_of_nodup_map hids hbefore hrow hid
          rw [if_pos rfl, Attributes.write_loaded]
          exact ⟨rfl, rfl, hkeeps.scopes⟩
        · rw [if_neg hid]
          exact Widens.refl before
      · cases hwrite

theorem attributes_writeObject {t t' : Tables} {o : Object} (hkeeps : KeepsScopes t o)
    (hwrite : t.writeObject o = .ok t') :
    ∃ row ∈ t'.connections, row.id = o.row.id ∧ row.attributes = o.current := by
  rw [Tables.writeObject] at hwrite
  by_cases hnew : o.isNew = true
  · rw [if_pos hnew] at hwrite
    split at hwrite
    · cases hwrite
    · cases hwrite
      exact ⟨o.view, List.mem_append_right _ (List.mem_singleton_self _), rfl, rfl⟩
  · have hrow : o.row ∈ t.connections := hkeeps.row (Bool.not_eq_true _ ▸ hnew)
    rw [if_neg hnew] at hwrite
    split at hwrite
    · rename_i hsame
      cases hwrite
      exact ⟨o.row, hrow, rfl, hsame.symm⟩
    · split at hwrite
      · cases hwrite
        refine ⟨_, List.mem_map.mpr ⟨o.row, hrow, rfl⟩, ?_⟩
        rw [if_pos rfl, Attributes.write_loaded]
        exact ⟨rfl, rfl⟩
      · cases hwrite

theorem connections_commit {t t' : Tables} {l : Session} (h : Holding t l)
    (hcommit : t.commit l.objects l.pending = .ok t') :
    l.objects = [] ∧ t'.connections = t.connections ∨
      ∃ o u, l.objects = [o] ∧ t.writeObject o = .ok u ∧ t'.connections = u.connections := by
  obtain ⟨u, hwrite, happly⟩ := commit_eq_ok hcommit
  have hrows : t'.connections = u.connections := connections_applyAll happly
  cases hobjects : l.objects with
  | nil =>
      rw [hobjects] at hwrite
      cases hwrite
      exact .inl ⟨rfl, hrows⟩
  | cons o rest =>
      have hone := h.one
      rw [hobjects, List.length_cons] at hone
      obtain rfl : rest = [] := List.length_eq_zero_iff.mp (by omega)
      rw [hobjects, Tables.writeObjects] at hwrite
      split at hwrite
      · rename_i v hv
        cases hwrite
        exact .inr ⟨o, _, rfl, hv, hrows⟩
      · cases hwrite

theorem rowsWiden_commit {t t' : Tables} {l : Session} (hids : DistinctIds t)
    (h : Holding t l) (hcommit : t.commit l.objects l.pending = .ok t') : RowsWiden t t' := by
  rcases connections_commit h hcommit with ⟨-, hrows⟩ | ⟨o, u, hobjects, hwrite, hrows⟩
  · exact rowsWiden_of_eq hrows
  · have hkeeps : KeepsScopes t o := h.keeps o (hobjects ▸ List.mem_singleton_self _)
    intro before hbefore
    obtain ⟨after, hafter, hwidens⟩ := rowsWiden_writeObject hids hkeeps hwrite before hbefore
    exact ⟨after, hrows ▸ hafter, hwidens⟩

/-- The row of the connection has these scopes. -/
def HasScopes (t : Tables) (scopes : List PyStr) (connectionId : Nat) : Prop :=
  ∃ row ∈ t.connections, row.id = connectionId ∧ ∀ scope ∈ scopes, scope ∈ row.attributes.scopes

theorem hasScopes_commit {t t' : Tables} {l : Session} {scopes : List PyStr} {connectionId : Nat}
    (h : Holding t l) (hconsents : Consents scopes connectionId l)
    (hcommit : t.commit l.objects l.pending = .ok t') : HasScopes t' scopes connectionId := by
  obtain ⟨o, ho, hid, hscopes⟩ := hconsents
  rcases connections_commit h hcommit with ⟨hnone, -⟩ | ⟨only, u, hobjects, hwrite, hrows⟩
  · rw [hnone] at ho
    cases ho
  · rw [hobjects] at ho
    cases List.mem_singleton.mp ho
    have hkeeps : KeepsScopes t o := h.keeps o (hobjects ▸ List.mem_singleton_self _)
    obtain ⟨row, hrow, hrowId, hattributes⟩ := attributes_writeObject hkeeps hwrite
    exact ⟨row, hrows ▸ hrow, hrowId.trans hid, fun scope hscope =>
      hattributes ▸ hscopes scope hscope⟩

theorem ensures_upsertAndCommit {π : Type} {endpoint : TokenEndpoint π} {w : World π}
    {l : Session} (settings : Settings) (provider : ConnectorProvider) (kind : ConnectionKind)
    (userId : Option Nat) (accountLabel : String) (scopes : List PyStr) (bundle : TokenBundle)
    (connectionId : Option Nat) (hids : DistinctIds w.tables) (h : l.objects = []) :
    Ensures (serve endpoint) (fun w' _ out => RowsWiden w.tables w'.tables ∧
        ∀ target, out = .ok target → HasScopes w'.tables scopes target) w l
      (upsertAndCommit settings provider kind userId accountLabel scopes bundle connectionId) := by
  refine ensures_bind (ensures_upsertConnection settings provider kind userId accountLabel scopes
    bundle connectionId h) ?_ ?_
  · rintro _ l₁ target ⟨⟨rfl, h₁⟩, hconsents⟩
    intro c
    simp only [serve, World.commit]
    split
    · rename_i t hcommit
      refine ⟨rowsWiden_commit hids h₁ hcommit, fun target' hout => ?_⟩
      cases hout
      exact hasScopes_commit h₁ (hconsents target rfl) hcommit
    · exact ⟨rowsWiden_of_eq rfl, fun target' hout => by cases hout⟩
  · rintro _ _ _ ⟨⟨rfl, -⟩, -⟩
    exact ⟨rowsWiden_of_eq rfl, fun target' hout => by cases hout⟩

/-- The row that a consent to the scopes of the capabilities leaves grants them all; a
re-consent may name a connection to another provider. -/
theorem stored_row_grants {registry : ConnectorProvider → ProviderManifest}
    {provider : ConnectorProvider} {capabilities accepted asked : List String}
    (hbase : (registry provider).baseScopes.Nodup)
    (haccepted : validateCapabilities (registry provider) provider capabilities = .ok accepted)
    (hasked : scopesFor (registry provider) capabilities = .ok asked) {π : Type}
    (endpoint : TokenEndpoint π) (settings : Settings) (kind : ConnectionKind)
    (userId : Option Nat) (accountLabel : String) (bundle : TokenBundle)
    (connectionId : Option Nat) (tenantId : Nat) {w : World π} (hids : DistinctIds w.tables)
    (choices : Nat → Choice) {after : World π} {l : Session} {target : Nat}
    (hstored : eval (serve endpoint) (upsertAndCommit settings provider kind userId accountLabel
      (asked.map py) bundle connectionId) w { tenantId := tenantId } choices =
        (after, l, .ok target)) :
    ∃ row ∈ after.tables.connections, row.id = target ∧
      (row.provider = provider → ∀ c ∈ capabilities, c ∈ grantedCapabilities registry row) := by
  have hfound := find_of_validateCapabilities haccepted
  obtain ⟨scopes, hok, -, hmem⟩ := scopesFor_ok hfound hbase
  cases hok.symm.trans hasked
  have hensures := eval_of_ensures (@ensures_upsertAndCommit _ endpoint w { tenantId := tenantId }
    settings provider kind userId accountLabel (asked.map py) bundle connectionId hids rfl) choices
  rw [hstored] at hensures
  obtain ⟨row, hrow, hid, hscopes⟩ := hensures.2 target rfl
  refine ⟨row, hrow, hid, ?_⟩
  rintro rfl c hc
  obtain ⟨entry, hentry⟩ := hfound c hc
  exact granted_of_scopesOf hentry fun s hs =>
    hscopes _ (List.mem_map_of_mem ((hmem s).mpr (.inr ⟨c, hc, hs⟩)))

/-- What is asked for accepted capabilities is what they need; who holds it grants them; and
no consent takes away what is granted. -/
theorem consent_yields_capabilities {registry : ConnectorProvider → ProviderManifest}
    {provider : ConnectorProvider} {capabilities accepted : List String}
    (hbase : (registry provider).baseScopes.Nodup)
    (haccepted : validateCapabilities (registry provider) provider capabilities = .ok accepted) :
    (∃ scopes, scopesFor (registry provider) capabilities = .ok scopes ∧ scopes.Nodup ∧
      (∀ s, s ∈ scopes ↔ s ∈ (registry provider).baseScopes ∨
        ∃ c ∈ capabilities, s ∈ scopesOf (registry provider) c) ∧
      ∀ connection : Connection, connection.provider = provider →
        (∀ s ∈ scopes, py s ∈ connection.attributes.scopes) →
        ∀ c ∈ capabilities, c ∈ grantedCapabilities registry connection) ∧
    ∀ {π : Type} (endpoint : TokenEndpoint π) (settings : Settings) (issuer : ConnectorProvider)
      (kind : ConnectionKind) (userId : Option Nat) (accountLabel : String) (scopes : List PyStr)
      (bundle : TokenBundle) (connectionId : Option Nat) (tenantId : Nat) (w : World π)
      (choices : Nat → Choice), DistinctIds w.tables →
      let after := (eval (serve endpoint) (upsertAndCommit settings issuer kind userId
        accountLabel scopes bundle connectionId) w { tenantId := tenantId } choices).1
      ∀ before ∈ w.tables.connections, ∃ connection ∈ after.tables.connections,
        connection.id = before.id ∧ ∀ c ∈ grantedCapabilities registry before,
          c ∈ grantedCapabilities registry connection := by
  have hfound := find_of_validateCapabilities haccepted
  constructor
  · obtain ⟨scopes, hok, hnodup, hmem⟩ := scopesFor_ok hfound hbase
    refine ⟨scopes, hok, hnodup, hmem, ?_⟩
    rintro connection rfl hholds c hc
    obtain ⟨entry, hentry⟩ := hfound c hc
    exact granted_of_scopesOf hentry fun s hs => hholds s ((hmem s).mpr (.inr ⟨c, hc, hs⟩))
  · intro π endpoint settings issuer kind userId accountLabel scopes bundle connectionId tenantId
      w choices hids after before hbefore
    have hrows : RowsWiden w.tables after.tables :=
      (eval_of_ensures (ensures_upsertAndCommit settings issuer kind userId accountLabel scopes
        bundle connectionId hids rfl) choices).1
    obtain ⟨connection, hconnection, hwidens⟩ := hrows before hbefore
    exact ⟨connection, hconnection, hwidens.sameId, fun c hgranted => hwidens.granted hgranted⟩

/-- A mailbox whose account consents to the calendar alone. -/
def mailbox : Connection :=
  ⟨31, 1, .google, .user, some 1,
    ⟨"alice@example.org", [py "https://www.googleapis.com/auth/gmail.readonly",
        py "https://www.googleapis.com/auth/gmail.send"],
      TokenExchange.framedKeys.encrypt 1 (py "access"),
      TokenExchange.framedKeys.encrypt 2 (py "refresh"), 0, .active, none, none⟩⟩

theorem accepted_mail : validateCapabilities (getProvider .google) .google ["mail", "mail"] =
    .ok ["mail", "mail"] := by
  rw [validateCapabilities, if_neg (by decide), if_neg (by decide)]

theorem mailbox_grants_mail : "mail" ∈ grantedCapabilities getProvider mailbox := by
  decide +kernel

/-- The database once the calendar has been consented to. -/
def reconsented : World Unit :=
  (eval (serve anyAnswer) (upsertAndCommit ConnectorService.configured .google .user (some 1)
    "alice@example.org" [py "https://www.googleapis.com/auth/calendar"]
    ⟨py "access", 3600, none, []⟩ (some 31)) (PersonalConnections.before [mailbox]).world
    { tenantId := 1 } fun _ => {}).1

/-- The mailbox still grants its messages. -/
theorem mailbox_keeps_mail :
    (∃ scopes, scopesFor (getProvider .google) ["mail", "mail"] = .ok scopes ∧ scopes.Nodup) ∧
      ∃ connection ∈ reconsented.tables.connections, connection.id = 31 ∧
        "mail" ∈ grantedCapabilities getProvider connection := by
  obtain ⟨⟨scopes, hok, hnodup, -⟩, hconsent⟩ := @consent_yields_capabilities getProvider .google
    ["mail", "mail"] ["mail", "mail"] (by decide) accepted_mail
  refine ⟨⟨scopes, hok, hnodup⟩, ?_⟩
  obtain ⟨connection, hconnection, hid, hgranted⟩ := hconsent anyAnswer
    ConnectorService.configured .google .user (some 1) "alice@example.org"
    [py "https://www.googleapis.com/auth/calendar"] ⟨py "access", 3600, none, []⟩ (some 31) 1
    (PersonalConnections.before [mailbox]).world (fun _ => {}) (List.nodup_singleton 31) mailbox
    (List.mem_singleton.mpr rfl)
  exact ⟨connection, hconnection, hid, hgranted "mail" mailbox_grants_mail⟩

end Socle.ConsentedScopes
