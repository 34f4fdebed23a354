import Socle.ConnectorService
import Socle.OAuthLogin
import Socle.SignedPayloads
import Socle.UuidText

/-!
The states of the two OAuth flows, from the authorization URL to the callback: both are
payloads signed with one key.
-/

namespace Socle.FlowStates

open Socle.PythonText
open Socle.PythonJson
open Socle.JsonRoundTrip
open Socle.SignedPayloads
open Socle.UuidText
open Socle.TokenExchange (ConnectorProvider)
open Socle.ConnectorStore (ConnectionKind)
open Socle.OAuthLogin (OAuthProvider)

variable {F : Type}

/-- `STATE_TTL_SECONDS`, of either flow. -/
def stateTtlSeconds : Int := 600

def strOf (s : String) : Json F := .str (ofString s)

/-- `str(id) if id is not None else None`. -/
def idItem : Option Nat → Json F
  | none => .null
  | some id => .str (uuidText id)

/-- The dictionary of `build_authorization_url` of the connectors. -/
def connectorEntries (provider : ConnectorProvider) (tenantSlug : String) (userId : Nat)
    (kind : ConnectionKind) (capabilities : List String) (returnHost : String)
    (connectionId : Option Nat) : List (Str × Json F) :=
  [(ofString "p", strOf provider.value), (ofString "t", strOf tenantSlug),
    (ofString "u", .str (uuidText userId)), (ofString "k", strOf kind.value),
    (ofString "c", .list (capabilities.map strOf)), (ofString "r", strOf returnHost),
    (ofString "cid", idItem connectionId)]

/-- The dictionary of `build_authorization_url` of the login. -/
def loginEntries (provider : OAuthProvider) (returnHost nonce : String) : List (Str × Json F) :=
  [(ofString "p", strOf provider.value), (ofString "r", strOf returnHost),
    (ofString "n", strOf nonce)]

/-! ### What the callback of the connectors reads -/

/-- The context of a flow, as its callback has it. -/
structure Flow where
  tenantSlug : Str
  userId : Option Nat
  kind : ConnectionKind
  capabilities : List Str
  returnHost : Str
  connectionId : Option Nat
  deriving DecidableEq

section Reading

variable (render : Json F → Str)

/-- `str(value)`; `render` is what it makes of a value that is not a string. -/
def pyStr : Json F → Str
  | .str s => s
  | v => render v

def kindOf (s : Str) : Option ConnectionKind :=
  [.tenant, .user].find? fun kind => ofString kind.value == s

/-- `uuid.UUID(str(value)) if isinstance(value, str) else None`. -/
def uuidItem (key : String) (payload : List (Str × Json F)) : Except StateError (Option Nat) :=
  match getStr key payload with
  | none => .ok none
  | some text =>
      match uuidOf text with
      | some id => .ok (some id)
      | none => .error (.raised .valueError)

/-- The items of the payload, in the order in which the callback takes them. -/
def readFlow (payload : List (Str × Json F)) : Except StateError Flow := do
  let item (key : String) (default : Str) : Str :=
    ((getItem (ofString key) payload).map (pyStr render)).getD default
  let some kind := kindOf (item "k" (ofString "tenant")) | throw (.raised .valueError)
  let capabilities := match getItem (ofString "c") payload with
    | some (.list values) => values.map (pyStr render)
    | _ => []
  let userId ← uuidItem "u" payload
  let connectionId ← uuidItem "cid" payload
  return ⟨item "t" [], userId, kind, capabilities, item "r" [], connectionId⟩

/-- `parse_state`, and what the callback takes from the payload. -/
def callbackFlow (p : Platform F) (now : ℚ) (state : Str) (provider : ConnectorProvider) :
    Except StateError Flow := do
  readFlow render (← parseConnectorState p now state (ofString provider.value))

end Reading

/-- A platform that goes two levels of nesting down and writes the expiry. -/
structure Roomy (p : Platform F) (now : ℚ) : Prop where
  encodes : 2 ≤ p.encodeDepth
  decodes : 2 ≤ p.decodeDepth
  short : ShortInt (.int (expiry now stateTtlSeconds) : Json F)

section RoundTrips

variable {p : Platform F} {now : ℚ} {entries : List (Str × Json F)}

theorem not_isHigh_ofChar (c : Char) : isHigh (ofChar c) = false := by
  have hvalid := c.valid
  have hval : (ofChar c).val = c.toNat := by
    unfold ofChar
    rw [Fin.val_ofNat]
    exact Nat.mod_eq_of_lt (by rcases hvalid with h | h <;> (simp only [Char.toNat]; omega))
  refine Bool.eq_false_iff.mpr fun h => ?_
  have hbounds := isHigh_iff.mp h
  rw [hval] at hbounds
  rcases hvalid with h | h
  · simp only [Char.toNat] at hbounds
    omega
  · simp only [Char.toNat] at hbounds
    omega

theorem pairFree_of_notHigh {s : Str} (hs : ∀ c ∈ s, isHigh c = false) : PairFree s := by
  induction s with
  | nil => exact List.IsChain.nil
  | cons c s ih =>
      cases s with
      | nil => exact List.IsChain.singleton _
      | cons d s =>
          refine List.IsChain.cons_cons ?_ (ih fun c hc => hs c (List.mem_cons_of_mem _ hc))
          rw [hs c List.mem_cons_self]
          exact fun h => Bool.false_ne_true h.1

theorem pairFree_ofString (s : String) : PairFree (ofString s) := by
  refine pairFree_of_notHigh fun c hc => ?_
  obtain ⟨x, -, rfl⟩ := List.mem_map.mp hc
  exact not_isHigh_ofChar x

theorem pairFree_uuidText (n : Nat) : PairFree (uuidText n) := by
  refine pairFree_of_notHigh fun c hc => ?_
  rcases mem_uuidText hc with rfl | hdigit
  · decide
  · obtain ⟨v, hv, rfl⟩ := mem_hexDigits hdigit
    have hnone : ∀ v < 16, isHigh (hexDigit v) = false := by decide
    exact hnone v hv

/-- The keys are distinct, and neither values nor keys hold surrogates. -/
structure Plain (entries : List (Str × Json F)) : Prop where
  distinct : Everywhere DistinctKeys (.dict entries)
  unpaired : Everywhere Unpaired (.dict entries)
  shallow : ∀ entry ∈ entries, fits 1 entry.2 = true
  short : ∀ entry ∈ entries, Everywhere ShortInt entry.2
  unstamped : delItem expKey entries = entries

theorem fits_mono {n : Nat} (hn : 1 ≤ n) {v : Json F} (h : fits 1 v = true) : fits n v = true := by
  obtain ⟨m, rfl⟩ := Nat.exists_eq_add_of_le' hn
  cases v with
  | list items =>
      have hitems : ∀ v ∈ items, fits m v = true := by
        intro v hv
        have hzero := List.all_eq_true.mp h v hv
        cases v with
        | list _ => cases hzero
        | dict _ => cases hzero
        | _ => cases m <;> rfl
      exact List.all_eq_true.mpr hitems
  | dict entries =>
      have hentries : ∀ entry ∈ entries, fits m entry.2 = true := by
        intro entry hentry
        have hzero := List.all_eq_true.mp h entry hentry
        revert hzero
        cases entry.2 with
        | list _ => exact fun hzero => by cases hzero
        | dict _ => exact fun hzero => by cases hzero
        | _ => cases m <;> exact fun _ => rfl
      exact List.all_eq_true.mpr hentries
  | _ => rfl

theorem Plain.writable (h : Plain entries) (hp : Roomy p now) :
    Writable p (.dict (stamped now ⟨entries, h.distinct⟩ stateTtlSeconds)) := by
  have hkeys : (entries.map Prod.fst).Nodup := (everywhere_iff.mp h.distinct).1
  have hfits {n : Nat} (hn : 2 ≤ n) :
      fits n (.dict (stamped now ⟨entries, h.distinct⟩ stateTtlSeconds)) = true := by
    obtain ⟨m, rfl⟩ := Nat.exists_eq_add_of_le' (Nat.le_of_succ_le hn)
    refine List.all_eq_true.mpr fun entry hentry => fits_mono (by omega) ?_
    rcases mem_setItem hentry with hold | rfl
    · exact h.shallow entry hold
    · rfl
  refine ⟨?_, hfits hp.encodes, hfits hp.decodes, unpaired_stamped ?_⟩
  · refine everywhere_iff.mpr ⟨trivial, fun v hv => ?_⟩
    obtain ⟨entry, hentry, rfl⟩ := List.mem_map.mp hv
    rcases mem_setItem hentry with hold | rfl
    · exact h.short entry hold
    · exact everywhere_iff.mpr ⟨hp.short, fun w hw => by cases hw⟩
  · rw [h.unstamped]
    exact h.unpaired

theorem Plain.survives (h : Plain entries) (hp : Roomy p now) :
    ∃ signed, signPayload p now entries stateTtlSeconds = .ok signed ∧
      ∀ t : ℚ, (t ≤ expiry now stateTtlSeconds → verifyPayload p t signed = .ok entries) ∧
        (expiry now stateTtlSeconds < t →
          ∃ message, verifyPayload p t signed = .error (.invalidSignedPayload message)) := by
  obtain ⟨signed, hsigned, hverify⟩ :=
    (roundTrips_iff ⟨entries, h.distinct⟩ stateTtlSeconds).mpr (h.writable hp)
  refine ⟨signed, hsigned, fun t => ⟨fun ht => ?_, (hverify t).2⟩⟩
  rw [(hverify t).1 ht, h.unstamped]

end RoundTrips

section Entries

variable {p : Platform F} {now : ℚ}

theorem everywhere_str {P : Json F → Prop} {s : Str} (h : P (.str s)) : Everywhere P (.str s) :=
  everywhere_iff.mpr ⟨h, fun _ hw => by cases hw⟩

theorem everywhere_strOf {P : Json F → Prop} (hstr : ∀ s, PairFree s → P (.str s))
    (s : String) : Everywhere P (strOf s) :=
  everywhere_str (hstr _ (pairFree_ofString s))

section Connector

variable (provider : ConnectorProvider) (tenantSlug : String) (userId : Nat)
  (kind : ConnectionKind) (capabilities : List String) (returnHost : String)
  (connectionId : Option Nat)

theorem everywhere_connectorEntries {P : Json F → Prop} (hstr : ∀ s, PairFree s → P (.str s))
    (hlist : ∀ items, P (.list items)) (hnull : P .null) :
    ∀ entry ∈ connectorEntries provider tenantSlug userId kind capabilities returnHost
      connectionId, Everywhere P entry.2 := by
  have hids : Everywhere P (.list (capabilities.map strOf)) := by
    refine everywhere_iff.mpr ⟨hlist _, fun v hv => ?_⟩
    obtain ⟨c, -, rfl⟩ := List.mem_map.mp hv
    exact everywhere_strOf hstr c
  have hconnection : Everywhere P (idItem connectionId) := by
    cases connectionId with
    | none => exact everywhere_iff.mpr ⟨hnull, fun _ hw => by cases hw⟩
    | some connectionId => exact everywhere_str (hstr _ (pairFree_uuidText connectionId))
  simp only [connectorEntries, List.forall_mem_cons]
  exact ⟨everywhere_strOf hstr _, everywhere_strOf hstr _,
    everywhere_str (hstr _ (pairFree_uuidText userId)), everywhere_strOf hstr _, hids,
    everywhere_strOf hstr _, hconnection, fun _ hmem => by cases hmem⟩

theorem plain_connectorEntries : Plain (connectorEntries (F := F) provider tenantSlug userId kind
    capabilities returnHost connectionId) := by
  have hkeys : (connectorEntries (F := F) provider tenantSlug userId kind capabilities returnHost
      connectionId).map Prod.fst = ["p", "t", "u", "k", "c", "r", "cid"].map ofString := rfl
  refine ⟨?_, ?_, ?_, ?_, rfl⟩
  · refine everywhere_iff.mpr ⟨?_, fun v hv => ?_⟩
    · show (List.map Prod.fst _).Nodup
      rw [hkeys]
      decide
    · obtain ⟨entry, hentry, rfl⟩ := List.mem_map.mp hv
      exact everywhere_connectorEntries provider tenantSlug userId kind capabilities returnHost
        connectionId (fun _ _ => trivial) (fun _ => trivial) trivial entry hentry
  · refine everywhere_iff.mpr ⟨fun entry hentry => ?_, fun v hv => ?_⟩
    · have hkey := List.mem_map_of_mem (f := Prod.fst) hentry
      rw [hkeys] at hkey
      obtain ⟨key, -, hkey⟩ := List.mem_map.mp hkey
      rw [← hkey]
      exact pairFree_ofString key
    · obtain ⟨entry, hentry, rfl⟩ := List.mem_map.mp hv
      exact everywhere_connectorEntries provider tenantSlug userId kind capabilities returnHost
        connectionId (fun _ hs => hs) (fun _ => trivial) trivial entry hentry
  · have hids : fits 1 (.list (capabilities.map strOf) : Json F) = true := by
      refine List.all_eq_true.mpr fun v hv => ?_
      obtain ⟨c, -, rfl⟩ := List.mem_map.mp hv
      rfl
    have hconnection : fits 1 (idItem connectionId : Json F) = true := by
      cases connectionId with
      | none => rfl
      | some connectionId => rfl
    simp only [connectorEntries, List.forall_mem_cons]
    exact ⟨rfl, rfl, rfl, rfl, hids, rfl, hconnection, fun _ hmem => by cases hmem⟩
  · exact everywhere_connectorEntries provider tenantSlug userId kind capabilities returnHost
      connectionId (fun _ _ => trivial) (fun _ => trivial) trivial

theorem readFlow_connectorEntries (render : Json F → Str) {userId : Nat} (huser : userId < 2 ^ 128)
    (hconnection : ∀ id ∈ connectionId, id < 2 ^ 128) :
    readFlow render (connectorEntries provider tenantSlug userId kind capabilities returnHost
      connectionId) = .ok ⟨ofString tenantSlug, some userId, kind, capabilities.map ofString,
        ofString returnHost, connectionId⟩ := by
  have hcapabilities : (capabilities.map strOf).map (pyStr render) = capabilities.map ofString := by
    rw [List.map_map]
    rfl
  have hu : uuidItem "u" (connectorEntries (F := F) provider tenantSlug userId kind capabilities
      returnHost connectionId) = .ok (some userId) := by
    have hitem : getStr "u" (connectorEntries (F := F) provider tenantSlug userId kind capabilities
        returnHost connectionId) = some (uuidText userId) := rfl
    simp only [uuidItem, hitem, uuidOf_uuidText huser]
  have hcid : uuidItem "cid" (connectorEntries (F := F) provider tenantSlug userId kind
      capabilities returnHost connectionId) = .ok connectionId := by
    cases connectionId with
    | none => rfl
    | some id =>
        have hitem : getStr "cid" (connectorEntries (F := F) provider tenantSlug userId kind
            capabilities returnHost (some id)) = some (uuidText id) := rfl
        simp only [uuidItem, hitem, uuidOf_uuidText (hconnection id rfl)]
  unfold readFlow
  rw [hu, hcid, ← hcapabilities]
  cases kind with
  | tenant => rfl
  | user => rfl

end Connector

theorem everywhere_loginEntries (provider : OAuthProvider) (returnHost nonce : String)
    {P : Json F → Prop} (hstr : ∀ s, PairFree s → P (.str s)) :
    ∀ entry ∈ loginEntries provider returnHost nonce, Everywhere P entry.2 := by
  simp only [loginEntries, List.forall_mem_cons]
  exact ⟨everywhere_strOf hstr _, everywhere_strOf hstr _, everywhere_strOf hstr _,
    fun _ hmem => by cases hmem⟩

theorem plain_loginEntries (provider : OAuthProvider) (returnHost nonce : String) :
    Plain (loginEntries (F := F) provider returnHost nonce) := by
  have hkeys : (loginEntries (F := F) provider returnHost nonce).map Prod.fst =
      ["p", "r", "n"].map ofString := rfl
  refine ⟨?_, ?_, ?_, ?_, rfl⟩
  · refine everywhere_iff.mpr ⟨?_, fun v hv => ?_⟩
    · show (List.map Prod.fst _).Nodup
      rw [hkeys]
      decide
    · obtain ⟨entry, hentry, rfl⟩ := List.mem_map.mp hv
      exact everywhere_loginEntries provider returnHost nonce (fun _ _ => trivial) entry hentry
  · refine everywhere_iff.mpr ⟨fun entry hentry => ?_, fun v hv => ?_⟩
    · have hkey := List.mem_map_of_mem (f := Prod.fst) hentry
      rw [hkeys] at hkey
      obtain ⟨key, -, hkey⟩ := List.mem_map.mp hkey
      rw [← hkey]
      exact pairFree_ofString key
    · obtain ⟨entry, hentry, rfl⟩ := List.mem_map.mp hv
      exact everywhere_loginEntries provider returnHost nonce (fun _ hs => hs) entry hentry
  · simp only [loginEntries, List.forall_mem_cons]
    exact ⟨rfl, rfl, rfl, fun _ hmem => by cases hmem⟩
  · exact everywhere_loginEntries provider returnHost nonce fun _ _ => trivial

end Entries

/-- What the callbacks make of a state of the connectors. -/
structure ConnectorReads (p : Platform F) (render : Json F → Str) (now : ℚ) (signed : Str)
    (provider : ConnectorProvider) (flow : Flow) : Prop where
  own : ∀ t : ℚ, t ≤ expiry now stateTtlSeconds → callbackFlow render p t signed provider = .ok flow
  others : ∀ t : ℚ, t ≤ expiry now stateTtlSeconds → ∀ other ≠ provider,
    callbackFlow render p t signed other =
      .error (.refused "State OAuth émis pour un autre provider.")
  expired : ∀ t : ℚ, expiry now stateTtlSeconds < t → ∀ other,
    callbackFlow render p t signed other = .error (.refused "State OAuth invalide ou expiré.")
  login : ∀ t other, ∃ message, parseLoginState p t signed other = .error (.refused message)

/-- What the callbacks make of a state of the login. -/
structure LoginReads (p : Platform F) (render : Json F → Str) (now : ℚ) (signed : Str)
    (provider : OAuthProvider) (returnHost nonce : String) : Prop where
  own : ∀ t : ℚ, t ≤ expiry now stateTtlSeconds →
    parseLoginState p t signed (ofString provider.value) =
      .ok (ofString returnHost, ofString nonce)
  others : ∀ t : ℚ, t ≤ expiry now stateTtlSeconds → ∀ other ≠ provider,
    parseLoginState p t signed (ofString other.value) =
      .error (.refused "State OAuth émis pour un autre provider.")
  expired : ∀ t : ℚ, expiry now stateTtlSeconds < t → ∀ other,
    parseLoginState p t signed other = .error (.refused "State OAuth invalide ou expiré.")
  connector : ∀ t other, ∃ message, callbackFlow render p t signed other =
    .error (.refused message)

section Callbacks

variable {p : Platform F} {render : Json F → Str} {now : ℚ}

theorem connectorReads (hp : Roomy p now) (provider : ConnectorProvider) (tenantSlug : String)
    {userId : Nat} (huser : userId < 2 ^ 128) (kind : ConnectionKind) (capabilities : List String)
    (returnHost : String) {connectionId : Option Nat}
    (hconnection : ∀ id ∈ connectionId, id < 2 ^ 128) :
    ∃ signed, signPayload p now (connectorEntries provider tenantSlug userId kind capabilities
        returnHost connectionId) stateTtlSeconds = .ok signed ∧
      ConnectorReads p render now signed provider ⟨ofString tenantSlug, some userId, kind,
        capabilities.map ofString, ofString returnHost, connectionId⟩ := by
  obtain ⟨signed, hsigned, hverify⟩ := (plain_connectorEntries provider tenantSlug userId kind
    capabilities returnHost connectionId).survives hp
  have hprovider : getStr "p" (connectorEntries (F := F) provider tenantSlug userId kind
      capabilities returnHost connectionId) = some (ofString provider.value) := rfl
  have hnonce : getStr "n" (connectorEntries (F := F) provider tenantSlug userId kind
      capabilities returnHost connectionId) = none := rfl
  have hinjective {other : ConnectorProvider} (hne : other ≠ provider) :
      some (ofString provider.value) ≠ some (ofString other.value) := by
    revert hne
    cases other <;> cases provider <;> decide
  refine ⟨signed, hsigned, fun t ht => ?_, fun t ht other hne => ?_, fun t ht other => ?_,
    fun t other => ?_⟩
  · unfold callbackFlow parseConnectorState
    rw [(hverify t).1 ht]
    dsimp only
    rw [if_neg (not_not.mpr hprovider)]
    exact readFlow_connectorEntries provider tenantSlug kind capabilities returnHost connectionId
      render huser hconnection
  · unfold callbackFlow parseConnectorState
    rw [(hverify t).1 ht]
    dsimp only
    rw [hprovider, if_pos (hinjective hne)]
    rfl
  · obtain ⟨message, hmessage⟩ := (hverify t).2 ht
    unfold callbackFlow parseConnectorState
    rw [hmessage]
    rfl
  · unfold parseLoginState
    rcases le_or_gt t (expiry now stateTtlSeconds) with ht | ht
    · rw [(hverify t).1 ht]
      dsimp only
      split
      · exact ⟨_, rfl⟩
      · rw [hnonce]
        cases getStr "r" (connectorEntries (F := F) provider tenantSlug userId kind capabilities
            returnHost connectionId) with
        | none => exact ⟨_, rfl⟩
        | some host => exact ⟨_, rfl⟩
    · obtain ⟨message, hmessage⟩ := (hverify t).2 ht
      rw [hmessage]
      exact ⟨_, rfl⟩

theorem loginReads (hp : Roomy p now) (provider : OAuthProvider) (returnHost nonce : String) :
    ∃ signed, signPayload p now (loginEntries provider returnHost nonce) stateTtlSeconds =
        .ok signed ∧ LoginReads p render now signed provider returnHost nonce := by
  obtain ⟨signed, hsigned, hverify⟩ := (plain_loginEntries provider returnHost nonce).survives hp
  have hprovider : getStr "p" (loginEntries (F := F) provider returnHost nonce) =
      some (ofString provider.value) := rfl
  have hinjective {other : OAuthProvider} (hne : other ≠ provider) :
      some (ofString provider.value) ≠ some (ofString other.value) := by
    revert hne
    cases other <;> cases provider <;> decide
  refine ⟨signed, hsigned, fun t ht => ?_, fun t ht other hne => ?_, fun t ht other => ?_,
    fun t other => ?_⟩
  · unfold parseLoginState
    rw [(hverify t).1 ht]
    dsimp only
    rw [if_neg (not_not.mpr hprovider)]
    rfl
  · unfold parseLoginState
    rw [(hverify t).1 ht]
    dsimp only
    rw [hprovider, if_pos (hinjective hne)]
  · obtain ⟨message, hmessage⟩ := (hverify t).2 ht
    unfold parseLoginState
    rw [hmessage]
    rfl
  · unfold callbackFlow parseConnectorState
    rcases le_or_gt t (expiry now stateTtlSeconds) with ht | ht
    · rw [(hverify t).1 ht]
      dsimp only
      split
      · exact ⟨_, rfl⟩
      · exact ⟨_, rfl⟩
    · obtain ⟨message, hmessage⟩ := (hverify t).2 ht
      rw [hmessage]
      exact ⟨_, rfl⟩

end Callbacks

/-- A state that one of the flows signs brings its context back at its own provider until it
expires, and nowhere else: the other flow refuses it at every time. -/
theorem flow_states (p : Platform F) (render : Json F → Str) {now : ℚ} (hp : Roomy p now) :
    (∀ provider tenantSlug, ∀ userId < 2 ^ 128, ∀ kind capabilities returnHost connectionId,
      (∀ id ∈ connectionId, id < 2 ^ 128) →
        ∃ signed, signPayload p now (connectorEntries provider tenantSlug userId kind capabilities
            returnHost connectionId) stateTtlSeconds = .ok signed ∧
          ConnectorReads p render now signed provider ⟨ofString tenantSlug, some userId, kind,
            capabilities.map ofString, ofString returnHost, connectionId⟩) ∧
    ∀ provider returnHost nonce,
      ∃ signed, signPayload p now (loginEntries provider returnHost nonce) stateTtlSeconds =
          .ok signed ∧ LoginReads p render now signed provider returnHost nonce :=
  ⟨fun provider tenantSlug _ huser kind capabilities returnHost _ hconnection =>
    connectorReads hp provider tenantSlug huser kind capabilities returnHost hconnection,
    fun provider returnHost nonce => loginReads hp provider returnHost nonce⟩

theorem roomy_plainPlatform : Roomy plainPlatform 0 where
  encodes := by decide
  decodes := by decide
  short := by
    show (decimal 600).length ≤ maxStrDigits
    decide

/-- A user of Acme consents for the mail of connection 3 within ten minutes. -/
theorem consent_of_acme :
    Roomy plainPlatform 0 ∧ ∃ signed,
      signPayload plainPlatform 0 (connectorEntries .google "acme" 7 .user ["mail"]
        "acme.localhost:8000" (some 3)) stateTtlSeconds = .ok signed ∧
      callbackFlow (fun _ => []) plainPlatform 600 signed .google =
        .ok ⟨ofString "acme", some 7, .user, [ofString "mail"], ofString "acme.localhost:8000",
          some 3⟩ := by
  obtain ⟨signed, hsigned, hreads⟩ :=
    (flow_states plainPlatform (fun _ => []) roomy_plainPlatform).1 .google "acme" 7 (by decide)
      .user ["mail"] "acme.localhost:8000" (some 3) (by decide)
  exact ⟨roomy_plainPlatform, signed, hsigned, hreads.own 600 (by decide)⟩

end Socle.FlowStates
