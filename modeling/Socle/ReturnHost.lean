import Socle.CsrfOrigin
import Socle.UrlStandard

/-!
Where a browser goes after an OAuth flow.  The host to return to is checked on the
text before its first colon; a URL parser can take another text for the host.
-/

namespace Socle.ReturnHost

open Socle.TokenExchange (PyStr py ConnectorProvider)
open Socle.RouteGuards
open Socle.CsrfOrigin
open Socle.UrlStandard (Text PortValid splitPort afterAt authorityOf readHost hostOf)

/-! ### The URL of the redirection -/

/-- `urlsplit(url).scheme`. -/
def urlScheme (url : PyStr) : PyStr :=
  let url := (url.dropWhile fun c => decide (c ≤ 32)).filter fun c => c != 9 && c != 10 && c != 13
  let scheme := url.takeWhile fun c => c != 58
  if scheme.length < url.length ∧ (scheme.head?.any isAsciiLetter) ∧ scheme.all isSchemeChar then
    scheme.map lower
  else []

/-- `_apex_host`; `none` when `urlsplit` raises. -/
def apexHost (settings : Settings) (publicBaseUrl : PyStr) : Option PyStr :=
  netloc (pythonSettings settings) publicBaseUrl

/-- `value.split(":", 1)[0]`. -/
def beforeColon (value : PyStr) : PyStr := value.takeWhile fun c => c != 58

/-- The apex or one of its subdomains. -/
def underApex (apexBare bare : PyStr) : Bool :=
  bare == apexBare || (46 :: apexBare).isSuffixOf bare

/-- `_validate_return_host`, of the login router and of the connector router. -/
def validateReturnHost (settings : Settings) (publicBaseUrl host : PyStr) : Option PyStr :=
  (apexHost settings publicBaseUrl).map fun apex =>
    if underApex (beforeColon apex) (beforeColon host) then host else apex

def redirectUrl (settings : Settings) (publicBaseUrl returnHost path : PyStr) : Option PyStr :=
  (validateReturnHost settings publicBaseUrl returnHost).map fun host =>
    urlScheme publicBaseUrl ++ py "://" ++ host ++ path

/-- The end of `oauth_callback`. -/
def oauthCallbackUrl (settings : Settings) (publicBaseUrl returnHost : PyStr) : Option PyStr :=
  redirectUrl settings publicBaseUrl returnHost (py "/")

/-- The two redirections of `connector_oauth_callback`. -/
inductive Consent where
  | denied
  | connected (provider : ConnectorProvider)

def Consent.query : Consent → PyStr
  | .denied => py "?error=denied"
  | .connected provider => py "?connected=" ++ py provider.value

/-- The redirections of `connector_oauth_callback`. -/
def connectorOauthCallbackUrl (settings : Settings) (consent : Consent)
    (publicBaseUrl returnHost : PyStr) : Option PyStr :=
  redirectUrl settings publicBaseUrl returnHost (py "/connectors" ++ consent.query)

/-- The two callbacks. -/
inductive Callback where
  | login
  | connector (consent : Consent)

def Callback.url (settings : Settings) : Callback → PyStr → PyStr → Option PyStr
  | .login => oauthCallbackUrl settings
  | .connector consent => connectorOauthCallbackUrl settings consent

section Base

variable (parseHost : Text → Option Text)

/-- A base URL whose host is a name that the host parser leaves as it is. -/
structure PublicBaseUrl where
  scheme : PyStr
  http : scheme = py "http" ∨ scheme = py "https"
  apex : PyStr
  plain : apex.all isNameChar = true
  canonical : parseHost apex = some apex
  nonempty : apex ≠ []
  port : Option PyStr
  portValid : PortValid port
  tail : PyStr
  ends : ∀ c ∈ tail.head?, c = 47 ∨ c = 63 ∨ c = 35

end Base

section Reading

variable {parseHost : Text → Option Text} (base : PublicBaseUrl parseHost)

def PublicBaseUrl.authority : Authority where
  host := .name base.apex base.plain
  port := base.port
  digits p hp := (base.portValid p hp).1

def PublicBaseUrl.origin : Origin where
  scheme := base.scheme
  authority := base.authority
  letter := by rcases base.http with h | h <;> rw [h] <;> decide
  valid := by rcases base.http with h | h <;> rw [h] <;> decide

def PublicBaseUrl.text : PyStr := base.origin.text ++ base.tail

theorem apexHost_base (settings : Settings) :
    apexHost settings base.text = some base.authority.text :=
  netloc_origin_append settings base.origin base.ends

theorem urlScheme_base : urlScheme base.text = base.scheme := by
  have hlower : base.scheme.map lower = base.scheme := by
    rcases base.http with h | h <;> rw [h] <;> decide
  unfold urlScheme
  rw [PublicBaseUrl.text, trimmed_origin]
  dsimp only
  rw [takeWhile_scheme, if_pos ⟨length_scheme_lt _ _, base.origin.letter, base.origin.valid⟩]
  exact hlower

theorem beforeColon_name {name : PyStr} (hname : name.all isNameChar = true) (port : Option PyStr) :
    beforeColon (name ++ portText port) = name := by
  have hchars (c : Nat) (hc : c ∈ name) : (c != 58) = true :=
    bne_iff_ne.mpr (inside_nameChar (List.all_eq_true.mp hname c hc)).2.1
  rw [beforeColon, List.takeWhile_append_of_pos hchars]
  cases port with
  | none => exact List.append_nil _
  | some port => exact List.append_nil _

theorem isNameChar_ne {c : Nat} (h : isNameChar c = true) : c ≠ 64 ∧ c ≠ 92 := by
  constructor
  all_goals
    rintro rfl
    cases h

theorem splitPort_name {name : PyStr} (hname : name.all isNameChar = true) (port : Option PyStr) :
    splitPort false (name ++ portText port) = (name, port) := by
  induction name with
  | nil =>
      cases port with
      | none => rfl
      | some port => rfl
  | cons c name ih =>
      obtain ⟨hc, hrest⟩ := (Bool.and_eq_true _ _).mp hname
      obtain ⟨-, hcolon, hopen, hclose⟩ := inside_nameChar hc
      rw [List.cons_append, splitPort, if_neg fun h => hcolon h.1, if_neg hopen, if_neg hclose,
        ih hrest]

theorem authorityOf_name {name : PyStr} (hname : name.all isNameChar = true) (hne : name ≠ [])
    {port : Option PyStr} (hport : PortValid port) :
    authorityOf (name ++ portText port) = name ++ portText port ∧ 64 ∉ name ++ portText port := by
  have hchar (c : Nat) (hc : c ∈ name ++ portText port) :
      UrlStandard.isTabOrNewline c = false ∧ UrlStandard.endsAuthority c = false ∧ c ≠ 64 := by
    have hplain : Inside c ∧ c ≠ 64 ∧ c ≠ 92 := by
      rcases List.mem_append.mp hc with hin | hin
      · have hvalid := List.all_eq_true.mp hname c hin
        exact ⟨(inside_nameChar hvalid).1, isNameChar_ne hvalid⟩
      · cases port with
        | none => cases hin
        | some port =>
            rcases List.mem_cons.mp hin with rfl | hdigit
            · unfold Inside
              omega
            · have hdigits := List.all_eq_true.mp (hport port rfl).1 c hdigit
              simp only [UrlStandard.isDigit, Bool.and_eq_true, decide_eq_true_eq] at hdigits
              unfold Inside
              omega
    obtain ⟨⟨hleast, -, hhash, hslash, hquery⟩, hat, hback⟩ := hplain
    refine ⟨?_, ?_, hat⟩
    · simp only [UrlStandard.isTabOrNewline, Bool.or_eq_false_iff, beq_eq_false_iff_ne]
      omega
    · simp [UrlStandard.endsAuthority, UrlStandard.isSlash, hhash, hslash, hquery, hback]
  refine ⟨?_, fun hmem => (hchar 64 hmem).2.2 rfl⟩
  have hfilter : ((name ++ portText port).filter fun c => !UrlStandard.isTabOrNewline c) =
      name ++ portText port :=
    List.filter_eq_self.mpr fun c hc => by rw [(hchar c hc).1]; rfl
  have hslashes : (name ++ portText port).dropWhile UrlStandard.isSlash = name ++ portText port := by
    obtain ⟨c, rest, rfl⟩ := List.exists_cons_of_ne_nil hne
    refine List.dropWhile_cons_of_neg fun hslash => ?_
    have hends := (hchar c List.mem_cons_self).2.1
    rw [UrlStandard.endsAuthority, hslash] at hends
    cases hends
  rw [authorityOf, hfilter, hslashes]
  exact List.takeWhile_eq_self_iff.mpr fun c hc => by rw [(hchar c hc).2.1]; rfl

theorem readHost_name {name : PyStr} (hname : name.all isNameChar = true) (hne : name ≠ [])
    {port : Option PyStr} (hport : PortValid port) :
    readHost parseHost (authorityOf (name ++ portText port)) = parseHost name := by
  obtain ⟨hself, hat⟩ := authorityOf_name hname hne hport
  rw [hself, readHost, UrlStandard.afterAt_eq_self hat, splitPort_name hname]
  rw [if_pos hport]
  exact if_neg hne

/-- The text that stands for the host in what a URL parser reads, and its port. -/
def hostAndPort (host : PyStr) : Text × Option Text := splitPort false (afterAt (authorityOf host))

/-- A host that passes the check also passes it on the host that a URL parser reads. -/
def ReadAlike (parseHost : Text → Option Text) (apex host : PyStr) : Prop :=
  underApex apex (beforeColon host) = true →
    (hostAndPort host).1 ≠ [] ∧ PortValid (hostAndPort host).2 ∧
      ∃ read, parseHost (hostAndPort host).1 = some read ∧ underApex apex read = true

theorem underApex_self (apex : PyStr) : underApex apex apex = true := by
  simp [underApex]

theorem exists_plain_of_underApex {host : PyStr} (h : underApex base.apex (beforeColon host) = true) :
    ∃ c ∈ host, UrlStandard.isTabOrNewline c = false ∧ UrlStandard.isSlash c = false := by
  obtain ⟨c, rest, hapex⟩ := List.exists_cons_of_ne_nil base.nonempty
  have hc : c ∈ base.apex := hapex ▸ List.mem_cons_self
  have hmem : c ∈ beforeColon host := by
    rcases (Bool.or_eq_true _ _).mp h with hself | hsuffix
    · rw [beq_iff_eq.mp hself]
      exact hc
    · exact (List.isSuffixOf_iff_suffix.mp hsuffix).subset (List.mem_cons_of_mem _ hc)
  have hvalid := List.all_eq_true.mp base.plain c hc
  obtain ⟨⟨hleast, -, -, hslash, -⟩, -⟩ := inside_nameChar hvalid
  refine ⟨c, List.takeWhile_subset _ hmem, ?_, ?_⟩
  · simp only [UrlStandard.isTabOrNewline, Bool.or_eq_false_iff, beq_eq_false_iff_ne]
    omega
  · simp [UrlStandard.isSlash, hslash, (isNameChar_ne hvalid).2]

theorem callback_url (settings : Settings) (callback : Callback) (host : PyStr) :
    ∃ path, callback.url settings base.text host =
      some (base.scheme ++ py "://" ++
        (if underApex base.apex (beforeColon host) then host
          else base.apex ++ portText base.port) ++ 47 :: path) := by
  have hvalidate : validateReturnHost settings base.text host =
      some (if underApex base.apex (beforeColon host) then host
        else base.apex ++ portText base.port) := by
    have hauthority : base.authority.text = base.apex ++ portText base.port := rfl
    rw [validateReturnHost, apexHost_base, hauthority, Option.map_some,
      beforeColon_name base.plain]
  cases callback with
  | login =>
      refine ⟨[], ?_⟩
      rw [Callback.url, oauthCallbackUrl, redirectUrl, hvalidate, urlScheme_base]
      rfl
  | connector consent =>
      refine ⟨py "connectors" ++ consent.query, ?_⟩
      rw [Callback.url, connectorOauthCallbackUrl, redirectUrl, hvalidate, urlScheme_base]
      rfl

theorem specialScheme_base : base.scheme ∈ UrlStandard.specialSchemes := by
  rcases base.http with h | h <;> rw [h] <;> decide

theorem readHost_under_iff {host : PyStr} {apex : PyStr} :
    (∃ read, readHost parseHost (authorityOf host) = some read ∧ underApex apex read = true) ↔
      (hostAndPort host).1 ≠ [] ∧ PortValid (hostAndPort host).2 ∧
        ∃ read, parseHost (hostAndPort host).1 = some read ∧ underApex apex read = true := by
  unfold readHost UrlStandard.endHost
  change (∃ read, (if PortValid (hostAndPort host).2 then
    if (hostAndPort host).1 = [] then none else parseHost (hostAndPort host).1 else none) = _ ∧ _) ↔ _
  split
  · split
    · simp_all
    · simp_all
  · simp_all

/-- A browser lands on the apex or one of its subdomains if and only if the host to
return to fails the check or passes it on the host that the browser reads. -/
theorem redirect_under_apex_iff (settings : Settings) (callback : Callback) (host : PyStr) :
    (∃ url read, callback.url settings base.text host = some url ∧
      hostOf parseHost url = some read ∧ underApex base.apex read = true) ↔
        ReadAlike parseHost base.apex host := by
  obtain ⟨path, hurl⟩ := callback_url base settings callback host
  have hshape (text : PyStr) : base.scheme ++ py "://" ++ text ++ 47 :: path =
      base.scheme ++ 58 :: 47 :: 47 :: (text ++ 47 :: path) := by
    simp [py]
  have hread {text : PyStr}
      (htext : ∃ c ∈ text, UrlStandard.isTabOrNewline c = false ∧ UrlStandard.isSlash c = false) :
      hostOf parseHost (base.scheme ++ py "://" ++ text ++ 47 :: path) =
        readHost parseHost (authorityOf text) := by
    rw [hshape]
    exact UrlStandard.hostOf_eq_readHost (specialScheme_base base) htext path
  rw [hurl]
  simp only [Option.some.injEq, exists_and_left, exists_eq_left']
  cases hpasses : underApex base.apex (beforeColon host) with
  | true =>
      rw [if_pos rfl, hread (exists_plain_of_underApex base hpasses), readHost_under_iff]
      exact ⟨fun h _ => h, fun h => h hpasses⟩
  | false =>
      -- the apex is used instead
      have hplain : ∃ c ∈ base.apex ++ portText base.port,
          UrlStandard.isTabOrNewline c = false ∧ UrlStandard.isSlash c = false := by
        refine exists_plain_of_underApex base ?_
        rw [beforeColon_name base.plain]
        exact underApex_self base.apex
      rw [if_neg (by nofun), hread hplain, readHost_name base.plain base.nonempty base.portValid,
        base.canonical]
      refine iff_of_true ⟨base.apex, rfl, underApex_self base.apex⟩ fun h => ?_
      rw [hpasses] at h
      cases h

/-- Without any of the characters that a URL parser treats apart, a host is read as it
is checked. -/
theorem readAlike_of_name {name : PyStr} (hname : name.all isNameChar = true) (hne : name ≠ [])
    {port : Option PyStr} (hport : PortValid port) (hparse : parseHost name = some name)
    (apex : PyStr) : ReadAlike parseHost apex (name ++ portText port) := by
  intro hpasses
  rw [beforeColon_name hname] at hpasses
  obtain ⟨hself, hat⟩ := authorityOf_name hname hne hport
  rw [hostAndPort, hself, UrlStandard.afterAt_eq_self hat, splitPort_name hname]
  exact ⟨hne, hport, name, hparse, hpasses⟩

end Reading

/-- A host parser that takes names only. -/
def asciiNames (text : Text) : Option Text :=
  if text.all isNameChar then some (text.map UrlStandard.toLower) else none

/-- `https://app.example.fr`. -/
def exampleBase : PublicBaseUrl asciiNames where
  scheme := py "https"
  http := .inr rfl
  apex := py "app.example.fr"
  plain := by decide
  canonical := by decide
  nonempty := by decide
  port := none
  portValid := nofun
  tail := []
  ends := nofun

/-- The apex is in the name of a user, the host is another one. -/
theorem redirect_leaves_platform :
    ¬ ∃ url read, oauthCallbackUrl hostOnly exampleBase.text
        (py "app.example.fr:x@evil.example.org") = some url ∧
      hostOf asciiNames url = some read ∧ underApex exampleBase.apex read = true := by
  have hurl : oauthCallbackUrl hostOnly exampleBase.text (py "app.example.fr:x@evil.example.org") =
      some (py "https://app.example.fr:x@evil.example.org/") := by
    decide +kernel
  have hread : hostOf asciiNames (py "https://app.example.fr:x@evil.example.org/") =
      some (py "evil.example.org") := by
    decide +kernel
  rintro ⟨url, read, hsome, hhost, hunder⟩
  cases hurl.symm.trans hsome
  cases hread.symm.trans hhost
  exact absurd hunder (by decide)

end Socle.ReturnHost
