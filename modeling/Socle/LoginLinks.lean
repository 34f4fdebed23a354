import Socle.OAuthLogin

/-!
The links between subjects and users, over sequences of login callbacks with any
tokens and of invitation acceptances.
-/

namespace Socle.LoginLinks

open Socle.Procedures
open Socle.PythonText
open Socle.DirectoryStore (User)
open Socle.OAuthLogin

inductive LoginRequest (F : Type) where
  | callback (provider : OAuthProvider) (state : Str) (answers : Answers F)
  | accept (token : String) (password displayName : Option String)
      (choices : Nat → DirectoryStore.Choice)

variable {F : Type}

/-- The tables a request leaves. -/
def serveRequest (settings : Settings F) (t : Tables) : LoginRequest F → Tables
  | .callback provider state answers => (oauthCallback settings t provider state answers).1
  | .accept token password displayName choices =>
      let out := eval DirectoryStore.serve
        (DirectoryService.invitationsAccept settings.directory token password displayName)
        ⟨t.directory, []⟩ {} choices
      { t with directory := out.1.directory }

def reached (settings : Settings F) (t : Tables) (schedule : List (LoginRequest F)) : Tables :=
  schedule.foldl (serveRequest settings) t

/-- The subject of a provider resolves to the user. -/
def Linked (t : Tables) (provider : OAuthProvider) (subject : Str) (userId : Nat) : Prop :=
  ∃ i ∈ t.identities.rows, i.provider = provider ∧ i.subject = subject ∧ i.userId = userId

/-- What the token of a callback says of its holder, once the state, the exchange
and the checks of the token have let it through. -/
def tokenInfo (settings : Settings F) (provider : OAuthProvider) (state : Str)
    (answers : Answers F) : Except Failure OAuthUserInfo := do
  let (_, nonce) ← parseState settings provider state answers
  userInfo settings provider nonce answers

/-- Emails that are equal but for their case: the stored one is lowered by the
database, the other one by Python. -/
def SameEmail (settings : Settings F) (user : User) (email : Str) : Prop :=
  settings.dbLower user.email = settings.lower email

/-- What a callback may do. -/
structure CallbackKeeps (settings : Settings F) (t : Tables) (provider : OAuthProvider)
    (state : Str) (answers : Answers F) (out : Tables × Except Failure LoginRedirect) : Prop where
  directory : out.1.directory = t.directory
  failed : ∀ e, out.2 = .error e → out.1 = t
  linked : ∀ link ∈ out.1.identities.rows, link ∉ t.identities.rows →
    ∃ info, tokenInfo settings provider state answers = .ok info ∧ info.emailVerified = true ∧
      link.provider = provider ∧ link.subject = info.subject ∧
      ∃ user ∈ t.directory.users, link.userId = user.id ∧ SameEmail settings user info.email
  session : ∀ session ∈ out.1.sessions, session ∉ t.sessions →
    ∃ info, tokenInfo settings provider state answers = .ok info ∧
      Linked out.1 provider info.subject session.userId

section Callback

variable {settings : Settings F} {t : Tables} {provider : OAuthProvider} {state : Str}
  {answers : Answers F}

theorem eq_of_sent {text s : Str} (h : sent text = .ok s) : s = text := by
  unfold sent at h
  split at h
  · cases h
  · cases h
    rfl

theorem provider_of_readClaims {nonce : Str} {claims : List (Str × PythonJson.Json F)}
    {info : OAuthUserInfo} (h : readClaims settings provider nonce claims = .ok info) :
    info.provider = provider := by
  unfold readClaims at h
  split at h
  · cases h
  · split at h
    · cases h
      rfl
    · cases h

theorem provider_of_userInfo {nonce : Str} {info : OAuthUserInfo}
    (h : userInfo settings provider nonce answers = .ok info) : info.provider = provider := by
  obtain ⟨metadata, -, h⟩ := bind_eq_ok.mp h
  obtain ⟨idToken, -, h⟩ := bind_eq_ok.mp h
  obtain ⟨credentials, -, h⟩ := bind_eq_ok.mp h
  obtain ⟨uri, -, h⟩ := bind_eq_ok.mp h
  obtain ⟨jwks, -, h⟩ := bind_eq_ok.mp h
  split at h
  · cases h
  · cases h
  · exact provider_of_readClaims h

theorem getUserByEmail_eq_some {email : Str} {user : User}
    (h : getUserByEmail settings t email = .ok (some user)) :
    user ∈ t.directory.users ∧ SameEmail settings user email := by
  obtain ⟨lowered, hlowered, h⟩ := bind_eq_ok.mp h
  have hfound := Except.ok.inj h
  refine ⟨List.mem_of_find?_eq_some hfound, ?_⟩
  have hsame := List.find?_some hfound
  rw [beq_iff_eq, eq_of_sent hlowered] at hsame
  exact hsame

/-- The user of a token: the one its subject is linked to, or else the one with its
verified email. -/
theorem linkedUser_cases {info : OAuthUserInfo} {user : User} {changes : List Change}
    (h : linkedUser settings t info answers = .ok (user, changes)) :
    (changes = [] ∧ Linked t info.provider info.subject user.id) ∨
      ∃ identityId, changes = [.addIdentity ⟨identityId, info.provider, info.subject, user.id⟩] ∧
        info.emailVerified = true ∧ user ∈ t.directory.users ∧
        SameEmail settings user info.email := by
  obtain ⟨subject, hsubject, h⟩ := bind_eq_ok.mp h
  obtain rfl := eq_of_sent hsubject
  split at h
  · rename_i identity hidentity
    split at h
    · rename_i found hfound
      cases h
      have hkey := List.find?_some hidentity
      have hid := List.find?_some hfound
      simp only [Bool.and_eq_true, beq_iff_eq] at hkey hid
      exact .inl ⟨rfl, identity, List.mem_of_find?_eq_some hidentity, hkey.1, hkey.2, hid.symm⟩
    · cases h
  · split at h
    · cases h
    · rename_i hverified
      obtain ⟨found, hfound, h⟩ := bind_eq_ok.mp h
      cases found with
      | none => cases h
      | some found =>
          cases h
          obtain ⟨hmem, hsame⟩ := getUserByEmail_eq_some hfound
          exact .inr ⟨_, rfl, by simpa using hverified, hmem, hsame⟩

theorem signIn_eq_ok {returnHost : Str} {user : User} {changes : List Change}
    (h : signIn settings t provider state answers = .ok (returnHost, user, changes)) :
    ∃ info, tokenInfo settings provider state answers = .ok info ∧ info.provider = provider ∧
      linkedUser settings t info answers = .ok (user, changes) := by
  obtain ⟨⟨host, nonce⟩, hstate, h⟩ := bind_eq_ok.mp h
  obtain ⟨⟨found, added⟩, hlogin, h⟩ := bind_eq_ok.mp h
  cases h
  obtain ⟨info, hinfo, hlinked⟩ := bind_eq_ok.mp hlogin
  exact ⟨info, bind_eq_ok.mpr ⟨_, hstate, hinfo⟩, provider_of_userInfo hinfo, hlinked⟩

theorem apply_addIdentity {t' : Tables} {link : OAuthIdentity}
    (h : t.apply (.addIdentity link) = .ok t') :
    t'.directory = t.directory ∧ t'.sessions = t.sessions ∧
      t'.identities.rows = t.identities.rows ++ [link] := by
  simp only [Tables.apply] at h
  split at h
  · cases h
  · split at h
    · cases h
    · split at h
      · rename_i identities hinsert
        cases h
        refine ⟨rfl, rfl, ?_⟩
        unfold Identities.insert at hinsert
        split at hinsert
        · cases hinsert
          rfl
        · cases hinsert
      · cases h

theorem applyAll_addSession {t' : Tables} {session : SecondFactor.AuthSession}
    (h : t.applyAll [.addSession session] = .ok t') :
    t'.directory = t.directory ∧ t'.identities = t.identities ∧
      t'.sessions = t.sessions ++ [session] := by
  simp only [Tables.applyAll, Tables.apply] at h
  split at h
  · rename_i u hu
    split at hu
    · cases hu
    · cases hu
      cases h
      exact ⟨rfl, rfl, rfl⟩
  · cases h

/-- What a callback does: nothing, or a session for the user of its token, with the
link of a first login. -/
inductive Outcome (settings : Settings F) (t : Tables) (provider : OAuthProvider) (state : Str)
    (answers : Answers F) : Tables × Except Failure LoginRedirect → Prop where
  | failed (e : Failure) : Outcome settings t provider state answers (t, .error e)
  | signedIn {t' : Tables} {info : OAuthUserInfo} {user : User} {links : List OAuthIdentity}
      (redirect : LoginRedirect)
      (token : tokenInfo settings provider state answers = .ok info)
      (directory : t'.directory = t.directory)
      (sessions : t'.sessions = t.sessions ++ [newSession settings user.id answers])
      (rows : t'.identities.rows = t.identities.rows ++ links)
      (resolved : Linked t' provider info.subject user.id)
      (linked : ∀ link ∈ links, info.emailVerified = true ∧ link.provider = provider ∧
        link.subject = info.subject ∧ link.userId = user.id ∧ user ∈ t.directory.users ∧
          SameEmail settings user info.email) :
      Outcome settings t provider state answers (t', .ok redirect)

theorem oauthCallback_outcome (settings : Settings F) (t : Tables) (provider : OAuthProvider)
    (state : Str) (answers : Answers F) :
    Outcome settings t provider state answers
      (oauthCallback settings t provider state answers) := by
  unfold oauthCallback
  split
  · exact .failed _
  · exact .failed _
  · rename_i returnHost user changes hsignIn
    obtain ⟨info, hinfo, rfl, hlinked⟩ := signIn_eq_ok hsignIn
    split
    · exact .failed _
    · rename_i t' hcommit
      rcases linkedUser_cases hlinked with ⟨rfl, hlink⟩ | ⟨id, rfl, hverified, huser, hemail⟩
      · obtain ⟨hdirectory, hidentities, hsessions⟩ := applyAll_addSession hcommit
        have hrows : t'.identities.rows = t.identities.rows ++ [] := by
          rw [hidentities, List.append_nil]
        refine .signedIn _ hinfo hdirectory hsessions hrows ?_ fun _ h => by cases h
        unfold Linked
        rw [hidentities]
        exact hlink
      · simp only [List.cons_append, List.nil_append, Tables.applyAll] at hcommit
        split at hcommit
        · rename_i u hu
          obtain ⟨hdirectory, hsame, hrows⟩ := apply_addIdentity hu
          obtain ⟨hdirectory', hidentities, hsessions⟩ := applyAll_addSession hcommit
          rw [← hidentities] at hrows
          rw [hsame] at hsessions
          refine .signedIn _ hinfo (hdirectory'.trans hdirectory) hsessions hrows ?_ ?_
          · refine ⟨⟨id, info.provider, info.subject, user.id⟩, ?_, rfl, rfl, rfl⟩
            rw [hrows]
            exact List.mem_append_right _ (List.mem_singleton.mpr rfl)
          · intro link hlink
            rw [List.mem_singleton.mp hlink]
            exact ⟨hverified, rfl, rfl, rfl, huser, hemail⟩
        · cases hcommit

theorem Outcome.keeps {out : Tables × Except Failure LoginRedirect}
    (h : Outcome settings t provider state answers out) :
    CallbackKeeps settings t provider state answers out := by
  cases h with
  | failed e =>
      exact ⟨rfl, fun _ _ => rfl, fun _ hmem hnew => absurd hmem hnew,
        fun _ hmem hnew => absurd hmem hnew⟩
  | signedIn redirect token directory sessions rows resolved linked =>
      refine ⟨directory, fun _ h => (by cases h), ?_, ?_⟩
      · intro link hmem hnew
        rw [rows] at hmem
        rcases List.mem_append.mp hmem with hold | hadded
        · exact absurd hold hnew
        · obtain ⟨hverified, hprovider, hsubject, hid, huser, hemail⟩ := linked link hadded
          exact ⟨_, token, hverified, hprovider, hsubject, _, huser, hid, hemail⟩
      · intro session hmem hnew
        rw [sessions] at hmem
        rcases List.mem_append.mp hmem with hold | hadded
        · exact absurd hold hnew
        · rw [List.mem_singleton.mp hadded]
          exact ⟨_, token, resolved⟩

theorem Outcome.identities_subset {out : Tables × Except Failure LoginRedirect}
    (h : Outcome settings t provider state answers out) :
    t.identities.rows ⊆ out.1.identities.rows := by
  cases h with
  | failed e => exact fun _ hmem => hmem
  | signedIn redirect token directory sessions rows resolved linked =>
      rw [rows]
      exact List.subset_append_left _ _

end Callback

theorem identities_reached (settings : Settings F) (t : Tables) (schedule : List (LoginRequest F)) :
    t.identities.rows ⊆ (reached settings t schedule).identities.rows := by
  induction schedule generalizing t with
  | nil => exact fun _ hmem => hmem
  | cons request rest ih =>
      refine List.Subset.trans ?_ (ih (serveRequest settings t request))
      cases request with
      | callback provider state answers =>
          exact (oauthCallback_outcome settings t provider state answers).identities_subset
      | accept token password displayName choices => exact fun _ hmem => hmem

theorem linked_unique {t : Tables} {provider : OAuthProvider} {subject : Str} {userId userId' : Nat}
    (h : Linked t provider subject userId) (h' : Linked t provider subject userId') :
    userId = userId' := by
  obtain ⟨i, hi, rfl, rfl, rfl⟩ := h
  obtain ⟨j, hj, hprovider, hsubject, rfl⟩ := h'
  have hsame : i = j := List.inj_on_of_nodup_map t.identities.providerSubject hi hj
    (Prod.ext hprovider.symm hsubject.symm)
  rw [hsame]

theorem subject_unique {t : Tables} {provider : OAuthProvider} {subject subject' : Str}
    {userId : Nat} (h : Linked t provider subject userId) (h' : Linked t provider subject' userId) :
    subject = subject' := by
  obtain ⟨i, hi, rfl, rfl, rfl⟩ := h
  obtain ⟨j, hj, hprovider, rfl, huser⟩ := h'
  have hsame : i = j := List.inj_on_of_nodup_map t.identities.providerUser hi hj
    (Prod.ext hprovider.symm huser.symm)
  rw [hsame]

/-- After every sequence of login callbacks and of acceptances: what was linked is
still linked to the same user, a subject has one user and a user one subject for
each provider, and whatever the token of the next callback, it creates no user,
links a subject to a user only by a verified email that is theirs, opens a session
only for the user of its subject, and leaves the tables when it fails. -/
theorem login_links_stable (settings : Settings F) (start : Tables)
    (schedule : List (LoginRequest F)) :
    (∀ provider subject userId, Linked start provider subject userId →
      ∀ userId', Linked (reached settings start schedule) provider subject userId' ↔
        userId' = userId) ∧
    (∀ provider subject userId userId',
      Linked (reached settings start schedule) provider subject userId →
        Linked (reached settings start schedule) provider subject userId' → userId = userId') ∧
    (∀ provider userId subject subject',
      Linked (reached settings start schedule) provider subject userId →
        Linked (reached settings start schedule) provider subject' userId → subject = subject') ∧
    ∀ provider state answers,
      CallbackKeeps settings (reached settings start schedule) provider state answers
        (oauthCallback settings (reached settings start schedule) provider state answers) := by
  refine ⟨?_, fun _ _ _ _ h h' => linked_unique h h', fun _ _ _ _ h h' => subject_unique h h',
    fun provider state answers => (oauthCallback_outcome _ _ provider state answers).keeps⟩
  rintro provider subject userId ⟨i, hi, hprovider, hsubject, huser⟩ userId'
  have hkept : Linked (reached settings start schedule) provider subject userId :=
    ⟨i, identities_reached settings start schedule hi, hprovider, hsubject, huser⟩
  constructor
  · exact fun h => linked_unique h hkept
  · rintro rfl
    exact hkept

end Socle.LoginLinks
