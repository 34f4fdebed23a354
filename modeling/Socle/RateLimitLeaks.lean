import Socle.RateLimitBounds

/-!
What the refusal of a call depends on.  The limiter counts a call under its client
address first: the counter of an identifier moves only while the address that sends
it has budget left.
-/

namespace Socle.RateLimitLeaks

open Socle.Procedures Socle.PythonText Socle.Valkey Socle.RateLimits Socle.RateLimitBounds

section Histories

variable {K D : Type} [DecidableEq K] [DecidableEq D]

/-- A call, and the instants at which its commands take effect. -/
structure Served where
  call : Call
  moments : Nat → ℚ

def serveAt : Serve (limiter K) (Keyspace K ℚ) Unit ℚ := fun s _ c now =>
  ((execute now s c).1, (), (execute now s c).2)

/-- The server after a call. -/
def afterCall (hashing : Hashing D) (settings : Settings) (s : Keyspace (Key D) ℚ)
    (served : Served) : Keyspace (Key D) ℚ :=
  (eval serveAt (enforceRateLimit hashing settings served.call) s () served.moments).1

/-- The server after a history of calls. -/
def after (hashing : Hashing D) (settings : Settings) :
    Keyspace (Key D) ℚ → List Served → Keyspace (Key D) ℚ :=
  List.foldl (afterCall hashing settings)

/-- After this history, the call is answered 429. -/
def refused (hashing : Hashing D) (settings : Settings) (start : Keyspace (Key D) ℚ)
    (history : List Served) (further : Served) : Prop :=
  (eval serveAt (enforceRateLimit hashing settings further.call)
    (after hashing settings start history) () further.moments).2.2 = .error .tooManyRequests

/-- A call of the same route that bears the identifier of the further one, up to
letter case. -/
def bearsSame (hashing : Hashing D) (further call : Call) : Bool :=
  call.scope = further.scope ∧ ∃ text ∈ call.identifiers, ∃ text' ∈ further.identifiers,
    hashing.lower text = hashing.lower text'

/-- The text is, up to letter case, the address of the further call, or one from
which its identifier was sent. -/
def watched (hashing : Hashing D) (further : Call) (history : List Served) (text : Str) : Bool :=
  hashing.lower text = hashing.lower further.clientIp ∨ ∃ served ∈ history,
    bearsSame hashing further served.call ∧
      hashing.lower text = hashing.lower served.call.clientIp

/-- The calls of the route from these addresses. -/
def concerned (hashing : Hashing D) (further : Call) (history : List Served) (served : Served) :
    Bool :=
  served.call.scope = further.scope ∧ watched hashing further history served.call.clientIp

/-- No text of the history is an address in one call and an identifier in another. -/
structure Apart (hashing : Hashing D) (further : Call) (history : List Served) : Prop where
  identifiers : ∀ served ∈ history, served.call.scope = further.scope →
    ∀ text ∈ served.call.identifiers, watched hashing further history text = false
  addresses : ∀ served ∈ history, served.call.scope = further.scope →
    ∀ text ∈ further.identifiers,
      hashing.lower served.call.clientIp ≠ hashing.lower text

end Histories

section Servers

variable {K : Type} [DecidableEq K] {kept : K → Prop} {s s' : Keyspace K ℚ}
variable {settings : Settings}

/-- The two servers have the same content under these keys. -/
def Same (kept : K → Prop) (s s' : Keyspace K ℚ) : Prop := ∀ k, kept k → s k = s' k

omit [DecidableEq K] in
theorem makes_enforceKeys {made : K → Prop} {ks : List K} (h : ∀ k ∈ ks, made k) :
    Makes (fun c : Command K ℚ => made c.key) (enforceKeys settings ks) := by
  induction ks with
  | nil => trivial
  | cons k rest ih =>
      have hk : made k := h k List.mem_cons_self
      have hrest := ih fun k' hk' => h k' (List.mem_cons_of_mem _ hk')
      refine makes_request_bind.mpr ⟨hk, fun count => ?_⟩
      have hlimit : Makes (fun c : Command K ℚ => made c.key) (do
          if settings.authRateLimitAttempts < count then
            throw .tooManyRequests
          enforceKeys settings rest) := by
        by_cases hover : settings.authRateLimitAttempts < count
        · rw [if_pos hover]
          trivial
        · rw [if_neg hover]
          exact hrest
      by_cases hfirst : count = 1
      · rw [if_pos hfirst]
        exact makes_request_bind.mpr ⟨hk, fun _ => hlimit⟩
      · rw [if_neg hfirst]
        exact hlimit

theorem agree_enforceKeys {ks : List K} (h : ∀ k ∈ ks, kept k) (hsame : Same kept s s') :
    Agree serveAt (fun _ => True) (fun s s' _ _ => Same kept s s') s s' ()
      (enforceKeys settings ks) := by
  refine (makes_enforceKeys h).agree ?_ hsame
  intro s s' l c now hkey _ hsame
  obtain ⟨hanswer, hcontent⟩ := execute_congr now c (hsame _ hkey)
  refine ⟨congrArg (Prod.mk ()) hanswer.symm, fun k hk => ?_⟩
  by_cases heq : k = c.key
  · subst heq
    exact hcontent
  · exact (execute_of_ne c heq).trans ((hsame k hk).trans (execute_of_ne c heq).symm)

theorem same_enforceKeys {ks : List K} (h : ∀ k ∈ ks, ¬ kept k) (s : Keyspace K ℚ)
    (moments : Nat → ℚ) :
    Same kept s (eval serveAt (enforceKeys settings ks) s () moments).1 := by
  refine eval_invariant (G := fun s' _ => Same kept s s') ?_
    ((makes_enforceKeys h).follows serveAt ()) (fun _ _ => rfl)
  intro s' l c now hsame hkey k hk
  exact (hsame k hk).trans (execute_of_ne c fun heq => hkey (heq ▸ hk)).symm

omit [DecidableEq K] in
theorem enforceKeys_append (settings : Settings) (ks ks' : List K) :
    enforceKeys settings (ks ++ ks') =
      enforceKeys settings ks >>= fun _ => enforceKeys settings ks' := by
  induction ks with
  | nil => rfl
  | cons k rest ih =>
      simp only [List.cons_append, enforceKeys, Proc.bind_assoc]
      congr 1
      funext count
      by_cases hover : settings.authRateLimitAttempts < count
      · simp only [if_pos hover]
        split
        · rfl
        · rfl
      · simp only [if_neg hover, ih]
        split
        · rfl
        · rfl

theorem same_calls (settings : Settings) (inside outside : List K) (hin : ∀ k ∈ inside, kept k)
    (hout : ∀ k ∈ outside, ¬ kept k) (hsame : Same kept s s') (moments : Nat → ℚ) :
    Same kept (eval serveAt (enforceKeys settings (inside ++ outside)) s () moments).1
      (eval serveAt (enforceKeys settings (inside ++ outside)) s' () moments).1 := by
  rw [enforceKeys_append]
  refine (agree_enforceKeys hin hsame).eval_bind (fun _ => trivial) ?_ fun _ _ _ _ h => h
  intro s s' l _ moments hsame k hk
  rw [← same_enforceKeys hout s moments k hk, ← same_enforceKeys hout s' moments k hk]
  exact hsame k hk

end Servers

section Independence

variable {D : Type} [DecidableEq D] {hashing : Hashing D} {settings : Settings}
variable {further : Call} {history : List Served} {s s' : Keyspace (Key D) ℚ}

/-- The keys of the watched addresses and of the identifiers of the further call. -/
def keptKey (hashing : Hashing D) (further : Call) (history : List Served) (k : Key D) : Prop :=
  ∃ text, key hashing further.scope text = .ok k ∧
    (watched hashing further history text = true ∨
      ∃ text' ∈ further.identifiers, hashing.lower text = hashing.lower text')

omit [DecidableEq D] in
theorem lower_eq_of_key_eq (hdigest : Function.Injective hashing.digest) {scope scope' : String}
    {text text' : Str} {k : Key D} (h : key hashing scope text = .ok k)
    (h' : key hashing scope' text' = .ok k) :
    scope = scope' ∧ hashing.lower text = hashing.lower text' := by
  have hk := (eq_of_key_eq_ok h).symm.trans (eq_of_key_eq_ok h')
  exact ⟨congrArg Key.scope hk, hdigest (congrArg Key.digest hk)⟩

omit [DecidableEq D] in
theorem watched_congr {text text' : Str} (h : hashing.lower text = hashing.lower text') :
    watched hashing further history text = watched hashing further history text' := by
  unfold watched
  rw [h]

omit [DecidableEq D] in
theorem keys_cons {call : Call} {ks : List (Key D)} (h : keys hashing call = .ok ks) :
    ∃ first rest, ks = first :: rest ∧ key hashing call.scope call.clientIp = .ok first ∧
      ∀ k ∈ rest, ∃ text ∈ call.identifiers, key hashing call.scope text = .ok k := by
  unfold keys Call.subjects at h
  rw [List.mapM_cons] at h
  obtain ⟨first, hfirst, h⟩ := bind_eq_ok.mp h
  obtain ⟨rest, hrest, h⟩ := bind_eq_ok.mp h
  cases h
  refine ⟨first, rest, rfl, hfirst, fun k hk => ?_⟩
  obtain ⟨text, htext, hkey⟩ := of_mem_keys hrest hk
  exact ⟨text, (List.mem_filter.mp htext).1, hkey⟩

theorem same_of_concerned {served : Served} (hsingle : ∃ text, served.call.identifiers = [text])
    (hconcerned : concerned hashing further history served = true)
    (hsame : Same (keptKey hashing further history) s s') :
    Same (keptKey hashing further history) (afterCall hashing settings s served)
      (afterCall hashing settings s' served) := by
  obtain ⟨hscope, hwatched⟩ := of_decide_eq_true hconcerned
  obtain ⟨text, htext⟩ := hsingle
  unfold afterCall enforceRateLimit
  cases hkeys : keys hashing served.call with
  | error e => exact hsame
  | ok ks =>
      obtain ⟨first, rest, rfl, hfirst, hrest⟩ := keys_cons hkeys
      have hkept : keptKey hashing further history first :=
        ⟨_, hscope ▸ hfirst, .inl hwatched⟩
      have hone : ∀ k ∈ rest, key hashing served.call.scope text = .ok k := by
        intro k hk
        obtain ⟨text', htext', hkey⟩ := hrest k hk
        rw [htext, List.mem_singleton] at htext'
        exact htext' ▸ hkey
      by_cases hin : ∀ k ∈ rest, keptKey hashing further history k
      · have hall : ∀ k ∈ first :: rest, keptKey hashing further history k :=
          List.forall_mem_cons.mpr ⟨hkept, hin⟩
        have hcalls := same_calls settings (first :: rest) [] hall nofun hsame served.moments
        rw [List.append_nil] at hcalls
        exact hcalls
      · refine same_calls settings [first] rest
          (List.forall_mem_singleton.mpr hkept) (fun k hk hkey => hin fun k' hk' => ?_) hsame
          served.moments
        have heq : k' = k := Except.ok.inj ((hone k' hk').symm.trans (hone k hk))
        exact heq ▸ hkey

theorem same_of_not_concerned (hdigest : Function.Injective hashing.digest)
    (hapart : Apart hashing further history) {served : Served} (hserved : served ∈ history)
    (hconcerned : concerned hashing further history served = false) (s : Keyspace (Key D) ℚ) :
    Same (keptKey hashing further history) s (afterCall hashing settings s served) := by
  unfold afterCall enforceRateLimit
  cases hkeys : keys hashing served.call with
  | error e => exact fun _ _ => rfl
  | ok ks =>
      refine same_enforceKeys ?_ s served.moments
      rintro k hk ⟨text, hkey, htext⟩
      obtain ⟨subject, hsubject, hkey'⟩ := of_mem_keys hkeys hk
      obtain ⟨hscope, hlower⟩ := lower_eq_of_key_eq hdigest hkey' hkey
      have haddress : watched hashing further history served.call.clientIp = false := by
        by_contra hwatched
        rw [Bool.not_eq_false] at hwatched
        exact absurd hconcerned (by simp [concerned, hscope, hwatched])
      rcases List.mem_cons.mp hsubject with rfl | hmem
      · rcases htext with hwatched | ⟨text', htext', hlower'⟩
        · rw [← watched_congr hlower, haddress] at hwatched
          cases hwatched
        · exact hapart.addresses served hserved hscope text' htext' (hlower.trans hlower')
      · have hidentifier := (List.mem_filter.mp hmem).1
        rcases htext with hwatched | ⟨text', htext', hlower'⟩
        · rw [← watched_congr hlower,
            hapart.identifiers served hserved hscope subject hidentifier] at hwatched
          cases hwatched
        · have hbears : bearsSame hashing further served.call = true :=
            decide_eq_true ⟨hscope, subject, hidentifier, text', htext', hlower.trans hlower'⟩
          have hwatched : watched hashing further history served.call.clientIp = true :=
            decide_eq_true (.inr ⟨served, hserved, hbears, rfl⟩)
          rw [haddress] at hwatched
          cases hwatched

theorem same_after_filter (hdigest : Function.Injective hashing.digest)
    (hapart : Apart hashing further history) {calls : List Served}
    (hcalls : ∀ served ∈ calls, served ∈ history ∧ ∃ text, served.call.identifiers = [text])
    (hsame : Same (keptKey hashing further history) s s') :
    Same (keptKey hashing further history) (after hashing settings s calls)
      (after hashing settings s' (calls.filter (concerned hashing further history))) := by
  induction calls generalizing s s' with
  | nil => exact hsame
  | cons served rest ih =>
      obtain ⟨hserved, hsingle⟩ := hcalls served List.mem_cons_self
      have hrest := fun s s' => @ih s s' fun c hc => hcalls c (List.mem_cons_of_mem _ hc)
      cases hconcerned : concerned hashing further history served with
      | true =>
          rw [List.filter_cons_of_pos hconcerned]
          exact hrest _ _ (same_of_concerned hsingle hconcerned hsame)
      | false =>
          rw [List.filter_cons_of_neg (by simp [hconcerned])]
          refine hrest _ _ fun k hk => ?_
          exact (same_of_not_concerned hdigest hapart hserved hconcerned s k hk).symm.trans
            (hsame k hk)

omit [DecidableEq D] in
theorem watched_of_same {history' : List Served}
    (hsame : history.filter (concerned hashing further history) =
      history'.filter (concerned hashing further history')) {text : Str}
    (h : watched hashing further history text = true) :
    watched hashing further history' text = true := by
  refine decide_eq_true ((of_decide_eq_true h).imp_right ?_)
  rintro ⟨served, hserved, hbears, hlower⟩
  have hwatched : watched hashing further history served.call.clientIp = true :=
    decide_eq_true (.inr ⟨served, hserved, hbears, rfl⟩)
  have hconcerned : concerned hashing further history served = true :=
    decide_eq_true ⟨(of_decide_eq_true hbears).1, hwatched⟩
  have hmem := hsame ▸ List.mem_filter.mpr ⟨hserved, hconcerned⟩
  exact ⟨served, (List.mem_filter.mp hmem).1, hbears, hlower⟩

theorem outcome_of_same {served : Served}
    (hsame : Same (keptKey hashing served.call history) s s') :
    (eval serveAt (enforceRateLimit hashing settings served.call) s' () served.moments).2.2 =
      (eval serveAt (enforceRateLimit hashing settings served.call) s () served.moments).2.2 := by
  unfold enforceRateLimit
  cases hkeys : keys hashing served.call with
  | error e => rfl
  | ok ks =>
      have hkept : ∀ k ∈ ks, keptKey hashing served.call history k := by
        intro k hk
        obtain ⟨text, htext, hkey⟩ := of_mem_keys hkeys hk
        refine ⟨text, hkey, ?_⟩
        rcases List.mem_cons.mp htext with rfl | hmem
        · exact .inl (decide_eq_true (.inl rfl))
        · exact .inr ⟨text, (List.mem_filter.mp hmem).1, rfl⟩
      exact congrArg Prod.snd
        (eval_of_agree (agree_enforceKeys hkept hsame) (fun _ => trivial)).1

/-- Over two histories of calls that bear one identifier each, with the same calls
from the address of a further call and from the addresses that sent its identifier,
the further call is refused after one if and only if it is after the other. -/
theorem refused_iff_refused (hashing : Hashing D) (hdigest : Function.Injective hashing.digest)
    (settings : Settings) (start : Keyspace (Key D) ℚ) (history history' : List Served)
    (further : Served)
    (hsingle : ∀ served ∈ history ++ history', ∃ text, served.call.identifiers = [text])
    (hapart : Apart hashing further.call history) (hapart' : Apart hashing further.call history')
    (hsame : history.filter (concerned hashing further.call history) =
      history'.filter (concerned hashing further.call history')) :
    refused hashing settings start history further ↔
      refused hashing settings start history' further := by
  have hwatched : watched hashing further.call history = watched hashing further.call history' := by
    funext text
    rw [Bool.eq_iff_iff]
    exact ⟨watched_of_same hsame, watched_of_same hsame.symm⟩
  have hkept : keptKey hashing further.call history' = keptKey hashing further.call history := by
    unfold keptKey
    rw [hwatched]
  have hleft : Same (keptKey hashing further.call history)
      (after hashing settings start history)
      (after hashing settings start
        (history.filter (concerned hashing further.call history))) :=
    same_after_filter hdigest hapart
      (fun served hserved => ⟨hserved, hsingle served (List.mem_append_left _ hserved)⟩)
      fun _ _ => rfl
  have hright : Same (keptKey hashing further.call history')
      (after hashing settings start history')
      (after hashing settings start
        (history'.filter (concerned hashing further.call history'))) :=
    same_after_filter hdigest hapart'
      (fun served hserved => ⟨hserved, hsingle served (List.mem_append_right _ hserved)⟩)
      fun _ _ => rfl
  rw [hkept, ← hsame] at hright
  unfold refused
  have hstates : Same (keptKey hashing further.call history) (after hashing settings start history)
      (after hashing settings start history') :=
    fun k hk => (hleft k hk).trans (hright k hk).symm
  rw [outcome_of_same hstates]

end Independence

section Leaks

/-- An acceptance of an invitation, all its commands at this instant. -/
def accept (address token : String) (moment : ℚ) : Served :=
  ⟨invitationsAccept (some (ofString address)) (ofString token), fun _ => moment⟩

/-- The call is from the address of the further one or bears its identifier. -/
def related (further served : Served) : Bool :=
  served.call.scope = further.call.scope ∧
    (served.call.clientIp = further.call.clientIp ∨
      ∃ text ∈ served.call.identifiers, text ∈ further.call.identifiers)

theorem same_after_another_token : refused plain oneAttempt (fun _ => none)
      [accept "10.0.0.1" "first" 0, accept "10.0.0.2" "second" 1]
      (accept "10.0.0.1" "first" 2) ↔
    refused plain oneAttempt (fun _ => none) [accept "10.0.0.1" "first" 0]
      (accept "10.0.0.1" "first" 2) := by
  refine refused_iff_refused plain Function.injective_id oneAttempt _ _ _ _ ?_ ?_ ?_ rfl
  · intro served hserved
    simp only [List.cons_append, List.nil_append, List.mem_cons, List.not_mem_nil, or_false]
      at hserved
    rcases hserved with rfl | rfl | rfl
    · exact ⟨_, rfl⟩
    · exact ⟨_, rfl⟩
    · exact ⟨_, rfl⟩
  · exact ⟨by decide, by decide⟩
  · exact ⟨by decide, by decide⟩

/-- A call that its own address's counter refuses is not counted under the
identifier that it bears. -/
theorem refused_elsewhere_not_counted : ¬ ∀ (history history' : List Served) (further : Served),
    history.filter (related further) = history'.filter (related further) →
      (refused plain oneAttempt (fun _ => none) history further ↔
        refused plain oneAttempt (fun _ => none) history' further) := by
  intro h
  have hiff := h [accept "10.0.0.2" "other" 0, accept "10.0.0.2" "shared" 1]
    [accept "10.0.0.2" "shared" 1] (accept "10.0.0.1" "shared" 2) rfl
  have hrefused : refused plain oneAttempt (fun _ => none) [accept "10.0.0.2" "shared" 1]
      (accept "10.0.0.1" "shared" 2) := by
    unfold refused
    decide +kernel
  have hpassed : ¬ refused plain oneAttempt (fun _ => none)
      [accept "10.0.0.2" "other" 0, accept "10.0.0.2" "shared" 1]
      (accept "10.0.0.1" "shared" 2) := by
    unfold refused
    decide +kernel
  exact hpassed (hiff.mpr hrefused)

/-- A token that reads like an address is counted under that address. -/
example : refused plain oneAttempt (fun _ => none) [accept "10.0.0.2" "10.0.0.1" 0]
    (accept "10.0.0.1" "mine" 1) := by
  unfold refused
  decide +kernel

end Leaks

end Socle.RateLimitLeaks
