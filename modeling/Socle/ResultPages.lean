import Socle.CalendarDrafts

/-!
Result pages: the loops that follow the pages of a listing, at Google by a page
token and at Microsoft Graph by a link, and what they return of all the pages.
-/

namespace Socle.ResultPages

open Socle.PythonText (Str ofString)
open Socle.PythonJson (Json getItem)
open Socle.IsoDates (Datetime)
open Socle.CalendarDrafts (Failure Builtins CalendarEvent str truthy item iterate addressOf
  parseGraphDatetime googleEventToCalendarEvent graphEventToCalendarEvent graphWhen
  graphParseWhen_graphWhen)

section Pages

variable {S R P C A : Type} (serve : S → R → P × S) (next : P → Option C)
  (asks : Option C → R → Prop)

/-- From this state, whoever asks for the page at the cursor gets the first of the pages,
and so on from page to page: each but the last has the cursor of the one after it. -/
def Serves : List P → S → Option C → Prop
  | [], _, _ => False
  | page :: rest, s, cursor => ∀ r, asks cursor r → (serve s r).1 = page ∧
      match next page with
      | none => rest = []
      | some c => Serves rest (serve s r).2 (some c)

/-- The loop that collects what the pages hold while it goes on, for as long as there is
a next page.  Its fuel bounds the number of its turns. -/
def collect (goesOn : List A → Bool) (request : Option C → List A → R) (read : P → List A) :
    Nat → S → Option C → List A → Option (List A)
  | 0, _, _, _ => none
  | fuel + 1, s, cursor, found =>
      if goesOn found then
        let (page, s') := serve s (request cursor found)
        match next page with
        | none => some (found ++ read page)
        | some c => collect goesOn request read fuel s' (some c) (found ++ read page)
      else some found

variable {serve next asks} {goesOn : List A → Bool} {request : Option C → List A → R}
  {read : P → List A} {fuel : Nat} {s : S} {cursor : Option C} {found : List A}

theorem collect_stop (h : goesOn found = false) :
    collect serve next goesOn request read (fuel + 1) s cursor found = some found := by
  rw [collect, if_neg (Bool.not_eq_true _ ▸ h)]

theorem collect_last (hgo : goesOn found = true)
    (hnext : next (serve s (request cursor found)).1 = none) :
    collect serve next goesOn request read (fuel + 1) s cursor found =
      some (found ++ read (serve s (request cursor found)).1) := by
  rw [collect, if_pos hgo]
  show (match next (serve s (request cursor found)).1 with | none => _ | some c => _) = _
  rw [hnext]

theorem collect_more {c : C} (hgo : goesOn found = true)
    (hnext : next (serve s (request cursor found)).1 = some c) :
    collect serve next goesOn request read (fuel + 1) s cursor found =
      collect serve next goesOn request read fuel (serve s (request cursor found)).2 (some c)
        (found ++ read (serve s (request cursor found)).1) := by
  rw [collect, if_pos hgo]
  show (match next (serve s (request cursor found)).1 with | none => _ | some c => _) = _
  rw [hnext]

/-- The loop reads the pages in turn, all of them or until it no longer goes on. -/
theorem collect_pages {pages : List P} (hserves : Serves serve next asks pages s cursor)
    (hfirst : asks cursor (request cursor found))
    (hnext : ∀ c found, (∃ page ∈ pages, next page = some c) →
      asks (some c) (request (some c) found))
    (hfuel : pages.length ≤ fuel) :
    ∃ absorbed left, pages = absorbed ++ left ∧
      collect serve next goesOn request read fuel s cursor found =
        some (found ++ absorbed.flatMap read) ∧
      (left = [] ∨ goesOn (found ++ absorbed.flatMap read) = false) := by
  induction pages generalizing fuel s cursor found with
  | nil => exact hserves.elim
  | cons page rest ih =>
      obtain ⟨fuel, rfl⟩ : ∃ n, fuel = n + 1 := Nat.exists_eq_add_one.mpr (by simp at hfuel; omega)
      obtain ⟨hpage, hrest⟩ := hserves _ hfirst
      cases hgo : goesOn found with
      | false =>
          refine ⟨[], page :: rest, rfl, ?_, .inr ?_⟩
          · rw [collect_stop hgo, List.flatMap_nil, List.append_nil]
          · rw [List.flatMap_nil, List.append_nil, hgo]
      | true =>
          cases hlink : next page with
          | none =>
              rw [hlink] at hrest
              subst hrest
              refine ⟨[page], [], rfl, ?_, .inl rfl⟩
              rw [collect_last hgo (by rw [hpage, hlink]), hpage, List.flatMap_singleton]
          | some c =>
              rw [hlink] at hrest
              have hasked : ∀ found, asks (some c) (request (some c) found) := fun found =>
                hnext c found ⟨page, List.mem_cons_self, hlink⟩
              obtain ⟨absorbed, left, hsplit, hcollect, hend⟩ := ih hrest (hasked _)
                (fun c' found' ⟨page', hmem, hpage'⟩ =>
                  hnext c' found' ⟨page', List.mem_cons_of_mem _ hmem, hpage'⟩)
                (Nat.le_of_succ_le_succ hfuel)
              refine ⟨page :: absorbed, left, congrArg (List.cons page) hsplit, ?_, ?_⟩
              · rw [collect_more hgo (by rw [hpage, hlink]), hpage, hcollect, List.flatMap_cons,
                  List.append_assoc]
              · rwa [List.flatMap_cons, ← List.append_assoc]

theorem collect_all {pages : List P} (hserves : Serves serve next asks pages s cursor)
    (hfirst : asks cursor (request cursor found))
    (hnext : ∀ c found, (∃ page ∈ pages, next page = some c) →
      asks (some c) (request (some c) found))
    (hfuel : pages.length ≤ fuel) :
    collect serve next (fun _ => true) request read fuel s cursor found =
      some (found ++ pages.flatMap read) := by
  obtain ⟨absorbed, left, rfl, hcollect, hleft | hstopped⟩ :=
    collect_pages hserves hfirst hnext hfuel
  · rw [hcollect, hleft, List.append_nil]
  · cases hstopped

/-- `xs[:limit]`. -/
def sliceTo (limit : Int) (xs : List A) : List A :=
  if 0 ≤ limit then xs.take limit.toNat else xs.take (xs.length - limit.natAbs)

/-- A loop that goes on below a limit collects the first items, up to the limit, of all
that the pages hold. -/
theorem collect_limit {pages : List P} {limit : Int}
    (hserves : Serves serve next asks pages s cursor)
    (hfirst : asks cursor (request cursor []))
    (hnext : ∀ c found, (∃ page ∈ pages, next page = some c) →
      asks (some c) (request (some c) found))
    (hfuel : pages.length ≤ fuel) :
    (collect serve next (fun found => decide ((found.length : Int) < limit)) request read fuel s
        cursor []).map (sliceTo limit) =
      some ((pages.flatMap read).take limit.toNat) := by
  have hne : pages ≠ [] := by
    rintro rfl
    exact hserves
  rcases Int.lt_or_le 0 limit with hlimit | hlimit
  · obtain ⟨absorbed, left, rfl, hcollect, hend⟩ := collect_pages hserves hfirst hnext hfuel
    rw [hcollect, Option.map_some, sliceTo, if_pos (Int.le_of_lt hlimit), List.nil_append,
      List.flatMap_append]
    rcases hend with rfl | hstopped
    · rw [List.flatMap_nil, List.append_nil]
    · rw [List.nil_append, decide_eq_false_iff_not, Int.not_lt] at hstopped
      rw [List.take_append_of_le_length (Int.toNat_le.mpr hstopped)]
  · obtain ⟨fuel, rfl⟩ : ∃ n, fuel = n + 1 :=
      Nat.exists_eq_add_one.mpr (Nat.lt_of_lt_of_le (List.length_pos_iff.mpr hne) hfuel)
    rw [collect_stop (decide_eq_false (Int.not_lt.mpr hlimit)), Int.toNat_of_nonpos hlimit,
      List.take_zero, Option.map_some, sliceTo, List.take_nil, List.take_nil, ite_self]

end Pages

/-! ### Messages -/

structure EmailMessage where
  providerRawId : Str
  subject : Str
  sender : Str
  recipients : List Str
  snippet : Str
  receivedAt : Option Datetime

/-- `parseaddr` and `getaddresses`, for the addresses alone, `str.lower`, and the time of
an `internalDate` in milliseconds. -/
structure MailText (F : Type) where
  parseaddr : Str → Str
  getaddresses : Str → List Str
  lower : Str → Str
  fromtimestamp : Json F → Except Failure Datetime

section Messages

variable {F : Type} (mailText : MailText F) (builtins : Builtins F)

/-- `str(entries.get(key, ""))`. -/
def textOf (key : String) (entries : List (Str × Json F)) : Str :=
  ((getItem (ofString key) entries).map (str builtins)).getD []

/-- The headers up to the first of that name. -/
def firstHeader (name : Str) : List (Json F) → Except Failure Str
  | [] => .ok []
  | .dict header :: rest =>
      if mailText.lower (textOf builtins "name" header) = mailText.lower name then
        .ok (textOf builtins "value" header)
      else firstHeader name rest
  | _ :: _ => .error .attributeError

/-- `_header`. -/
def header (payload : List (Str × Json F)) (name : String) : Except Failure Str :=
  match (getItem (ofString "payload") payload).getD (.dict []) with
  | .dict part => do
      let headers ← iterate ((getItem (ofString "headers") part).getD (.list []))
      firstHeader mailText builtins (ofString name) headers
  | _ => .error .attributeError

/-- A date that is there and not empty. -/
def receivedAt (read : Json F → Except Failure Datetime) (value : Option (Json F)) :
    Except Failure (Option Datetime) :=
  match value with
  | none => .ok none
  | some date => if truthy builtins date then (read date).map some else .ok none

/-- `gmail_message_to_email`. -/
def gmailMessageToEmail (payload : List (Str × Json F)) : Except Failure EmailMessage := do
  let received ← receivedAt builtins mailText.fromtimestamp
    (getItem (ofString "internalDate") payload)
  let sender ← header mailText builtins payload "From"
  let recipients ← header mailText builtins payload "To"
  let rawId ← item (ofString "id") payload
  let subject ← header mailText builtins payload "Subject"
  return {
    providerRawId := str builtins rawId
    subject := subject
    sender := mailText.parseaddr sender
    recipients := (mailText.getaddresses recipients).filter fun address => address ≠ []
    snippet := textOf builtins "snippet" payload
    receivedAt := received }

/-- `graph_message_to_email`. -/
def graphMessageToEmail (payload : List (Str × Json F)) : Except Failure EmailMessage := do
  let rawId ← item (ofString "id") payload
  let nodes ← iterate ((getItem (ofString "toRecipients") payload).getD (.list []))
  let received ← receivedAt builtins (fun date => parseGraphDatetime builtins (str builtins date))
    (getItem (ofString "receivedDateTime") payload)
  return {
    providerRawId := str builtins rawId
    subject := textOf builtins "subject" payload
    sender := addressOf builtins ((getItem (ofString "from") payload).getD .null)
    recipients := (nodes.map (addressOf builtins)).filter fun address => address ≠ []
    snippet := textOf builtins "bodyPreview" payload
    receivedAt := received }

end Messages

/-! ### The four listings -/

/-- A page of results: its items, when it has the key for them, and what asks for the
next page: a token at Google, a link at Graph. -/
structure Page (A : Type) where
  items : Option (List A)
  next : Option Str

def Page.held {A : Type} (page : Page A) : List A := page.items.getD []

/-- The provider's side of a listing. -/
structure Service (R A : Type) where
  State : Type
  serve : State → R → Page A × State
  start : State

structure EventsRequest where
  calendarId : String
  timeMin : Str
  timeMax : Str
  singleEvents : Bool
  orderBy : String
  pageToken : Option Str

structure MessagesRequest where
  userId : String
  labelIds : List Str
  q : Option Str
  maxResults : Int
  pageToken : Option Str

structure GraphRequest where
  method : String
  url : Str
  params : Option (List (Str × Str))

section Listings

variable {F : Type} (mailText : MailText F) (builtins : Builtins F)

/-- `list_events` of the Google calendar, between two times as texts. -/
def GoogleCalendar.listEvents (google : Service EventsRequest (List (Str × Json F)))
    (timeMin timeMax : Str) (fuel : Nat) : Option (Except Failure (List CalendarEvent)) :=
  (collect google.serve Page.next (fun _ => true)
    (fun pageToken _ => ⟨"primary", timeMin, timeMax, true, "startTime", pageToken⟩)
    Page.held fuel google.start none []).map
  fun payloads => payloads.mapM (googleEventToCalendarEvent builtins)

/-- `list_messages` of Gmail, of a label and a query: a page lists the ids of messages,
which are read one by one. -/
def GoogleMail.listMessages (gmail : Service MessagesRequest Str)
    (get : Str → List (Str × Json F)) (label : Str) (query : Option Str) (limit : Int)
    (fuel : Nat) : Option (Except Failure (List EmailMessage)) :=
  (collect gmail.serve Page.next (fun messages => decide ((messages.length : Int) < limit))
    (fun pageToken messages =>
      ⟨"me", [label], query, min (limit - messages.length) 100, pageToken⟩)
    (fun page => page.held.map get) fuel gmail.start none []).map
  fun payloads => (sliceTo limit payloads).mapM (gmailMessageToEmail mailText builtins)

/-- `str.removeprefix`. -/
def removePrefix (start s : Str) : Str := if start.isPrefixOf s then s.drop start.length else s

/-- `graph_request` with the verb of a listing. -/
def graphRequest (apiBaseUrl path : Str) (params : Option (List (Str × Str))) : GraphRequest :=
  ⟨"GET", apiBaseUrl ++ path, params⟩

/-- The first request of `list_messages`, of a folder and since a time as text. -/
def messagesRequest (apiBaseUrl folder : Str) (since : Option Str) (limit : Int) :
    GraphRequest :=
  graphRequest apiBaseUrl (ofString "/me/mailFolders/" ++ folder ++ ofString "/messages") <| some <|
    [(ofString "$top", ofString (toString (min limit 100))),
      (ofString "$orderby", ofString "receivedDateTime desc"),
      (ofString "$select",
        ofString "id,subject,from,toRecipients,bodyPreview,receivedDateTime")] ++
    (since.map fun stamp =>
      (ofString "$filter", ofString "receivedDateTime ge " ++ stamp)).toList

/-- `list_messages` of Microsoft. -/
def MicrosoftMail.listMessages (graph : Service GraphRequest (List (Str × Json F)))
    (apiBaseUrl folder : Str) (since : Option Str) (limit : Int) (fuel : Nat) :
    Option (Except Failure (List EmailMessage)) :=
  (collect graph.serve Page.next (fun messages => decide ((messages.length : Int) < limit))
    (fun nextLink _ => match nextLink with
      | none => messagesRequest apiBaseUrl folder since limit
      | some link => graphRequest apiBaseUrl (removePrefix apiBaseUrl link) none)
    Page.held fuel graph.start none []).map
  fun payloads => (sliceTo limit payloads).mapM (graphMessageToEmail builtins)

/-- The request of `list_events`, between two times as texts. -/
def calendarViewRequest (apiBaseUrl startDateTime endDateTime : Str) : GraphRequest :=
  graphRequest apiBaseUrl (ofString "/me/calendarView") <| some
    [(ofString "startDateTime", startDateTime), (ofString "endDateTime", endDateTime),
      (ofString "$orderby", ofString "start/dateTime")]

/-- `list_events` of Microsoft. -/
def MicrosoftCalendar.listEvents (graph : Service GraphRequest (List (Str × Json F)))
    (apiBaseUrl startDateTime endDateTime : Str) : Except Failure (List CalendarEvent) :=
  let (payload, _) :=
    graph.serve graph.start (calendarViewRequest apiBaseUrl startDateTime endDateTime)
  payload.held.mapM (graphEventToCalendarEvent builtins)

end Listings

/-- The first page is asked for by the first request, another by its link alone. -/
def Follows (first : GraphRequest) : Option Str → GraphRequest → Prop
  | none, r => r = first
  | some link, r => r.url = link ∧ r.params = none

/-- The pages that a Google service has for a listing. -/
def ServesTokens {R A : Type} (service : Service R A) (pageToken : R → Option Str)
    (pages : List (Page A)) : Prop :=
  Serves service.serve Page.next (fun token r => pageToken r = token) pages service.start none

/-- The pages that Graph has for a listing. -/
def ServesLinks {A : Type} (graph : Service GraphRequest A) (first : GraphRequest)
    (pages : List (Page A)) : Prop :=
  Serves graph.serve Page.next (Follows first) pages graph.start none

section Absorbed

variable {F : Type} {mailText : MailText F} {builtins : Builtins F}

theorem removePrefix_append {start link : Str} (h : start <+: link) :
    start ++ removePrefix start link = link := by
  obtain ⟨rest, rfl⟩ := h
  rw [removePrefix, if_pos (List.isPrefixOf_iff_prefix.mpr (List.prefix_append _ _)),
    List.drop_left]

theorem google_events {google : Service EventsRequest (List (Str × Json F))}
    {pages : List (Page (List (Str × Json F)))} (timeMin timeMax : Str)
    (h : ServesTokens google EventsRequest.pageToken pages) {fuel : Nat}
    (hfuel : pages.length ≤ fuel) :
    GoogleCalendar.listEvents builtins google timeMin timeMax fuel =
      some ((pages.flatMap Page.held).mapM (googleEventToCalendarEvent builtins)) := by
  rw [GoogleCalendar.listEvents, collect_all h rfl (fun _ _ _ => rfl) hfuel]
  rfl

theorem gmail_messages {gmail : Service MessagesRequest Str} {pages : List (Page Str)}
    (get : Str → List (Str × Json F)) (label : Str) (query : Option Str) (limit : Int)
    (h : ServesTokens gmail MessagesRequest.pageToken pages) {fuel : Nat}
    (hfuel : pages.length ≤ fuel) :
    GoogleMail.listMessages mailText builtins gmail get label query limit fuel =
      some (((pages.flatMap Page.held).take limit.toNat).mapM fun id =>
        gmailMessageToEmail mailText builtins (get id)) := by
  have hread : (pages.flatMap fun page => page.held.map get) = (pages.flatMap Page.held).map get :=
    List.map_flatMap.symm
  have hslice : (fun payloads => (sliceTo limit payloads).mapM
      (gmailMessageToEmail mailText builtins)) =
    List.mapM (gmailMessageToEmail mailText builtins) ∘ sliceTo limit := rfl
  rw [GoogleMail.listMessages, hslice, ← Option.map_map,
    collect_limit h rfl (fun _ _ _ => rfl) hfuel, hread, Option.map_some, ← List.map_take,
    List.mapM_map]
  rfl

theorem graph_messages {graph : Service GraphRequest (List (Str × Json F))}
    {pages : List (Page (List (Str × Json F)))} {apiBaseUrl : Str} (folder : Str)
    (since : Option Str) (limit : Int)
    (h : ServesLinks graph (messagesRequest apiBaseUrl folder since limit) pages)
    (hlinks : ∀ page ∈ pages, ∀ link ∈ page.next, apiBaseUrl <+: link) {fuel : Nat}
    (hfuel : pages.length ≤ fuel) :
    MicrosoftMail.listMessages builtins graph apiBaseUrl folder since limit fuel =
      some (((pages.flatMap Page.held).take limit.toNat).mapM
        (graphMessageToEmail builtins)) := by
  have hslice : (fun payloads => (sliceTo limit payloads).mapM (graphMessageToEmail builtins)) =
    List.mapM (graphMessageToEmail builtins) ∘ sliceTo limit := rfl
  rw [MicrosoftMail.listMessages, hslice, ← Option.map_map, collect_limit h ?_ ?_ hfuel]
  · rfl
  · rfl
  · rintro link found ⟨page, hmem, hpage⟩
    exact ⟨removePrefix_append (hlinks page hmem link hpage), rfl⟩

theorem graph_events {graph : Service GraphRequest (List (Str × Json F))}
    {first : Page (List (Str × Json F))} {rest : List (Page (List (Str × Json F)))}
    {apiBaseUrl startDateTime endDateTime : Str}
    (h : ServesLinks graph (calendarViewRequest apiBaseUrl startDateTime endDateTime)
      (first :: rest)) :
    MicrosoftCalendar.listEvents builtins graph apiBaseUrl startDateTime endDateTime =
      first.held.mapM (graphEventToCalendarEvent builtins) := by
  show (graph.serve graph.start (calendarViewRequest apiBaseUrl startDateTime
    endDateTime)).1.held.mapM (graphEventToCalendarEvent builtins) = _
  rw [(h _ rfl).1]

theorem mapM_append_eq_iff {A B ε : Type} (f : A → Except ε B) (first rest : List A) :
    first.mapM f = (first ++ rest).mapM f ↔ rest = [] ∨ ∃ e, first.mapM f = .error e := by
  rw [List.mapM_append]
  cases hfirst : first.mapM f with
  | error e => exact ⟨fun _ => .inr ⟨e, rfl⟩, fun _ => rfl⟩
  | ok found =>
      cases rest with
      | nil =>
          refine ⟨fun _ => .inl rfl, fun _ => ?_⟩
          rw [List.mapM_nil]
          exact congrArg Except.ok (List.append_nil found).symm
      | cons a rest =>
          refine ⟨fun h => ?_, fun h => ?_⟩
          · rw [List.mapM_cons] at h
            cases ha : f a with
            | error e =>
                rw [ha] at h
                cases h
            | ok b =>
                cases hrest : rest.mapM f with
                | error e =>
                    rw [ha, hrest] at h
                    cases h
                | ok more =>
                    rw [ha, hrest] at h
                    have hlength := congrArg List.length (Except.ok.inj h)
                    simp at hlength
          · rcases h with h | ⟨e, h⟩
            · cases h
            · cases h

theorem mapM_error_iff {A B ε : Type} (f : A → Except ε B) (l : List A) :
    (∃ e, l.mapM f = .error e) ↔ ∃ a ∈ l, ∃ e, f a = .error e := by
  induction l with
  | nil => exact ⟨fun ⟨_, h⟩ => (nomatch h), fun ⟨_, h, _⟩ => (nomatch h)⟩
  | cons a rest ih =>
      rw [List.mapM_cons]
      cases ha : f a with
      | error e =>
          exact ⟨fun _ => ⟨a, List.mem_cons_self, e, ha⟩, fun _ => ⟨e, rfl⟩⟩
      | ok b =>
          have hrest : (∃ e, (do
              let b ← Except.ok b
              let bs ← rest.mapM f
              return b :: bs : Except ε (List B)) = .error e) ↔ ∃ e, rest.mapM f = .error e := by
            cases rest.mapM f with
            | error e => exact ⟨fun _ => ⟨e, rfl⟩, fun _ => ⟨e, rfl⟩⟩
            | ok bs => exact ⟨fun ⟨_, h⟩ => (nomatch h), fun ⟨_, h⟩ => (nomatch h)⟩
          rw [hrest, ih]
          constructor
          · rintro ⟨a', hmem, he⟩
            exact ⟨a', List.mem_cons_of_mem _ hmem, he⟩
          · rintro ⟨a', hmem, e, he⟩
            rcases List.mem_cons.mp hmem with rfl | hmem
            · cases ha.symm.trans he
            · exact ⟨a', hmem, e, he⟩

/-- The loops absorb all the pages, and the listing without one absorbs them exactly when
the pages after the first are empty or the first has an item that cannot be mapped. -/
theorem absorbed_iff {google : Service EventsRequest (List (Str × Json F))}
    {gmail : Service MessagesRequest Str}
    {mailbox calendar : Service GraphRequest (List (Str × Json F))}
    {googlePages : List (Page (List (Str × Json F)))} {gmailPages : List (Page Str)}
    {mailboxPages : List (Page (List (Str × Json F)))} {first : Page (List (Str × Json F))}
    {rest : List (Page (List (Str × Json F)))} {apiBaseUrl : Str}
    (timeMin timeMax label : Str) (query : Option Str) (get : Str → List (Str × Json F))
    (folder : Str) (since : Option Str) (startDateTime endDateTime : Str) (limit : Int)
    (hgoogle : ServesTokens google EventsRequest.pageToken googlePages)
    (hgmail : ServesTokens gmail MessagesRequest.pageToken gmailPages)
    (hmailbox : ServesLinks mailbox (messagesRequest apiBaseUrl folder since limit) mailboxPages)
    (hcalendar : ServesLinks calendar (calendarViewRequest apiBaseUrl startDateTime endDateTime)
      (first :: rest))
    (hlinks : ∀ page ∈ mailboxPages, ∀ link ∈ page.next, apiBaseUrl <+: link) :
    ((∀ fuel ≥ googlePages.length,
          GoogleCalendar.listEvents builtins google timeMin timeMax fuel =
            some ((googlePages.flatMap Page.held).mapM (googleEventToCalendarEvent builtins))) ∧
        (∀ fuel ≥ gmailPages.length,
          GoogleMail.listMessages mailText builtins gmail get label query limit fuel =
            some (((gmailPages.flatMap Page.held).take limit.toNat).mapM fun id =>
              gmailMessageToEmail mailText builtins (get id))) ∧
        (∀ fuel ≥ mailboxPages.length,
          MicrosoftMail.listMessages builtins mailbox apiBaseUrl folder since limit fuel =
            some (((mailboxPages.flatMap Page.held).take limit.toNat).mapM
              (graphMessageToEmail builtins))) ∧
        MicrosoftCalendar.listEvents builtins calendar apiBaseUrl startDateTime endDateTime =
          ((first :: rest).flatMap Page.held).mapM (graphEventToCalendarEvent builtins)) ↔
      (∀ page ∈ rest, page.held = []) ∨
        ∃ payload ∈ first.held, ∃ e, graphEventToCalendarEvent builtins payload = .error e := by
  have hevents : MicrosoftCalendar.listEvents builtins calendar apiBaseUrl startDateTime
      endDateTime = ((first :: rest).flatMap Page.held).mapM (graphEventToCalendarEvent builtins) ↔
      (∀ page ∈ rest, page.held = []) ∨
        ∃ payload ∈ first.held, ∃ e, graphEventToCalendarEvent builtins payload = .error e := by
    rw [graph_events hcalendar, List.flatMap_cons, mapM_append_eq_iff, mapM_error_iff,
      List.flatMap_eq_nil_iff]
  rw [← hevents]
  refine ⟨fun h => h.2.2.2, fun h => ⟨?_, ?_, ?_, h⟩⟩
  · exact fun fuel hfuel => google_events timeMin timeMax hgoogle hfuel
  · exact fun fuel hfuel => gmail_messages get label query limit hgmail hfuel
  · exact fun fuel hfuel => graph_messages folder since limit hmailbox hlinks hfuel

end Absorbed

def decimals : Builtins Nat := ⟨fun _ => [], fun _ => true, PythonJson.isDigit⟩

/-- Nine o'clock on the first of March 2024. -/
def nine : Datetime where
  clock := 63844880400000000
  offset := some 0
  clock_lt := by decide
  offset_lt := CalendarDrafts.utc_lt

/-- An event at nine, without a length. -/
def point : List (Str × Json Nat) :=
  [(ofString "id", .str (ofString "AAMk")), (ofString "subject", .str (ofString "Point")),
    (ofString "start", graphWhen nine), (ofString "end", graphWhen nine)]

def graphUrl : Str := ofString "https://graph.microsoft.com/v1.0"

/-- A first page of events that has a link, and the page the link leads to. -/
def firstPage : Page (List (Str × Json Nat)) where
  items := some [point]
  next := some (graphUrl ++ ofString "/me/calendarView?$skip=1")

def lastPage : Page (List (Str × Json Nat)) where
  items := some [point]
  next := none

def twoPages : Service GraphRequest (List (Str × Json Nat)) where
  State := Unit
  serve := fun _ r => (if r.params = none then lastPage else firstPage, ())
  start := ()

theorem servesLinks_twoPages {first : GraphRequest} (h : first.params ≠ none) :
    ServesLinks twoPages first [firstPage, lastPage] := by
  rintro r rfl
  refine ⟨if_neg h, ?_⟩
  rintro r ⟨-, hparams⟩
  exact ⟨if_pos hparams, rfl⟩

def emptyPage {A : Type} : Page A := ⟨none, none⟩

/-- A service that has nothing to list. -/
def nothing {R A : Type} : Service R A where
  State := Unit
  serve := fun _ _ => (emptyPage, ())
  start := ()

theorem link_graphUrl : ∀ page ∈ [firstPage, lastPage], ∀ link ∈ page.next, graphUrl <+: link := by
  intro page hmem link hlink
  rcases List.mem_cons.mp hmem with rfl | hmem
  · cases hlink
    exact List.prefix_append _ _
  · cases List.mem_singleton.mp hmem
    cases hlink

def plainMail : MailText Nat where
  parseaddr := id
  getaddresses := fun s => [s]
  lower := id
  fromtimestamp := fun _ => .ok nine

/-- The listing of two pages of messages. -/
theorem two_pages_of_messages :
    MicrosoftMail.listMessages decimals twoPages graphUrl (ofString "inbox") none 50 2 =
      some ((([firstPage, lastPage].flatMap Page.held).take 50).mapM
        (graphMessageToEmail decimals)) :=
  ((@absorbed_iff Nat plainMail decimals nothing nothing twoPages nothing [emptyPage] [emptyPage]
    [firstPage, lastPage] emptyPage [] graphUrl [] [] [] none (fun _ => []) (ofString "inbox") none
    [] [] 50 (fun _ _ => ⟨rfl, rfl⟩) (fun _ _ => ⟨rfl, rfl⟩) (servesLinks_twoPages nofun)
    (fun _ _ => ⟨rfl, rfl⟩) link_graphUrl).mpr (.inl nofun)).2.2.1 2 (Nat.le_refl 2)

theorem point_maps : ∃ event, graphEventToCalendarEvent decimals point = .ok event := by
  obtain ⟨d, hd, -, -⟩ := graphParseWhen_graphWhen decimals nine
  have hstart : item (ofString "start") point = .ok (graphWhen nine) := rfl
  have hend : item (ofString "end") point = .ok (graphWhen nine) := rfl
  have hid : item (ofString "id") point = .ok (.str (ofString "AAMk")) := rfl
  have hattendees : iterate ((getItem (ofString "attendees") point).getD (.list [])) = .ok [] :=
    rfl
  constructor
  rw [graphEventToCalendarEvent, hattendees, hid, hstart, hend]
  simp only [bind, Except.bind, hd]
  rfl

/-- The event on the second page is left out of the listing of the events. -/
theorem second_page_unread :
    let startDateTime := ofString "2024-03-01T00:00:00Z"
    let endDateTime := ofString "2024-03-02T00:00:00Z"
    ServesLinks twoPages (calendarViewRequest graphUrl startDateTime endDateTime)
        [firstPage, lastPage] ∧
      MicrosoftCalendar.listEvents decimals twoPages graphUrl startDateTime endDateTime ≠
        ([firstPage, lastPage].flatMap Page.held).mapM (graphEventToCalendarEvent decimals) := by
  intro startDateTime endDateTime
  have hserves : ServesLinks twoPages (calendarViewRequest graphUrl startDateTime endDateTime)
    [firstPage, lastPage] := servesLinks_twoPages nofun
  refine ⟨hserves, fun h => ?_⟩
  rw [graph_events hserves, List.flatMap_cons, mapM_append_eq_iff, mapM_error_iff] at h
  obtain ⟨event, hevent⟩ := point_maps
  rcases h with hempty | ⟨payload, hpayload, e, he⟩
  · cases hempty
  · cases List.mem_singleton.mp hpayload
    cases hevent.symm.trans he

end Socle.ResultPages
