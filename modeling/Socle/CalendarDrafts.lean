import Socle.IsoDates

/-!
Calendar drafts and events: the bodies that a draft becomes for Google and for
Microsoft Graph, and the normalized events that the payloads of both are mapped to.
-/

namespace Socle.CalendarDrafts

open Socle.IsoDates Socle.PythonText
open Socle.PythonJson (Json PyFloat getItem setItem getItem_append getItem_setItem
  getItem_setItem_of_ne)

/-! ### Values -/

/-- What the mappings raise. -/
inductive Failure where
  | keyError (key : Str)
  | typeError
  | attributeError
  | valueError
  | overflowError
  | validationError
  deriving DecidableEq, Repr

/-- `str` of the values that are not texts, `bool` of the floats, and the decimal
digits of `\d`. -/
structure Builtins (F : Type) where
  text : Json F → Str
  isNonzero : PyFloat F → Bool
  isDecimal : CodePoint → Bool

section Values

variable {F : Type} (builtins : Builtins F)

/-- `str`. -/
def str : Json F → Str
  | .str s => s
  | value => builtins.text value

/-- `bool`. -/
def truthy : Json F → Bool
  | .null => false
  | .bool b => b
  | .int i => i ≠ 0
  | .float x => builtins.isNonzero x
  | .str s => !s.isEmpty
  | .list items => !items.isEmpty
  | .dict entries => !entries.isEmpty

/-- `payload[key]`. -/
def item (key : Str) (entries : List (Str × Json F)) : Except Failure (Json F) :=
  match getItem key entries with
  | some value => .ok value
  | none => .error (.keyError key)

/-- What a `for` iterates over. -/
def iterate : Json F → Except Failure (List (Json F))
  | .list items => .ok items
  | .str s => .ok (s.map fun c => .str [c])
  | .dict entries => .ok (entries.map fun entry => .str entry.1)
  | _ => .error .typeError

/-- A field that is a text or `None`. -/
def optionalText : Option (Json F) → Except Failure (Option Str)
  | none | some .null => .ok none
  | some (.str s) => .ok (some s)
  | _ => .error .validationError

/-- An optional key of a body. -/
def optional (key : String) (value : Option (Json F)) : List (Str × Json F) :=
  value.toList.map fun v => (ofString key, v)

end Values

/-- A date and time with a timezone. -/
structure AwareDatetime extends Datetime where
  utcoffset : Int
  aware : offset = some utcoffset

/-- The instant it denotes, in microseconds. -/
def AwareDatetime.moment (d : AwareDatetime) : Int := d.clock - d.utcoffset

/-- `astimezone(UTC)`. -/
def AwareDatetime.toUtc (d : AwareDatetime) : Except Failure Datetime :=
  if d.moment < 0 then .error .overflowError
  else
    match Datetime.make d.moment.toNat (some 0) with
    | some utc => .ok utc
    | none => .error .overflowError

structure CalendarEventDraft where
  title : Str
  description : Option Str := none
  location : Option Str := none
  startsAt : AwareDatetime
  endsAt : AwareDatetime
  attendees : List Str := []

structure CalendarEvent where
  providerRawId : Str
  title : Str
  description : Option Str := none
  location : Option Str := none
  startsAt : Datetime
  endsAt : Datetime
  attendees : List Str := []

section Mappings

variable {F : Type} (builtins : Builtins F)

/-- `date.fromisoformat`, at midnight UTC. -/
def midnight (text : Str) : Except Failure Datetime :=
  match dateFromisoformat text with
  | some day =>
      match Datetime.make (day * microsPerDay) (some 0) with
      | some d => .ok d
      | none => .error .valueError
  | none => .error .valueError

def parsed (text : Str) : Except Failure Datetime :=
  match fromisoformat text with
  | some d => .ok d
  | none => .error .valueError

/-- `_parse_when` of the Google calendar. -/
def googleParseWhen : Json F → Except Failure Datetime
  | .dict entries =>
      match getItem (ofString "dateTime") entries with
      | some value => parsed (str builtins value)
      | none => do midnight (str builtins (← item (ofString "date") entries))
  | _ => .error .typeError

/-- The address of an attendee of a Google event, when it has one. -/
def googleAttendee : Json F → Except Failure (Option Str)
  | .dict entries =>
      match getItem (ofString "email") entries with
      | some email => .ok (if truthy builtins email then some (str builtins email) else none)
      | none => .ok none
  | _ => .error .attributeError

/-- `google_event_to_calendar_event`. -/
def googleEventToCalendarEvent (payload : List (Str × Json F)) :
    Except Failure CalendarEvent := do
  let rawAttendees ← iterate ((getItem (ofString "attendees") payload).getD (.list []))
  let attendees ← rawAttendees.mapM (googleAttendee builtins)
  let rawId ← item (ofString "id") payload
  let startsAt ← googleParseWhen builtins (← item (ofString "start") payload)
  let endsAt ← googleParseWhen builtins (← item (ofString "end") payload)
  let description ← optionalText (getItem (ofString "description") payload)
  let location ← optionalText (getItem (ofString "location") payload)
  return {
    providerRawId := str builtins rawId
    title := ((getItem (ofString "summary") payload).map (str builtins)).getD []
    description := description
    location := location
    startsAt := startsAt
    endsAt := endsAt
    attendees := attendees.filterMap id }

/-- `draft_to_google_event`. -/
def draftToGoogleEvent (draft : CalendarEventDraft) : List (Str × Json F) :=
  [(ofString "summary", .str draft.title),
    (ofString "start", .dict [(ofString "dateTime", .str draft.startsAt.isoformat)]),
    (ofString "end", .dict [(ofString "dateTime", .str draft.endsAt.isoformat)])] ++
  optional "description" (draft.description.map .str) ++
  optional "location" (draft.location.map .str) ++
  optional "attendees" (if draft.attendees = [] then none
    else some (.list (draft.attendees.map fun email => .dict [(ofString "email", .str email)])))

/-- `_FRACTION_RE.sub(r".\1", value)`: a fraction keeps its first six digits. -/
def trimFraction (isDecimal : CodePoint → Bool) : Str → Str
  | [] => []
  | c :: rest =>
      if c = 46 ∧ 7 ≤ (rest.takeWhile isDecimal).length then
        c :: (rest.take 6 ++ trimFraction isDecimal (rest.dropWhile isDecimal))
      else c :: trimFraction isDecimal rest
termination_by s => s.length
decreasing_by
  · exact Nat.lt_succ_of_le (List.dropWhile_suffix _).length_le
  · exact Nat.lt_succ_self _

theorem utc_lt : ∀ offset ∈ some (0 : Int), offset.natAbs < microsPerDay := by
  rintro offset ⟨⟩
  decide

/-- `replace(tzinfo=UTC)`. -/
def replaceUtc (d : Datetime) : Datetime :=
  ⟨d.clock, some 0, d.clock_lt, utc_lt⟩

/-- `parse_graph_datetime`. -/
def parseGraphDatetime (value : Str) : Except Failure Datetime := do
  let d ← parsed (trimFraction builtins.isDecimal value)
  return if d.offset = none then replaceUtc d else d

/-- `address_of`. -/
def addressOf : Json F → Str
  | .dict entries =>
      match (getItem (ofString "emailAddress") entries).getD (.dict []) with
      | .dict email => ((getItem (ofString "address") email).map (str builtins)).getD []
      | _ => []
  | _ => []

/-- `text.upper() == "UTC"`: no letter but these has one of them as its capital. -/
def isUtc (text : Str) : Bool :=
  text.map (fun c => if 97 ≤ c.val ∧ c.val ≤ 122 then Fin.ofNat _ (c.val - 32) else c) =
    ofString "UTC"

/-- `_parse_when` of the Microsoft calendar. -/
def graphParseWhen : Json F → Except Failure Datetime
  | .dict node => do
      let value := ((getItem (ofString "dateTime") node).map (str builtins)).getD []
      let zone := ((getItem (ofString "timeZone") node).map (str builtins)).getD (ofString "UTC")
      let d ← parseGraphDatetime builtins value
      return if d.offset = none ∨ isUtc zone = true then replaceUtc d else d
  | _ => .error .attributeError

/-- The name of a location, when it has one. -/
def graphLocation : Json F → Option Str
  | .dict location =>
      match getItem (ofString "displayName") location with
      | some name => if truthy builtins name then some (str builtins name) else none
      | none => none
  | _ => none

/-- `graph_event_to_calendar_event`. -/
def graphEventToCalendarEvent (payload : List (Str × Json F)) :
    Except Failure CalendarEvent := do
  let location := graphLocation builtins
    ((getItem (ofString "location") payload).getD (.dict []))
  let rawAttendees ← iterate ((getItem (ofString "attendees") payload).getD (.list []))
  let attendees := (rawAttendees.map (addressOf builtins)).filter fun address => address ≠ []
  let rawId ← item (ofString "id") payload
  let startsAt ← graphParseWhen builtins (← item (ofString "start") payload)
  let endsAt ← graphParseWhen builtins (← item (ofString "end") payload)
  return {
    providerRawId := str builtins rawId
    title := ((getItem (ofString "subject") payload).map (str builtins)).getD []
    description := (getItem (ofString "bodyPreview") payload).bind fun preview =>
      if truthy builtins preview then some (str builtins preview) else none
    location := location
    startsAt := startsAt
    endsAt := endsAt
    attendees := attendees }

/-- A date and time of a Graph body. -/
def graphWhen (d : Datetime) : Json F :=
  .dict [(ofString "dateTime", .str d.strftimeSeconds),
    (ofString "timeZone", .str (ofString "UTC"))]

/-- `draft_to_graph_event`. -/
def draftToGraphEvent (draft : CalendarEventDraft) : Except Failure (List (Str × Json F)) := do
  let startsAt ← draft.startsAt.toUtc
  let endsAt ← draft.endsAt.toUtc
  return [(ofString "subject", .str draft.title), (ofString "start", graphWhen startsAt),
      (ofString "end", graphWhen endsAt)] ++
    optional "body" (draft.description.map fun description =>
      .dict [(ofString "contentType", .str (ofString "Text")),
        (ofString "content", .str description)]) ++
    optional "location" (draft.location.map fun location =>
      .dict [(ofString "displayName", .str location)]) ++
    optional "attendees" (if draft.attendees = [] then none
      else some (.list (draft.attendees.map fun address =>
        .dict [(ofString "emailAddress", .dict [(ofString "address", .str address)]),
          (ofString "type", .str (ofString "required"))])))

/-- What a provider returns that stores the body it is sent. -/
def created (rawId : Json F) (body : List (Str × Json F)) : List (Str × Json F) :=
  setItem (ofString "id") rawId body

def throughGoogle (rawId : Json F) (draft : CalendarEventDraft) : Except Failure CalendarEvent :=
  googleEventToCalendarEvent builtins (created rawId (draftToGoogleEvent draft))

def throughGraph (rawId : Json F) (draft : CalendarEventDraft) : Except Failure CalendarEvent := do
  let body ← draftToGraphEvent draft
  graphEventToCalendarEvent builtins (created rawId body)

end Mappings

/-- The event means what the draft does. -/
structure Means (draft : CalendarEventDraft) (event : CalendarEvent) : Prop where
  title : event.title = draft.title
  location : event.location = draft.location
  attendees : event.attendees = draft.attendees.filter fun address => address ≠ []
  startsAt : event.startsAt.instant = some draft.startsAt.moment
  endsAt : event.endsAt.instant = some draft.endsAt.moment

/-- A moment that UTC can show in whole seconds, in the years 1 to 9999. -/
def wholeSecond (moment : Int) : Prop :=
  0 ≤ moment ∧ moment < dayCount * microsPerDay ∧ moment % microsPerSecond = 0

section Lookups

variable {F : Type} {builtins : Builtins F} {rawId : Json F} {body : List (Str × Json F)}

theorem getItem_created {key : Str} (h : key ≠ ofString "id") :
    getItem key (created rawId body) = getItem key body := getItem_setItem_of_ne h

theorem item_id : item (ofString "id") (created rawId body) = .ok rawId := by
  rw [item, created, getItem_setItem]

theorem getItem_optional_self (key : String) (value : Option (Json F)) :
    getItem (ofString key) (optional key value) = value := by
  cases value with
  | none => rfl
  | some v => simp [optional, getItem]

theorem getItem_optional_of_ne {key : String} {other : Str} (h : other ≠ ofString key)
    (value : Option (Json F)) : getItem other (optional key value) = none := by
  cases value with
  | none => rfl
  | some v => simp [optional, getItem, Ne.symm h]

theorem getItem_optionals {first : List (Str × Json F)} {a b c : String}
    {key : Str} (x y z : Option (Json F)) (hfirst : getItem key first = none) :
    getItem key (first ++ optional a x ++ optional b y ++ optional c z) =
      ((getItem key (optional a x)).or (getItem key (optional b y))).or
        (getItem key (optional c z)) := by
  rw [getItem_append, getItem_append, getItem_append, hfirst, Option.none_or]

theorem parsed_isoformat (d : Datetime) : parsed d.isoformat = .ok d := by
  rw [parsed, fromisoformat_isoformat]

theorem optionalText_map (value : Option Str) :
    optionalText (value.map (Json.str (F := F))) = .ok value := by
  cases value with
  | none => rfl
  | some s => rfl

theorem iterate_attendees (addresses : List Str) (attendee : Str → Json F) :
    iterate ((if addresses = [] then none else some (Json.list (addresses.map attendee))).getD
      (Json.list [])) = .ok (addresses.map attendee) := by
  by_cases hnone : addresses = []
  · subst hnone
    rfl
  · rw [if_neg hnone]
    rfl

theorem instant_aware (d : AwareDatetime) : d.toDatetime.instant = some d.moment := by
  rw [Datetime.instant, d.aware]
  rfl

end Lookups

/-! ### Google -/

section Google

variable {F : Type} {builtins : Builtins F} {rawId : Json F} {draft : CalendarEventDraft}

theorem googleAttendees (addresses : List Str) :
    (addresses.map fun email => Json.dict (F := F) [(ofString "email", .str email)]).mapM
        (googleAttendee builtins) =
      .ok (addresses.map fun email => if email = [] then none else some email) := by
  induction addresses with
  | nil => rfl
  | cons email rest ih =>
      rw [List.map_cons, List.mapM_cons, ih]
      cases email with
      | nil => rfl
      | cons c email => rfl

theorem google_keys (rawId : Json F) (draft : CalendarEventDraft) :
    let payload := created rawId (draftToGoogleEvent draft)
    getItem (ofString "summary") payload = some (.str draft.title) ∧
      getItem (ofString "start") payload =
        some (.dict [(ofString "dateTime", .str draft.startsAt.isoformat)]) ∧
      getItem (ofString "end") payload =
        some (.dict [(ofString "dateTime", .str draft.endsAt.isoformat)]) ∧
      getItem (ofString "description") payload = draft.description.map .str ∧
      getItem (ofString "location") payload = draft.location.map .str ∧
      getItem (ofString "attendees") payload = if draft.attendees = [] then none
        else some (.list (draft.attendees.map fun email =>
          .dict [(ofString "email", .str email)])) := by
  intro payload
  refine ⟨rfl, rfl, rfl, ?_, ?_, ?_⟩
  · rw [getItem_created (by decide), draftToGoogleEvent, getItem_optionals _ _ _ rfl,
      getItem_optional_self, getItem_optional_of_ne (by decide), getItem_optional_of_ne (by decide),
      Option.or_none, Option.or_none]
  · rw [getItem_created (by decide), draftToGoogleEvent, getItem_optionals _ _ _ rfl,
      getItem_optional_of_ne (by decide), getItem_optional_self, getItem_optional_of_ne (by decide),
      Option.none_or, Option.or_none]
  · rw [getItem_created (by decide), draftToGoogleEvent, getItem_optionals _ _ _ rfl,
      getItem_optional_of_ne (by decide), getItem_optional_of_ne (by decide), getItem_optional_self,
      Option.none_or, Option.none_or]

theorem filterMap_nonempty (addresses : List Str) :
    (addresses.map fun email => if email = [] then none else some email).filterMap id =
      addresses.filter fun address => address ≠ [] := by
  induction addresses with
  | nil => rfl
  | cons email rest ih =>
      cases email with
      | nil => exact ih
      | cons c email => exact congrArg (List.cons (c :: email)) ih

theorem throughGoogle_ok (builtins : Builtins F) (rawId : Json F) (draft : CalendarEventDraft) :
    throughGoogle builtins rawId draft = .ok
      { providerRawId := str builtins rawId
        title := draft.title
        description := draft.description
        location := draft.location
        startsAt := draft.startsAt.toDatetime
        endsAt := draft.endsAt.toDatetime
        attendees := draft.attendees.filter fun address => address ≠ [] } := by
  obtain ⟨hsummary, hstart, hend, hdescription, hlocation, hattendees⟩ := google_keys rawId draft
  have hwhen : ∀ d : Datetime, googleParseWhen builtins
      (.dict [(ofString "dateTime", .str d.isoformat)]) = .ok d := fun d => parsed_isoformat d
  unfold throughGoogle googleEventToCalendarEvent
  rw [hattendees, iterate_attendees, hsummary, hdescription, hlocation, optionalText_map,
    optionalText_map, item_id, item, hstart, item, hend]
  simp only [bind, Except.bind, googleAttendees, hwhen, filterMap_nonempty]
  rfl

end Google

/-! ### Microsoft Graph -/

section Graph

variable {F : Type} {builtins : Builtins F} {rawId : Json F} {draft : CalendarEventDraft}

theorem trimFraction_of_notMem (isDecimal : CodePoint → Bool) {s : Str} (h : (46 : CodePoint) ∉ s) :
    trimFraction isDecimal s = s := by
  induction s with
  | nil => rw [trimFraction]
  | cons c rest ih =>
      obtain ⟨hc, hrest⟩ := not_or.mp (List.mem_cons.not.mp h)
      rw [trimFraction, if_neg fun hpoint => hc hpoint.1.symm, ih hrest]

theorem graphParseWhen_graphWhen (builtins : Builtins F) (d : Datetime) :
    ∃ d', graphParseWhen builtins (graphWhen d) = .ok d' ∧
      d'.clock = d.clock / microsPerSecond * microsPerSecond ∧ d'.offset = some 0 := by
  obtain ⟨whole, hread, hclock, hoffset⟩ := fromisoformat_strftimeSeconds d
  have hparse : parseGraphDatetime builtins d.strftimeSeconds = .ok (replaceUtc whole) := by
    rw [parseGraphDatetime, trimFraction_of_notMem _ (point_notMem_strftimeSeconds d), parsed,
      hread]
    show Except.ok (if whole.offset = none then replaceUtc whole else whole) = _
    rw [if_pos hoffset]
  have hutc : isUtc (ofString "UTC") = true := by decide
  refine ⟨replaceUtc (replaceUtc whole), ?_, hclock, rfl⟩
  show (do
    let d ← parseGraphDatetime builtins d.strftimeSeconds
    return if d.offset = none ∨ isUtc (ofString "UTC") = true then replaceUtc d else d) = _
  rw [hparse]
  show Except.ok (if (replaceUtc whole).offset = none ∨ isUtc (ofString "UTC") = true
    then replaceUtc (replaceUtc whole) else replaceUtc whole) = _
  rw [if_pos (.inr hutc)]

theorem toUtc_cases (d : AwareDatetime) :
    (0 ≤ d.moment ∧ d.moment < dayCount * microsPerDay ∧
        ∃ utc, d.toUtc = .ok utc ∧ (utc.clock : Int) = d.moment) ∨
      ¬ (0 ≤ d.moment ∧ d.moment < dayCount * microsPerDay) ∧ d.toUtc = .error .overflowError := by
  unfold AwareDatetime.toUtc
  by_cases hneg : d.moment < 0
  · rw [if_pos hneg]
    exact .inr ⟨fun h => absurd h.1 (not_le.mpr hneg), rfl⟩
  · rw [if_neg hneg]
    have hnonneg : 0 ≤ d.moment := not_lt.mp hneg
    have hclock : (d.moment.toNat : Int) = d.moment := Int.toNat_of_nonneg hnonneg
    by_cases hlt : d.moment < dayCount * microsPerDay
    · have hvalid : d.moment.toNat < dayCount * microsPerDay ∧
          ∀ o ∈ some (0 : Int), o.natAbs < microsPerDay := by
        refine ⟨?_, fun o ho => Option.some.inj ho ▸ by decide⟩
        zify
        rwa [hclock]
      refine .inl ⟨hnonneg, hlt, ⟨d.moment.toNat, some 0, hvalid.1, hvalid.2⟩, ?_, hclock⟩
      rw [Datetime.make, dif_pos hvalid]
    · have hvalid : ¬ (d.moment.toNat < dayCount * microsPerDay ∧
          ∀ o ∈ some (0 : Int), o.natAbs < microsPerDay) := by
        rintro ⟨hvalid, -⟩
        zify at hvalid
        rw [hclock] at hvalid
        exact hlt hvalid
      refine .inr ⟨fun h => hlt h.2, ?_⟩
      rw [Datetime.make, dif_neg hvalid]

theorem graphLocation_body (location : Option Str) :
    graphLocation builtins ((location.map fun name =>
        Json.dict [(ofString "displayName", .str name)]).getD (.dict [])) =
      location.filter fun name => name ≠ [] := by
  cases location with
  | none => rfl
  | some name =>
      cases name with
      | nil => rfl
      | cons c name => rfl

theorem addressOf_body (addresses : List Str) :
    (addresses.map fun address => Json.dict [(ofString "emailAddress",
        .dict [(ofString "address", .str address)]), (ofString "type",
          .str (ofString "required"))]).map (addressOf builtins) = addresses := by
  rw [List.map_map]
  exact List.map_id addresses

theorem graph_keys (rawId : Json F) (draft : CalendarEventDraft) {startsAt endsAt : Datetime}
    (hstart : draft.startsAt.toUtc = .ok startsAt) (hend : draft.endsAt.toUtc = .ok endsAt) :
    ∃ body, draftToGraphEvent draft = .ok body ∧
      let payload := created rawId body
      getItem (ofString "subject") payload = some (.str draft.title) ∧
        getItem (ofString "start") payload = some (graphWhen startsAt) ∧
        getItem (ofString "end") payload = some (graphWhen endsAt) ∧
        getItem (ofString "location") payload = draft.location.map (fun name =>
          .dict [(ofString "displayName", .str name)]) ∧
        getItem (ofString "attendees") payload = if draft.attendees = [] then none
          else some (.list (draft.attendees.map fun address =>
            .dict [(ofString "emailAddress", .dict [(ofString "address", .str address)]),
              (ofString "type", .str (ofString "required"))])) := by
  refine ⟨_, by rw [draftToGraphEvent, hstart, hend]; rfl, rfl, rfl, rfl, ?_, ?_⟩
  · rw [getItem_created (by decide), getItem_optionals _ _ _ rfl,
      getItem_optional_of_ne (by decide), getItem_optional_self, getItem_optional_of_ne (by decide),
      Option.none_or, Option.or_none]
  · rw [getItem_created (by decide), getItem_optionals _ _ _ rfl,
      getItem_optional_of_ne (by decide), getItem_optional_of_ne (by decide), getItem_optional_self,
      Option.none_or, Option.none_or]

theorem instant_utc {d : Datetime} (h : d.offset = some 0) : d.instant = some (d.clock : Int) := by
  rw [Datetime.instant, h, Option.map_some, sub_zero]

theorem throughGraph_ok (builtins : Builtins F) (rawId : Json F) (draft : CalendarEventDraft)
    {startsAt endsAt : Datetime} (hstart : draft.startsAt.toUtc = .ok startsAt)
    (hend : draft.endsAt.toUtc = .ok endsAt) :
    ∃ event, throughGraph builtins rawId draft = .ok event ∧ event.title = draft.title ∧
      event.location = (draft.location.filter fun name => name ≠ []) ∧
      event.attendees = (draft.attendees.filter fun address => address ≠ []) ∧
      event.startsAt.instant =
        some ((startsAt.clock / microsPerSecond * microsPerSecond : Nat) : Int) ∧
      event.endsAt.instant =
        some ((endsAt.clock / microsPerSecond * microsPerSecond : Nat) : Int) := by
  obtain ⟨body, hbody, hsubject, hstarts, hends, hlocation, hattendees⟩ :=
    graph_keys rawId draft hstart hend
  obtain ⟨start', hreadStart, hstartClock, hstartOffset⟩ :=
    graphParseWhen_graphWhen builtins startsAt
  obtain ⟨end', hreadEnd, hendClock, hendOffset⟩ := graphParseWhen_graphWhen builtins endsAt
  have hevent : throughGraph builtins rawId draft = .ok
      { providerRawId := str builtins rawId
        title := draft.title
        description := (getItem (ofString "bodyPreview") (created rawId body)).bind fun preview =>
          if truthy builtins preview then some (str builtins preview) else none
        location := draft.location.filter fun name => name ≠ []
        startsAt := start'
        endsAt := end'
        attendees := draft.attendees.filter fun address => address ≠ [] } := by
    rw [throughGraph, hbody]
    show graphEventToCalendarEvent builtins (created rawId body) = _
    rw [graphEventToCalendarEvent, hattendees, iterate_attendees, hsubject, hlocation,
      graphLocation_body, item_id, item, hstarts, item, hends]
    simp only [bind, Except.bind, addressOf_body, hreadStart, hreadEnd]
    rfl
  exact ⟨_, hevent, rfl, rfl, rfl, by rw [instant_utc hstartOffset, hstartClock],
    by rw [instant_utc hendOffset, hendClock]⟩

theorem inRange_of_throughGraph_ok {event : CalendarEvent}
    (h : throughGraph builtins rawId draft = .ok event) :
    (∃ utc, draft.startsAt.toUtc = .ok utc) ∧ ∃ utc, draft.endsAt.toUtc = .ok utc := by
  rw [throughGraph, draftToGraphEvent] at h
  cases hstart : draft.startsAt.toUtc with
  | error failure =>
      rw [hstart] at h
      cases h
  | ok startsAt =>
      cases hend : draft.endsAt.toUtc with
      | error failure =>
          rw [hstart, hend] at h
          cases h
      | ok endsAt => exact ⟨⟨startsAt, rfl⟩, endsAt, rfl⟩

end Graph

section Both

variable {F : Type}

theorem whole_iff (clock : Nat) :
    clock / microsPerSecond * microsPerSecond = clock ↔ clock % microsPerSecond = 0 := by
  have hsplit := Nat.div_add_mod' clock microsPerSecond
  omega

theorem wholeSecond_iff_of_toUtc {d : AwareDatetime} {utc : Datetime} (h : d.toUtc = .ok utc) :
    some ((utc.clock / microsPerSecond * microsPerSecond : Nat) : Int) = some d.moment ↔
      wholeSecond d.moment := by
  obtain ⟨hnonneg, hlt, utc', hutc, hclock⟩ | ⟨-, herror⟩ := toUtc_cases d
  case inr => cases h.symm.trans herror
  cases h.symm.trans hutc
  rw [wholeSecond, ← hclock, Option.some_inj, Int.natCast_inj, whole_iff]
  refine ⟨fun hwhole => ⟨Int.natCast_nonneg _, by rwa [hclock], by exact_mod_cast hwhole⟩, ?_⟩
  rintro ⟨-, -, hwhole⟩
  exact_mod_cast hwhole

theorem toUtc_ok_of_wholeSecond {d : AwareDatetime} (h : wholeSecond d.moment) :
    ∃ utc, d.toUtc = .ok utc := by
  obtain ⟨-, -, utc, hutc, -⟩ | ⟨hrange, -⟩ := toUtc_cases d
  · exact ⟨utc, hutc⟩
  · exact absurd ⟨h.1, h.2.1⟩ hrange

theorem filter_eq_self_iff_ne_nil (location : Option Str) :
    (location.filter fun name => name ≠ []) = location ↔ location ≠ some [] := by
  cases location with
  | none => exact ⟨fun _ h => (nomatch h), fun _ => rfl⟩
  | some name =>
      cases name with
      | nil => exact ⟨fun h => (nomatch h), fun h => absurd rfl h⟩
      | cons c name => exact ⟨fun _ h => (nomatch h), fun _ => rfl⟩

theorem means_throughGoogle (builtins : Builtins F) (rawId : Json F)
    (draft : CalendarEventDraft) :
    ∃ event, throughGoogle builtins rawId draft = .ok event ∧ Means draft event :=
  ⟨_, throughGoogle_ok builtins rawId draft,
    ⟨rfl, rfl, rfl, instant_aware draft.startsAt, instant_aware draft.endsAt⟩⟩

theorem means_throughGraph_iff (builtins : Builtins F) (rawId : Json F)
    (draft : CalendarEventDraft) :
    (∃ event, throughGraph builtins rawId draft = .ok event ∧ Means draft event) ↔
      wholeSecond draft.startsAt.moment ∧ wholeSecond draft.endsAt.moment ∧
        draft.location ≠ some [] := by
  constructor
  · rintro ⟨event, hevent, hmeans⟩
    obtain ⟨⟨startsAt, hstart⟩, endsAt, hend⟩ := inRange_of_throughGraph_ok hevent
    obtain ⟨event', hevent', -, hlocation, -, hstarts, hends⟩ :=
      throughGraph_ok builtins rawId draft hstart hend
    cases hevent.symm.trans hevent'
    exact ⟨(wholeSecond_iff_of_toUtc hstart).mp (hstarts.symm.trans hmeans.startsAt),
      (wholeSecond_iff_of_toUtc hend).mp (hends.symm.trans hmeans.endsAt),
      (filter_eq_self_iff_ne_nil draft.location).mp (hlocation.symm.trans hmeans.location)⟩
  · rintro ⟨hstartWhole, hendWhole, hlocation⟩
    obtain ⟨startsAt, hstart⟩ := toUtc_ok_of_wholeSecond hstartWhole
    obtain ⟨endsAt, hend⟩ := toUtc_ok_of_wholeSecond hendWhole
    obtain ⟨event, hevent, htitle, hfiltered, hattendees, hstarts, hends⟩ :=
      throughGraph_ok builtins rawId draft hstart hend
    exact ⟨event, hevent, htitle,
      hfiltered.trans ((filter_eq_self_iff_ne_nil draft.location).mpr hlocation), hattendees,
      hstarts.trans ((wholeSecond_iff_of_toUtc hstart).mpr hstartWhole),
      hends.trans ((wholeSecond_iff_of_toUtc hend).mpr hendWhole)⟩

/-- Both providers keep the meaning of exactly the drafts whose start and end UTC shows in
whole seconds and whose location is not the empty text. -/
theorem both_mean_draft_iff (builtins : Builtins F) (rawId : Json F)
    (draft : CalendarEventDraft) :
    ((∃ event, throughGoogle builtins rawId draft = .ok event ∧ Means draft event) ∧
        ∃ event, throughGraph builtins rawId draft = .ok event ∧ Means draft event) ↔
      wholeSecond draft.startsAt.moment ∧ wholeSecond draft.endsAt.moment ∧
        draft.location ≠ some [] := by
  rw [← means_throughGraph_iff builtins rawId draft]
  exact ⟨And.right, fun hgraph => ⟨means_throughGoogle builtins rawId draft, hgraph⟩⟩

end Both

/-- Half a second after nine on the first of March 2024, in Paris. -/
def halfPast : AwareDatetime :=
  { clock := 63844880400500000
    offset := some 3600000000
    clock_lt := by decide
    offset_lt := fun _ h => Option.some.inj h ▸ by decide
    utcoffset := 3600000000
    aware := rfl }

def pointOfHalfPast : CalendarEventDraft where
  title := ofString "Point"
  startsAt := halfPast
  endsAt := halfPast

/-- A draft that starts half a second after a second starts on that second in the event that
Graph gives back. -/
theorem graph_drops_the_fraction :
    ¬ ∃ event, throughGraph ⟨fun _ => [], fun _ => true, PythonJson.isDigit⟩
        (.str (ofString "AAMk") : Json Nat) pointOfHalfPast = .ok event ∧
      Means pointOfHalfPast event := by
  intro h
  obtain ⟨⟨-, -, hwhole⟩, -, -⟩ := (means_throughGraph_iff _ _ _).mp h
  exact absurd hwhole (by decide)

end Socle.CalendarDrafts
