import CalendarSearch.Text.Ascii

/-!
The properties and parameters of calendar components, by their iCalendar names, and the index that
says which of them a server knows and which its store can search.
-/

namespace CalendarSearch

inductive PropertyName where
  | summary | description | location | comment | contact | categories | resources | status
  | classification | priority | geo | percentComplete | attach
  | uid | url | sequence | relatedTo | requestStatus
  | dtstart | dtend | due | duration | dtstamp | created | lastModified | completed
  | recurrenceId | rrule | rdate | exdate | freebusy | transp
  | organizer | attendee
  | trigger | action | repetitions
  /-- The alarms of a component, which filters address as if they were a property. -/
  | valarm
deriving DecidableEq, Repr

namespace PropertyName

def all : List PropertyName :=
  [summary, description, location, comment, contact, categories, resources, status,
    classification, priority, geo, percentComplete, attach,
    uid, url, sequence, relatedTo, requestStatus,
    dtstart, dtend, due, duration, dtstamp, created, lastModified, completed,
    recurrenceId, rrule, rdate, exdate, freebusy, transp,
    organizer, attendee,
    trigger, action, repetitions, valarm]

def name : PropertyName → String
  | summary => "SUMMARY"
  | description => "DESCRIPTION"
  | location => "LOCATION"
  | comment => "COMMENT"
  | contact => "CONTACT"
  | categories => "CATEGORIES"
  | resources => "RESOURCES"
  | status => "STATUS"
  | classification => "CLASS"
  | priority => "PRIORITY"
  | geo => "GEO"
  | percentComplete => "PERCENT-COMPLETE"
  | attach => "ATTACH"
  | uid => "UID"
  | url => "URL"
  | sequence => "SEQUENCE"
  | relatedTo => "RELATED-TO"
  | requestStatus => "REQUEST-STATUS"
  | dtstart => "DTSTART"
  | dtend => "DTEND"
  | due => "DUE"
  | duration => "DURATION"
  | dtstamp => "DTSTAMP"
  | created => "CREATED"
  | lastModified => "LAST-MODIFIED"
  | completed => "COMPLETED"
  | recurrenceId => "RECURRENCE-ID"
  | rrule => "RRULE"
  | rdate => "RDATE"
  | exdate => "EXDATE"
  | freebusy => "FREEBUSY"
  | transp => "TRANSP"
  | organizer => "ORGANIZER"
  | attendee => "ATTENDEE"
  | trigger => "TRIGGER"
  | action => "ACTION"
  | repetitions => "REPEAT"
  | valarm => "VALARM"

theorem mem_all (p : PropertyName) : p ∈ all := by cases p <;> decide

/-- The property with a name, in any case. -/
def ofName? (name : String) : Option PropertyName :=
  all.find? fun p => Text.alike p.name name

/-- Do values of this property name days or instants, so that a time range can be asked for? -/
def holdsTimes : PropertyName → Bool
  | dtstart | dtend | due | dtstamp | created | lastModified | completed | recurrenceId
  | rdate | exdate | valarm => true
  | _ => false

end PropertyName

inductive ParamName where
  | tzid | partstat | role | cutype | rsvp | cn | email | value | language | altrep | related
  | delegatedFrom | delegatedTo | member | sentBy | dir | fmttype | fbtype | reltype | range
deriving DecidableEq, Repr

namespace ParamName

def all : List ParamName :=
  [tzid, partstat, role, cutype, rsvp, cn, email, value, language, altrep, related,
    delegatedFrom, delegatedTo, member, sentBy, dir, fmttype, fbtype, reltype, range]

def name : ParamName → String
  | tzid => "TZID"
  | partstat => "PARTSTAT"
  | role => "ROLE"
  | cutype => "CUTYPE"
  | rsvp => "RSVP"
  | cn => "CN"
  | email => "EMAIL"
  | value => "VALUE"
  | language => "LANGUAGE"
  | altrep => "ALTREP"
  | related => "RELATED"
  | delegatedFrom => "DELEGATED-FROM"
  | delegatedTo => "DELEGATED-TO"
  | member => "MEMBER"
  | sentBy => "SENT-BY"
  | dir => "DIR"
  | fmttype => "FMTTYPE"
  | fbtype => "FBTYPE"
  | reltype => "RELTYPE"
  | range => "RANGE"

theorem mem_all (p : ParamName) : p ∈ all := by cases p <;> decide

def ofName? (name : String) : Option ParamName :=
  all.find? fun p => Text.alike p.name name

end ParamName

/-- What a server knows of properties and parameters: which names it supports, and which of the
fields its store can search by itself. -/
structure FieldIndex where
  property? : String → Option PropertyName
  param? : String → Option ParamName
  indexed : PropertyName → Bool
  paramIndexed : ParamName → Bool

namespace FieldIndex

/-- The fields that a calendar server keeps searchable by default. -/
def standard : FieldIndex where
  property? := PropertyName.ofName?
  param? := ParamName.ofName?
  indexed
    | .comment | .contact | .resources | .geo | .percentComplete | .attach | .sequence
    | .relatedTo | .requestStatus | .duration | .rrule | .rdate | .exdate | .freebusy
    | .trigger | .action | .repetitions => false
    | _ => true
  paramIndexed
    | .tzid | .partstat | .role | .cutype => true
    | _ => false

end FieldIndex

end CalendarSearch
