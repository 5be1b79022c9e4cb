import AuditTrail.Calendar.Iso8601
import AuditTrail.Json.Spelling

/-!
# Audit events

One record of the audit log. Whatever a record lacks or spells in an unexpected way is
empty in the event; which of it a table cannot do without is for the table to say.
-/

namespace AuditTrail

/-- The account that acted. -/
structure Actor where
  kind : Text
  id : Text
  username : Text
  serviceId : Text
deriving DecidableEq, Repr

/-- What was acted on. -/
structure Subject where
  kind : Text
  id : Text
  username : Text
  serviceId : Text
  name : Text
  secretId : Text
  version : Option Int
deriving DecidableEq, Repr

/-- A record of the audit log. -/
structure Event where
  id : Text
  action : Text
  address : Text
  time : Option Calendar.Timestamp
  actor : Option Actor
  subject : Option Subject
deriving DecidableEq

/-- The account that the members of an object describe. -/
def Actor.ofMembers (members : Register Json) : Actor where
  kind := Json.labelOf "type" members
  id := Json.labelOf "id" members
  username := Json.labelOf "username" members
  serviceId := Json.labelOf "service_id" members

/-- The subject that the members of an object describe. Only whole numbers are versions. -/
def Subject.ofMembers (members : Register Json) : Subject where
  kind := Json.labelOf "type" members
  id := Json.labelOf "id" members
  username := Json.labelOf "username" members
  serviceId := Json.labelOf "service_id" members
  name := Json.labelOf "name" members
  secretId := Json.labelOf "secret_id" members
  version := (Json.member "version" members).int?

/-- The time in a value: the timestamp that a text spells. -/
def Event.timeOf? (value : Json) : Option Calendar.Timestamp :=
  value.text?.bind Calendar.Iso8601.timestamp?

/-- The event that the members of a record describe. -/
def Event.ofMembers (members : Register Json) : Event where
  id := Json.labelOf "event_id" members
  action := Json.labelOf "action" members
  address := Json.labelOf "ip_address" members
  time := timeOf? (Json.member "logged_at" members)
  actor := (Json.member "actor" members).members?.map Actor.ofMembers
  subject := (Json.member "subject" members).members?.map Subject.ofMembers

/-- What messages call an event: its id, or a question mark. -/
def Event.title (event : Event) : Text := if event.id.isEmpty then "?" else event.id

end AuditTrail
