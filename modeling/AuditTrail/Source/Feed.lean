import AuditTrail.Event
import AuditTrail.Files.Store
import AuditTrail.Journal

/-!
# Feeds

A feed is what a source of events gives when it is pulled again and again: events, and then
either its end or a fault. Every pull may first do things that belong in the journal, and
only what was pulled has been done.
-/

namespace AuditTrail

/-- Why a source cannot give its next event. -/
inductive SourceFault where
  | unopened (path : Text) (fault : FileFault)
  | notUtf8 (path : Text) (fault : Utf8.Unreadable)
  | notJson (path : Text) (line : Nat) (record : Text) (fault : Json.ReadFault)
  | notObject (path : Text) (line : Nat)
  | unfetched (address : Text) (fault : Service.FetchFault)
  | noEvents (address : Text)
  | notRecord (address : Text) (value : Json)

/-- What is said of the fault. -/
def SourceFault.message : SourceFault -> Text
  | .unopened path fault =>
    if fault.isSystems then
      "Cannot read audit events from " ++ path ++ ": " ++ fault.message path
    else fault.message path
  | .notUtf8 path fault => "Invalid UTF-8 in " ++ path ++ ": " ++ fault.message
  | .notJson path line record (.malformed defect left) =>
    "Invalid JSON in " ++ path ++ " line " ++ Text.ofNat line ++ ": "
      ++ Json.ReadFault.message record (.malformed defect left)
  | .notJson _ _ record fault => fault.message record
  | .notObject path line => "Expected a JSON object in " ++ path ++ " line " ++ Text.ofNat line
  | .unfetched address fault => fault.message address
  | .noEvents address => "Unexpected response from " ++ address ++ ": missing 'events' list"
  | .notRecord address value =>
    "Unexpected event record from " ++ address ++ ": " ++ value.spelling

/-- What a source gives, pull by pull. -/
inductive Feed where
  | gives (before : Journal) (event : Event) (rest : Feed)
  | done (before : Journal)
  | failed (before : Journal) (fault : SourceFault)

namespace Feed

/-- The events of a feed. -/
def events : Feed -> List Event
  | .gives _ event rest => event :: rest.events
  | .done _ => []
  | .failed _ _ => []

/-- The fault that a feed ends with. -/
def fault? : Feed -> Option SourceFault
  | .gives _ _ rest => rest.fault?
  | .done _ => none
  | .failed _ fault => some fault

/-- What is done when a feed is pulled to its end. -/
def journal : Feed -> Journal
  | .gives before _ rest => before ++ rest.journal
  | .done before => before
  | .failed before _ => before

end Feed

end AuditTrail
