import AuditTrail.Event
import AuditTrail.Text.Quoted
import AuditTrail.Tree.Basic

/-!
# Labels of events

What the cells of a table say about an event: who acted, what was done and to what. An event
that lacks what a label needs, or whose subject is not in the tree, has no row.
-/

namespace AuditTrail

/-- Why an event has no row. -/
inductive RowFault where
  | noActor (title : Text)
  | unknownActor (kind : Text)
  | noSubject (title : Text)
  | unknownSubject (kind : Text)
  | noVersion (id : Text)
  | unresolved (kind id : Text)
  | noTime (title : Text)
  | unshownTime (fault : Calendar.Fault)
deriving DecidableEq

/-- What is said of an event that has no row. -/
def RowFault.message : RowFault -> Text
  | .noActor title => "audit event " ++ title ++ " has no actor"
  | .unknownActor kind => "invalid audit actor of type " ++ kind.quoted
  | .noSubject title => "audit event " ++ title ++ " has no subject"
  | .unknownSubject kind => "invalid audit subject of type " ++ kind.quoted
  | .noVersion id => "secret version subject " ++ id.quoted ++ " has no version number"
  | .unresolved kind id => kind ++ " " ++ id ++ " not found in directory tree"
  | .noTime title => "audit event " ++ title ++ " has no valid timestamp"
  | .unshownTime fault => fault.message

namespace Event

/-- The name of the account that acted: a user's name or a service's id. -/
def actorLabel (event : Event) : Except RowFault Text :=
  match event.actor with
  | none => .error (.noActor event.title)
  | some actor =>
    if actor.kind = ("user" : Text) ∧ actor.username ≠ [] then .ok actor.username
    else if actor.kind = ("service" : Text) ∧ actor.serviceId ≠ [] then .ok actor.serviceId
    else .error (.unknownActor actor.kind)

/-- What was done, followed by the kind of the subject. -/
def actionLabel (event : Event) : Text :=
  match event.subject with
  | none => event.action
  | some subject => event.action ++ "." ++ subject.kind

end Event

namespace Subject

/-- A path that was looked up for a subject. -/
def found (subject : Subject) : Option Text -> Except RowFault Text
  | some path => .ok path
  | none =>
    .error (.unresolved subject.kind
      (if subject.secretId.isEmpty then subject.id else subject.secretId))

/-- The label of a subject. Directories and secrets are shown by their paths in a tree, and
a version of a secret by the secret's path and its number. -/
def label (tree : Tree) (subject : Subject) : Except RowFault Text :=
  if subject.kind = ("user" : Text) then .ok subject.username
  else if subject.kind = ("service" : Text) then .ok subject.serviceId
  else if subject.kind = ("repo" : Text) then .ok subject.name
  else if subject.kind = ("secret_key" : Text) then .ok []
  else if subject.kind ∈ [("dir" : Text), "secret", "secret_member"] then
    subject.found (tree.path? subject.id)
  else if subject.kind = ("secret_version" : Text) then
    match subject.version with
    | none => .error (.noVersion subject.id)
    | some version =>
      subject.found ((tree.path? subject.secretId).map (· ++ ":" ++ Text.ofInt version))
  else .error (.unknownSubject subject.kind)

end Subject

/-- The label of the subject of an event. -/
def Event.subjectLabel (tree : Tree) (event : Event) : Except RowFault Text :=
  match event.subject with
  | none => .error (.noSubject event.title)
  | some subject => subject.label tree

end AuditTrail
