import AuditTrail.Source.Lines
import AuditTrail.Source.Pages

/-!
# Locations

Events and snapshots lie in files or at the addresses of a service; the beginning of a
location tells which.
-/

namespace AuditTrail

/-- The events that one page of the service holds unless another number is wanted. -/
def defaultPerPage : Int := 20

/-- Whether a location is the address of a service. -/
def isAddress (location : Text) : Bool :=
  Text.beginsWith "http://" location || Text.beginsWith "https://" location

/-- The feed at a location. -/
def Feed.ofLocation (files : Files) (answers : List Service.Answer) (perPage : Int)
    (token : Option Text) (location : Text) : Feed :=
  if isAddress location then ofService location perPage token answers else ofFile files location

end AuditTrail
