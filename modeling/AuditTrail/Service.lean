import AuditTrail.Json.Reader
import AuditTrail.Text.Utf8

/-!
# The audit service

Documents are fetched from the service one request at a time. Each request says who asks and,
if a token is known, by what right. It is handed to a client that is not part of this program.
What becomes of it is what the client says: a response, a request that failed, or a fault that
has nothing to do with requests, as when the cursor of a page is a text without octets. A
conversation is the list of what the client has still to say. When nothing is left it gives up.
-/

namespace AuditTrail.Service

/-- One request for a document. -/
structure Request where
  address : Text
  query : Option (Register Json)
  headers : Register Text
  timeoutSeconds : Nat

/-- A fault of the client that is not about requests and their answers. -/
inductive ForeignFault where
  /-- Something that is to be sent has no octets. -/
  | unwritable (reason : Text)
  /-- Containers stand inside too many others. -/
  | tooDeep (reason : Text)
  | other (reason : Text)
deriving DecidableEq, Repr

/-- What is said of it. -/
def ForeignFault.message : ForeignFault -> Text
  | .unwritable reason => reason
  | .tooDeep reason => reason
  | .other reason => reason

/-- Why the client gives no value for the body of a response. -/
inductive BodyFault where
  | notJson (reason : Text)
  | foreign (fault : ForeignFault)
deriving DecidableEq, Repr

/-- What the client says of a request. -/
inductive Answer where
  /-- A response with its status, and its body as a text and as a value. -/
  | response (status : Int) (text : Text) (value : Except BodyFault Json)
  /-- The request failed, for a reason. -/
  | failed (reason : Text)
  /-- The client broke off. -/
  | broken (fault : ForeignFault)
  /-- The user interrupted the wait. -/
  | interrupted

/-- Why a document cannot be had. -/
inductive FetchFault where
  | failed (reason : Text)
  | refused (status : Int) (body : Text)
  | notJson (reason : Text)
  | foreign (fault : ForeignFault)
  | interrupted
deriving DecidableEq, Repr

/-- The most code points of a refusing answer that a message shows. -/
def longestExcerpt : Nat := 200

/-- What is said of a document that cannot be had. -/
def FetchFault.message (address : Text) : FetchFault -> Text
  | .failed reason => "Request to " ++ address ++ " failed: " ++ reason
  | .refused status body =>
    address ++ " returned " ++ Text.ofInt status ++ ": " ++ body.take longestExcerpt
  | .notJson reason => "Invalid JSON from " ++ address ++ ": " ++ reason
  | .foreign fault => fault.message
  | .interrupted => []

/-- The seconds after which a request is given up. -/
def timeoutSeconds : Nat := 30

/-- The token to use: the first one that is given and not empty. -/
def chosenToken? (tokens : List (Option Text)) : Option Text :=
  tokens.findSome? fun token => token.filter fun t => !t.isEmpty

/-- The headers of a request. -/
def headers (token : Option Text) : Register Text :=
  ("Accept", "application/json") :: ("User-Agent", "auditpager") ::
    (token.map fun t => (("Authorization" : Text), ("Bearer " : Text) ++ t)).toList

/-- The request for a document. -/
def request (address : Text) (query : Option (Register Json)) (token : Option Text) : Request :=
  ⟨address, query, headers token, timeoutSeconds⟩

/-- Why a request fails for which the client has waited in vain. -/
def silence : Text := "no answer in " ++ Text.ofNat timeoutSeconds ++ " seconds"

/-- What the client says of the next request, and of those behind it. -/
def answer : List Answer -> Answer × List Answer
  | [] => (.failed silence, [])
  | answer :: rest => (answer, rest)

/-- The value of the document in an answer. -/
def documentValue : Answer -> Except FetchFault Json
  | .failed reason => .error (.failed reason)
  | .broken fault => .error (.foreign fault)
  | .interrupted => .error .interrupted
  | .response status text value =>
    if status ≠ 200 then .error (.refused status text)
    else
      value.mapError fun
        | .notJson reason => .notJson reason
        | .foreign fault => .foreign fault

/-! ## Recorded answers -/

/-- An answer that was recorded as the octets of its body. -/
inductive Reply where
  /-- A document with the status of the answer. -/
  | document (status : Int) (body : Bytes)
  /-- No answer, for a reason. -/
  | failure (reason : Text)
  /-- The user interrupted the wait. -/
  | interruption
deriving DecidableEq, Repr

/-- What a client says of a recorded answer whose body is taken for UTF-8. -/
def Reply.answer : Reply -> Answer
  | .failure reason => .failed reason
  | .interruption => .interrupted
  | .document status body =>
    let text := Utf8.decodeLossy body
    .response status text ((Json.read text).mapError fun
      | .tooDeep container => .foreign (.tooDeep (Json.ReadFault.message text (.tooDeep container)))
      | fault => .notJson (fault.message text))

instance : Coe Reply Answer := ⟨Reply.answer⟩

/-- What it says of recorded answers, and when they have come to their end. -/
def recorded (replies : List Reply) : List Answer :=
  replies.map Reply.answer ++ [.failed "no more pages"]

instance : Coe (List Reply) (List Answer) := ⟨recorded⟩

end AuditTrail.Service
