import AuditTrail.Source.Feed

/-!
# Events from the service

The service gives events page by page. A page names the cursor of the next one; a page
without a cursor that says something is the last. The next page is asked for only when an
event behind the present one is wanted.
-/

namespace AuditTrail.Feed

/-- The events of a page's records; `next` follows with what is done until then. -/
def ofRecords (address : Text) (next : Journal -> Feed) : Journal -> List Json -> Feed
  | before, [] => next before
  | before, .object members :: rest =>
    .gives before (Event.ofMembers members) (ofRecords address next [] rest)
  | before, value :: _ => .failed before (.notRecord address value)

/-- The query for a page. -/
def pageQuery (perPage : Int) (cursor : Json) : Register Json :=
  ("per_page", .int perPage) :: (if cursor.isVacant then [] else [("cursor", cursor)])

/-- The line that is logged for a page. -/
def pageLine (address : Text) (page : Nat) : Text :=
  "Fetching audit events page " ++ Text.ofNat page ++ " from " ++ address

/-- What is done for a page. -/
def pageJournal (address : Text) (perPage : Int) (token : Option Text) (page : Nat)
    (cursor : Json) : Journal :=
  Journal.debug (pageLine address page)
    ++ Journal.request (Service.request address (some (pageQuery perPage cursor)) token)

/-- The events of the pages from a cursor on, the client answering with `answers`. -/
def ofPages (address : Text) (perPage : Int) (token : Option Text) :
    (answers : List Service.Answer) -> (page : Nat) -> (cursor : Json) -> Journal -> Feed
  | [], page, cursor, before =>
    .failed (before ++ pageJournal address perPage token page cursor)
      (.unfetched address (.failed Service.silence))
  | answer :: answers, page, cursor, before =>
    let before := before ++ pageJournal address perPage token page cursor
    match Service.documentValue answer with
    | .error fault => .failed before (.unfetched address fault)
    | .ok value =>
      match value.members?.bind fun members =>
          (Json.member "events" members).items?.map fun records => (members, records) with
      | none => .failed before (.noEvents address)
      | some (members, records) =>
        let next := Json.member "next_cursor" members
        ofRecords address
          (fun before =>
            if next.isVacant then .done before
            else ofPages address perPage token answers (page + 1) next before)
          before records

/-- The events that the service has at an address. -/
def ofService (address : Text) (perPage : Int) (token : Option Text)
    (answers : List Service.Answer) : Feed :=
  ofPages address perPage token answers 1 .null []

end AuditTrail.Feed
