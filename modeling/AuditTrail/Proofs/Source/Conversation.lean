import AuditTrail.FaultKind
import AuditTrail.Proofs.Json.Nesting
import AuditTrail.Proofs.Source.Pulls
import AuditTrail.Source.Pages

/-!
# Conversations with the service

A conversation goes in rounds. Each sends one request and is given the records of a page; the
next round sends the cursor that this page names, if it names one. A round is the last when it
does not, when its answer holds no page, or when one of the records is no object.

`Converses` says this of the answers alone, whatever the client answers. `isReadAs_ofPages` says
what the feed does in such a conversation: it gives the events round by round, sends the request
of a round when the events of the rounds before have been given, and sends no other.
`ofService_converses` adds that there is always such a conversation, that nothing of it but the
records shows in the events, and that it ends with a fault of the source, or with none, as long
as the client answers as it promises.
-/

namespace AuditTrail

namespace Service

/-- A page of the service: its records, and what it names as the cursor of the next one. -/
structure Page where
  records : List Json
  next : Json

/-- An answer that is a response with a page. -/
def Answer.Holds (answer : Answer) (page : Page) : Prop :=
  ∃ text members, answer = .response 200 text (.ok (.object members)) ∧
    Json.member "events" members = .array page.records ∧
    Json.member "next_cursor" members = page.next

/-- An answer without a page, and the fault that says so. -/
inductive Answer.Withholds (address : Text) : Answer -> SourceFault -> Prop where
  | failed {reason : Text} :
      Withholds address (.failed reason) (.unfetched address (.failed reason))
  | broken {fault : ForeignFault} :
      Withholds address (.broken fault) (.unfetched address (.foreign fault))
  | interrupted : Withholds address .interrupted (.unfetched address .interrupted)
  | refused {status : Int} {text : Text} {value : Except BodyFault Json} (other : status ≠ 200) :
      Withholds address (.response status text value)
        (.unfetched address (.refused status text))
  | notJson {text reason : Text} :
      Withholds address (.response 200 text (.error (.notJson reason)))
        (.unfetched address (.notJson reason))
  | brokenBody {text : Text} {fault : ForeignFault} :
      Withholds address (.response 200 text (.error (.foreign fault)))
        (.unfetched address (.foreign fault))
  | noEvents {text : Text} {value : Json}
      (other : ∀ members records, value = .object members ->
        Json.member "events" members ≠ .array records) :
      Withholds address (.response 200 text (.ok value)) (.noEvents address)

/-- An answer as a client promises it, if the user waits for it: whatever is wrong with a request or
its answer, the request is told to have failed. Else there is a response, and the body of one that
is not refused is JSON or told to be none. -/
def Answer.IsRegular : Answer -> Prop
  | .failed _ => True
  | .broken _ | .interrupted => False
  | .response status _ value => status = 200 -> ∀ fault, value ≠ .error (.foreign fault)

/-- One round of a conversation: the cursor that is sent, if any, and the members of the records
before the first that is no object. -/
structure Round where
  cursor? : Option Json
  given : List (Register Json)

/-- The request for a page. -/
def pageRequest (address : Text) (perPage : Int) (token : Option Text) (cursor? : Option Json) :
    Request where
  address := address
  query := some (("per_page", .int perPage) :: cursor?.toList.map fun cursor => ("cursor", cursor))
  headers := headers token
  timeoutSeconds := timeoutSeconds

/-- The rounds of a conversation that goes on with a cursor while the client gives its answers,
and the fault that it ends with, if any. -/
inductive Converses (address : Text) :
    (cursor? : Option Json) -> List Answer -> List Round -> Option SourceFault -> Prop where
  /-- The page names no other. -/
  | last {cursor? : Option Json} {answer : Answer} {answers : List Answer} {page : Page}
      {given : List (Register Json)} (holds : answer.Holds page)
      (objects : page.records = given.map .object) (final : page.next.isVacant = true) :
      Converses address cursor? (answer :: answers) [⟨cursor?, given⟩] none
  /-- The page names another. -/
  | next {cursor? fault? answer answers rounds} {page : Page} {given : List (Register Json)}
      (holds : answer.Holds page) (objects : page.records = given.map .object)
      (named : page.next.isVacant = false)
      (later : Converses address (some page.next) answers rounds fault?) :
      Converses address cursor? (answer :: answers) (⟨cursor?, given⟩ :: rounds) fault?
  /-- A record of the page is no object. -/
  | notRecord {cursor? : Option Json} {answer : Answer} {answers : List Answer} {page : Page}
      {given : List (Register Json)} {value : Json} {rest : List Json} (holds : answer.Holds page)
      (objects : page.records = given.map .object ++ value :: rest)
      (other : ∀ members, value ≠ .object members) :
      Converses address cursor? (answer :: answers) [⟨cursor?, given⟩]
        (some (.notRecord address value))
  /-- The answer holds no page, or there is none any more. -/
  | withheld {cursor? : Option Json} {answers : List Answer} {fault : SourceFault}
      (withholds : (answer answers).1.Withholds address fault) :
      Converses address cursor? answers [⟨cursor?, []⟩] (some fault)

end Service

namespace Feed

open Service

variable {address : Text} {perPage : Int} {token : Option Text}

/-- A feed that does what the rounds of a conversation say, `sent` requests having been sent. -/
structure IsReadAs (address : Text) (perPage : Int) (token : Option Text) (sent : Nat)
    (feed : Feed) (rounds : List Round) (fault? : Option SourceFault) : Prop where
  /-- It gives the events of the records in their order, those of a round when the requests up
  to that of the round have been sent. -/
  pulls : feed.pulls sent = (rounds.zipIdx (sent + 1)).flatMap fun (round, number) =>
    round.given.map fun members => (Event.ofMembers members, number)
  /-- It sends the request of each round. -/
  requests : feed.journal.requests =
    rounds.map fun round => pageRequest address perPage token round.cursor?
  /-- It ends with the fault of the conversation. -/
  fault : feed.fault? = fault?

/-! ## The records of a page -/

/-- What was done before the first record is done before everything else. -/
theorem ofRecords_after {next : Journal -> Feed}
    (additive : ∀ before, next before = (next []).after before) (before : Journal)
    (records : List Json) :
    ofRecords address next before records = (ofRecords address next [] records).after before := by
  cases records with
  | nil => exact additive before
  | cons value rest => cases value <;> simp [ofRecords, after]

/-- Records that are objects give their events. -/
theorem ofRecords_objects (next : Journal -> Feed) (given : List (Register Json))
    (rest : List Json) :
    ofRecords address next [] (given.map .object ++ rest) =
      giving (given.map Event.ofMembers) (ofRecords address next [] rest) := by
  induction given with
  | nil => rfl
  | cons members given inductionHypothesis => simp [ofRecords, inductionHypothesis]

/-- A record that is no object ends the feed. -/
theorem ofRecords_notObject {value : Json} (other : ∀ members, value ≠ .object members)
    (next : Journal -> Feed) (before : Journal) (rest : List Json) :
    ofRecords address next before (value :: rest) = .failed before (.notRecord address value) := by
  cases value with
  | object members => exact absurd rfl (other members)
  | null | bool | int | real | text | array => rfl

/-! ## The pages behind a page -/

/-- What follows the records of a page that names a cursor. -/
def ofNext (address : Text) (perPage : Int) (token : Option Text) (answers : List Answer)
    (number : Nat) (next : Json) (before : Journal) : Feed :=
  if next.isVacant then .done before
  else ofPages address perPage token answers number next before

/-- What was done before the pages behind a page is done before everything else, if it is so for
the page that is asked for. -/
theorem ofNext_after {answers : List Answer} {number : Nat} {next : Json}
    (later : ∀ before, ofPages address perPage token answers number next before =
      (ofPages address perPage token answers number next []).after before) (before : Journal) :
    ofNext address perPage token answers number next before =
      (ofNext address perPage token answers number next []).after before := by
  unfold ofNext
  split
  · simp [after]
  · exact later before

/-- What was done before a page is asked for is done before everything else. -/
theorem ofPages_after (answers : List Answer) (number : Nat) (cursor : Json) (before : Journal) :
    ofPages address perPage token answers number cursor before =
      (ofPages address perPage token answers number cursor []).after before := by
  induction answers generalizing number cursor before with
  | nil => simp [ofPages, after]
  | cons answer answers inductionHypothesis =>
      have additive (next : Json) (before : Journal) :
          ofNext address perPage token answers (number + 1) next before =
            (ofNext address perPage token answers (number + 1) next []).after before :=
        ofNext_after (inductionHypothesis (number + 1) next) before
      simp only [ofPages]
      cases documentValue answer with
      | error fault => simp [after]
      | ok value =>
          simp only
          split
          · simp [after]
          next members records found =>
            have moved := @ofRecords_after address _
              (additive (Json.member "next_cursor" members))
            refine (moved _ records).trans ?_
            refine Eq.trans ?_ (congrArg (after before) (moved _ records).symm)
            simp

/-- A page gives its records, and then what is behind it. -/
theorem ofPages_of_holds {answer : Answer} {page : Page} (holds : answer.Holds page)
    (answers : List Answer) (number : Nat) (cursor : Json) :
    ofPages address perPage token (answer :: answers) number cursor [] =
      (ofRecords address (ofNext address perPage token answers (number + 1) page.next) []
        page.records).after (pageJournal address perPage token number cursor) := by
  obtain ⟨text, members, rfl, records, next⟩ := holds
  rw [← ofRecords_after (ofNext_after (ofPages_after answers (number + 1) page.next))]
  simp [ofPages, documentValue, Except.mapError, Json.members?, records, Json.items?, next]
  rfl

/-- A value without a page has no list of events. -/
theorem pageParts?_eq_none {value : Json}
    (other : ∀ members records, value = .object members ->
      Json.member "events" members ≠ .array records) :
    (value.members?.bind fun members =>
      (Json.member "events" members).items?.map fun records => (members, records)) = none := by
  cases value with
  | object members =>
      cases events : Json.member "events" members with
      | array records => exact absurd events (other members records rfl)
      | null | bool | int | real | text | object => simp [Json.members?, events, Json.items?]
  | null | bool | int | real | text | array => rfl

/-- An answer without a page ends the feed. -/
theorem ofPages_of_withholds {answers : List Answer} {fault : SourceFault}
    (withholds : (answer answers).1.Withholds address fault) (number : Nat) (cursor : Json) :
    ofPages address perPage token answers number cursor [] =
      .failed (pageJournal address perPage token number cursor) fault := by
  cases answers with
  | nil =>
      cases withholds
      rfl
  | cons answer answers =>
      simp only [Service.answer] at withholds
      cases withholds with
      | failed | broken | interrupted => simp [ofPages, documentValue]
      | refused other => simp [ofPages, documentValue, other]
      | notJson | brokenBody => simp [ofPages, documentValue, Except.mapError]
      | noEvents other =>
          simp [ofPages, documentValue, Except.mapError, pageParts?_eq_none other]

/-! ## Rounds -/

/-- One request is sent for a page. -/
theorem requests_pageJournal {cursor? : Option Json}
    (named : ∀ cursor ∈ cursor?, cursor.isVacant = false) (number : Nat) :
    (pageJournal address perPage token number (cursor?.getD .null)).requests =
      [pageRequest address perPage token cursor?] := by
  cases cursor? with
  | none => rfl
  | some cursor =>
      have some : cursor.isVacant = false := named cursor rfl
      simp [pageJournal, Journal.debug, Journal.request, Journal.requests, pageRequest, request,
        pageQuery, some]

/-- A feed that does what one round says and then what the others say. -/
theorem IsReadAs.round {rest : Feed} {rounds : List Round} {fault? : Option SourceFault}
    {sent : Nat} (later : IsReadAs address perPage token (sent + 1) rest rounds fault?)
    {cursor? : Option Json} {journal : Journal}
    (requested : journal.requests = [pageRequest address perPage token cursor?])
    (given : List (Register Json)) :
    IsReadAs address perPage token sent ((giving (given.map Event.ofMembers) rest).after journal)
      (⟨cursor?, given⟩ :: rounds) fault? where
  pulls := by simp [requested, later.pulls, List.zipIdx_cons, Function.comp_def]
  requests := by simp [requested, later.requests]
  fault := by simp [later.fault]

/-- A feed that is done says that there are no more rounds. -/
theorem isReadAs_done (sent : Nat) : IsReadAs address perPage token sent (.done []) [] none :=
  ⟨rfl, rfl, rfl⟩

/-- A feed that fails at once says so too. -/
theorem isReadAs_failed (sent : Nat) (fault : SourceFault) :
    IsReadAs address perPage token sent (.failed [] fault) [] (some fault) :=
  ⟨rfl, rfl, rfl⟩

/-- The pages of a conversation are read as its rounds. -/
theorem isReadAs_ofPages {cursor? : Option Json} {answers : List Answer} {rounds : List Round}
    {fault? : Option SourceFault} (converses : Converses address cursor? answers rounds fault?)
    (named : ∀ cursor ∈ cursor?, cursor.isVacant = false) (number sent : Nat) :
    IsReadAs address perPage token sent
      (ofPages address perPage token answers number (cursor?.getD .null) []) rounds fault? := by
  induction converses generalizing number sent with
  | last holds objects final =>
      rw [ofPages_of_holds holds, objects, ← List.append_nil (List.map _ _), ofRecords_objects]
      have rest : IsReadAs address perPage token (sent + 1) (.done []) [] none :=
        isReadAs_done (sent + 1)
      simpa [ofRecords, ofNext, final] using rest.round (requests_pageJournal named number) _
  | next holds objects more later inductionHypothesis =>
      rw [ofPages_of_holds holds, objects, ← List.append_nil (List.map _ _), ofRecords_objects]
      have rest := inductionHypothesis (by simpa using more) (number + 1) (sent + 1)
      simpa [ofRecords, ofNext, more] using rest.round (requests_pageJournal named number) _
  | notRecord holds objects other =>
      rw [ofPages_of_holds holds, objects, ofRecords_objects, ofRecords_notObject other]
      exact (isReadAs_failed _ _).round (requests_pageJournal named number) _
  | withheld withholds =>
      rw [ofPages_of_withholds withholds]
      simpa [after] using (isReadAs_failed _ _).round (requests_pageJournal named number) []

/-- The events of a conversation are those of its records, however they are divided. -/
theorem IsReadAs.events {feed : Feed} {rounds : List Round} {fault? : Option SourceFault}
    {sent : Nat} (read : IsReadAs address perPage token sent feed rounds fault?) :
    feed.events = (rounds.flatMap Round.given).map Event.ofMembers := by
  rw [← map_fst_pulls sent, read.pulls]
  clear read
  generalize sent + 1 = number
  induction rounds generalizing number with
  | nil => rfl
  | cons round rounds inductionHypothesis =>
      simpa [List.zipIdx_cons, Function.comp_def] using inductionHypothesis (number + 1)

/-! ## All answers -/

/-- Records are objects up to the first that is none. -/
theorem exists_given (records : List Json) :
    ∃ given : List (Register Json), records = given.map .object ∨
      ∃ value rest, records = given.map .object ++ value :: rest ∧
        ∀ members, value ≠ .object members := by
  induction records with
  | nil => exact ⟨[], .inl rfl⟩
  | cons value rest inductionHypothesis =>
      cases value with
      | object members =>
          obtain ⟨given, shape⟩ := inductionHypothesis
          refine ⟨members :: given, ?_⟩
          simpa using shape
      | null | bool | int | real | text | array => exact ⟨[], .inr ⟨_, rest, rfl, by simp⟩⟩

/-- An answer holds a page or withholds it. -/
theorem holds_or_withholds (address : Text) (answer : Answer) :
    (∃ page, answer.Holds page) ∨ ∃ fault, answer.Withholds address fault := by
  cases answer with
  | failed reason => exact .inr ⟨_, .failed⟩
  | broken fault => exact .inr ⟨_, .broken⟩
  | interrupted => exact .inr ⟨_, .interrupted⟩
  | response status text body =>
      by_cases granted : status = 200
      · subst granted
        match body with
        | .error (.notJson reason) => exact .inr ⟨_, .notJson⟩
        | .error (.foreign fault) => exact .inr ⟨_, .brokenBody⟩
        | .ok value =>
            by_cases shape : ∃ members records, value = .object members ∧
                Json.member "events" members = .array records
            · obtain ⟨members, records, rfl, events⟩ := shape
              exact .inl ⟨⟨records, _⟩, text, members, rfl, events, rfl⟩
            · refine .inr ⟨_, .noEvents fun members records same events => shape ?_⟩
              exact ⟨members, records, same, events⟩
      · exact .inr ⟨_, .refused granted⟩

/-- Whatever the client answers, there is a conversation. -/
theorem exists_converses (address : Text) (answers : List Answer) (cursor? : Option Json) :
    ∃ rounds fault?, Converses address cursor? answers rounds fault? := by
  induction answers generalizing cursor? with
  | nil => exact ⟨_, _, .withheld .failed⟩
  | cons answer answers inductionHypothesis =>
      obtain ⟨page, holds⟩ | ⟨fault, withholds⟩ := holds_or_withholds address answer
      · obtain ⟨given, objects | ⟨value, rest, objects, other⟩⟩ := exists_given page.records
        · cases named : page.next.isVacant with
          | true => exact ⟨_, _, .last holds objects named⟩
          | false =>
              obtain ⟨rounds, fault?, later⟩ := inductionHypothesis (some page.next)
              exact ⟨_, _, .next holds objects named later⟩
        · exact ⟨_, _, .notRecord holds objects other⟩
      · exact ⟨_, _, .withheld withholds⟩

/-- An answer as promised that withholds a page is a fault of the source. -/
theorem kind_of_withholds {answer : Answer} {fault : SourceFault}
    (withholds : answer.Withholds address fault) (regular : answer.IsRegular) :
    fault.kind = .source := by
  cases withholds with
  | failed | refused | notJson | noEvents => rfl
  | broken | interrupted => exact regular.elim
  | @brokenBody text fault => exact absurd rfl (regular rfl fault)

/-- A conversation of such answers that ends with a fault ends with one of the source. -/
theorem kind_of_converses {cursor? : Option Json} {answers : List Answer} {rounds : List Round}
    {fault? : Option SourceFault} (converses : Converses address cursor? answers rounds fault?)
    (regular : ∀ answer ∈ answers, answer.IsRegular) : ∀ fault ∈ fault?, fault.kind = .source := by
  induction converses with
  | last => simp
  | next holds objects named later inductionHypothesis =>
      exact inductionHypothesis (List.forall_mem_cons.mp regular).2
  | notRecord => simp [SourceFault.kind]
  | @withheld cursor? answers fault withholds =>
      have first : (answer answers).1.IsRegular := by
        cases answers with
        | nil => trivial
        | cons answer answers => exact regular answer List.mem_cons_self
      simpa using kind_of_withholds withholds first

/-- The events at an address are read as the rounds of a conversation that begins without a
cursor. -/
theorem isReadAs_ofService {answers : List Answer} {rounds : List Round}
    {fault? : Option SourceFault} (converses : Converses address none answers rounds fault?) :
    IsReadAs address perPage token 0 (ofService address perPage token answers) rounds fault? :=
  isReadAs_ofPages converses (by simp) 1 0

/-- Whatever the client answers, there is a conversation that begins without a cursor, and the
events at an address are read as its rounds. If the client answers as it promises, its fault is one
of the source. If it has none, any other conversation without a fault in which the same records
are given has the same events, however they are divided into pages. -/
theorem ofService_converses (address : Text) (perPage : Int) (token : Option Text)
    (answers : List Answer) :
    (∃ rounds fault?, Converses address none answers rounds fault?) ∧
    ∀ rounds fault?, Converses address none answers rounds fault? ->
      IsReadAs address perPage token 0 (ofService address perPage token answers) rounds fault? ∧
      ((∀ answer ∈ answers, answer.IsRegular) -> ∀ fault ∈ fault?, fault.kind = .source) ∧
      ∀ address' perPage' token' answers' rounds', fault? = none ->
        Converses address' none answers' rounds' none ->
        rounds'.flatMap Round.given = rounds.flatMap Round.given ->
        (ofService address' perPage' token' answers').events =
            (ofService address perPage token answers).events ∧
          (ofService address' perPage' token' answers').fault? = none := by
  refine ⟨exists_converses address answers none, fun rounds fault? converses => ?_⟩
  have read : IsReadAs address perPage token 0 _ rounds fault? := isReadAs_ofService converses
  refine ⟨read, kind_of_converses converses, ?_⟩
  intro address' perPage' token' answers' rounds' complete converses' same
  have other : IsReadAs address' perPage' token' 0 _ rounds' none :=
    isReadAs_ofService converses'
  rw [other.events, read.events, same]
  exact ⟨rfl, other.fault⟩

/-- A recorded answer is as promised unless it is an interruption, or a document in which
containers stand inside too many others. -/
theorem isRegular_answer {reply : Reply} (waited : reply ≠ .interruption)
    (shallow : ∀ body, reply = .document 200 body ->
      Json.nesting (Utf8.decodeLossy body) ≤ Json.deepestNesting) : reply.answer.IsRegular := by
  cases reply with
  | failure reason => trivial
  | interruption => exact absurd rfl waited
  | document status body =>
      rintro rfl fault same
      have nests := shallow body rfl
      cases read : Json.read (Utf8.decodeLossy body) with
      | ok value => simp [read, Except.mapError] at same
      | error defect =>
          have told := Json.of_read_eq_error read
          cases defect with
          | malformed | oversized => simp [read, Except.mapError] at same
          | tooDeep container => exact absurd told (Nat.not_lt.mpr nests)

/-- A page with one record that names another page, which has one too and names none. -/
def twoPages : List Reply :=
  [.document 200 (Utf8.encodeEscaping
      "\x7b\"events\":[\x7b\"action\":\"a\"\x7d],\"next_cursor\":\"c\"\x7d"),
    .document 200 (Utf8.encodeEscaping "\x7b\"events\":[\x7b\"action\":\"b\"\x7d]\x7d")]

/-- A conversation of two rounds: the event of the first page is given when one request has been
sent, and that of the second when the request for it has been sent too. -/
theorem ofService_converses_twoPages :
    let answers := recorded twoPages
    (∀ answer ∈ answers, answer.IsRegular) ∧
      ∃ rounds, Converses "http://log" none answers rounds none ∧
        IsReadAs "http://log" 20 none 0 (ofService "http://log" 20 none answers) rounds none ∧
        rounds.length = 2 ∧
        ((ofService "http://log" 20 none answers).pulls 0).map Prod.snd = [1, 2] := by
  intro answers
  have regular : ∀ answer ∈ answers, answer.IsRegular := by
    have shallow : ∀ reply ∈ twoPages, ∀ body, reply = .document 200 body ->
        Json.nesting (Utf8.decodeLossy body) ≤ Json.deepestNesting := by
      intro reply member body same
      rcases List.mem_pair.mp member with rfl | rfl
      · cases same
        decide
      · cases same
        decide
    intro answer member
    rcases List.mem_append.mp member with recorded | last
    · obtain ⟨reply, inside, rfl⟩ := List.mem_map.mp recorded
      refine isRegular_answer ?_ (shallow reply inside)
      rcases List.mem_pair.mp inside with rfl | rfl <;> simp
    · cases List.mem_singleton.mp last
      trivial
  obtain ⟨⟨rounds, fault?, converses⟩, told⟩ := ofService_converses "http://log" 20 none answers
  obtain ⟨read, -⟩ := told rounds fault? converses
  have complete : (ofService "http://log" 20 none answers).fault?.isNone = true := by
    decide +kernel
  have two : (ofService "http://log" 20 none answers).journal.requests.length = 2 := by
    decide +kernel
  obtain rfl : fault? = none := by rw [← read.fault]; exact Option.isNone_iff_eq_none.mp complete
  rw [read.requests, List.length_map] at two
  exact ⟨regular, rounds, converses, read, two, by decide +kernel⟩

end Feed

end AuditTrail
