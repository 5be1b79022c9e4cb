import AuditTrail.Command.Run
import AuditTrail.Proofs.Text.Writable
import Mathlib.Data.List.Basic

/-!
# Requests that cannot be had

What the user got wrong is found before anything is shown. `Bars` lists what can be found, in
the order in which it is looked at, and `showLog_cases` says that everything else shows a table.
Of the faults in showing one none is the user's (`RenderFault.kind_ne_request`), whatever the
files hold and the client of the service answers, so a fault that is the user's has no effect
besides its message: `showLog_leavesMessage`. How the message is put out is a matter of the
toolkit, of which only `Toolkit.Prints` is presupposed.
-/

namespace AuditTrail

/-! ## Faults of a run that has begun -/

section

variable {blamed : FaultKind} (other : blamed ≠ .request)
include other

theorem FileFault.kind_ne_request (fault : FileFault) : fault.kind blamed ≠ .request := by
  cases fault <;> simp [FileFault.kind, other]

theorem Json.ReadFault.kind_ne_request (fault : Json.ReadFault) :
    fault.kind blamed ≠ .request := by
  cases fault <;> simp [Json.ReadFault.kind, other]

theorem Service.FetchFault.kind_ne_request (fault : Service.FetchFault) :
    fault.kind blamed ≠ .request := by
  cases fault with
  | foreign fault => cases fault <;> simp [Service.FetchFault.kind, Service.ForeignFault.kind]
  | failed | refused | notJson | interrupted => simp [Service.FetchFault.kind, other]

end

theorem SourceFault.kind_ne_request (fault : SourceFault) : fault.kind ≠ .request := by
  have other : FaultKind.source ≠ .request := by decide
  cases fault with
  | unopened path fault => exact fault.kind_ne_request other
  | notJson path line record fault => exact fault.kind_ne_request other
  | unfetched address fault => exact fault.kind_ne_request other
  | notUtf8 | notObject | noEvents | notRecord => exact other

theorem RowFault.kind_ne_request (fault : RowFault) : fault.kind ≠ .request := by
  cases fault with
  | unshownTime fault => cases fault <;> simp [RowFault.kind, Calendar.Fault.kind]
  | _ => simp [RowFault.kind]

/-- No fault of a run that has begun is the user's. -/
theorem RenderFault.kind_ne_request (fault : RenderFault) : fault.kind ≠ .request := by
  cases fault with
  | source fault => exact fault.kind_ne_request
  | unmapped fault => exact fault.kind_ne_request
  | unstarted | mismatch | unwritable | unwritten | afterClose => simp [RenderFault.kind]

/-! ## Loading a tree -/

namespace Tree

/-- The line that is logged for a tree. -/
def loadLine (location : Text) : Text :=
  if isAddress location then "Fetching tree snapshot from " ++ location
  else "Loading tree snapshot from " ++ Path.normal location

/-- The requests that are sent for a tree. -/
def loadRequests (token : Option Text) (location : Text) : List Service.Request :=
  if isAddress location then [Service.request location none token] else []

variable (files : Files) (answers : List Service.Answer) (token : Option Text) (location : Text)

theorem requests_load :
    (load files answers token location).journal.requests = loadRequests token location := by
  unfold load loadRequests
  split <;> rfl

/-- Only the debugging user is told that a tree is loaded. -/
theorem lines_load (debugging : Bool) :
    (load files answers token location).journal.lines (Level.threshold debugging) =
      if debugging then [⟨.debug, loadLine location⟩] else [] := by
  unfold load loadLine
  cases debugging <;> split <;> rfl

end Tree

namespace Command

/-! ## What bars a request -/

/-- What bars a request, and what has been done by then. -/
inductive Bars (around : Surroundings) (request : AuditRequest) :
    AuditFault -> Journal -> Prop where
  | perPage (few : request.perPage < 1) : Bars around request (.perPage request.perPage) []
  | source {fault : AuditFault} (enough : ¬request.perPage < 1)
      (barred : sourceFault? around.files request.source = some fault) :
      Bars around request fault []
  | tree {location : Text} {fault : LoadFault} (enough : ¬request.perPage < 1)
      (found : sourceFault? around.files request.source = none)
      (wanted : request.tree = some location) (named : location ≠ [])
      (barred : (Tree.load around.files around.replies around.usedToken location).result =
        .error fault) :
      Bars around request (.unloaded fault)
        (Tree.load around.files around.replies around.usedToken location).journal

variable {around : Surroundings} {request : AuditRequest} {fault : AuditFault}

/-- A request that is barred is refused, with what has been done by then. -/
theorem Bars.showLog_eq {journal : Journal} (bars : Bars around request fault journal) :
    showLog around request = .refused fault journal := by
  cases bars with
  | perPage few => rw [showLog, if_pos few]
  | source enough barred => rw [showLog, if_neg enough, barred]
  | tree enough found wanted named barred =>
      have kept : (request.tree.filter fun location => !location.isEmpty) = request.tree := by
        simp [wanted, named]
      rw [wanted] at kept
      simp only [showLog, if_neg enough, found, wanted, kept, barred]

/-- A request that is not barred shows a table, before which a tree may have been loaded. -/
theorem showLog_cases (around : Surroundings) (request : AuditRequest) :
    (∃ fault journal, Bars around request fault journal) ∨
      ∃ before table answers,
        let showing := showTable around request table answers
        showLog around request = { showing with journal := before ++ showing.journal } := by
  by_cases enough : request.perPage < 1
  · exact .inl ⟨_, _, .perPage enough⟩
  · cases found : sourceFault? around.files request.source with
    | some fault => exact .inl ⟨_, _, .source enough found⟩
    | none =>
        cases wanted : request.tree.filter fun location => !location.isEmpty with
        | none =>
            refine .inr ⟨[], .ofSecret (timeFormat around request.asTimestamps), around.replies, ?_⟩
            simp only [showLog, if_neg enough, found, wanted, List.nil_append]
        | some location =>
            obtain ⟨wanted', named⟩ := Option.filter_eq_some_iff.mp wanted
            cases loaded : (Tree.load around.files around.replies around.usedToken
                location).result with
            | error fault =>
                exact .inl ⟨_, _, .tree enough found wanted' (by simpa using named) loaded⟩
            | ok tree =>
                refine .inr ⟨(Tree.load around.files around.replies around.usedToken
                  location).journal, .ofRepository tree (timeFormat around request.asTimestamps),
                  (Tree.load around.files around.replies around.usedToken location).answers, ?_⟩
                simp only [showLog, if_neg enough, found, wanted, loaded]

/-- No fault in showing a table is the user's. -/
theorem kind_of_showTable {table : Table} {answers : List Service.Answer}
    (shown : (showTable around request table answers).fault = some fault) :
    fault.kind ≠ .request := by
  unfold showTable at shown
  dsimp only at shown
  split at shown
  next => cases shown
  next renderFault _ =>
    cases shown
    exact renderFault.kind_ne_request

/-- A fault that is the user's was found before anything was shown. -/
theorem bars_of_kind (refused : (showLog around request).fault = some fault)
    (isRequest : fault.kind = .request) : ∃ journal, Bars around request fault journal := by
  rcases showLog_cases around request with ⟨found, journal, bars⟩ | ⟨before, table, answers, shown⟩
  · have same : some found = some fault := by rw [← refused, bars.showLog_eq]; rfl
    cases same
    exact ⟨journal, bars⟩
  · rw [shown] at refused
    exact absurd isRequest (kind_of_showTable refused)

/-! ## What a barred request leaves behind -/

/-- The journal of a request that was barred. -/
theorem Bars.journal_eq {journal : Journal} (bars : Bars around request fault journal) :
    journal = [] ∨ ∃ location, request.tree = some location ∧
      journal = (Tree.load around.files around.replies around.usedToken location).journal := by
  cases bars with
  | perPage | source => exact .inl rfl
  | tree enough found wanted => exact .inr ⟨_, wanted, rfl⟩

/-- Only what is stored, what the service answers and who asks can bar a request. -/
theorem Bars.elsewhere {journal : Journal} (bars : Bars around request fault journal)
    (pager : Option Text) (zone : Calendar.Zone) (now : Calendar.Present)
    (screenColumns : Option Int) :
    Bars { around with pager, zone, now, screenColumns } request fault journal := by
  cases bars with
  | perPage few => exact .perPage few
  | source enough barred => exact .source enough barred
  | tree enough found wanted named barred => exact .tree enough found wanted named barred

/-- A request that is barred before its tree is looked at has sent nothing. -/
theorem Bars.requests_eq_nil {journal : Journal} (bars : Bars around request fault journal)
    (early : (∀ location, request.tree = some location → isAddress location = false) ∨
      request.perPage < 1 ∨ isAddress request.source = false ∧
        around.files.isFile (Path.normal request.source) ≠ .ok true) :
    journal.requests = [] := by
  cases bars with
  | perPage | source => rfl
  | @tree location loadFault enough found wanted =>
      rw [Tree.requests_load, Tree.loadRequests]
      rcases early with stored | few | ⟨isPath, noFile⟩
      · simp [stored location wanted]
      · exact absurd few enough
      · unfold sourceFault? at found
        simp only [isPath, Bool.false_eq_true, if_false] at found
        split at found
        next => cases found
        next isFile => exact absurd isFile noFile
        next => cases found

/-! ## Messages -/

/-- The octets of a text in ASCII. -/
def asciiOctets (text : Text) : Bytes := text.map fun c => UInt8.ofNat c.val

/-- What a toolkit promises of its messages: what is printable in ASCII is put out as it is, and
the whole message has the end of a line behind it. -/
structure Toolkit.Prints (toolkit : Toolkit) : Prop where
  printable : ∀ {message : Text} (rest : Text), message.IsPrintableAscii →
    toolkit.echo (message ++ rest) = asciiOctets message ++ toolkit.echo rest
  ended : toolkit.echo [] = [lineEnd]

/-- A printable message is put out as one line. -/
theorem Toolkit.Prints.line {toolkit : Toolkit} (prints : toolkit.Prints) {message : Text}
    (isPrintable : message.IsPrintableAscii) :
    toolkit.echo message = asciiOctets message ++ [lineEnd] := by
  have printed := prints.printable [] isPrintable
  rwa [List.append_nil, prints.ended] at printed

/-- Printable ASCII needs no escapes. -/
theorem encodeEscaping_of_isPrintableAscii {message : Text} (rest : Text)
    (printable : message.IsPrintableAscii) :
    Utf8.encodeEscaping (message ++ rest) = asciiOctets message ++ Utf8.encodeEscaping rest := by
  have unescaped : Utf8.encodeEscaping message = message.flatMap Utf8.encodeCodePoint :=
    List.flatMap_congr fun c member => by simp [printable.isWritable c member]
  rw [asciiOctets, ← Utf8.flatMap_encodeCodePoint_of_isPrintableAscii printable, ← unescaped]
  exact List.flatMap_append

/-- Printable ASCII in front of a message does not begin a control sequence. -/
theorem unstyled_append {message : Text} (rest : Text) (printable : message.IsPrintableAscii) :
    (message ++ rest).unstyled = message ++ rest.unstyled := by
  induction message with
  | nil => rfl
  | cons c more inductionHypothesis =>
      have visible := printable c List.mem_cons_self
      have noEscape : c ≠ CodePoint.ofChar '\x1b' := by
        rintro rfl
        exact absurd visible.1 (by decide)
      have none : Text.controlLength? (c :: (more ++ rest)) = none := by
        unfold Text.controlLength?
        split
        next same =>
          rw [← (List.cons.inj same).1]
          exact if_neg fun starts => noEscape starts.1
        next => rfl
      have later := inductionHypothesis fun d member => printable d (List.mem_cons_of_mem c member)
      simp only [Text.unstyled, List.cons_append, Text.unstyledFrom, none] at later ⊢
      rw [later]

/-- On streams that are no screens a toolkit prints messages. -/
theorem Toolkit.plain_prints : Toolkit.plain.Prints where
  printable rest printable := by
    simp only [Toolkit.plain, plainOctets, List.append_assoc]
    rw [unstyled_append _ printable, encodeEscaping_of_isPrintableAscii _ printable]
  ended := rfl

/-- The line that is logged for a tree, as the debugging user sees it. -/
def loadLogged (location : Text) : Bytes :=
  asciiOctets "DEBUG: " ++ Utf8.encodeEscaping (Tree.loadLine location) ++ [lineEnd]

/-- The debugging user sees the line that is logged for a tree. -/
theorem encodeEscaping_loadLine (location : Text) :
    Utf8.encodeEscaping (LogLine.text ⟨.debug, Tree.loadLine location⟩ ++ "\n") =
      loadLogged location := by
  have named : Text.IsPrintableAscii "DEBUG: " := Text.isPrintableAscii_ofString (by simp)
  have joined : LogLine.text ⟨.debug, Tree.loadLine location⟩ ++ "\n" =
      "DEBUG: " ++ (Tree.loadLine location ++ "\n") := by
    rw [← List.append_assoc]
    rfl
  rw [joined, encodeEscaping_of_isPrintableAscii _ named, loadLogged, List.append_assoc]
  exact congrArg _ List.flatMap_append

/-! ## What is left of a request -/

/-- What is left of a request that is refused for what the user got wrong: its message. -/
structure LeavesMessage (around : Surroundings) (request : AuditRequest) (fault : AuditFault) :
    Prop where
  /-- Nothing was written. -/
  output : (showLog around request).output = []
  /-- There is no pager, and nothing that takes the place of one. -/
  outlet : (showLog around request).outlet = none
  /-- Which pager the user wants was not looked at, and neither were the clock and the screen. -/
  unseen : ∀ pager zone now screenColumns,
    showLog { around with pager, zone, now, screenColumns } request = showLog around request
  /-- Nothing was done, unless a tree was loaded. -/
  journal : (showLog around request).journal = [] ∨ ∃ location, request.tree = some location ∧
    (showLog around request).journal =
      (Tree.load around.files around.replies around.usedToken location).journal
  /-- No document was asked for but the tree. -/
  requests : (showLog around request).journal.requests = [] ∨
    ∃ location, request.tree = some location ∧ isAddress location = true ∧
      (showLog around request).journal.requests =
        [Service.request location none around.usedToken]
  /-- Without an address of a tree, with too few events on a page and without a file at the path
  of the source none was asked for. -/
  unrequested : ((∀ location, request.tree = some location → isAddress location = false) ∨
      request.perPage < 1 ∨ isAddress request.source = false ∧
        around.files.isFile (Path.normal request.source) ≠ .ok true) →
    (showLog around request).journal.requests = []
  /-- Through every toolkit that prints messages the program exits with status 2. It says why in
  one message, behind the line for the tree, which only the debugging user sees. -/
  answer : ∀ toolkit : Toolkit, toolkit.Prints → ∀ program words debugging,
    toolkit.call program words = .audit debugging request →
    ∃ log, (log = [] ∨ debugging = true ∧ ∃ location, request.tree = some location ∧
        log = loadLogged location) ∧
      toolkit.answer program around words =
        ⟨.exited 2, [], log ++ asciiOctets "ERROR: " ++ toolkit.echo fault.message,
          (showLog around request).journal.requests⟩ ∧
      (fault.message.IsPrintableAscii →
        toolkit.echo fault.message = asciiOctets fault.message ++ [lineEnd])

/-- The log of a request that was barred. -/
theorem Bars.log_eq {journal : Journal} (bars : Bars around request fault journal)
    (debugging : Bool) :
    logOctets (Level.threshold debugging) journal = [] ∨
      debugging = true ∧ ∃ location, request.tree = some location ∧
        logOctets (Level.threshold debugging) journal = loadLogged location := by
  rcases bars.journal_eq with rfl | ⟨location, wanted, rfl⟩
  · exact .inl rfl
  · cases debugging with
    | false => exact .inl (by simp [logOctets, Tree.lines_load])
    | true =>
        refine .inr ⟨rfl, location, wanted, ?_⟩
        simp [logOctets, Tree.lines_load, encodeEscaping_loadLine]

/-- What the user got wrong has no effect besides its message, whatever is stored and whatever
the service answers. -/
theorem showLog_leavesMessage (refused : (showLog around request).fault = some fault)
    (isRequest : fault.kind = .request) : LeavesMessage around request fault := by
  obtain ⟨journal, bars⟩ := bars_of_kind refused isRequest
  have shown := bars.showLog_eq
  have done : (showLog around request).journal = journal := by rw [shown]; rfl
  constructor
  case output => rw [shown]; rfl
  case outlet => rw [shown]; rfl
  case unseen =>
    intro pager zone now screenColumns
    rw [shown]
    exact (bars.elsewhere pager zone now screenColumns).showLog_eq
  case journal =>
    rw [done]
    exact bars.journal_eq
  case requests =>
    rw [done]
    rcases bars.journal_eq with rfl | ⟨location, wanted, rfl⟩
    · exact .inl rfl
    · rw [Tree.requests_load, Tree.loadRequests]
      cases isAt : isAddress location with
      | true => exact .inr ⟨location, wanted, isAt, rfl⟩
      | false => exact .inl rfl
  case unrequested =>
    rw [done]
    exact bars.requests_eq_nil
  case answer =>
    intro toolkit prints program words debugging asked
    refine ⟨logOctets (Level.threshold debugging) journal, bars.log_eq debugging, ?_, prints.line⟩
    have foreseen : fault.kind.isForeseen = true := by rw [isRequest]; rfl
    have named : Text.IsPrintableAscii "ERROR: " := Text.isPrintableAscii_ofString (by simp)
    have nothing : (showLog around request).output = [] := by rw [shown]; rfl
    simp [Toolkit.answer, asked, Toolkit.answerOfShowing, refused, Toolkit.endingOf, foreseen,
      prints.printable _ named, done, nothing, refusedStatus]

/-- An option that uses no other word stands before what the words behind it come to. -/
theorem takeApart_option {Name : Type} {forms : List (OptionForm Name)} {mixed : Bool}
    {word : Text} {rest : List Text} {given : List (Given Name)} {parts : Parts Name}
    (other : word ≠ endMark) (isOption : isOptionWord word = true)
    (read : readWord forms word rest.head? = .ok (given, false))
    (behind : takeApart forms mixed rest = .ok parts) :
    takeApart forms mixed (word :: rest) =
      .ok { parts with options := given ++ parts.options } := by
  rw [takeApart, if_neg other, if_pos isOption, read]
  simp [behind]

/-- The service refuses the tree: one request was sent, and only its refusal is told. -/
theorem showLog_leavesMessage_treeRefused :
    let around : Surroundings :=
      { files := .ofPaths [("log", .file [])], replies := [Service.Reply.document 404 [110, 111]],
        pager := none, token := none, zone := Calendar.Offset.utc,
        now := (⟨0, .utc, by decide⟩ : Calendar.Timestamp),
        screenColumns := none }
    let request : AuditRequest := ⟨"log", some "http://t", false, false, 20⟩
    let fault : AuditFault := .unloaded (.unfetched "http://t" (.refused 404 "no"))
    let words : List Text := ["audit", "--tree=http://t", "log"]
    (showLog around request).fault = some fault ∧ fault.kind = .request ∧
      LeavesMessage around request fault ∧ Toolkit.plain.Prints ∧
      Toolkit.plain.call "auditpager" words = .audit false request ∧
      Toolkit.plain.answer "auditpager" around words =
        ⟨.exited 2, [], asciiOctets "ERROR: http://t returned 404: no" ++ [lineEnd],
          [Service.request "http://t" none none]⟩ := by
  intro around request fault words
  have refused : (showLog around request).fault = some fault := rfl
  have isRequest : fault.kind = .request := rfl
  have asked : invocation words = .ok (.audit false request) := by
    have program : takeApart ProgramOption.forms false words = .ok ⟨[], words⟩ := by
      rw [takeApart]
      rfl
    have source : takeApart AuditOption.forms true ["log"] = .ok ⟨[], ["log"]⟩ := by
      rw [takeApart, takeApart]
      rfl
    have other : ("--tree=http://t" : Text) ≠ endMark := by decide
    have command : takeApart AuditOption.forms true ["--tree=http://t", "log"] =
        .ok ⟨[⟨.tree, some "http://t"⟩], ["log"]⟩ :=
      takeApart_option other rfl rfl source
    rw [invocation, program]
    change auditInvocation false ["--tree=http://t", "log"] = _
    rw [auditInvocation, command]
    rfl
  have called : Toolkit.plain.call "auditpager" words = .audit false request := by
    rw [Toolkit.plain]
    simp only [plainCall, asked]
  refine ⟨refused, isRequest, showLog_leavesMessage refused isRequest, Toolkit.plain_prints,
    called, ?_⟩
  rw [Toolkit.answer, called]
  rfl

end Command

end AuditTrail
