import AuditTrail.FaultKind

/-!
# The audit command

Shows the log that the user asked for. What the user may have got wrong is looked at first:
the number of events on a page, the source and the tree, in this order. Only then does the
run begin to write.
-/

namespace AuditTrail.Command

/-- What is to be shown of the audit log. -/
structure AuditRequest where
  source : Text
  tree : Option Text
  asRecords : Bool
  asTimestamps : Bool
  perPage : Int
deriving DecidableEq, Repr

/-- What a run of the program finds around it. -/
structure Surroundings where
  files : Files
  /-- The answers that the client of the service is going to give. -/
  replies : List Service.Answer
  /-- The pager that the user wants. -/
  pager : Option Text
  /-- The token for the service. -/
  token : Option Text
  /-- The zone of the local clock. -/
  zone : Calendar.Zone
  now : Calendar.Present
  /-- The columns of the screen, if there is one. -/
  screenColumns : Option Int

/-- Why the log is not shown. -/
inductive AuditFault where
  | perPage (number : Int)
  | sourceMissing (source : Text)
  | sourceUnknown (path : Text) (fault : FileFault)
  | unloaded (fault : LoadFault)
  | unrendered (fault : RenderFault)

/-- What is said of a log that is not shown. -/
def AuditFault.message : AuditFault -> Text
  | .perPage number => "per-page should be positive, got " ++ Text.ofInt number
  | .sourceMissing source => "Audit log file not found: " ++ source
  | .sourceUnknown path fault => fault.message path
  | .unloaded fault => fault.message
  | .unrendered fault => fault.message

/-- The kind of a fault that keeps the log from being shown. -/
def AuditFault.kind : AuditFault -> FaultKind
  | .perPage _ => .request
  | .sourceMissing _ => .request
  | .sourceUnknown _ fault => fault.kind .system
  | .unloaded fault => fault.kind
  | .unrendered fault => fault.kind

/-- What came of showing the log: a fault, if there was one, what was done besides writing,
and the pager or the bounded output that the rows went to, if it came to that. -/
structure Showing where
  fault : Option AuditFault
  journal : Journal
  outlet : Option (PagerProcess ⊕ LineBudget)

/-- A log of which nothing is shown. -/
def Showing.refused (fault : AuditFault) (journal : Journal) : Showing :=
  ⟨some fault, journal, none⟩

/-- The columns of a table when there is no screen. -/
def usualColumns : Int := 80

/-- The width of a table on a screen; a screen without columns is none. -/
def tableWidth (usual : Int) (screenColumns : Option Int) : Int :=
  match screenColumns with
  | none => usual
  | some columns => if columns = 0 then usual else columns

/-- Whether a location can be a source of events. -/
def sourceFault? (files : Files) (source : Text) : Option AuditFault :=
  if isAddress source then none
  else
    let path := Path.normal source
    match files.isFile path with
    | .error fault => some (.sourceUnknown path fault)
    | .ok true => none
    | .ok false => some (.sourceMissing source)

/-- The token that is used: an empty one is none. -/
def Surroundings.usedToken (around : Surroundings) : Option Text :=
  Service.chosenToken? [around.token]

/-- How the user wants times to be shown. -/
def timeFormat (around : Surroundings) (asTimestamps : Bool) : Calendar.TimeFormat :=
  if asTimestamps then .inZone around.zone else .ages around.now

/-- What reached the output through a pager or without one. -/
def reached : Option (PagerProcess ⊕ LineBudget) -> Bytes
  | none => []
  | some (.inl process) => process.output
  | some (.inr budget) => budget.output.taken

/-- What reached the output. -/
def Showing.output (showing : Showing) : Bytes := reached showing.outlet

/-- Shows the rows of a table, the client of the service answering with `answers`. -/
def showTable (around : Surroundings) (request : AuditRequest) (table : Table)
    (answers : List Service.Answer) : Showing :=
  let feed := Feed.ofLocation around.files answers request.perPage around.usedToken
    request.source
  let width := tableWidth usualColumns around.screenColumns
  let run := Render.toScreen PagerProcess.sink (PagerProcess.ofFiles around.files around.pager)
    .fresh table request.asRecords width feed
  { fault :=
      match run.result with
      | .ok _ => none
      | .error fault => some (.unrendered fault)
    journal := run.journal
    outlet := run.state }

/-- Shows the log that the user asked for. -/
def showLog (around : Surroundings) (request : AuditRequest) : Showing :=
  if request.perPage < 1 then .refused (.perPage request.perPage) []
  else
    match sourceFault? around.files request.source with
    | some fault => .refused fault []
    | none =>
      let format := timeFormat around request.asTimestamps
      match request.tree.filter fun location => !location.isEmpty with
      | none => showTable around request (.ofSecret format) around.replies
      | some location =>
        let loading := Tree.load around.files around.replies around.usedToken location
        match loading.result with
        | .error fault => .refused (.unloaded fault) loading.journal
        | .ok tree =>
          let showing := showTable around request (.ofRepository tree format) loading.answers
          { showing with journal := loading.journal ++ showing.journal }

end AuditTrail.Command
