import AuditTrail.Command.Audit
import AuditTrail.Command.Usage
import AuditTrail.Text.DecimalDigit

/-!
# Invocations

What a command line asks for. Requests for help or for the release come before all that may
be wrong with the rest of the line, in the order in which they were made; after them come the
number of events on a page, the source of the events, and words that are left over.
-/

namespace AuditTrail.Command

/-- What a command line asks for. -/
inductive Invocation where
  | help (page : Page)
  | release
  | audit (debugging : Bool) (request : AuditRequest)
deriving DecidableEq, Repr

/-- Why a command line asks for nothing. -/
inductive Refusal where
  /-- It is empty, and the user is shown the help. -/
  | empty
  /-- A command found a fault. -/
  | misused (page : Page) (fault : UsageFault)
deriving DecidableEq, Repr

/-- The options of the program. -/
inductive ProgramOption where
  | release
  | debug
  | help
deriving DecidableEq, Repr

/-- How the options of the program are given. -/
def ProgramOption.forms : List (OptionForm ProgramOption) :=
  [⟨.release, "--version", none, false⟩,
    ⟨.debug, "--debug", some (CodePoint.ofChar 'd'), false⟩,
    ⟨.help, "--help", some (CodePoint.ofChar 'h'), false⟩]

/-- The options of the audit command. -/
inductive AuditOption where
  | tree
  | records
  | timestamps
  | perPage
  | help
deriving DecidableEq, Repr

/-- How the options of the audit command are given. -/
def AuditOption.forms : List (OptionForm AuditOption) :=
  [⟨.tree, "--tree", none, true⟩,
    ⟨.records, "--json", none, false⟩,
    ⟨.timestamps, "--timestamp", some (CodePoint.ofChar 'T'), false⟩,
    ⟨.perPage, "--per-page", none, true⟩,
    ⟨.help, "--help", some (CodePoint.ofChar 'h'), false⟩]

/-- What an option of the program asks for by itself. -/
def ProgramOption.answer? : ProgramOption -> Option Invocation
  | .release => some .release
  | .help => some (.help .program)
  | .debug => none

/-- The first thing that the options of the program ask for by themselves. -/
def firstAnswer? (parts : Parts ProgramOption) : Option Invocation :=
  parts.options.findSome? fun given => given.name.answer?

/-- The number of events on a page that the options ask for. -/
def perPage? (parts : Parts AuditOption) : Except UsageFault Int :=
  match parts.value? .perPage with
  | none => .ok defaultPerPage
  | some value =>
    match value.integer? with
    | none => .error (.notWhole value)
    | some number => .ok number

/-- What is to be shown, from the parts of the audit command's line. -/
def auditRequest (parts : Parts AuditOption) : Except UsageFault AuditRequest := do
  let perPage ← perPage? parts
  match parts.words with
  | [] => throw .noSource
  | source :: [] =>
    return ⟨source, parts.value? .tree, parts.has .records, parts.has .timestamps, perPage⟩
  | _ :: words => throw (.extraWords words)

/-- What the words behind the name of the audit command ask for. -/
def auditInvocation (debugging : Bool) (words : List Text) : Except Refusal Invocation :=
  match takeApart AuditOption.forms true words with
  | .error fault => .error (.misused .audit (.option fault))
  | .ok parts =>
    if parts.has .help then .ok (.help .audit)
    else
      match auditRequest parts with
      | .error fault => .error (.misused .audit fault)
      | .ok request => .ok (.audit debugging request)

/-- What the words from an unknown command on ask for. If they begin with a dash they may be
options of the program that come too late. -/
def unknownCommand (name : Text) (rest : List Text) : Except Refusal Invocation :=
  match takeApart ProgramOption.forms false (name :: rest) with
  | .error fault => .error (.misused .program (.option fault))
  | .ok parts =>
    match firstAnswer? parts with
    | some answer => .ok answer
    | none => .error (.misused .program (.unknownCommand name))

/-- What a command line asks for. -/
def invocation (words : List Text) : Except Refusal Invocation :=
  if words.isEmpty then .error .empty
  else
    match takeApart ProgramOption.forms false words with
    | .error fault => .error (.misused .program (.option fault))
    | .ok parts =>
      match firstAnswer? parts with
      | some answer => .ok answer
      | none =>
        match parts.words with
        | [] => .error (.misused .program .noCommand)
        | name :: rest =>
          if name = auditName then auditInvocation (parts.has .debug) rest
          else unknownCommand name rest

end AuditTrail.Command
