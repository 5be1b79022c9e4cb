import AuditTrail.Command.Option

/-!
# Usage of the commands

What the commands say about themselves, and what is said of a command line that is none of
theirs. The user is shown how the command that found the fault is used; a value that is
missing or too much is reported by itself.
-/

namespace AuditTrail.Command

/-- The two commands: the program itself, and the one that shows the audit log. -/
inductive Page where
  | program
  | audit
deriving DecidableEq, Repr

/-- The name of the command that shows the audit log. -/
def auditName : Text := "audit"

/-- The name of the program. -/
def programName : Text := "auditpager"

/-- The release of the program. -/
def release : Text := "0.1.0"

/-- What the program says of its release. -/
def releaseLine : Text := programName ++ ", version " ++ release ++ "\n"

namespace Page

/-- How the user calls a command; `program` is how the program was called. -/
def call (program : Text) : Page -> Text
  | .program => program
  | .audit => program ++ " " ++ auditName

/-- The line on the usage of a command. -/
def usageLine (program : Text) (page : Page) : Text :=
  "Usage: " ++ page.call program
    ++ (match page with
        | .program => (" [OPTIONS] COMMAND [ARGS]...\n" : Text)
        | .audit => " [OPTIONS] FILE_OR_URL\n")

/-- What stands below the usage in the help of a command. -/
def helpBody : Page -> Text
  | .program =>
    "
  auditpager: page through audit logs in the terminal.

Options:
  --version    Show the version and exit.
  -d, --debug  Enable debug logging to stderr.
  -h, --help   Show this message and exit.

Commands:
  audit  Show the audit log.
"
  | .audit =>
    "
  Show the audit log.

  FILE_OR_URL is a JSONL file with one audit event per line, or an http(s) URL
  of a paginated audit events endpoint. If the output is parsed by a script,
  use --json instead of the default table format.

Options:
  --tree FILE_OR_URL  Directory tree snapshot (JSON) of the audited
                      repository. Adds an EVENT SUBJECT column resolved
                      against the snapshot.
  --json              Output the audit log in JSON format.
  -T, --timestamp     Show timestamps formatted to RFC3339 instead of human
                      readable durations.
  -h, --help          Show this message and exit.
"

/-- The help of a command. -/
def help (program : Text) (page : Page) : Text := page.usageLine program ++ page.helpBody

end Page

/-- Why a command line is none of a command's. -/
inductive UsageFault where
  | option (fault : OptionFault)
  | notWhole (value : Text)
  | noSource
  | extraWords (words : List Text)
  | noCommand
  | unknownCommand (name : Text)
deriving DecidableEq, Repr

/-- What is said of the fault. -/
def UsageFault.message : UsageFault -> Text
  | .option fault => fault.message
  | .notWhole value =>
    "Invalid value for '--per-page': " ++ value.quoted ++ " is not a valid integer."
  | .noSource => "Missing argument 'FILE_OR_URL'."
  | .extraWords [word] => "Got unexpected extra argument (" ++ word ++ ")"
  | .extraWords words => "Got unexpected extra arguments (" ++ Text.join " " words ++ ")"
  | .noCommand => "Missing command."
  | .unknownCommand name =>
    "No such command " ++ name.quoted ++ "." ++ hint (Text.similar name [auditName])

/-- Whether the user is shown how the command is used. -/
def UsageFault.showsUsage : UsageFault -> Bool
  | .option (.needless _) => false
  | .option (.unvalued _) => false
  | _ => true

/-- The report of a fault that a command found. -/
def UsageFault.report (program : Text) (page : Page) (fault : UsageFault) : Text :=
  (if fault.showsUsage then
      page.usageLine program ++ "Try '" ++ page.call program ++ " --help' for help.\n\n"
    else ([] : Text))
    ++ "Error: " ++ fault.message ++ "\n"

end AuditTrail.Command
