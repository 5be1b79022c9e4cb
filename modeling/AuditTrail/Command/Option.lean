import AuditTrail.Text.Quoted
import AuditTrail.Text.Similar

/-!
# Options on a command line

Options begin with a dash. A long option may carry its value behind an equals sign, several
short ones may share a dash, and an option that wants a value takes the next word if nothing
is attached to it. Two dashes alone end the options.
-/

namespace AuditTrail.Command

/-- An option that a command knows by a name. -/
structure OptionForm (Name : Type) where
  name : Name
  long : Text
  short : Option CodePoint
  takesValue : Bool

/-- An option that was given. -/
structure Given (Name : Type) where
  name : Name
  value : Option Text
deriving DecidableEq, Repr

/-- Why the options of a command line cannot be read. -/
inductive OptionFault where
  /-- No option has that name; some that are alike have others. -/
  | unknown (name : Text) (alike : List Text)
  /-- The option takes no value but has one. -/
  | needless (name : Text)
  /-- The option has no value but takes one. -/
  | unvalued (name : Text)
deriving DecidableEq, Repr

/-- What is added to a message when other names are alike. -/
def hint : List Text -> Text
  | [] => []
  | [name] => " Did you mean " ++ name.quoted ++ "?"
  | names => " (Did you mean one of: " ++ Text.join ", " (names.map Text.quoted) ++ "?)"

/-- What is said of options that cannot be read. -/
def OptionFault.message : OptionFault -> Text
  | .unknown name alike => "No such option " ++ name.quoted ++ "." ++ hint alike
  | .needless name => "Option " ++ name.quoted ++ " does not take a value."
  | .unvalued name => "Option " ++ name.quoted ++ " requires an argument."

/-- A command line taken apart. -/
structure Parts (Name : Type) where
  options : List (Given Name)
  words : List Text

variable {Name : Type}

/-- The mark that options begin with. -/
def dash : CodePoint := CodePoint.ofChar '-'

/-- The word that ends the options. -/
def endMark : Text := [dash, dash]

/-- Whether a word is read as options. -/
def isOptionWord (word : Text) : Bool := word.head? = some dash && 1 < word.length

/-- A word at its first equals sign: the name, and the value behind the sign. -/
def splitValue (word : Text) : Text × Option Text :=
  match word.span (· ≠ CodePoint.ofChar '=') with
  | (name, []) => (name, none)
  | (name, _ :: value) => (name, some value)

/-- An option together with whether it used the next word. -/
abbrev Reading (Name : Type) := Except OptionFault (List (Given Name) × Bool)

/-- An option that takes a value, given what is attached to it and the word that follows. -/
def readValued (name : Name) (shown : Text) (attached next : Option Text) : Reading Name :=
  match attached, next with
  | some value, _ => .ok ([⟨name, some value⟩], false)
  | none, some value => .ok ([⟨name, some value⟩], true)
  | none, none => .error (.unvalued shown)

/-- A long option with the value that is attached to it. -/
def readLong (form : OptionForm Name) (attached next : Option Text) : Reading Name :=
  if form.takesValue then readValued form.name form.long attached next
  else if attached.isSome then .error (.needless form.long)
  else .ok ([⟨form.name, none⟩], false)

/-- The short options that share a dash. What follows one that takes a value is its value. -/
def readShort (forms : List (OptionForm Name)) (next : Option Text) : Text -> Reading Name
  | [] => .ok ([], false)
  | letter :: rest =>
    match forms.find? fun form => form.short = some letter with
    | none => .error (.unknown [dash, letter] [])
    | some form =>
      if form.takesValue then
        readValued form.name [dash, letter] (if rest.isEmpty then none else some rest) next
      else (readShort forms next rest).map fun (given, usesNext) =>
        (⟨form.name, none⟩ :: given, usesNext)

/-- The options in a word; `next` is the word that follows it. -/
def readWord (forms : List (OptionForm Name)) (word : Text) (next : Option Text) :
    Reading Name :=
  let (name, attached) := splitValue word
  match forms.find? fun form => form.long = name with
  | some form => readLong form attached next
  | none =>
    if Text.beginsWith endMark word then
      .error (.unknown name (Text.similar name (forms.map OptionForm.long)))
    else readShort forms next (word.drop 1)

/-- Takes a command line apart. `mixed` says that options may follow other words; otherwise
the first other word ends them. -/
def takeApart (forms : List (OptionForm Name)) (mixed : Bool) :
    List Text -> Except OptionFault (Parts Name)
  | [] => .ok ⟨[], []⟩
  | word :: rest =>
    if word = endMark then .ok ⟨[], rest⟩
    else if isOptionWord word then
      match readWord forms word rest.head? with
      | .error fault => .error fault
      | .ok (given, usesNext) =>
        match takeApart forms mixed (if usesNext then rest.drop 1 else rest) with
        | .error fault => .error fault
        | .ok parts => .ok { parts with options := given ++ parts.options }
    else if mixed then
      match takeApart forms mixed rest with
      | .error fault => .error fault
      | .ok parts => .ok { parts with words := word :: parts.words }
    else .ok ⟨[], word :: rest⟩
termination_by words => words.length
decreasing_by
  · split <;> simp only [List.length_drop, List.length_cons] <;> omega
  · simp

/-- Whether an option was given. -/
def Parts.has [DecidableEq Name] (name : Name) (parts : Parts Name) : Bool :=
  parts.options.any fun given => given.name = name

/-- The value of an option; the last one counts. -/
def Parts.value? [DecidableEq Name] (name : Name) (parts : Parts Name) : Option Text :=
  parts.options.reverse.findSome? fun given => if given.name = name then given.value else none

end AuditTrail.Command
