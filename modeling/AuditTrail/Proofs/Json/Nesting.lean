import AuditTrail.Json.Reader
import Mathlib.Data.List.Infix
import Mathlib.Data.List.TakeWhile

/-!
# What a text can be refused for

Besides what makes a text no JSON, the reader refuses two things that JSON allows: containers
too deep inside each other, and whole numerals that are too long. Both show in the text before
anything is read: there the brackets outside of quoted texts nest as deep, or there are as many
digits in a row.

`Accounts` says of one step of the descent what it leaves of the text and what its fault says of
it. Each part of the reader accounts for itself if the parts that it calls do, so all of them do
by induction on the fuel.
-/

namespace AuditTrail.Json

/-- The quotation mark. -/
def quote : CodePoint := CodePoint.ofChar '"'

/-- The backslash. -/
def backslash : CodePoint := CodePoint.ofChar '\\'

/-- Whether a code point opens a container. -/
def isOpening (c : CodePoint) : Bool := c = CodePoint.ofChar '[' || c = CodePoint.ofChar '\x7b'

/-- Whether a code point closes a container. -/
def isClosing (c : CodePoint) : Bool := c = CodePoint.ofChar ']' || c = CodePoint.ofChar '\x7d'

/-- Whether a code point neither opens nor closes anything. -/
def isPlain (c : CodePoint) : Bool := !(c = quote || isOpening c || isClosing c)

/-- Where a code point stands. -/
inductive Place where
  | outside
  | quoted
  /-- Behind a backslash in a quoted text. -/
  | escaped
deriving DecidableEq

/-- The place behind a code point. -/
def Place.behind (c : CodePoint) : Place -> Place
  | .outside => if c = quote then .quoted else .outside
  | .quoted => if c = quote then .outside else if c = backslash then .escaped else .quoted
  | .escaped => .quoted

/-- The most brackets that are open at once from a place on where `opened` are open already. -/
def deepest (place : Place) (opened : Nat) : Text -> Nat
  | [] => opened
  | c :: rest =>
    if place = .outside ∧ isOpening c then deepest place (opened + 1) rest
    else if place = .outside ∧ isClosing c then max opened (deepest place (opened - 1) rest)
    else deepest (place.behind c) opened rest

/-- How deep the brackets of a text nest. -/
def nesting (t : Text) : Nat := deepest .outside 0 t

/-- No fewer brackets are open at once than are open already. -/
theorem le_deepest (place : Place) (opened : Nat) (t : Text) :
    opened ≤ deepest place opened t := by
  fun_induction deepest place opened t <;> omega

/-! ## Plain parts -/

/-- A plain code point changes nothing about the brackets. -/
theorem deepest_cons_plain {c : CodePoint} (plain : isPlain c) (opened : Nat) (t : Text) :
    deepest .outside opened (c :: t) = deepest .outside opened t := by
  simp only [isPlain, Bool.not_eq_true', Bool.or_eq_false_iff, decide_eq_false_iff_not] at plain
  simp [deepest, Place.behind, plain]

/-- `rest` is what `t` leaves behind a plain part. -/
def IsBehindPlain (t rest : Text) : Prop := ∃ front, t = front ++ rest ∧ ∀ c ∈ front, isPlain c

namespace IsBehindPlain

variable {t middle rest : Text}

/-- Nothing is a plain part. -/
theorem refl (t : Text) : IsBehindPlain t t := ⟨[], rfl, by simp⟩

/-- Two plain parts are one. -/
theorem trans (first : IsBehindPlain t middle) (second : IsBehindPlain middle rest) :
    IsBehindPlain t rest := by
  obtain ⟨front, rfl, plain⟩ := first
  obtain ⟨front', rfl, plain'⟩ := second
  refine ⟨front ++ front', by simp, fun c member => ?_⟩
  exact (List.mem_append.mp member).elim (plain c) (plain' c)

/-- A plain code point is a plain part. -/
theorem cons {c : CodePoint} (plain : isPlain c) (behind : IsBehindPlain t rest) :
    IsBehindPlain (c :: t) rest := by
  obtain ⟨front, rfl, plains⟩ := behind
  exact ⟨c :: front, rfl, by simpa using ⟨plain, plains⟩⟩

/-- What a text leaves is its end. -/
theorem suffix (behind : IsBehindPlain t rest) : rest <:+ t := by
  obtain ⟨front, rfl, -⟩ := behind
  exact List.suffix_append _ _

/-- A plain part changes nothing about the brackets. -/
theorem deepest_eq (behind : IsBehindPlain t rest) (opened : Nat) :
    deepest .outside opened rest = deepest .outside opened t := by
  obtain ⟨front, rfl, plain⟩ := behind
  induction front with
  | nil => rfl
  | cons c front inductionHypothesis =>
      simp only [List.forall_mem_cons] at plain
      rw [List.cons_append, deepest_cons_plain plain.1, inductionHypothesis plain.2]

/-- What is dropped while it is plain is a plain part. -/
theorem dropWhile {drops : CodePoint -> Bool} (plain : ∀ c, drops c -> isPlain c) (t : Text) :
    IsBehindPlain t (t.dropWhile drops) := by
  refine ⟨t.takeWhile drops, List.takeWhile_append_dropWhile.symm, fun c member => ?_⟩
  exact plain c (List.mem_takeWhile_imp member)

end IsBehindPlain

/-- Whether a code point is plain is a matter of its number. -/
theorem isPlain_of_val {c : CodePoint} (other : c.val ∉ [0x22, 0x5B, 0x5D, 0x7B, 0x7D]) :
    isPlain c := by
  have differs (mark : Char) (among : mark.toNat ∈ [0x22, 0x5B, 0x5D, 0x7B, 0x7D]) :
      c ≠ CodePoint.ofChar mark := by
    rintro rfl
    exact other among
  simp [isPlain, isOpening, isClosing, quote, differs '"' (by decide), differs '[' (by decide),
    differs ']' (by decide), differs '\x7b' (by decide), differs '\x7d' (by decide)]

/-- White space is plain. -/
theorem isPlain_of_isSpacing {c : CodePoint} (spacing : isSpacing c) : isPlain c := by
  simp only [isSpacing, Bool.or_eq_true, decide_eq_true_eq] at spacing
  refine isPlain_of_val fun member => ?_
  simp at member
  omega

/-- The numbers of the digits. -/
theorem val_of_isDigit {c : CodePoint} (digit : c.isDigit) : 0x30 ≤ c.val ∧ c.val ≤ 0x39 := by
  simpa [CodePoint.isDigit, CodePoint.digit?, Option.isSome_iff_exists] using digit

/-- Digits are plain. -/
theorem isPlain_of_isDigit {c : CodePoint} (digit : c.isDigit) : isPlain c := by
  have range := val_of_isDigit digit
  refine isPlain_of_val fun member => ?_
  simp at member
  omega

/-- White space between tokens is a plain part. -/
theorem isBehindPlain_skipSpacing (t : Text) : IsBehindPlain t (skipSpacing t) :=
  .dropWhile (fun _ => isPlain_of_isSpacing) t

/-- A run of digits is a plain part. -/
theorem isBehindPlain_spanDigits (t : Text) : IsBehindPlain t (Numeral.spanDigits t).2 :=
  .dropWhile (fun _ => isPlain_of_isDigit) t

/-- A fraction is a plain part. -/
theorem isBehindPlain_fraction {t digits rest : Text}
    (found : Numeral.fraction? t = some (digits, rest)) : IsBehindPlain t rest := by
  cases t with
  | nil => simp [Numeral.fraction?] at found
  | cons point behind =>
      simp only [Numeral.fraction?, Option.ite_none_right_eq_some, Option.some.injEq,
        Prod.mk.injEq] at found
      obtain ⟨⟨rfl, -⟩, -, rfl⟩ := found
      exact (isBehindPlain_spanDigits behind).cons (by decide)

/-- A sign is a plain part. -/
theorem isBehindPlain_spanSign (t : Text) : IsBehindPlain t (Numeral.spanSign t).2 := by
  fun_cases Numeral.spanSign t with
  | case1 => exact .refl _
  | case2 rest => exact (IsBehindPlain.refl _).cons (by decide)
  | case3 rest => exact (IsBehindPlain.refl _).cons (by decide)
  | case4 => exact .refl _

/-- An exponent is a plain part. -/
theorem isBehindPlain_exponent {t rest : Text} {exponent : Int}
    (found : Numeral.exponent? t = some (exponent, rest)) : IsBehindPlain t rest := by
  cases t with
  | nil => simp [Numeral.exponent?] at found
  | cons letter behind =>
      simp only [Numeral.exponent?, Option.ite_none_right_eq_some, Option.map_eq_some_iff,
        Prod.mk.injEq] at found
      obtain ⟨isLetter, magnitude, -, -, rfl⟩ := found
      have plain : isPlain letter := by
        rcases isLetter with rfl | rfl <;> decide
      exact ((isBehindPlain_spanSign behind).trans (isBehindPlain_spanDigits _)).cons plain

/-! ## Quoted texts -/

/-- Inside a quoted text only quotes and backslashes matter. -/
theorem deepest_quoted_cons {c : CodePoint} (notQuote : c ≠ quote) (notEscape : c ≠ backslash)
    (opened : Nat) (t : Text) : deepest .quoted opened (c :: t) = deepest .quoted opened t := by
  simp [deepest, Place.behind, notQuote, notEscape]

/-- What stands behind a backslash does not matter. -/
theorem deepest_escape (c : CodePoint) (opened : Nat) (t : Text) :
    deepest .quoted opened (backslash :: c :: t) = deepest .quoted opened t := by
  have notQuote : backslash ≠ quote := by decide
  simp [deepest, Place.behind, notQuote]

/-- A hexadecimal digit inside a quoted text does not matter. -/
theorem deepest_hexDigit {c : CodePoint} {value : Nat} (digit : c.hexDigit? = some value)
    (opened : Nat) (t : Text) : deepest .quoted opened (c :: t) = deepest .quoted opened t := by
  refine deepest_quoted_cons ?_ ?_ opened t
  all_goals
    rintro rfl
    cases digit

/-- Four hexadecimal digits inside a quoted text do not matter. -/
theorem deepest_fourHexDigits {a b c d unit : CodePoint}
    (found : fourHexDigits? a b c d = some unit) (opened : Nat) (t : Text) :
    deepest .quoted opened (a :: b :: c :: d :: t) = deepest .quoted opened t := by
  unfold fourHexDigits? at found
  split at found
  next first second third fourth =>
    rw [deepest_hexDigit first, deepest_hexDigit second, deepest_hexDigit third,
      deepest_hexDigit fourth]
  next => cases found

/-- A quoted text is read up to where it ends for the brackets, or is malformed. -/
def EndsQuote (t : Text) : Step Text -> Prop
  | .ok (_, rest) => rest <:+ t ∧ ∀ opened, deepest .outside opened rest = deepest .quoted opened t
  | .error fault => ∃ defect left, fault = .malformed defect left

/-- A text that is quoted up to where another begins ends where that one ends. -/
theorem EndsQuote.before {t part rest read whole : Text} (inner : EndsQuote part (.ok (read, rest)))
    (suffix : part <:+ t)
    (same : ∀ opened, deepest .quoted opened t = deepest .quoted opened part) :
    EndsQuote t (.ok (whole, rest)) :=
  ⟨inner.1.trans suffix, fun opened => (inner.2 opened).trans (same opened).symm⟩

/-- Reading a quoted text ends it. -/
theorem endsQuote_readText (opening : Text) (waiting : Option CodePoint) (t : Text) :
    EndsQuote t (readText opening waiting t) := by
  fun_induction readText opening waiting t with
  | case1 | case3 | case6 | case7 | case10 | case11 => exact ⟨_, _, rfl⟩
  | case2 waiting rest =>
      exact ⟨List.suffix_cons _ _, fun opened => by simp [deepest, Place.behind, quote]⟩
  | case4 waiting first second third fourth next after unit digits written waiting' joined t rest
      found notQuote inductionHypothesis =>
      rw [found] at inductionHypothesis
      refine inductionHypothesis.before ⟨[_, _, first, second, third, fourth], rfl⟩ fun opened => ?_
      exact (deepest_escape _ opened _).trans (deepest_fourHexDigits digits opened _)
  | case5 | case9 | case13 => simp_all [EndsQuote]
  | case8 waiting letter after notCode meant escape t rest found notQuote inductionHypothesis =>
      rw [found] at inductionHypothesis
      exact inductionHypothesis.before ⟨[_, letter], rfl⟩
        fun opened => deepest_escape letter opened _
  | case12 waiting c after notQuote notEscape printable t rest found inductionHypothesis =>
      rw [found] at inductionHypothesis
      exact inductionHypothesis.before (List.suffix_cons c after)
        fun opened => deepest_quoted_cons notQuote notEscape opened _

/-! ## Numerals -/

/-- A text has so many digits in a row, which are too many for a whole number. -/
def HasLongNumeral (count : Nat) (t : Text) : Prop :=
  mostDigits < count ∧ ∃ digits, digits <:+: t ∧ digits.length = count ∧ ∀ c ∈ digits, c.isDigit

/-- A long numeral in a part of a text is one in the text. -/
theorem HasLongNumeral.mono {count : Nat} {part t : Text} (long : HasLongNumeral count part)
    (inside : part <:+: t) : HasLongNumeral count t := by
  obtain ⟨many, digits, within, counted, all⟩ := long
  exact ⟨many, digits, within.trans inside, counted, all⟩

/-- Digits before the point are digits, and a plain part. -/
theorem wholeDigits_parts {t whole rest : Text} (found : wholeDigits? t = some (whole, rest)) :
    t = whole ++ rest ∧ ∀ c ∈ whole, c.isDigit := by
  cases t with
  | nil => cases found
  | cons c behind =>
      simp only [wholeDigits?] at found
      split at found
      next zero =>
        cases found
        exact ⟨rfl, List.forall_mem_singleton.mpr (by rw [zero]; decide)⟩
      next =>
        split at found
        next =>
          cases found
          exact ⟨List.takeWhile_append_dropWhile.symm, fun c => List.mem_takeWhile_imp⟩
        next => cases found

/-- What reading leaves of a text: its end, in which no more brackets are open at once. `opened`
brackets are open before, and `closed` behind. -/
def Leaves (opened closed : Nat) (t rest : Text) : Prop :=
  rest <:+ t ∧ deepest .outside closed rest ≤ deepest .outside opened t

namespace Leaves

variable {opened middle closed : Nat} {t part rest : Text}

/-- Reading goes on where it has come to. -/
theorem trans (first : Leaves opened middle t part) (second : Leaves middle closed part rest) :
    Leaves opened closed t rest :=
  ⟨second.1.trans first.1, second.2.trans first.2⟩

/-- A plain part is read over. -/
theorem of_isBehindPlain (behind : IsBehindPlain t rest) : Leaves opened opened t rest :=
  ⟨behind.suffix, (behind.deepest_eq opened).le⟩

/-- White space is read over. -/
theorem skipSpacing (t : Text) : Leaves opened opened t (Json.skipSpacing t) :=
  of_isBehindPlain (isBehindPlain_skipSpacing t)

/-- A bracket opens a container. -/
theorem opening {c : CodePoint} (opens : isOpening c) (rest : Text) :
    Leaves opened (opened + 1) (c :: rest) rest :=
  ⟨List.suffix_cons c rest, by simp [deepest, opens]⟩

/-- A bracket closes a container. -/
theorem closing {c : CodePoint} (closes : isClosing c) (rest : Text) :
    Leaves (opened + 1) opened (c :: rest) rest := by
  have notOpening : isOpening c = false := by
    simp only [isClosing, Bool.or_eq_true, decide_eq_true_eq] at closes
    rcases closes with rfl | rfl <;> decide
  refine ⟨List.suffix_cons c rest, ?_⟩
  simp only [deepest, closes, notOpening]
  exact le_max_right _ _

/-- A plain code point is read over. -/
theorem plain {c : CodePoint} (plain : isPlain c) (rest : Text) :
    Leaves opened opened (c :: rest) rest :=
  of_isBehindPlain ((IsBehindPlain.refl rest).cons plain)

end Leaves

/-- What reading a value or a part of one leaves of a text, and what its fault says of the text
when `depth` more brackets may be opened. -/
def Accounts {α : Type} (opened closed depth : Nat) (t : Text) : Step α -> Prop
  | .ok (_, rest) => Leaves opened closed t rest
  | .error (.malformed _ _) => True
  | .error (.oversized digits) => HasLongNumeral digits t
  | .error (.tooDeep _) => opened + depth < deepest .outside opened t

namespace Accounts

variable {α β : Type} {opened middle closed : Nat} {t part : Text}

/-- What is read behind something else accounts for both. -/
theorem behind {depth depth' : Nat} {step : Step α}
    (inner : Accounts middle closed depth' part step) (leaves : Leaves opened middle t part)
    (room : opened + depth ≤ middle + depth') : Accounts opened closed depth t step := by
  cases step with
  | ok found => exact leaves.trans inner
  | error fault =>
      cases fault with
      | malformed defect left => trivial
      | oversized digits => exact inner.mono leaves.1.isInfix
      | tooDeep container =>
          have nests := leaves.2
          simp only [Accounts] at inner ⊢
          omega

/-- A fault says the same wherever it is passed on. -/
theorem fault {depth : Nat} {fault : ReadFault}
    (inner : Accounts opened middle depth t (.error fault : Step α)) :
    Accounts opened closed depth t (.error fault : Step β) := by
  cases fault <;> exact inner

/-- Only what is left matters, not what has been read. -/
theorem of_rest {depth : Nat} {step : Step α} {step' : Step β}
    (inner : Accounts opened closed depth t step)
    (same : step'.map Prod.snd = step.map Prod.snd) : Accounts opened closed depth t step' := by
  cases step with
  | ok read =>
      cases step' with
      | ok read' =>
          injection same with rest
          simpa only [Accounts, rest] using inner
      | error fault => cases same
  | error fault =>
      cases step' with
      | ok read' => cases same
      | error fault' =>
          injection same with same
          rw [same]
          exact inner.fault

end Accounts

/-- What a numeral says of its text. -/
theorem accounts_numeralValue (opened depth : Nat) (negative : Bool) {t whole rest : Text}
    (parts : t = whole ++ rest) (digits : ∀ c ∈ whole, c.isDigit) :
    Accounts opened opened depth t (numeralValue negative whole rest) := by
  have behind : IsBehindPlain t rest :=
    ⟨whole, parts, fun c member => isPlain_of_isDigit (digits c member)⟩
  fun_cases numeralValue negative whole rest with
  | case1 fraction rest found exponent rest' found' =>
      exact Leaves.of_isBehindPlain
        (behind.trans ((isBehindPlain_fraction found).trans (isBehindPlain_exponent found')))
  | case2 fraction rest found =>
      exact Leaves.of_isBehindPlain (behind.trans (isBehindPlain_fraction found))
  | case3 found exponent rest found' =>
      exact Leaves.of_isBehindPlain (behind.trans (isBehindPlain_exponent found'))
  | case4 notFraction notExponent long =>
      exact ⟨long, whole, parts ▸ List.infix_append' [] whole rest, rfl, digits⟩
  | case5 => exact Leaves.of_isBehindPlain behind

/-- What a numeral with its sign says of its text. -/
theorem accounts_readNumeral (opened depth : Nat) (t : Text) :
    Accounts opened opened depth t (readNumeral t) := by
  have behind : IsBehindPlain t (if t.head? = some (CodePoint.ofChar '-') then t.tail else t) := by
    split
    next sign =>
      obtain ⟨rest, rfl⟩ := List.head?_eq_some_iff.mp sign
      exact .cons (by decide) (.refl rest)
    next => exact .refl t
  refine Accounts.behind ?_ (Leaves.of_isBehindPlain behind) le_rfl
  simp only [readNumeral]
  generalize (if t.head? = some (CodePoint.ofChar '-') then t.tail else t) = unsigned
  cases found : wholeDigits? unsigned with
  | none => trivial
  | some parts =>
      obtain ⟨split, digits⟩ := wholeDigits_parts found
      exact accounts_numeralValue opened depth _ split digits

/-- What a value that holds no others says of its text. -/
theorem accounts_readScalar (opened depth : Nat) (t : Text) :
    Accounts opened opened depth t (readScalar t) := by
  unfold readScalar
  cases found : namedValues.find? fun named => Text.beginsWith named.1 t with
  | none => exact accounts_readNumeral opened depth t
  | some named =>
      have plain : namedValues.all fun known => known.1.all isPlain := by decide
      have member := List.mem_of_find?_eq_some found
      have begins : named.1 <+: t :=
        List.isPrefixOf_iff_prefix.mp (by simpa [Text.beginsWith] using List.find?_some found)
      obtain ⟨rest, rfl⟩ := begins
      exact Leaves.of_isBehindPlain
        ⟨named.1, by simp, List.all_eq_true.mp (List.all_eq_true.mp plain named member)⟩

/-- What a quoted text says of its text. -/
theorem accounts_readText (opened depth : Nat) (opening : Text) (waiting : Option CodePoint)
    (rest : Text) :
    Accounts opened opened depth (quote :: rest) (readText opening waiting rest) := by
  have outside : deepest .outside opened (quote :: rest) = deepest .quoted opened rest := by
    have plain : isOpening quote = false ∧ isClosing quote = false := by decide
    simp [deepest, Place.behind, plain]
  have ends := endsQuote_readText opening waiting rest
  cases found : readText opening waiting rest with
  | ok read =>
      rw [found] at ends
      exact ⟨ends.1.trans (List.suffix_cons _ _), (ends.2 opened).le.trans outside.ge⟩
  | error fault =>
      rw [found] at ends
      obtain ⟨defect, left, rfl⟩ := ends
      trivial

/-! ## The descent -/

/-- A container accounts for itself if what it holds does. -/
theorem accounts_container {α : Type} {opened depth : Nat} {opens closes : CodePoint}
    {rest : Text} {held : Step α} {container : Step Json} (opening : isOpening opens)
    (closing : isClosing closes)
    (inner : Accounts (opened + 1) opened depth (skipSpacing rest) held)
    (shape : container.map Prod.snd =
      if (skipSpacing rest).head? = some closes then .ok (skipSpacing rest).tail
      else held.map Prod.snd) :
    Accounts opened opened (depth + 1) (opens :: rest) container := by
  have inside : Leaves opened (opened + 1) (opens :: rest) (skipSpacing rest) :=
    (Leaves.opening opening rest).trans (.skipSpacing rest)
  split at shape
  next isEmpty =>
    obtain ⟨behind, first⟩ := List.head?_eq_some_iff.mp isEmpty
    rw [first] at inside shape
    have empty : Accounts opened opened (depth + 1) (opens :: rest) (.ok ((), behind)) :=
      inside.trans (.closing closing behind)
    exact empty.of_rest shape
  next => exact (inner.behind inside (by omega)).of_rest shape

/-- A value accounts for itself if the items and the members in it do. -/
theorem accounts_readValue {fuel : Nat}
    (items : ∀ depth t opened,
      Accounts (opened + 1) opened depth t (readItems fuel depth t))
    (members : ∀ depth t opened,
      Accounts (opened + 1) opened depth t (readMembers fuel depth t))
    (depth : Nat) (t : Text) (opened : Nat) :
    Accounts opened opened depth t (readValue (fuel + 1) depth t) := by
  cases t with
  | nil => trivial
  | cons c rest =>
      simp only [readValue]
      split
      next isQuote =>
        subst isQuote
        let opening : Text := CodePoint.ofChar '"' :: rest
        refine (accounts_readText opened depth opening none rest).of_rest ?_
        cases readText opening none rest <;> rfl
      next =>
        split
        next isBracket =>
          subst isBracket
          have opens : isOpening (CodePoint.ofChar '[') := by decide
          have closes : isClosing (CodePoint.ofChar ']') := by decide
          cases depth with
          | zero => exact (Leaves.opening opens rest).2.trans' (le_deepest .outside _ rest)
          | succ depth =>
              refine accounts_container opens closes (items depth _ opened) ?_
              simp only
              split
              next => rfl
              next => cases readItems fuel depth (skipSpacing rest) <;> rfl
        next =>
          split
          next isBrace =>
            subst isBrace
            have opens : isOpening (CodePoint.ofChar '\x7b') := by decide
            have closes : isClosing (CodePoint.ofChar '\x7d') := by decide
            cases depth with
            | zero => exact (Leaves.opening opens rest).2.trans' (le_deepest .outside _ rest)
            | succ depth =>
                refine accounts_container opens closes (members depth _ opened) ?_
                simp only
                split
                next => rfl
                next => cases readMembers fuel depth (skipSpacing rest) <;> rfl
          next => exact accounts_readScalar opened depth (c :: rest)

/-- What stands behind an item or a member of a container accounts for itself if those that
follow do. -/
theorem accounts_separated {α : Type} {opened depth : Nat} {closes : CodePoint} {t rest : Text}
    {later : Text -> Step α} {separated : Step α} (closing : isClosing closes)
    (before : Leaves (opened + 1) (opened + 1) t rest)
    (inner : ∀ t, Accounts (opened + 1) opened depth t (later t))
    (shape : separated.map Prod.snd =
      match skipSpacing rest with
      | [] => defectAt .comma []
      | c :: behind =>
        if c = closes then .ok behind
        else if c = CodePoint.ofChar ',' then (later (skipSpacing behind)).map Prod.snd
        else defectAt .comma (c :: behind)) :
    Accounts (opened + 1) opened depth t separated := by
  have spaced := before.trans (.skipSpacing rest)
  have defective (left : Text) :
      Accounts (opened + 1) opened depth t (defectAt .comma left : Step α) := trivial
  split at shape
  next => exact (defective _).of_rest shape
  next c behind first =>
    rw [first] at spaced
    split at shape
    next isClosing =>
      subst isClosing
      have closed : Accounts (opened + 1) opened depth t (.ok ((), behind)) :=
        spaced.trans (.closing closing behind)
      exact closed.of_rest shape
    next =>
      split at shape
      next isComma =>
        have plain : isPlain c := by rw [isComma]; decide
        have following := spaced.trans ((Leaves.plain plain behind).trans (.skipSpacing behind))
        exact ((inner _).behind following le_rfl).of_rest shape
      next => exact (defective _).of_rest shape

/-- The items of an array account for themselves if each of them does. -/
theorem accounts_readItems {fuel : Nat}
    (value : ∀ depth t opened, Accounts opened opened depth t (readValue fuel depth t))
    (items : ∀ depth t opened,
      Accounts (opened + 1) opened depth t (readItems fuel depth t))
    (depth : Nat) (t : Text) (opened : Nat) :
    Accounts (opened + 1) opened depth t (readItems (fuel + 1) depth t) := by
  have first := value depth t (opened + 1)
  simp only [readItems]
  split
  next fault found =>
    rw [found] at first
    exact first.fault
  next item rest found =>
    rw [found] at first
    refine accounts_separated (by decide : isClosing (CodePoint.ofChar ']')) first
      (fun t => items depth t opened) ?_
    cases skipSpacing rest with
    | nil => rfl
    | cons c behind =>
        simp only
        split
        next => rfl
        next =>
          split
          next => cases readItems fuel depth (skipSpacing behind) <;> rfl
          next => rfl

/-- The members of an object account for themselves if each of them does. -/
theorem accounts_readMembers {fuel : Nat}
    (value : ∀ depth t opened, Accounts opened opened depth t (readValue fuel depth t))
    (members : ∀ depth t opened,
      Accounts (opened + 1) opened depth t (readMembers fuel depth t))
    (depth : Nat) (t : Text) (opened : Nat) :
    Accounts (opened + 1) opened depth t (readMembers (fuel + 1) depth t) := by
  cases t with
  | nil => trivial
  | cons c rest =>
      simp only [readMembers]
      split
      next => trivial
      next isQuote =>
        rw [not_not.mp isQuote]
        have name := accounts_readText (opened + 1) depth (CodePoint.ofChar '"' :: rest) none rest
        split
        next fault found =>
          rw [found] at name
          exact name.fault
        next key behind found =>
          rw [found] at name
          have named := name.trans (.skipSpacing behind)
          split
          next => trivial
          next c rest shape =>
            rw [shape] at named
            split
            next => trivial
            next isColon =>
              have plain : isPlain c := by rw [not_not.mp isColon]; decide
              have before := named.trans ((Leaves.plain plain rest).trans (.skipSpacing rest))
              have member := (value depth _ (opened + 1)).behind before le_rfl
              split
              next fault found =>
                rw [found] at member
                exact member.fault
              next held behind found =>
                rw [found] at member
                refine accounts_separated (by decide : isClosing (CodePoint.ofChar '\x7d')) member
                  (fun t => members depth t opened) ?_
                cases skipSpacing behind with
                | nil => rfl
                | cons c behind =>
                    simp only
                    split
                    next => rfl
                    next =>
                      split
                      next => cases readMembers fuel depth (skipSpacing behind) <;> rfl
                      next => rfl

/-- Every part of the reader accounts for itself. -/
theorem accounts_all (fuel : Nat) :
    (∀ depth t opened, Accounts opened opened depth t (readValue fuel depth t)) ∧
    (∀ depth t opened, Accounts (opened + 1) opened depth t (readItems fuel depth t)) ∧
    (∀ depth t opened, Accounts (opened + 1) opened depth t (readMembers fuel depth t)) := by
  induction fuel with
  | zero => exact ⟨fun _ _ _ => trivial, fun _ _ _ => trivial, fun _ _ _ => trivial⟩
  | succ fuel inductionHypothesis =>
      obtain ⟨value, items, members⟩ := inductionHypothesis
      exact ⟨accounts_readValue items members, accounts_readItems value items,
        accounts_readMembers value members⟩

/-- A text in which brackets nest too deep for the reader, or that has a numeral too long for
it, is what such a fault comes from. -/
theorem of_read_eq_error {t : Text} {fault : ReadFault} (refused : read t = .error fault) :
    match fault with
    | .malformed _ _ => True
    | .oversized digits => HasLongNumeral digits t
    | .tooDeep _ => deepestNesting < nesting t := by
  have value := (accounts_all (2 * t.length + 2)).1 deepestNesting (skipSpacing t) 0
  have whole := value.behind (Leaves.skipSpacing t) le_rfl
  unfold read at refused
  split at refused
  next => cases refused; trivial
  next =>
    split at refused
    next fault' found =>
      cases refused
      rw [found] at whole
      cases fault with
      | malformed defect left => trivial
      | oversized digits => exact whole
      | tooDeep container => simpa [Accounts, nesting] using whole
    next =>
      split at refused
      next => cases refused
      next => cases refused; trivial

/-! ## A numeral alone -/

/-- No name of a value begins with a digit. -/
theorem find_namedValues_of_digit {c : CodePoint} (digit : c.isDigit) (rest : Text) :
    (namedValues.find? fun named => Text.beginsWith named.1 (c :: rest)) = none := by
  have others : namedValues.all fun named => named.1.head?.any fun c => !c.isDigit := by decide
  refine List.find?_eq_none.mpr fun named member begins => ?_
  have first := List.all_eq_true.mp others named member
  cases name : named.1 with
  | nil => simp [name] at first
  | cons letter letters =>
      simp only [name, Text.beginsWith, List.isPrefixOf_cons_cons, Bool.and_eq_true,
        beq_iff_eq] at begins
      simp [name, begins.1, digit] at first

/-- A numeral that is too long is refused for its digits. -/
theorem read_of_digits {c : CodePoint} {rest : Text} (notZero : c ≠ CodePoint.ofChar '0')
    (digits : ∀ c' ∈ c :: rest, c'.isDigit) (long : mostDigits < (c :: rest).length) :
    read (c :: rest) = .error (.oversized (c :: rest).length) := by
  have digit := digits c List.mem_cons_self
  have other {mark : CodePoint} (noDigit : mark.isDigit = false) : c ≠ mark := by
    rintro rfl
    exact absurd digit (by simp [noDigit])
  have whole : Numeral.spanDigits (c :: rest) = (c :: rest, []) := by
    rw [Numeral.spanDigits, List.takeWhile_eq_self_iff.mpr digits,
      List.dropWhile_eq_nil_iff.mpr digits]
  have numeral : readNumeral (c :: rest) = .error (.oversized (c :: rest).length) := by
    have unsigned : c ≠ CodePoint.ofChar '-' := other (by decide)
    simp only [List.length_cons] at long ⊢
    simp [readNumeral, unsigned, wholeDigits?, notZero, digit, whole, numeralValue,
      Numeral.fraction?, Numeral.exponent?, long]
  have noMark : c ≠ CodePoint.ofNat 0xFEFF := other (by decide)
  have noSpacing : skipSpacing (c :: rest) = c :: rest := by
    have range := val_of_isDigit digit
    have solid : isSpacing c = false := by
      simp [isSpacing]
      omega
    simp [skipSpacing, solid]
  have scalar : readScalar (c :: rest) = .error (.oversized (c :: rest).length) := by
    rw [readScalar, find_namedValues_of_digit digit rest]
    exact numeral
  have value (fuel depth : Nat) :
      readValue (fuel + 1) depth (c :: rest) = readScalar (c :: rest) := by
    simp only [readValue]
    rw [if_neg (other (by decide)), if_neg (other (by decide)), if_neg (other (by decide))]
  rw [read, if_neg (by simpa using noMark), noSpacing, value, scalar]

end AuditTrail.Json
