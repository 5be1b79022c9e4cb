import AuditTrail.Proofs.Source.Pulls
import AuditTrail.Source.Location

/-!
# Feeds that warn of nothing

What is done to pull a feed goes to its journal, warnings among it. A quiet feed has none there,
so every warning of a run over it is one of the run itself. Files are read without a word and
pages are asked for with notes at the level of debugging only, so the feeds of all locations are
quiet.
-/

namespace AuditTrail

namespace Feed

/-- To pull the feed to its end gives no warning. -/
def IsQuiet (feed : Feed) : Prop := feed.journal.lines .warning = []

theorem isQuiet_done {before : Journal} :
    (Feed.done before).IsQuiet ↔ before.lines .warning = [] := Iff.rfl

theorem isQuiet_failed {before : Journal} {fault : SourceFault} :
    (Feed.failed before fault).IsQuiet ↔ before.lines .warning = [] := Iff.rfl

theorem isQuiet_gives {before : Journal} {event : Event} {rest : Feed} :
    (Feed.gives before event rest).IsQuiet ↔ before.lines .warning = [] ∧ rest.IsQuiet := by
  simp [IsQuiet, journal]

/-- Events that are given without anything being done give no warning. -/
theorem isQuiet_giving {events : List Event} {rest : Feed} (quiet : rest.IsQuiet) :
    (giving events rest).IsQuiet := by
  rw [IsQuiet, journal_giving]
  exact quiet

/-- Reading lines gives no warning. -/
theorem isQuiet_ofLines (path : Text) {ending : Feed} (quiet : ending.IsQuiet) (line : Nat)
    (lines : List Text) : (ofLines path ending line lines).IsQuiet := by
  fun_induction ofLines path ending line lines with
  | case1 => exact quiet
  | case2 line text rest record blank inductionHypothesis => exact inductionHypothesis
  | case3 => rfl
  | case4 line text rest record filled members read inductionHypothesis =>
      exact isQuiet_gives.mpr ⟨rfl, inductionHypothesis⟩
  | case5 => rfl

/-- Reading a file gives no warning. -/
theorem isQuiet_ofFile (files : Files) (path : Text) : (ofFile files path).IsQuiet := by
  unfold ofFile ofContent
  simp only
  split
  · rfl
  next content _ =>
    refine isQuiet_ofLines _ ?_ 1 _
    cases (Utf8.read content).fault? <;> rfl

/-- The records of a page give no warning besides what is done before and behind them. -/
theorem isQuiet_ofRecords (address : Text) {next : Journal -> Feed}
    (quiet : ∀ before : Journal, before.lines .warning = [] -> (next before).IsQuiet)
    {before : Journal} (quietBefore : before.lines .warning = []) (records : List Json) :
    (ofRecords address next before records).IsQuiet := by
  fun_induction ofRecords address next before records with
  | case1 before => exact quiet before quietBefore
  | case2 before members rest inductionHypothesis =>
      exact isQuiet_gives.mpr ⟨quietBefore, inductionHypothesis rfl⟩
  | case3 before value => exact quietBefore

/-- Asking for a page gives no warning. -/
theorem lines_warning_pageJournal (address : Text) (perPage : Int) (token : Option Text)
    (page : Nat) (cursor : Json) :
    (pageJournal address perPage token page cursor).lines .warning = [] := rfl

/-- The pages of a service give no warning. -/
theorem isQuiet_ofPages (address : Text) (perPage : Int) (token : Option Text)
    (answers : List Service.Answer) (page : Nat) (cursor : Json) {before : Journal}
    (quiet : before.lines .warning = []) :
    (ofPages address perPage token answers page cursor before).IsQuiet := by
  induction answers generalizing page cursor before with
  | nil => simp [ofPages, IsQuiet, journal, quiet, lines_warning_pageJournal]
  | cons answer answers inductionHypothesis =>
      have asked :
          (before ++ pageJournal address perPage token page cursor).lines .warning = [] := by
        simp [quiet, lines_warning_pageJournal]
      simp only [ofPages]
      split
      · exact asked
      · split
        · exact asked
        · refine isQuiet_ofRecords address (fun before quiet => ?_) asked _
          split
          · exact quiet
          · exact inductionHypothesis _ _ quiet

/-- No feed of a location gives a warning. -/
theorem isQuiet_ofLocation (files : Files) (answers : List Service.Answer) (perPage : Int)
    (token : Option Text) (location : Text) :
    (ofLocation files answers perPage token location).IsQuiet := by
  unfold ofLocation
  split
  · exact isQuiet_ofPages location perPage token answers 1 .null rfl
  · exact isQuiet_ofFile files location

end Feed

end AuditTrail
