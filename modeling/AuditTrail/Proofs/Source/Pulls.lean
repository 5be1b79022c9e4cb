import AuditTrail.Source.Feed

/-!
# Feeds as they are pulled

Each pull of a feed may send requests before it gives an event. `Feed.pulls` lists the events
with the number of requests that were sent until then, so it tells when a request was sent as
well as which events were given. Feeds are put together from events that come without further
ado and from things that are done before the first pull; the lemmas say what either does to the
pulls, to the journal and to the end.
-/

namespace AuditTrail

/-- Without deeds there are no requests. -/
@[simp] theorem Journal.requests_nil : Journal.requests [] = [] := rfl

namespace Feed

/-- The events of a feed, each with the number of requests that have been sent when it is given,
`sent` of them before the first pull. -/
def pulls (sent : Nat) : Feed -> List (Event × Nat)
  | .gives before event rest =>
    (event, sent + before.requests.length) :: rest.pulls (sent + before.requests.length)
  | .done _ | .failed _ _ => []

/-- A feed before whose first pull something else is done. -/
def after (earlier : Journal) : Feed -> Feed
  | .gives before event rest => .gives (earlier ++ before) event rest
  | .done before => .done (earlier ++ before)
  | .failed before fault => .failed (earlier ++ before) fault

/-- Events that are given without anything being done, and then another feed. -/
def giving (events : List Event) (rest : Feed) : Feed := events.foldr (.gives []) rest

/-- The pulls give the events. -/
theorem map_fst_pulls (sent : Nat) (feed : Feed) :
    (feed.pulls sent).map Prod.fst = feed.events := by
  induction feed generalizing sent with
  | gives before event rest inductionHypothesis => simp [pulls, events, inductionHypothesis]
  | done | failed => rfl

@[simp] theorem after_nil (feed : Feed) : feed.after [] = feed := by cases feed <;> rfl

@[simp] theorem after_after (first second : Journal) (feed : Feed) :
    (feed.after second).after first = feed.after (first ++ second) := by
  cases feed <;> simp [after]

@[simp] theorem pulls_after (sent : Nat) (earlier : Journal) (feed : Feed) :
    (feed.after earlier).pulls sent = feed.pulls (sent + earlier.requests.length) := by
  cases feed <;> simp [after, pulls, Nat.add_assoc]

@[simp] theorem journal_after (earlier : Journal) (feed : Feed) :
    (feed.after earlier).journal = earlier ++ feed.journal := by
  cases feed <;> simp [after, journal]

@[simp] theorem fault?_after (earlier : Journal) (feed : Feed) :
    (feed.after earlier).fault? = feed.fault? := by
  cases feed <;> rfl

@[simp] theorem giving_nil (rest : Feed) : giving [] rest = rest := rfl

@[simp] theorem giving_cons (event : Event) (events : List Event) (rest : Feed) :
    giving (event :: events) rest = .gives [] event (giving events rest) := rfl

@[simp] theorem pulls_giving (sent : Nat) (events : List Event) (rest : Feed) :
    (giving events rest).pulls sent =
      events.map (fun event => (event, sent)) ++ rest.pulls sent := by
  induction events with
  | nil => rfl
  | cons event events inductionHypothesis => simpa [pulls] using inductionHypothesis

@[simp] theorem journal_giving (events : List Event) (rest : Feed) :
    (giving events rest).journal = rest.journal := by
  induction events with
  | nil => rfl
  | cons event events inductionHypothesis => simpa [journal] using inductionHypothesis

@[simp] theorem events_giving (given : List Event) (rest : Feed) :
    (giving given rest).events = given ++ rest.events := by
  induction given with
  | nil => rfl
  | cons event given inductionHypothesis => simpa [events] using inductionHypothesis

@[simp] theorem fault?_giving (events : List Event) (rest : Feed) :
    (giving events rest).fault? = rest.fault? := by
  induction events with
  | nil => rfl
  | cons event events inductionHypothesis => simpa [fault?] using inductionHypothesis

end Feed

end AuditTrail
