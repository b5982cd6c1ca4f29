/-! # Events

Elements report the stages of their rendering as events. -/

namespace TagTemplate

/-- A stage in the life of an element. -/
inductive EventKind where
  | started
  | sent
  | error
  | received
  | complete
deriving DecidableEq, Repr

namespace EventKind

def name : EventKind → String
  | started => "started"
  | sent => "sent"
  | error => "error"
  | received => "received"
  | complete => "complete"

end EventKind

/-- An event with the tag, or the kind, of the element that reports it. -/
structure Event where
  kind : EventKind
  tag : String
  detail : String
deriving DecidableEq, Repr

end TagTemplate
