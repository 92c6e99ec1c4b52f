import FabEdit.Placement

/-!
# Log

What the library reports while it works. An event is data; its channel and its text are derived
from it. All channels lie under one root.
-/

namespace FabEdit

/-- The root of all channels. -/
def rootChannel : String := "nesfab_mode"

/-- The full name of a channel: under the root, unless it is already there. -/
def channelName (name : String) : String :=
  if name = rootChannel ∨ (rootChannel ++ ".").toList.isPrefixOf name.toList then name
  else rootChannel ++ "." ++ name

/-- Something worth reporting. -/
inductive Event where
  /-- A request for a line that the buffer does not have. -/
  | outside (index : Int) (count : Nat)
  /-- The oracle could not judge a line. -/
  | unjudged (e : LineFault)
  /-- A request was answered. -/
  | placed (index : Int) (kind : RequestKind) (column : Int)
  deriving DecidableEq, Repr

/-- The name of a request kind. -/
def RequestKind.name : RequestKind → String
  | .fresh => "FRESH"
  | .again => "REPEAT"

/-- The name of a line kind. -/
def LineKind.name : LineKind → String
  | .blank => "BLANK"
  | .comment => "COMMENT_ONLY"
  | .source => "SOURCE"

namespace Event

/-- How important events are. -/
def level : String := "DEBUG"

/-- The channel of an event: decisions and answers are reported apart. -/
def channel : Event → String
  | .outside _ _ => channelName "indent.calculator"
  | .unjudged _ => channelName "indent.calculator"
  | .placed _ _ _ => channelName "host"

/-- The text of an event. -/
def message : Event → String
  | .outside index count => s!"line {index} outside buffer of {count} lines; using root indentation"
  | .unjudged e => s!"{e.message}; using root indentation"
  | .placed index kind column => s!"line {index} ({kind.name}) -> column {column}"

end Event

/-- What a placement reports: only that there was no telling. -/
def Placement.events : Placement → List Event
  | .found _ => []
  | .outside index count => [.outside index count]
  | .unjudged e => [.unjudged e]

end FabEdit
