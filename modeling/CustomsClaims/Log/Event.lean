/-!
# Log events

An event has a level, a message and named values.
-/

namespace CustomsClaims

/-- How much an event matters. -/
inductive Level where
  | trace
  | debug
  | info
  | warn
  | error
deriving DecidableEq, Repr

namespace Level

def text : Level → String
  | trace => "TRACE"
  | debug => "DEBUG"
  | info => "INFO"
  | warn => "WARN"
  | error => "ERROR"

/-- Levels in ascending order of weight. -/
def weight : Level → Nat
  | trace => 1
  | debug => 2
  | info => 3
  | warn => 4
  | error => 5

end Level

/-- Something that happened. -/
structure Event where
  level : Level
  message : String
  fields : List (String × String)
deriving DecidableEq, Repr

namespace Event

/-- The message and the values, each after its name. -/
def body (e : Event) : String :=
  e.message ++ String.join (e.fields.map fun (name, value) => " " ++ name ++ "=" ++ value)

/-- The event on a line that starts with its level. -/
def text (e : Event) : String :=
  e.level.text ++ " " ++ e.body

end Event
end CustomsClaims
