import GreenchClaw.Routing.SessionKey
import Mathlib.Data.Rat.Defs

/-!
# Parts of a channel route

`src/plugin-sdk/channel-route.ts`: the thread of a route, as a value and as the text that route keys hold.
-/

namespace GreenchClaw.Routing

open GreenchClaw.Js

/-- A thread id; a number is `none` when it is not finite. -/
inductive ThreadId where
  | text (value : JsString)
  | number (value : Option ℚ)
  deriving DecidableEq

def INTERNAL_MESSAGE_CHANNEL : JsString := js "webchat"

def truncate (value : ℚ) : ℤ := value.num.tdiv value.den

def normalizeOptionalThreadValue : Option ThreadId → Option ThreadId
  | none => none
  | some (.number value) => value.map fun value => .number (some (truncate value))
  | some (.text value) => (normalizeOptionalString (some value)).map ThreadId.text

def stringifyRouteThreadId (value : Option ThreadId) : Option JsString :=
  match normalizeOptionalThreadValue value with
  | none => none
  | some (.number value) => value.map fun value => js (toString (truncate value))
  | some (.text value) => some value

def presentThreadId (value : Option ThreadId) : Option ThreadId :=
  value.filter fun id => id ≠ .text []

end GreenchClaw.Routing
