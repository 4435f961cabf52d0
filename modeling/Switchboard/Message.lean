import Switchboard.Value.Basic

/-!
# Messages

An incoming message: the text to route, whether it was sent privately, who sent it, and where answers go.
-/

namespace Switchboard

/-- An incoming message. -/
structure Message where
  text : String
  isPrivate : Bool := false
  source : Value := .null
  replyto : Value := .null
deriving Repr, Inhabited

end Switchboard
