import Relay.Health
import Relay.Metrics.Page

/-!
# `Relay.Metrics.Endpoint`: what is told to who watches over the relay

Three pages can be fetched: the counts, whether the relay is alive, and whether it is ready to take
connections. A relay that answers is alive.
-/

set_option autoImplicit false

namespace Relay

/-- An answer. -/
structure EndpointAnswer where
  /-- The status code. -/
  status : Nat
  /-- The text. -/
  body : String := ""
deriving DecidableEq

/-- A record of named values as text. The names and values need no quoting inside. -/
def objectText (fields : List (String × String)) : String :=
  let shown := fields.map fun (name, value) => "\"" ++ name ++ "\":" ++ value
  "\x7b" ++ String.intercalate "," shown ++ "\x7d"

/-- Whether the relay is ready, as an answer. -/
def Health.answer (h : Health) : EndpointAnswer where
  status := if h.isReady then 200 else 503
  body := objectText [("status", "\"" ++ h.label ++ "\""), ("ready", toString h.isReady)]

/-- The answer to a request. -/
def Metrics.answer (m : Metrics) (h : Health) (method path : String) : EndpointAnswer :=
  let found := match path with
    | "/metrics" => some { status := 200, body := String.join (m.page.map fun line => line ++ "\n") }
    | "/health" => some { status := 200, body := objectText [("status", "\"healthy\"")] }
    | "/ready" => some h.answer
    | _ => none
  match found with
  | none => { status := 404 }
  | some answer =>
    if method = "GET" then answer
    else if method = "HEAD" then { answer with body := "" }
    else { status := 405 }

end Relay
