import Relay.Metrics.Basic

/-!
# `Relay.Metrics.Page`: the counts as text

The page lists every metric that was touched: a line that names its kind, and a line for each of its
series with the value. Counters only rise, a gauge rises and falls, and the summary of how long
frames took has their total time, in seconds, and their number.
-/

set_option autoImplicit false

namespace Relay

/-- The kind of a metric. -/
inductive MetricKind where
  /-- A number that only rises. -/
  | counter
  /-- A number that rises and falls. -/
  | gauge
  /-- A total and a number of observations. -/
  | summary
deriving DecidableEq

/-- The name of a kind. -/
def MetricKind.label : MetricKind → String
  | counter => "counter"
  | gauge => "gauge"
  | summary => "summary"

/-- The kind of the metric that a series belongs to. -/
def Series.kind : Series → MetricKind
  | admissions _ | relayed | dropped _ | dispatched _ => .counter
  | connectionsActive => .gauge
  | frameLatency => .summary

/-- A number of nanoseconds in seconds, with no more places than it needs. -/
def secondsText (nanoseconds : Nat) : String :=
  let whole := nanoseconds / 1000000000
  let places := (Nat.toDigits 10 (1000000000 + nanoseconds % 1000000000)).tail
  let needed := (places.reverse.dropWhile (· == '0')).reverse
  toString whole ++ (if needed.isEmpty then "" else "." ++ String.ofList needed)

namespace Metrics

/-- The name of a series with its label. -/
def seriesText (s : Series) : String :=
  match s.label? with
  | none => s.name
  | some (label, value) => s.name ++ "\x7b" ++ label ++ "=\"" ++ value ++ "\"\x7d"

/-- The lines of a series. -/
def sampleLines (m : Metrics) (s : Series) (value : Int) : List String :=
  match s.kind with
  | .counter | .gauge => [seriesText s ++ " " ++ toString value]
  | .summary =>
    [s.name ++ "_sum " ++ secondsText m.latency, s.name ++ "_count " ++ toString value]

/-- The lines of the page: each metric once, with all its series. -/
def page (m : Metrics) : List String :=
  let first := m.values.map Prod.fst |>.foldl
    (fun seen s => if seen.any fun t => t.name == s.name then seen else seen ++ [s]) []
  first.flatMap fun s =>
    s!"# TYPE {s.name} {s.kind.label}" ::
      (m.values.filter fun e => e.1.name == s.name).flatMap fun e => m.sampleLines e.1 e.2

end Metrics

end Relay
