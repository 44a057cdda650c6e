import FleetAtlas.Dict
import FleetAtlas.Failure
import FleetAtlas.Text.Shortest

/-!
# Metrics

* `Metrics`: the counters of the observers and of the cleanup;
* `Metrics.opened`, `Metrics.ended`: a call of a handler begins, and ends with a result;
* `MetricFamily.lines`, `Metrics.exposition`: the text form: families by name, samples by the values of their labels.

How long the calls take is not kept, so a histogram shows only how many durations it has seen.
-/

namespace FleetAtlas

/-- What is counted; counts of observers are by the values of their labels. -/
structure Metrics where
  handled : Dict (List String) Nat
  requeues : Dict (List String) Nat
  durations : Dict (List String) Nat
  sweeps : Nat
  stopped : Nat
deriving DecidableEq

/-! ### Counting -/

/-- Counts under a key. -/
def countUp (counts : Dict (List String) Nat) (key : List String) (more : Nat) : Dict (List String) Nat :=
  counts.insert key (counts.getD key 0 + more)

/-- The label of a handled notification that ended well. -/
def successLabel : String := "success"

namespace Metrics

/-- Nothing was counted. -/
def zero : Metrics := ⟨∅, ∅, ∅, 0, 0⟩

instance : Inhabited Metrics := ⟨zero⟩

/-- Counts a notification that was handled with a result. -/
def countHandled (m : Metrics) (observer result : String) : Metrics :=
  { m with handled := countUp m.handled [observer, result] 1 }

/-- Counts a notification that is handled again. -/
def countRequeue (m : Metrics) (observer : String) : Metrics := { m with requeues := countUp m.requeues [observer] 1 }

/-- A duration begins: it is not counted yet, but its sample is there. -/
def opened (m : Metrics) (observer : String) : Metrics := { m with durations := countUp m.durations [observer] 0 }

/-- A duration ends. -/
def countDuration (m : Metrics) (observer : String) : Metrics :=
  { m with durations := countUp m.durations [observer] 1 }

/-- Counts a pass of the cleanup. -/
def countSweep (m : Metrics) : Metrics := { m with sweeps := m.sweeps + 1 }

/-- Counts instances that the cleanup stopped. -/
def countStopped (m : Metrics) (count : Nat) : Metrics := { m with stopped := m.stopped + count }

/-- A call ends with a result; a cancelled one is not counted as handled, a failed one that is tried again is counted
as requeued, too. -/
def ended (m : Metrics) (observer : String) (result : Except Failure Unit) : Metrics :=
  let m := m.countDuration observer
  match result with
  | .ok () => m.countHandled observer successLabel
  | .error .cancelled => m
  | .error e =>
    let m := m.countHandled observer e.label
    if e.isRetried then m.countRequeue observer else m

end Metrics

/-! ### Text -/

inductive MetricKind where
  | counter
  | histogram
deriving DecidableEq, Repr

/-- The values of a metric, one for each tuple of label values. -/
structure MetricFamily where
  name : String
  help : String
  kind : MetricKind
  labels : List String
  samples : List (List String × Nat)

/-- The text of a character of a label value. -/
def escapeLabelChar (c : Char) : String :=
  if c = '\\' then "\\\\" else if c = '"' then "\\\"" else if c = '\n' then "\\n" else c.toString

/-- A label value between quotes. -/
def quoteLabel (value : String) : String := "\"" ++ String.join (value.toList.map escapeLabelChar) ++ "\""

/-- Labels with their values, in braces; nothing when there is none. -/
def labelText (labels values : List String) : String :=
  match labels.zip values with
  | [] => ""
  | pairs => "\x7b" ++ ",".intercalate (pairs.map fun (l, v) => l ++ "=" ++ quoteLabel v) ++ "\x7d"

/-- The text of a count of 64 bits. -/
def countText (count : Nat) : String :=
  let n := count % (1 <<< 64)
  if n ≤ 1 <<< 53 then n.repr else Binary64.text n

namespace MetricKind

/-- The name of a kind. -/
def name : MetricKind → String
  | counter => "counter"
  | histogram => "histogram"

/-- What follows the name of the metric in the samples that are shown. -/
def sampleSuffix : MetricKind → String
  | counter => ""
  | histogram => "_count"

end MetricKind

namespace MetricFamily

/-- The lines of the samples. -/
def sampleLines (f : MetricFamily) : List String :=
  f.samples.map fun (values, count) =>
    f.name ++ f.kind.sampleSuffix ++ labelText f.labels values ++ " " ++ countText count

/-- The two lines that introduce a metric, and its samples; nothing when there is none. -/
def lines (f : MetricFamily) : List String :=
  if f.samples.isEmpty then []
  else
    ("# HELP " ++ f.name ++ " " ++ f.help) :: ("# TYPE " ++ f.name ++ " " ++ f.kind.name) :: f.sampleLines

end MetricFamily

namespace Metrics

/-- The metrics of the cleanup, by name. -/
def cleanupFamilies (m : Metrics) : List MetricFamily :=
  [⟨"cleanup_instances_stopped_total", "deployment instances marked stopped by the cleanup", .counter, [],
      [([], m.stopped)]⟩,
    ⟨"cleanup_runs_total", "cleanup passes", .counter, [], [([], m.sweeps)]⟩]

/-- The metrics of the observers, by name. -/
def observerFamilies (m : Metrics) : List MetricFamily :=
  [⟨"observer_handle_duration_seconds", "handling duration", .histogram, ["observer"], m.durations.toList⟩,
    ⟨"observer_handled_total", "handled notifications by outcome", .counter, ["observer", "result"],
      m.handled.toList⟩,
    ⟨"observer_requeues_total", "notifications requeued after a failure", .counter, ["observer"],
      m.requeues.toList⟩]

/-- All metrics, by name. -/
def families (m : Metrics) : List MetricFamily := m.cleanupFamilies ++ m.observerFamilies

/-- The lines of all metrics. -/
def exposition (m : Metrics) : List String := m.families.flatMap MetricFamily.lines

/-- The lines of all samples. -/
def sampleLines (m : Metrics) : List String := m.families.flatMap MetricFamily.sampleLines

/-- The lines of the samples of the cleanup. -/
def cleanupLines (m : Metrics) : List String := m.cleanupFamilies.flatMap MetricFamily.sampleLines

end Metrics

end FleetAtlas
