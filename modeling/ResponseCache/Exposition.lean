import ResponseCache.Counters
import ResponseCache.Decimal.Shortest

namespace ResponseCache.Exposition

inductive Kind
  | counter | gauge

def Kind.name : Kind → String
  | counter => "counter"
  | gauge => "gauge"

/-- A metric with its samples: the label part of each and its value. -/
structure Metric where
  name : String
  help : String
  kind : Kind
  samples : List (String × Float)

/-- Counts are shown as floating-point numbers. -/
def count (n : Nat) : Float := n.toUInt64.toFloat

/-- A count that is held as a signed number of 64 bits. -/
def signed (n : Nat) : Float := n.toUInt64.toInt64.toFloat

def plain (value : Float) : List (String × Float) := [("", value)]

def labelled (label : String) (samples : List (String × Nat)) : List (String × Float) :=
  samples.map fun (value, n) => ("\x7b" ++ label ++ "=\"" ++ value ++ "\"\x7d", count n)

/-- A span in seconds. -/
def inSeconds (s : Span) : Float := s.seconds.toUInt64.toFloat + s.subsecond.toUInt64.toFloat / 1000000000.0

/-- The metrics in the order of their names. -/
def metrics (c : Counters) (flushLatency : Span) : List Metric :=
  [⟨"entrystor_decisions_total", "Reconciliation decisions by kind", .counter,
      labelled "kind" [(Decision.Kind.attach.name, c.attaches), (Decision.Kind.clear.name, c.clears),
        (Decision.Kind.keep.name, c.keeps), (Decision.Kind.replace.name, c.replaces)]⟩,
    ⟨"entrystor_entries", "Entries currently stored", .gauge, plain (signed c.entries)⟩,
    ⟨"entrystor_evictions_total", "Entries removed from the store", .counter, plain (count c.evictions)⟩,
    ⟨"entrystor_flush_latency_seconds", "Smoothed flush barrier latency", .gauge, plain (inSeconds flushLatency)⟩,
    ⟨"entrystor_flushes_total", "Completed flush barriers", .counter, plain (count c.flushes)⟩,
    ⟨"entrystor_inconsistent_revalidations_total", "Not-modified answers received for uncached keys", .counter,
      plain (count c.inconsistentRevalidations)⟩,
    ⟨"entrystor_lookup_hits_total", "Lookups that found an entry", .counter, plain (count c.hits)⟩,
    ⟨"entrystor_lookup_misses_total", "Lookups that found nothing", .counter, plain (count c.misses)⟩,
    ⟨"entrystor_persisted_ops_total", "Persistence operations committed", .counter, plain (count c.persistedOps)⟩,
    ⟨"entrystor_persistence_failures_total", "Persistence operations that failed", .counter,
      plain (count c.persistenceFailures)⟩,
    ⟨"entrystor_responses_total", "Fetch responses by body source", .counter,
      labelled "source" [("alternative", c.alternativesServed), ("cache", c.servedFromCache),
        ("network", c.servedFromNetwork)]⟩]

def Metric.lines (m : Metric) : List String :=
  ("# HELP " ++ m.name ++ " " ++ m.help) :: ("# TYPE " ++ m.name ++ " " ++ m.kind.name) ::
    m.samples.map fun (label, value) => m.name ++ label ++ " " ++ Decimal.render value

/-- The lines for these counters, with this latency of flushes. -/
def lines (c : Counters) (flushLatency : Span) : List String := (metrics c flushLatency).flatMap Metric.lines

def render (c : Counters) (flushLatency : Span) : String := String.join ((lines c flushLatency).map (· ++ "\n"))

end ResponseCache.Exposition
