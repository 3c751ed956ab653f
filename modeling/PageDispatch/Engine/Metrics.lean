import PageDispatch.Numeral.FloatText
import PageDispatch.Pool

/-!
This module contains the counters of dispatches and their text for a metrics scraper.
-/

namespace PageDispatch

inductive Disposition where
  | answered
  | failed
  | notFound
  | abandoned
  | shed
  deriving DecidableEq, Repr

namespace Disposition

def name : Disposition → String
  | answered => "answered"
  | failed => "failed"
  | notFound => "not_found"
  | abandoned => "abandoned"
  | shed => "shed"

end Disposition

structure DispatchMetrics where
  requests : UInt64
  answered : UInt64
  failed : UInt64
  notFound : UInt64
  abandoned : UInt64
  shed : UInt64
  pagesTried : UInt64
  latencyTotal : UInt64
  deriving DecidableEq, Repr

namespace DispatchMetrics

def zero : DispatchMetrics := ⟨0, 0, 0, 0, 0, 0, 0, 0⟩

def recordRequest (m : DispatchMetrics) : DispatchMetrics := { m with requests := m.requests + 1 }

def recordPage (m : DispatchMetrics) : DispatchMetrics := { m with pagesTried := m.pagesTried + 1 }

def recordEnd (m : DispatchMetrics) (d : Disposition) (latency : UInt64) : DispatchMetrics :=
  let m := { m with latencyTotal := m.latencyTotal + latency }
  match d with
  | .answered => { m with answered := m.answered + 1 }
  | .failed => { m with failed := m.failed + 1 }
  | .notFound => { m with notFound := m.notFound + 1 }
  | .abandoned => { m with abandoned := m.abandoned + 1 }
  | .shed => { m with shed := m.shed + 1 }

def completed (m : DispatchMetrics) : UInt64 :=
  m.answered + m.failed + m.notFound + m.abandoned + m.shed

def averageLatency (m : DispatchMetrics) : Binary64 :=
  if m.completed = 0 then .ofFloat 0
  else .ofFloat (m.latencyTotal.toFloat / m.completed.toFloat / 1000000)

def renderOne (name help kind value : String) : String :=
  "# HELP chainrouter_" ++ name ++ " " ++ help ++ "\n# TYPE chainrouter_" ++ name ++ " " ++ kind
    ++ "\nchainrouter_" ++ name ++ " " ++ value ++ "\n"

def render (m : DispatchMetrics) (pool : PoolMetrics) : String :=
  let counter name help (n : UInt64) := renderOne name help "counter" (toString n)
  String.join [
    counter "requests_total" "Requests received" m.requests,
    counter "answered_total" "Requests answered by a page" m.answered,
    counter "failed_total" "Requests answered with a synthetic 500" m.failed,
    counter "not_found_total" "Requests no page answered" m.notFound,
    counter "abandoned_total" "Requests abandoned on a closed channel" m.abandoned,
    counter "shed_total" "Requests refused at admission" m.shed,
    counter "pages_tried_total" "Pages attempted across all requests" m.pagesTried,
    renderOne "dispatch_latency_seconds" "Average dispatch latency in seconds" "gauge"
      (FloatText.plain m.averageLatency),
    renderOne "pool_queue_depth" "Jobs queued or running" "gauge" (toString pool.depth),
    counter "pool_jobs_total" "Jobs submitted to the worker pool" pool.dispatched,
    counter "pool_panics_total" "Jobs that panicked outside a unit boundary" pool.panicked]

end DispatchMetrics
end PageDispatch
