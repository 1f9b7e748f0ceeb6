import EchoMetrics.Endpoint.Request
import EchoMetrics.Endpoint.Route
import EchoMetrics.Exposition.Report

/-! # The endpoints of the exporter

Health and metrics, each answered from a fresh snapshot. -/

namespace EchoMetrics

/-- The exporter's own state. -/
structure Health where
  failed : Bool
  phase : Phase
  version : Option String
  uptime : Float
  restarts : Nat
  samplesIngested : Nat
  parseErrors : Nat
  targets : Nat
deriving DecidableEq

def Snapshot.health (s : Snapshot) : Health where
  failed := s.phase = .fatal
  phase := s.phase
  version := s.version
  uptime := s.uptime
  restarts := s.restarts
  samplesIngested := s.samplesIngested
  parseErrors := s.parseErrors
  targets := s.targets.size

/-- The uptime as far as a document can hold it: only a finite number. -/
def Health.uptime? (h : Health) : Option Float :=
  if h.uptime.isFinite then some h.uptime else none

namespace Endpoint

inductive Body
  | health (h : Health)
  | exposition (text : String)
  | detail (text : String)
  | crash
deriving DecidableEq

structure Response where
  status : Nat
  body : Body
deriving DecidableEq

def Body.contentType : Body → String
  | .health _ | .detail _ => "application/json"
  | .exposition _ => "text/plain; version=1.0.0; charset=utf-8"
  | .crash => "text/plain; charset=utf-8"

def notFound : Response := ⟨404, .detail "Not Found"⟩

def notAllowed : Response := ⟨405, .detail "Method Not Allowed"⟩

def crashed : Response := ⟨500, .crash⟩

/-- A prober that is given up is reported as unavailable, which takes an uptime that a document can
hold. -/
def health (s : Snapshot) : Response :=
  if !s.health.failed then ⟨200, .health s.health⟩
  else if s.health.uptime?.isSome then ⟨503, .health s.health⟩
  else crashed

def metrics (rendered : Except Exposition.RenderFault String) : Response :=
  match rendered with
  | .ok text => ⟨200, .exposition text⟩
  | .error (.refused reason) => ⟨500, .detail (Exposition.RenderFault.message (.refused reason))⟩
  | .error (.unforeseen _) => crashed

def healthRoute : Route := .literal "/health"

/-- The body that is sent; the answer to `HEAD` has none. -/
def Response.sent? (r : Response) (method : String) : Option Body :=
  if method = "HEAD" then none else some r.body

/-- Answers a request. Health has precedence where both endpoints take the path; only a request that
it does not answer is tried on the route of the metrics, which may turn out to be none. -/
def respond (metricsPath : String) (s : Snapshot)
    (encoder : List Exposition.Family → Except Exposition.EncodingFault String)
    (method path : String) : Response :=
  let healthMatches := (healthRoute.captures? path).isSome
  if healthMatches && method = "GET" then health s
  else match (Route.ofText? metricsPath).bind (·.accepts? path) with
    | none => crashed
    | some metricsMatches =>
      if metricsMatches && method = "GET" then metrics (Exposition.renderWith encoder s)
      else if healthMatches || metricsMatches then notAllowed
      else notFound

end Endpoint

end EchoMetrics
