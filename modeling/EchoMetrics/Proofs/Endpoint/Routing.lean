import EchoMetrics.Endpoint
import EchoMetrics.Proofs.Settings.Fields

/-! # Which endpoint answers

Of several routes that take a path, the one that was registered first answers: the pages that the
framework brings along, then health, then the metrics. Main statement: whatever path is accepted for
the metrics, health answers on its own path, and the exposition is what answers on the path of the
metrics unless a route before it takes that path. Health does take two of the accepted paths. -/

namespace EchoMetrics

namespace Endpoint

open Exposition

variable {metricsPath path : String} {x : Snapshot}
  {encoder : List Family → Except EncodingFault String}

/-- The paths that health takes. A line break may stand behind a path. -/
def healthPaths : List String := ["/health", "/health\n"]

theorem isSome_captures?_literal {text : String} :
    ((Route.literal text).captures? path).isSome = true ↔
      path = text ∨ path.toList = text.toList ++ ['\n'] := by
  rw [Option.isSome_iff_exists]
  simp only [Route.captures?_literal_eq_some_iff, exists_eq_left]

theorem isSome_captures?_healthRoute :
    (healthRoute.captures? path).isSome = true ↔ path ∈ healthPaths := by
  rw [healthRoute, isSome_captures?_literal, healthPaths, List.mem_cons, List.mem_singleton,
    ← @String.toList_inj path "/health\n"]
  rfl

/-- A literal route has no parameter that could lack a value. -/
theorem accepts?_literal (text path : String) :
    (Route.literal text).accepts? path = some ((Route.literal text).captures? path).isSome := by
  rw [Route.accepts?]
  cases h : (Route.literal text).captures? path with
  | none => rfl
  | some taken =>
    obtain ⟨rfl, -⟩ := Route.captures?_literal_eq_some_iff.1 h
    rfl

/-! ## Health -/

theorem respond_of_mem_healthPaths (h : path ∈ healthPaths) :
    respond metricsPath x encoder "GET" path = health x := by
  rw [respond, isSome_captures?_healthRoute.2 h]
  rfl

/-- Only the report of a prober that was given up can fail. -/
theorem health_cases (x : Snapshot) :
    x.phase = .fatal ∧ x.uptime.isFinite = false ∧ health x = crashed ∨
      (x.phase = .fatal → x.uptime.isFinite = true) ∧
        health x = ⟨if x.phase = .fatal then 503 else 200, .health x.health⟩ := by
  rw [health, Snapshot.health, Health.uptime?]
  by_cases hphase : x.phase = .fatal
  · cases hfinite : x.uptime.isFinite with
    | true => exact .inr ⟨fun _ => rfl, by simp [hphase]⟩
    | false => exact .inl ⟨hphase, rfl, by simp [hphase]⟩
  · exact .inr ⟨fun h => absurd h hphase, by simp [hphase]⟩

theorem health_of_isFinite (h : x.phase = .fatal → x.uptime.isFinite = true) :
    health x = ⟨if x.phase = .fatal then 503 else 200, .health x.health⟩ := by
  obtain ⟨hphase, hfinite, -⟩ | ⟨-, hhealth⟩ := health_cases x
  · rw [h hphase] at hfinite
    cases hfinite
  · exact hhealth

/-! ## Metrics -/

theorem respond_of_notMem_healthPaths (hliteral : '\x7b' ∉ metricsPath.toList)
    (h : metricsPath ∉ healthPaths) :
    respond metricsPath x encoder "GET" metricsPath = metrics (renderWith encoder x) := by
  have hhealth : (healthRoute.captures? metricsPath).isSome = false := by
    rw [Bool.eq_false_iff, Ne, isSome_captures?_healthRoute]
    exact h
  have htaken : ((Route.literal metricsPath).captures? metricsPath).isSome = true :=
    isSome_captures?_literal.2 (.inl rfl)
  have hroute : Route.ofText? metricsPath = some (Route.literal metricsPath) :=
    Route.ofText?_of_forall_ne fun c hc hbrace => hliteral (hbrace ▸ hc)
  rw [respond, hhealth, hroute, Option.bind_some, accepts?_literal, htaken]
  rfl

/-! ## Pages of the framework -/

/-- What the exporter answers where the framework has pages of its own, which were registered before
both endpoints. There is no answer of the exporter on a path that one of them takes. -/
def get? (pages : List Route) (metricsPath : String) (x : Snapshot)
    (encoder : List Family → Except EncodingFault String) (path : String) : Option Response :=
  if pages.any fun page => (page.captures? path).isSome then none
  else some (respond metricsPath x encoder "GET" path)

theorem get?_of_free {pages : List Route} (h : ∀ page ∈ pages, page.captures? path = none) :
    get? pages metricsPath x encoder path = some (respond metricsPath x encoder "GET" path) := by
  refine if_neg ?_
  rw [List.any_eq_true]
  rintro ⟨page, hpage, htaken⟩
  rw [h page hpage] at htaken
  cases htaken

/-! ## Main statement -/

/-- Where settings were accepted whose path for the metrics has no parameter, the path is one that
routes may have, and health answers on its own path. If no page of the framework takes the path of
the metrics, the answer there is the exposition of the snapshot, or it is health again: that is so
on the two paths that health takes. -/
theorem get?_of_accepted {r : Record} {s : Settings} {pages : List Route} {text : String}
    (hs : Settings.ofRecord r = .ok s) (hliteral : '\x7b' ∉ s.metricsPath.toList)
    (hpages : ∀ page ∈ pages, page.captures? "/health" = none)
    (hx : renderWith encoder x = .ok text) :
    Settings.Rooted s.metricsPath ∧
      get? pages s.metricsPath x encoder "/health" = some (health x) ∧
      ((x.phase = .fatal → x.uptime.isFinite = true) →
        health x = ⟨if x.phase = .fatal then 503 else 200, .health x.health⟩) ∧
      ((∀ page ∈ pages, page.captures? s.metricsPath = none) →
        get? pages s.metricsPath x encoder s.metricsPath =
          some (if s.metricsPath ∈ healthPaths then health x else ⟨200, .exposition text⟩)) ∧
      (Body.exposition text).contentType = "text/plain; version=1.0.0; charset=utf-8" := by
  refine ⟨(Settings.valid_of_ofRecord hs).path, ?_, health_of_isFinite, ?_, rfl⟩
  · rw [get?_of_free hpages, respond_of_mem_healthPaths (List.mem_cons_self ..)]
  · intro hfree
    rw [get?_of_free hfree]
    split
    · rename_i hshadowed
      rw [respond_of_mem_healthPaths hshadowed]
    · rename_i hreached
      rw [respond_of_notMem_healthPaths hliteral hreached, hx]
      rfl

/-- The pages that document the endpoints, as the framework has them by default. -/
def documentation : List Route :=
  ["/openapi.json", "/docs", "/docs/oauth2-redirect", "/redoc"].map .literal

theorem exists_render_new : ∃ text, render (({} : Registry).snapshot 0.0) = .ok text := by
  cases hx : render (({} : Registry).snapshot 0.0) with
  | ok text => exact ⟨text, rfl⟩
  | error fault =>
    have hok : (render (({} : Registry).snapshot 0.0)).isOk = true := by decide +kernel
    rw [hx] at hok
    cases hok

theorem get?_of_accepted_probes :
    ∃ s text, Settings.ofRecord [("metrics_path", .text " probes/ ")] = .ok s ∧
      render (({} : Registry).snapshot 0.0) = .ok text ∧
      get? documentation s.metricsPath (({} : Registry).snapshot 0.0) encode "/health" =
        some ⟨200, .health (({} : Registry).snapshot 0.0).health⟩ ∧
      get? documentation s.metricsPath (({} : Registry).snapshot 0.0) encode "/probes" =
        some ⟨200, .exposition text⟩ := by
  obtain ⟨text, hx⟩ := exists_render_new
  have hs : Settings.ofRecord [("metrics_path", .text " probes/ ")] =
      .ok { metricsPath := "/probes" } := rfl
  have hfree : ∀ page ∈ documentation, page.captures? "/health" = none := by decide
  obtain ⟨-, hhealth, hreport, hmetrics, -⟩ := get?_of_accepted hs (by decide) hfree hx
  refine ⟨_, text, hs, hx, ?_, ?_⟩
  · rw [hhealth, hreport (fun h => by cases h)]
    rfl
  · rw [hmetrics (by decide)]
    rfl

/-- A path is accepted for the metrics on which health answers. -/
theorem metrics_behind_health :
    ∃ s text, Settings.ofRecord [("metrics_path", .text "/health")] = .ok s ∧
      '\x7b' ∉ s.metricsPath.toList ∧ '\x7d' ∉ s.metricsPath.toList ∧
      render (({} : Registry).snapshot 0.0) = .ok text ∧
      get? documentation s.metricsPath (({} : Registry).snapshot 0.0) encode s.metricsPath =
        some ⟨200, .health (({} : Registry).snapshot 0.0).health⟩ ∧
      get? documentation s.metricsPath (({} : Registry).snapshot 0.0) encode s.metricsPath ≠
        some ⟨200, .exposition text⟩ := by
  obtain ⟨text, hx⟩ := exists_render_new
  have hhealth : get? documentation "/health" (({} : Registry).snapshot 0.0) encode "/health" =
      some ⟨200, .health (({} : Registry).snapshot 0.0).health⟩ := rfl
  refine ⟨{ metricsPath := "/health" }, text, rfl, by decide, by decide, hx, hhealth, ?_⟩
  rw [hhealth]
  intro h
  cases h

end Endpoint

end EchoMetrics
