import Boots.Http.Server

/-! The `http.ResponseWriter` contract, kept by every run of a request: `http.go` calls
`WriteHeader` at most once, before any `Write`, with a code the writer accepts. So the writer
never panics, and Go never logs a superfluous `WriteHeader` for `http.go`'s own code. -/
namespace Boots.Http

/-- The writes of a run as `http.ResponseWriter` takes them without complaint: at most one
`WriteHeader`, with a code `checkWriteHeaderCode` accepts, and after it only `Write` calls. A
`WriteHeader` after any write is what Go logs as superfluous. -/
def WellWritten (t : List Event) : Prop :=
  ∃ hdr body, t.filter Event.isWrite = hdr ++ body ∧ hdr.length ≤ 1 ∧
    (∀ e ∈ hdr, ∃ c, e = .writeHeader c ∧ Response.checkWriteHeaderCode c = true) ∧
    ∀ e ∈ body, ∃ d, e = .write d

section Contract

variable {t u : List Event}

theorem wellWritten_of_filter_nil (h : t.filter Event.isWrite = []) : WellWritten t :=
  ⟨[], [], by simp [h], by simp, by simp, by simp⟩

theorem wellWritten_of_filter_header {c : Nat} {body : List Event}
    (h : t.filter Event.isWrite = .writeHeader c :: body)
    (hc : Response.checkWriteHeaderCode c = true) (hb : ∀ e ∈ body, ∃ d, e = .write d) : WellWritten t :=
  ⟨[.writeHeader c], body, h, by simp, by simpa using hc, hb⟩

theorem WellWritten.append (h : WellWritten t) (hu : ∀ e ∈ u, e.isWrite = false) :
    WellWritten (t ++ u) := by
  obtain ⟨hdr, body, ht, hrest⟩ := h
  refine ⟨hdr, body, ?_, hrest⟩
  have hu' : u.filter Event.isWrite = [] :=
    List.filter_eq_nil_iff.mpr fun e he h => by rw [hu e he] at h; cases h
  rw [List.filter_append, ht, hu', List.append_nil]

namespace Response

theorem replay_filter_isWrite (r : Response) (t : List Event) :
    r.replay (t.filter Event.isWrite) = r.replay t := by
  induction t generalizing r with
  | nil => rfl
  | cons e t ih =>
    cases he : e.isWrite
    · rw [List.filter_cons_of_neg (by rw [he]; exact Bool.false_ne_true), ih, replay_cons,
        apply_of_isWrite_false r he]
      rfl
    · rw [List.filter_cons_of_pos he, replay_cons, replay_cons]
      cases r.apply e <;> simp [Except.bind, ih]

theorem statusOf_filter_isWrite (t : List Event) :
    statusOf (t.filter Event.isWrite) = statusOf t := by
  simp only [statusOf, replay_filter_isWrite]

theorem replay_writes (r : Response) {body : List Event} (hb : ∀ e ∈ body, ∃ d, e = .write d) :
    ∃ r', r.replay body = .ok r' := by
  induction body generalizing r with
  | nil => exact ⟨r, rfl⟩
  | cons e body ih =>
    obtain ⟨d, rfl⟩ := hb e (List.mem_cons_self _ _)
    exact ih (r.write d) fun e he => hb e (List.mem_cons_of_mem _ he)

end Response

/-- A well-written run never makes the writer panic. -/
theorem WellWritten.replay_ok (h : WellWritten t) : ∃ r, Response.empty.replay t = .ok r := by
  obtain ⟨hdr, body, ht, hlen, hhdr, hbody⟩ := h
  rw [← Response.replay_filter_isWrite, ht, Response.replay_append]
  match hdr, hlen, hhdr with
  | [], _, _ => simpa [Except.bind] using Response.replay_writes _ hbody
  | [e], _, hhdr =>
    obtain ⟨c, rfl, hc⟩ := hhdr e (List.mem_singleton_self e)
    simpa [Except.bind, Response.replay_cons, Response.apply, Response.writeHeader, Response.empty,
      hc] using Response.replay_writes _ hbody

end Contract

theorem EventsExit.writes {lib : Stdlib} {es : EventsServer} {req : Request}
    {r : Nat × Option GoError} {t : List Event} (h : EventsExit lib es req r t) :
    t.filter Event.isWrite = .writeHeader r.1 :: (if r.2 = none then [.write []] else []) ∧
    (r.1 = statusOK ∨ r.1 = statusBadRequest) := by
  cases h <;> simp [statusOK, statusBadRequest]

/-- `serveEvents` writes one status, the one it returns, 200 or 400, and after it an empty body
only when it returns no error. -/
theorem serveEvents_writes (lib : Stdlib) (es : EventsServer) (req : Request) :
    (trace (serveEvents lib es req)).filter Event.isWrite =
      .writeHeader (result (serveEvents lib es req)).1 ::
        (if (result (serveEvents lib es req)).2 = none then [.write []] else []) ∧
    ((result (serveEvents lib es req)).1 = statusOK ∨
      (result (serveEvents lib es req)).1 = statusBadRequest) :=
  (serveEvents_exit lib es req).writes

/-! Each route's run, whatever its collaborators answer. -/

section Routes

variable {req : Request}

private theorem jobTail_wellWritten (a : String) {t : List Event} (h : JobTail t) :
    WellWritten (.createFromRemoteAddr a :: t) := by
  cases h with
  | ok | notFound => exact wellWritten_of_filter_header rfl rfl (by simp)
  | delegate | panic => exact wellWritten_of_filter_nil rfl
  | workflowCheck wf d j =>
    unfold Boots.Http.workflowCheck
    split
    · exact wellWritten_of_filter_nil rfl
    · exact wellWritten_of_filter_header rfl rfl (by simp)

private theorem serveEventsRoute_wellWritten (lib : Stdlib) (s : BootsHTTPServer) :
    WellWritten (trace (s.serveEventsRoute lib req)) := by
  obtain ⟨hw, hc⟩ := serveEvents_writes lib (eventServerForReporterFinder s.reporter s.finder) req
  rw [serveEventsRoute_trace]
  refine (wellWritten_of_filter_header hw ?_ ?_).append ?_
  · rcases hc with hc | hc <;> rw [hc] <;> rfl
  · split <;> simp
  · split
    · split <;> simp
    · simp

end Routes

/-- The health check's run when its write fails: the report, then the `WriteHeader(500)` that
comes too late, and the log line. -/
private theorem serveHealthchecker_wellWritten_or (rt : Runtime) :
    WellWritten (trace (BootsHTTPServer.serveHealthchecker rt)) ∨
      rt.writeErr.isSome ∧ (trace (BootsHTTPServer.serveHealthchecker rt)).filter Event.isWrite =
        [.write (BootsHTTPServer.healthReport rt), .writeHeader statusInternalServerError] := by
  rw [serveHealthchecker_trace]
  split
  · exact .inl ⟨[], _, rfl, by simp, by simp, by simp⟩
  · exact .inr ⟨by simp [*], rfl⟩

/-- Every run is well written, but for the health check whose write failed. -/
private theorem serve_wellWritten_or (lib : Stdlib) (s : BootsHTTPServer) (mux : ServeMux Route)
    (req : Request) :
    WellWritten (trace (s.serve lib mux req)) ∨
      (∃ p, mux.Handler lib.cleanPath lib.stripHostPort req = .serve .healthcheck p) ∧
        lib.runtime.writeErr.isSome ∧
        (trace (s.serve lib mux req)).filter Event.isWrite =
          [.write (BootsHTTPServer.healthReport lib.runtime), .writeHeader statusInternalServerError] := by
  unfold BootsHTTPServer.serve
  split
  · rename_i url _
    have hf : (trace (redirectHandler req url)).filter Event.isWrite =
        .writeHeader statusMovedPermanently ::
          if req.method = "GET" then [.write (redirectBody url)] else [] := by
      rw [redirectHandler_trace]
      split <;> rfl
    refine .inl (wellWritten_of_filter_header hf rfl ?_)
    split <;> simp
  · rename_i r pattern he
    rcases runRoute_trace lib s req pattern r with ⟨-, t, ht, hj⟩ | ⟨-, ht⟩ | ⟨rfl, ht⟩ | ht <;>
      rw [ht]
    · exact .inl (jobTail_wellWritten _ hj)
    · exact .inl (serveEventsRoute_wellWritten lib s)
    · exact (serveHealthchecker_wellWritten_or _).imp_right fun hw => ⟨⟨pattern, he⟩, hw⟩
    · exact .inl (wellWritten_of_filter_nil rfl)
  · exact .inl (wellWritten_of_filter_header rfl rfl (by simp))

/-- A write and then a late `WriteHeader(500)`: the client has the write's 200, and the writer
only logs the second call. -/
private theorem late_header_status {t : List Event} {data : List UInt8}
    (hw : t.filter Event.isWrite = [.write data, .writeHeader statusInternalServerError]) :
    Response.statusOf t = some statusOK ∧ ∃ r, Response.empty.replay t = .ok r := by
  rw [← Response.statusOf_filter_isWrite, ← Response.replay_filter_isWrite, hw]
  simp [Response.replay_cons, Response.apply, Response.writeHeader, Except.bind]

/-- Whatever the mux holds and whatever the collaborators answer, every run of a request keeps
the `http.ResponseWriter` contract, `WriteHeader` at most once, before any `Write`, with a code
the writer accepts, except the health check when its write fails: its `WriteHeader(500)` comes
after the write, is superfluous, and the client gets 200. The writer never panics. `serveEvents`
writes exactly the status it returns. -/
theorem serve_writes_status_once (lib : Stdlib) (s : BootsHTTPServer) (mux : ServeMux Route)
    (req : Request) :
    (WellWritten (trace (s.serve lib mux req)) ∨
      (∃ p, mux.Handler lib.cleanPath lib.stripHostPort req = .serve .healthcheck p) ∧
        lib.runtime.writeErr.isSome ∧
        (trace (s.serve lib mux req)).filter Event.isWrite =
          [.write (BootsHTTPServer.healthReport lib.runtime), .writeHeader statusInternalServerError] ∧
        Response.statusOf (trace (s.serve lib mux req)) = some statusOK) ∧
    (∃ r, Response.empty.replay (trace (s.serve lib mux req)) = .ok r) ∧
    ∀ es, ∃ body, (trace (serveEvents lib es req)).filter Event.isWrite =
      .writeHeader (result (serveEvents lib es req)).1 :: body := by
  have h := serve_wellWritten_or lib s mux req
  refine ⟨h.imp_right fun ⟨hp, he, hw⟩ => ⟨hp, he, hw, (late_header_status hw).1⟩, ?_,
    fun es => ⟨_, (serveEvents_writes lib es req).1⟩⟩
  rcases h with hw | ⟨-, -, hw⟩
  exacts [hw.replay_ok, (late_header_status hw).2]

end Boots.Http
