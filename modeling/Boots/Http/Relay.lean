import Boots.Http.Events
import Boots.Http.Net
import Boots.Http.CleanPath
import Boots.Http.JsonDecode

/-! What `/events` is for, as a pure function of the request and the collaborators' answers, and
`serveEvents` shown to implement it on every one of its exits. -/
namespace Boots.Http

/-- The four conditions under which an event is forwarded: the client's address splits, its
host is an IP, the device there has the instance `d`, and the body reads, is not empty and
decodes to `res`. -/
def Forwardable (lib : Stdlib) (es : EventsServer) (req : Request) (d : String)
    (res : EventRequest) : Prop :=
  ∃ host port ip, lib.splitHostPort req.remoteAddr = (host, port, none) ∧
    lib.parseIP host = some ip ∧ es.getInstanceIDFromIP ip = (d, none) ∧ d ≠ "" ∧
    req.body.readErr = none ∧ req.body.data ≠ [] ∧ lib.unmarshal req.body.data = (res, none)

/-- The instance and payload a request's event is relayed with, if any. -/
def relayedEvent (lib : Stdlib) (es : EventsServer) (req : Request) :
    Option (String × String) := do
  let (host, _, none) := lib.splitHostPort req.remoteAddr | none
  let ip ← lib.parseIP host
  let (d, none) := es.getInstanceIDFromIP ip | none
  if d = "" ∨ req.body.readErr.isSome ∨ req.body.data = [] then none
  let (res, none) := lib.unmarshal req.body.data | none
  some (d, (marshal (userEvent res)).1)

theorem relayedEvent_eq_some (lib : Stdlib) (es : EventsServer) (req : Request) (d p : String) :
    relayedEvent lib es req = some (d, p) ↔ ∃ res, Forwardable lib es req d res ∧
      p = (marshal (userEvent res)).1 := by
  rcases h1 : lib.splitHostPort req.remoteAddr with ⟨host, port, _ | e1⟩
  · rcases h2 : lib.parseIP host with _ | ip
    · simp [relayedEvent, Forwardable, h1, h2]
    · rcases h3 : es.getInstanceIDFromIP ip with ⟨d', _ | e3⟩ <;>
        rcases h4 : req.body.readErr with _ | e4 <;>
        rcases h6 : lib.unmarshal req.body.data with ⟨res, _ | e6⟩ <;>
        simp [relayedEvent, Forwardable, h1, h2, h3, h4, h6]
      constructor
      · rintro ⟨hne, rfl, rfl⟩
        exact ⟨res, ⟨rfl, hne.1, hne.2, rfl⟩, rfl⟩
      · rintro ⟨_, ⟨rfl, hd, hb, rfl⟩, rfl⟩
        exact ⟨⟨hd, hb⟩, rfl, rfl⟩
  · simp [relayedEvent, Forwardable, h1]

/-- What every exit of `serveEvents` does: it posts what `relayedEvent` says, writes the status
it returns, and returns a nil error only after a successful post. -/
theorem EventsExit.run {lib : Stdlib} {es : EventsServer} {req : Request}
    {r : Nat × Option GoError} {t : List Event} (h : EventsExit lib es req r t) :
    posts t = (relayedEvent lib es req).toList ∧ Response.statusOf t = some r.1 ∧
    (r.2 = none ↔ ∃ d p r', posts t = [(d, p)] ∧ es.postInstanceEvent d p = (r', none)) ∧
    (r.2 = none → r.1 = statusOK) ∧ loggedErrors t = [] ∧ delegations t = [] := by
  cases h with
  | posted h1 h2 h3 hd h4 h5 h6 h7 =>
    simp [posts, loggedErrors, delegations, relayedEvent, h1, h2, h3, hd, h4, h5, h6]
    exact ⟨_, _, ⟨rfl, rfl⟩, _, h7⟩
  | @noInstance _ _ _ _ err => cases err <;> simp_all [posts, loggedErrors, delegations, relayedEvent]
  | _ => simp_all [posts, loggedErrors, delegations, relayedEvent]

/-- One run of `serveEvents`: it posts what `relayedEvent` says, writes the status it returns,
and returns a nil error only after a successful post. -/
theorem serveEvents_run (lib : Stdlib) (es : EventsServer) (req : Request) :
    posts (trace (serveEvents lib es req)) = (relayedEvent lib es req).toList ∧
    Response.statusOf (trace (serveEvents lib es req)) = some (result (serveEvents lib es req)).1 ∧
    ((result (serveEvents lib es req)).2 = none ↔ ∃ d p r,
      posts (trace (serveEvents lib es req)) = [(d, p)] ∧ es.postInstanceEvent d p = (r, none)) ∧
    ((result (serveEvents lib es req)).2 = none → (result (serveEvents lib es req)).1 = statusOK) ∧
    loggedErrors (trace (serveEvents lib es req)) = [] ∧
    delegations (trace (serveEvents lib es req)) = [] :=
  (serveEvents_exit lib es req).run

/-- `serveEvents` posts at most once: exactly when the client's address names a device with an
instance `d` and the body reads, is not empty and decodes, and then to `d` with the encoded user
event, which reads back as that event. On every path it returns the status it wrote, and a nil
error exactly when the post was made and succeeded, with status 200. -/
theorem serveEvents_relays (lib : Stdlib) (es : EventsServer) (req : Request) :
    (posts (trace (serveEvents lib es req))).length ≤ 1 ∧
    (∀ d p, (d, p) ∈ posts (trace (serveEvents lib es req)) ↔
      ∃ res, Forwardable lib es req d res ∧
        p = (marshal ⟨"user." ++ toString res.code, res.state, res.message⟩).1) ∧
    (∀ d p, (d, p) ∈ posts (trace (serveEvents lib es req)) →
      ∃ res, Forwardable lib es req d res ∧
        readUserEvent p = some ⟨"user." ++ toString res.code, res.state, res.message⟩) ∧
    Response.statusOf (trace (serveEvents lib es req)) = some (result (serveEvents lib es req)).1 ∧
    ((result (serveEvents lib es req)).2 = none ↔ ∃ d p r,
      posts (trace (serveEvents lib es req)) = [(d, p)] ∧ es.postInstanceEvent d p = (r, none)) ∧
    ((result (serveEvents lib es req)).2 = none → (result (serveEvents lib es req)).1 = statusOK) := by
  obtain ⟨hposts, hstatus, herr, hok, -⟩ := serveEvents_run lib es req
  have hmem : ∀ d p, (d, p) ∈ posts (trace (serveEvents lib es req)) ↔
      ∃ res, Forwardable lib es req d res ∧
        p = (marshal ⟨"user." ++ toString res.code, res.state, res.message⟩).1 := fun d p => by
    rw [hposts, Option.mem_toList, Option.mem_def, relayedEvent_eq_some]
    rfl
  refine ⟨?_, hmem, fun d p hp => ?_, hstatus, herr, hok⟩
  · rw [hposts]
    cases relayedEvent lib es req <;> simp
  · obtain ⟨res, hf, rfl⟩ := (hmem d p).mp hp
    exact ⟨res, hf, marshal_reads_back _⟩

theorem serveEventsRoute_trace (lib : Stdlib) (s : BootsHTTPServer) (req : Request) :
    trace (s.serveEventsRoute lib req) =
      trace (serveEvents lib (eventServerForReporterFinder s.reporter s.finder) req) ++
        match result (serveEvents lib (eventServerForReporterFinder s.reporter s.finder) req) with
        | (code, some err) => if code != statusOK then [.logError err] else []
        | (_, none) => [] := by
  simp only [trace, result, BootsHTTPServer.serveEventsRoute, StateT.run_bind]
  rcases (serveEvents lib (eventServerForReporterFinder s.reporter s.finder) req).run [] with
    ⟨⟨code, _ | err⟩, t⟩
  · simp
  · by_cases hc : code = statusOK <;> simp [hc, emit]

/-- The `/events` route logs one error exactly when the client got a status other than 200,
and nothing for an unknown device, which is answered 200. -/
theorem serveEventsRoute_logs_failures (lib : Stdlib) (s : BootsHTTPServer) (req : Request) :
    (loggedErrors (trace (s.serveEventsRoute lib req))).length =
      if Response.statusOf
          (trace (serveEvents lib (eventServerForReporterFinder s.reporter s.finder) req)) =
          some statusOK then 0 else 1 := by
  obtain ⟨-, hstatus, -, hok, hlog, -⟩ :=
    serveEvents_run lib (eventServerForReporterFinder s.reporter s.finder) req
  rw [serveEventsRoute_trace, hstatus, loggedErrors_append, hlog]
  rcases hr : result (serveEvents lib (eventServerForReporterFinder s.reporter s.finder) req) with
    ⟨code, _ | err⟩
  · simp only [hr, forall_const] at hok
    simp [hok, loggedErrors]
  · by_cases hc : code = statusOK <;> simp [hc, loggedErrors]

/-- With the server's own events server, an event only goes to the instance that the hardware
record at the client's IP carries, never to an empty ID. -/
theorem serveEvents_posts_to_instance_at_ip (lib : Stdlib) (s : BootsHTTPServer)
    (req : Request) {d p : String}
    (h : (d, p) ∈ posts (trace (serveEvents lib (eventServerForReporterFinder s.reporter s.finder) req))) :
    ∃ host port ip disc, lib.splitHostPort req.remoteAddr = (host, port, none) ∧
      lib.parseIP host = some ip ∧ s.finder.byIP ip = (disc, none) ∧
      disc.instance? = some ⟨d⟩ ∧ d ≠ "" := by
  rw [(serveEvents_run lib _ req).1, Option.mem_toList, Option.mem_def,
    relayedEvent_eq_some] at h
  obtain ⟨_, ⟨host, port, ip, h1, h2, h3, hd, -⟩, -⟩ := h
  refine ⟨host, port, ip, (s.finder.byIP ip).1, h1, h2, ?_⟩
  rcases hb : s.finder.byIP ip with ⟨⟨_ | ⟨⟨id⟩⟩⟩, _ | e⟩ <;>
    simp_all [eventServerForReporterFinder, getInstanceIDFromIP]

/-- Go's `net` functions with no IPv6 parser, `encoding/json`, the mux's `cleanPath`, and a
runtime whose writes succeed. -/
def ipv4Stdlib : Stdlib :=
  ⟨Net.splitHostPort, Net.parseIP fun _ => none, goUnmarshal, cleanPath, ⟨"v1", "12.5", 7, none⟩⟩

/-- A POST to "/events" from the DHCP client at 10.0.0.2, port 68, with the body `data`. -/
def eventsRequest (data : List UInt8) : Request :=
  ⟨"POST", "", "", "/events", "10.0.0.2:68", ⟨data, none⟩⟩

/-- The body a device sends once it has booted. -/
def bootBody : List UInt8 :=
  Utf8.encode "\x7b\"code\":5,\"state\":\"booted\",\"message\":\"ok\"\x7d".toList

/-- A server whose hardware records all carry the instance `id`. -/
def instanceServer (id : String) : BootsHTTPServer :=
  ⟨none, ⟨fun _ _ => ("", none)⟩, ⟨fun _ => (⟨some ⟨id⟩⟩, none)⟩,
    ⟨fun _ => (⟨true, true, "hw-0"⟩, none)⟩⟩

/-- The boot event of a device whose record carries "inst-1" is posted to "inst-1". -/
theorem instanceServer_posts_to_its_instance :
    ("inst-1", (marshal (userEvent ⟨5, "booted", "ok"⟩)).1) ∈
      posts (trace (serveEvents ipv4Stdlib (eventServerForReporterFinder
        (instanceServer "inst-1").reporter (instanceServer "inst-1").finder) (eventsRequest bootBody))) ∧
    ∃ host port ip disc, ipv4Stdlib.splitHostPort "10.0.0.2:68" = (host, port, none) ∧
      ipv4Stdlib.parseIP host = some ip ∧ (instanceServer "inst-1").finder.byIP ip = (disc, none) ∧
      disc.instance? = some ⟨"inst-1"⟩ ∧ "inst-1" ≠ "" :=
  have h : ("inst-1", (marshal (userEvent ⟨5, "booted", "ok"⟩)).1) ∈
      posts (trace (serveEvents ipv4Stdlib (eventServerForReporterFinder
        (instanceServer "inst-1").reporter (instanceServer "inst-1").finder) (eventsRequest bootBody))) := by
    decide
  ⟨h, serveEvents_posts_to_instance_at_ip _ _ _ h⟩

end Boots.Http
