import Boots.Http.ResponseWriter
import Boots.Http.Json

/-! The `/events` route of `http.go`: `readClose`, the `eventsServer` built from a reporter and a
hardware finder, `serveEvents`, and the route that logs its failures. The standard library
parsers it calls are parameters: nothing is assumed of what they accept. -/
namespace Boots.Http

/-- The struct `serveEvents` decodes the body into: `code`, `state` and `message`. -/
structure EventRequest where
  code : Int
  state : String
  message : String
  deriving DecidableEq, Repr

/-- The standard library functions the server parses with: `net.SplitHostPort`,
`net.ParseIP`, `json.Unmarshal` into a zero `EventRequest` and the mux's `cleanPath`; and what the
runtime gives the health check. -/
structure Stdlib where
  splitHostPort : String → String × String × Option GoError
  parseIP : String → Option IP
  unmarshal : List UInt8 → EventRequest × Option GoError
  cleanPath : String → String
  runtime : Runtime

/-- The mux's `stripHostPort`: a host with no ':', or one that does not split, is kept whole. -/
def Stdlib.stripHostPort (lib : Stdlib) (h : String) : String :=
  if ':' ∉ h.data then h
  else match lib.splitHostPort h with
    | (host, _, none) => host
    | _ => h

/-- `eventsServer`. -/
structure EventsServer where
  getInstanceIDFromIP : IP → String × Option GoError
  postInstanceEvent : String → String → String × Option GoError

/-- `readClose`: everything `io.ReadAll` read, its error wrapped as "read data"; then `Close`. -/
def readClose (r : Body) : List UInt8 × Option GoError := (r.data, GoError.wrap r.readErr "read data")

/-- `(*es).GetInstanceIDFromIP`: the ID of the instance on the hardware at `ip`, "" if none. -/
def getInstanceIDFromIP (finder : HardwareFinder) (ip : IP) : String × Option GoError :=
  let (d, err) := finder.byIP ip
  if err.isSome then ("", err)
  else match d.instance? with
    | none => ("", none)
    | some i => (i.id, none)

/-- `EventServerForReporterFinder`: the finder answers for IDs, the reporter takes events. -/
def eventServerForReporterFinder (reporter : Reporter) (finder : HardwareFinder) :
    EventsServer :=
  ⟨getInstanceIDFromIP finder, reporter.postInstanceEvent⟩

/-- The event forwarded for a decoded request: `type` is "user." and the decimal code. -/
def userEvent (res : EventRequest) : UserEvent := ⟨"user." ++ toString res.code, res.state, res.message⟩

/-- `serveEvents`: forward a user generated event to the instance at the client's address. It
returns the status it wrote and the error. -/
def serveEvents (lib : Stdlib) (es : EventsServer) (req : Request) :
    HandlerM (Nat × Option GoError) := do
  let (host, _, err) := lib.splitHostPort req.remoteAddr
  if err.isSome then
    emit (.writeHeader statusBadRequest)
    return (statusBadRequest, GoError.wrap err "split host port")
  let some ip := lib.parseIP host
    | do
      emit (.writeHeader statusOK)
      return (statusOK, some (.new "no device found for client address"))
  emit (.getInstanceIDFromIP ip)
  let (deviceID, err) := es.getInstanceIDFromIP ip
  if err.isSome || deviceID == "" then
    emit (.writeHeader statusOK)
    return (statusOK, some (.new "no device found for client address"))
  let (b, err) := readClose req.body
  if err.isSome then
    emit (.writeHeader statusBadRequest)
    return (statusBadRequest, err)
  if b.length == 0 then
    emit (.writeHeader statusBadRequest)
    return (statusBadRequest, some (.new "userEvent body is empty"))
  let (res, err) := lib.unmarshal b
  if err.isSome then
    emit (.writeHeader statusBadRequest)
    return (statusBadRequest, some (.new "userEvent cannot be generated from supplied json"))
  let (payload, err) := marshal (userEvent res)
  if err.isSome then
    emit (.writeHeader statusBadRequest)
    return (statusBadRequest, some (.new "userEvent cannot be encoded"))
  emit (.postInstanceEvent deviceID payload)
  let (_, err) := es.postInstanceEvent deviceID payload
  if err.isSome then
    emit (.writeHeader statusBadRequest)
    return (statusBadRequest, some (.new "failed to post userEvent"))
  emit (.writeHeader statusOK)
  emit (.write [])
  return (statusOK, none)

/-- The exits of `serveEvents`: the collaborators' answers that lead to each, what it returns and
the events it emits. -/
inductive EventsExit (lib : Stdlib) (es : EventsServer) (req : Request) :
    Nat × Option GoError → List Event → Prop
  | splitFailed {host port : String} {e : GoError}
      (h1 : lib.splitHostPort req.remoteAddr = (host, port, some e)) :
      EventsExit lib es req (statusBadRequest, GoError.wrap (some e) "split host port")
        [.writeHeader statusBadRequest]
  | noIP {host port : String} (h1 : lib.splitHostPort req.remoteAddr = (host, port, none))
      (h2 : lib.parseIP host = none) :
      EventsExit lib es req (statusOK, some (.new "no device found for client address")) [.writeHeader statusOK]
  | noInstance {host port d : String} {ip : IP} {err : Option GoError}
      (h1 : lib.splitHostPort req.remoteAddr = (host, port, none)) (h2 : lib.parseIP host = some ip)
      (h3 : es.getInstanceIDFromIP ip = (d, err)) (h : err.isSome = true ∨ d = "") :
      EventsExit lib es req (statusOK, some (.new "no device found for client address")) [.getInstanceIDFromIP ip, .writeHeader statusOK]
  | readFailed {host port d : String} {ip : IP} {e : GoError}
      (h1 : lib.splitHostPort req.remoteAddr = (host, port, none)) (h2 : lib.parseIP host = some ip)
      (h3 : es.getInstanceIDFromIP ip = (d, none)) (hd : d ≠ "") (h4 : req.body.readErr = some e) :
      EventsExit lib es req (statusBadRequest, GoError.wrap (some e) "read data")
        [.getInstanceIDFromIP ip, .writeHeader statusBadRequest]
  | emptyBody {host port d : String} {ip : IP}
      (h1 : lib.splitHostPort req.remoteAddr = (host, port, none)) (h2 : lib.parseIP host = some ip)
      (h3 : es.getInstanceIDFromIP ip = (d, none)) (hd : d ≠ "") (h4 : req.body.readErr = none)
      (h5 : req.body.data = []) :
      EventsExit lib es req (statusBadRequest, some (.new "userEvent body is empty"))
        [.getInstanceIDFromIP ip, .writeHeader statusBadRequest]
  | undecodable {host port d : String} {ip : IP} {res : EventRequest} {e : GoError}
      (h1 : lib.splitHostPort req.remoteAddr = (host, port, none)) (h2 : lib.parseIP host = some ip)
      (h3 : es.getInstanceIDFromIP ip = (d, none)) (hd : d ≠ "") (h4 : req.body.readErr = none)
      (h5 : req.body.data ≠ []) (h6 : lib.unmarshal req.body.data = (res, some e)) :
      EventsExit lib es req
        (statusBadRequest, some (.new "userEvent cannot be generated from supplied json"))
        [.getInstanceIDFromIP ip, .writeHeader statusBadRequest]
  | postFailed {host port d r : String} {ip : IP} {res : EventRequest} {e : GoError}
      (h1 : lib.splitHostPort req.remoteAddr = (host, port, none)) (h2 : lib.parseIP host = some ip)
      (h3 : es.getInstanceIDFromIP ip = (d, none)) (hd : d ≠ "") (h4 : req.body.readErr = none)
      (h5 : req.body.data ≠ []) (h6 : lib.unmarshal req.body.data = (res, none))
      (h7 : es.postInstanceEvent d (marshal (userEvent res)).1 = (r, some e)) :
      EventsExit lib es req (statusBadRequest, some (.new "failed to post userEvent"))
        [.getInstanceIDFromIP ip, .postInstanceEvent d (marshal (userEvent res)).1,
          .writeHeader statusBadRequest]
  | posted {host port d r : String} {ip : IP} {res : EventRequest}
      (h1 : lib.splitHostPort req.remoteAddr = (host, port, none)) (h2 : lib.parseIP host = some ip)
      (h3 : es.getInstanceIDFromIP ip = (d, none)) (hd : d ≠ "") (h4 : req.body.readErr = none)
      (h5 : req.body.data ≠ []) (h6 : lib.unmarshal req.body.data = (res, none))
      (h7 : es.postInstanceEvent d (marshal (userEvent res)).1 = (r, none)) :
      EventsExit lib es req (statusOK, none)
        [.getInstanceIDFromIP ip, .postInstanceEvent d (marshal (userEvent res)).1,
          .writeHeader statusOK, .write []]

/-- Every run of `serveEvents` leaves by one of its exits. -/
theorem serveEvents_exit (lib : Stdlib) (es : EventsServer) (req : Request) :
    EventsExit lib es req (result (serveEvents lib es req)) (trace (serveEvents lib es req)) := by
  have hrun {r : Nat × Option GoError} {t : List Event} (h : (serveEvents lib es req).run [] = (r, t))
      (he : EventsExit lib es req r t) : EventsExit lib es req (result (serveEvents lib es req))
        (trace (serveEvents lib es req)) := by
    rwa [result, trace, h]
  rcases h1 : lib.splitHostPort req.remoteAddr with ⟨host, port, _ | e1⟩
  swap
  · exact hrun (by simp [serveEvents, emit, h1]) (.splitFailed h1)
  rcases h2 : lib.parseIP host with _ | ip
  · exact hrun (by simp [serveEvents, emit, h1, h2]) (.noIP h1 h2)
  rcases h3 : es.getInstanceIDFromIP ip with ⟨d, _ | e3⟩
  swap
  · exact hrun (by simp [serveEvents, emit, h1, h2, h3]) (.noInstance h1 h2 h3 (.inl rfl))
  by_cases hd : d = ""
  · exact hrun (by simp [serveEvents, emit, h1, h2, h3, hd]) (.noInstance h1 h2 h3 (.inr hd))
  rcases h4 : req.body.readErr with _ | e4
  swap
  · exact hrun (by simp [serveEvents, emit, readClose, h1, h2, h3, hd, h4])
      (.readFailed h1 h2 h3 hd h4)
  by_cases h5 : req.body.data = []
  · exact hrun (by simp [serveEvents, emit, readClose, h1, h2, h3, hd, h4, h5])
      (.emptyBody h1 h2 h3 hd h4 h5)
  rcases h6 : lib.unmarshal req.body.data with ⟨res, _ | e6⟩
  swap
  · exact hrun (by simp [serveEvents, emit, readClose, h1, h2, h3, hd, h4, h5, h6])
      (.undecodable h1 h2 h3 hd h4 h5 h6)
  rcases h7 : es.postInstanceEvent d (marshal (userEvent res)).1 with ⟨r, _ | e7⟩
  · exact hrun (by simp [serveEvents, emit, readClose, h1, h2, h3, hd, h4, h5, h6, h7])
      (.posted h1 h2 h3 hd h4 h5 h6 h7)
  · exact hrun (by simp [serveEvents, emit, readClose, h1, h2, h3, hd, h4, h5, h6, h7])
      (.postFailed h1 h2 h3 hd h4 h5 h6 h7)

/-- The `/events` route of `ServeHTTP`: an error is logged unless the status was 200. -/
def BootsHTTPServer.serveEventsRoute (lib : Stdlib) (s : BootsHTTPServer) (req : Request) :
    HandlerM Unit := do
  let (code, err) ← serveEvents lib (eventServerForReporterFinder s.reporter s.finder) req
  let some err := err | return
  if code != statusOK then
    emit (.logError err)

/-- The events a run posted, with the instance ID and payload. -/
def posts (t : List Event) : List (String × String) :=
  t.filterMap fun
    | .postInstanceEvent id payload => some (id, payload)
    | _ => none

/-- The errors a run logged. -/
def loggedErrors (t : List Event) : List GoError :=
  t.filterMap fun
    | .logError err => some err
    | _ => none

theorem loggedErrors_append (t u : List Event) :
    loggedErrors (t ++ u) = loggedErrors t ++ loggedErrors u :=
  List.filterMap_append _ _ _

end Boots.Http
