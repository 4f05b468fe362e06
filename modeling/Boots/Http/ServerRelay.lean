import Boots.Http.Addr
import Boots.Http.Server

/-! The relay as the whole server runs it: only `/events` calls the finder's `ByIP` or the
reporter, so a request asks about its client's address alone and posts only to the instance there. -/
namespace Boots.Http

/-- The `/events` route asks and posts exactly what `serveEvents` does; it only adds a log line. -/
theorem serveEventsRoute_relays (lib : Stdlib) (s : BootsHTTPServer) (req : Request) :
    lookups (trace (s.serveEventsRoute lib req)) =
      lookups (trace (serveEvents lib (eventServerForReporterFinder s.reporter s.finder) req)) ∧
    posts (trace (s.serveEventsRoute lib req)) =
      posts (trace (serveEvents lib (eventServerForReporterFinder s.reporter s.finder) req)) := by
  rw [serveEventsRoute_trace]
  split
  · split <;> simp [lookups, posts]
  · simp

theorem JobTail.unrelayed {a : String} {t : List Event} (h : JobTail t) :
    lookups (.createFromRemoteAddr a :: t) = [] ∧ posts (.createFromRemoteAddr a :: t) = [] := by
  cases h with
  | workflowCheck wf d j =>
    unfold Boots.Http.workflowCheck
    split <;> exact ⟨rfl, rfl⟩
  | _ => exact ⟨rfl, rfl⟩

/-- A request either leaves the finder and the reporter alone, or the mux handed it to the
`/events` route. -/
theorem serve_unrelayed_or_events (lib : Stdlib) (s : BootsHTTPServer) (mux : ServeMux Route)
    (req : Request) :
    (lookups (trace (s.serve lib mux req)) = [] ∧ posts (trace (s.serve lib mux req)) = []) ∨
    ∃ pattern, mux.Handler lib.cleanPath lib.stripHostPort req = .serve .events pattern ∧
      trace (s.serve lib mux req) = trace (s.serveEventsRoute lib req) := by
  unfold BootsHTTPServer.serve
  split
  · rw [redirectHandler_trace]
    exact .inl (by split <;> exact ⟨rfl, rfl⟩)
  · rename_i r pattern hd
    rcases runRoute_trace lib s req pattern r with ⟨-, t, ht, hj⟩ | ⟨rfl, ht⟩ | ⟨-, ht⟩ | ht
    · exact .inl (ht ▸ hj.unrelayed)
    · exact .inr ⟨pattern, hd, ht⟩
    · rw [ht, serveHealthchecker_trace]
      exact .inl (by split <;> exact ⟨rfl, rfl⟩)
    · exact .inl (by rw [ht]; exact ⟨rfl, rfl⟩)
  · exact .inl ⟨rfl, rfl⟩

/-- Whatever the mux and the path, a request from a client at an IPv4 address, behind Go's HTTP
server and `net` functions, makes the server ask the finder about that address and no other,
and post only to the instance the finder gives for it. (The `X-Forwarded-For` wrapper, which may
rewrite `RemoteAddr` from a header, is not modelled.) -/
theorem serve_relays_for_client_only (parseIPv6 : List Char → Option IP) (other : IP → String)
    (lib : Stdlib) (s : BootsHTTPServer) (mux : ServeMux Route) (req : Request) {ip : IP}
    {a b c d : UInt8} (port : Nat) (hsplit : lib.splitHostPort = Net.splitHostPort)
    (hparse : lib.parseIP = Net.parseIP parseIPv6) (h4 : ip.to4 = some ⟨[a, b, c, d]⟩)
    (hr : req.remoteAddr = Net.joinHostPort (ip.string other) (toString port)) :
    (∀ x ∈ lookups (trace (s.serve lib mux req)), x = Net.ipv4 a b c d) ∧
    ∀ id payload, (id, payload) ∈ posts (trace (s.serve lib mux req)) →
      ∃ disc, s.finder.byIP (Net.ipv4 a b c d) = (disc, none) ∧
        disc.instance? = some ⟨id⟩ ∧ id ≠ "" := by
  obtain ⟨hsp, hip⟩ := client_address_parsed parseIPv6 other port hsplit hparse h4 hr
  rcases serve_unrelayed_or_events lib s mux req with ⟨hl, hp⟩ | ⟨-, -, ht⟩
  · simp [hl, hp]
  · rw [ht, (serveEventsRoute_relays lib s req).1, (serveEventsRoute_relays lib s req).2,
      lookups_serveEvents, hsp]
    exact ⟨by simp [hip], fun _ _ => posts_serveEvents_of_parsed lib s hsp hip⟩

section Deployed

variable {ipxePattern : String} {ipxeHandler : Bool} {order : List (String × Route)}
  {mux : ServeMux Route}

/-- On the mux `ServeHTTP` builds with rooted patterns, "/events" reaches the `/events` route,
whatever the method. -/
theorem serveMux_events (hmux : serveMux ipxePattern ipxeHandler order = .ok mux)
    (hroot : ∀ r ∈ routes ipxePattern ipxeHandler ++ order, hasPrefix r.1 "/" = true)
    (stripHostPort : String → String) {req : Request} (hpath : req.path = "/events") :
    mux.Handler cleanPath stripHostPort req = .serve .events "/events" := by
  obtain ⟨hw, hm, -⟩ := ServeMux.register_ok ServeMux.wf_empty hmux
  have hm : ∀ p r, mux.m p = some r ↔ (p, r) ∈ routes ipxePattern ipxeHandler ++ order :=
    fun p r => by simpa [ServeMux.empty] using hm p r
  have he : mux.m "/events" = some .events := (hm _ _).mpr (by simp [routes, builtinRoutes])
  have hh (host : String) : mux.handler host "/events" = some (.events, "/events") := by
    rw [hw.handler_of_rooted (fun q r hq => hroot _ ((hm q r).mp hq))]
    simp [ServeMux.match?, he]
  have hc : cleanPath "/events" = "/events" := by decide
  by_cases hc' : req.method = "CONNECT" <;>
    simp [ServeMux.Handler, hc', hpath, hc, hh, ServeMux.shouldRedirect, he, ServeMux.Dispatch.ofHandler]

/-- The deployed mux, the events route's fixture and a client at 10.0.0.2: whatever the
server's answers, it asks about 10.0.0.2 alone. -/
theorem client_request_relays_for_client :
    ∃ mux, serveMux "/auto.ipxe" true (httpHandlers "/ignition.json" "/ks.cfg") = .ok mux ∧
    ipv4Stdlib.splitHostPort = Net.splitHostPort ∧
    ipv4Stdlib.parseIP = Net.parseIP (fun _ => none) ∧
    (⟨[10, 0, 0, 2]⟩ : IP).to4 = some ⟨[10, 0, 0, 2]⟩ ∧
    (eventsRequest bootBody).remoteAddr =
      Net.joinHostPort ((⟨[10, 0, 0, 2]⟩ : IP).string fun _ => "") (toString 68) ∧
    (∀ x ∈ lookups (trace ((instanceServer "inst-1").serve ipv4Stdlib mux
      (eventsRequest bootBody))), x = Net.ipv4 10 0 0 2) ∧
    ∀ id payload, (id, payload) ∈ posts (trace ((instanceServer "inst-1").serve ipv4Stdlib mux
        (eventsRequest bootBody))) →
      ∃ disc, (instanceServer "inst-1").finder.byIP (Net.ipv4 10 0 0 2) = (disc, none) ∧
        disc.instance? = some ⟨id⟩ ∧ id ≠ "" := by
  obtain ⟨mux, hmux⟩ : ∃ mux, serveMux "/auto.ipxe" true
      (httpHandlers "/ignition.json" "/ks.cfg") = .ok mux :=
    (ServeMux.register_empty_ok_iff _).mpr ⟨by decide, by decide⟩
  have hr : (eventsRequest bootBody).remoteAddr =
      Net.joinHostPort ((⟨[10, 0, 0, 2]⟩ : IP).string fun _ => "") (toString 68) := by decide
  exact ⟨mux, hmux, rfl, rfl, rfl, hr, serve_relays_for_client_only (fun _ => none) (fun _ => "")
    _ _ _ _ 68 rfl rfl (rfl : (⟨[10, 0, 0, 2]⟩ : IP).to4 = some ⟨[10, 0, 0, 2]⟩) hr⟩

/-- On the mux `ServeHTTP` builds, with rooted patterns and Go's `cleanPath` and `net`
functions, a request for "/events" from a client at an IPv4 address reaches the relay, which
asks the finder about that address. -/
theorem events_request_looked_up (parseIPv6 : List Char → Option IP) (other : IP → String)
    (lib : Stdlib) (s : BootsHTTPServer) (hmux : serveMux ipxePattern ipxeHandler order = .ok mux)
    (hroot : ∀ r ∈ routes ipxePattern ipxeHandler ++ order, hasPrefix r.1 "/" = true)
    (hc : lib.cleanPath = cleanPath) {req : Request} {ip : IP} {a b c d : UInt8} (port : Nat)
    (hsplit : lib.splitHostPort = Net.splitHostPort)
    (hparse : lib.parseIP = Net.parseIP parseIPv6) (h4 : ip.to4 = some ⟨[a, b, c, d]⟩)
    (hr : req.remoteAddr = Net.joinHostPort (ip.string other) (toString port))
    (hpath : req.path = "/events") :
    lookups (trace (s.serve lib mux req)) = [Net.ipv4 a b c d] := by
  obtain ⟨hsp, hip⟩ := client_address_parsed parseIPv6 other port hsplit hparse h4 hr
  have ht : trace (s.serve lib mux req) = trace (s.serveEventsRoute lib req) := by
    simp only [BootsHTTPServer.serve, hc, serveMux_events hmux hroot _ hpath]
    rfl
  rw [ht, (serveEventsRoute_relays lib s req).1, lookups_serveEvents, hsp]
  simp [hip]

/-- With an iPXE handler and installer paths of their own, a request for "/events" from
10.0.0.2 is looked up at 10.0.0.2. -/
theorem deployed_events_request_looked_up :
    ∃ mux, serveMux "/auto.ipxe" true (httpHandlers "/ignition.json" "/ks.cfg") = .ok mux ∧
      (∀ r ∈ routes "/auto.ipxe" true ++ httpHandlers "/ignition.json" "/ks.cfg",
        hasPrefix r.1 "/" = true) ∧
      ipv4Stdlib.cleanPath = cleanPath ∧ ipv4Stdlib.splitHostPort = Net.splitHostPort ∧
      ipv4Stdlib.parseIP = Net.parseIP (fun _ => none) ∧
      (⟨[10, 0, 0, 2]⟩ : IP).to4 = some ⟨[10, 0, 0, 2]⟩ ∧
      (eventsRequest bootBody).remoteAddr =
        Net.joinHostPort ((⟨[10, 0, 0, 2]⟩ : IP).string fun _ => "") (toString 68) ∧
      (eventsRequest bootBody).path = "/events" ∧
      lookups (trace ((instanceServer "inst-1").serve ipv4Stdlib mux (eventsRequest bootBody))) =
        [Net.ipv4 10 0 0 2] := by
  obtain ⟨mux, hmux⟩ : ∃ mux, serveMux "/auto.ipxe" true
      (httpHandlers "/ignition.json" "/ks.cfg") = .ok mux :=
    (ServeMux.register_empty_ok_iff _).mpr ⟨by decide, by decide⟩
  have hroot : ∀ r ∈ routes "/auto.ipxe" true ++ httpHandlers "/ignition.json" "/ks.cfg",
      hasPrefix r.1 "/" = true := by decide
  have hr : (eventsRequest bootBody).remoteAddr =
      Net.joinHostPort ((⟨[10, 0, 0, 2]⟩ : IP).string fun _ => "") (toString 68) := by decide
  exact ⟨mux, hmux, hroot, rfl, rfl, rfl, rfl, hr, rfl,
    events_request_looked_up (fun _ => none) (fun _ => "") _ _ hmux hroot rfl 68 rfl rfl
      (rfl : (⟨[10, 0, 0, 2]⟩ : IP).to4 = some ⟨[10, 0, 0, 2]⟩) hr rfl⟩

end Deployed

end Boots.Http
