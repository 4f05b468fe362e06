import Boots.Http.Relay
import Boots.Http.Net

/-! `serveEvents` behind Go's HTTP server, whose `RemoteAddr` for a client at an IPv4 address is
`JoinHostPort` of the address's `String` and the port: the finder is asked about that address. -/
namespace Boots.Http

/-- The addresses a run asked the finder about. -/
def lookups (t : List Event) : List IP :=
  t.filterMap fun
    | .getInstanceIDFromIP ip => some ip
    | _ => none

theorem EventsExit.lookups_eq {lib : Stdlib} {es : EventsServer} {req : Request}
    {r : Nat × Option GoError} {t : List Event} (h : EventsExit lib es req r t) :
    lookups t = match lib.splitHostPort req.remoteAddr with
      | (host, _, none) => (lib.parseIP host).toList
      | _ => [] := by
  cases h <;> simp [lookups, *]

/-- `serveEvents` asks the finder once, about the IP it parsed from the client's host. -/
theorem lookups_serveEvents (lib : Stdlib) (es : EventsServer) (req : Request) :
    lookups (trace (serveEvents lib es req)) = match lib.splitHostPort req.remoteAddr with
      | (host, _, none) => (lib.parseIP host).toList
      | _ => [] :=
  (serveEvents_exit lib es req).lookups_eq

/-- Behind Go's HTTP server, `RemoteAddr` for a client at an IPv4 address is `JoinHostPort` of
the address's `String` and the decimal port; Go's `net` functions read the address back. -/
theorem client_address_parsed (parseIPv6 : List Char → Option IP) (other : IP → String)
    {lib : Stdlib} {req : Request} {ip : IP} {a b c d : UInt8} (port : Nat)
    (hsplit : lib.splitHostPort = Net.splitHostPort)
    (hparse : lib.parseIP = Net.parseIP parseIPv6) (h4 : ip.to4 = some ⟨[a, b, c, d]⟩)
    (hr : req.remoteAddr = Net.joinHostPort (ip.string other) (toString port)) :
    lib.splitHostPort req.remoteAddr = (⟨Net.dotted a b c d⟩, toString port, none) ∧
      lib.parseIP ⟨Net.dotted a b c d⟩ = some (Net.ipv4 a b c d) := by
  have hdot := Net.plain_of_digits fun _ => Net.mem_dotted (a := a) (b := b) (c := c) (d := d)
  refine ⟨?_, by rw [hparse]; exact Net.parseIP_dotted parseIPv6 a b c d⟩
  rw [hsplit, hr, IP.string_of_to4 other h4, Net.joinHostPort, if_neg hdot.1]
  exact Net.splitHostPort_plain hdot (Net.plain_toString port)

/-- With the server's own events server, `serveEvents` posts only to the instance the finder
gives for the IP it parsed from the client's host. -/
theorem posts_serveEvents_of_parsed (lib : Stdlib) (s : BootsHTTPServer) {req : Request}
    {host port : String} {ip : IP} (hsp : lib.splitHostPort req.remoteAddr = (host, port, none))
    (hip : lib.parseIP host = some ip) {id payload : String}
    (h : (id, payload) ∈
      posts (trace (serveEvents lib (eventServerForReporterFinder s.reporter s.finder) req))) :
    ∃ disc, s.finder.byIP ip = (disc, none) ∧ disc.instance? = some ⟨id⟩ ∧ id ≠ "" := by
  rw [(serveEvents_run lib _ req).1, Option.mem_toList, Option.mem_def, relayedEvent_eq_some] at h
  obtain ⟨_, ⟨host', port', ip', h1, h2, h3, hd, -⟩, -⟩ := h
  rw [hsp] at h1
  cases h1
  rw [hip] at h2
  cases h2
  rcases hb : s.finder.byIP ip with ⟨⟨_ | ⟨⟨i⟩⟩⟩, _ | e⟩ <;>
    simp_all [eventServerForReporterFinder, getInstanceIDFromIP]

/-- Behind Go's HTTP server, whose `RemoteAddr` for a client at an IPv4 address is `JoinHostPort`
of the address's `String` and the decimal port, `serveEvents` on Go's `net` functions asks the
finder about the client's own address and no other, and posts only to the instance the finder
gives for that address. -/
theorem serveEvents_serves_client_address (parseIPv6 : List Char → Option IP)
    (other : IP → String) (lib : Stdlib) (s : BootsHTTPServer) (req : Request) {ip : IP}
    {a b c d : UInt8} (port : Nat) (hsplit : lib.splitHostPort = Net.splitHostPort)
    (hparse : lib.parseIP = Net.parseIP parseIPv6) (h4 : ip.to4 = some ⟨[a, b, c, d]⟩)
    (hr : req.remoteAddr = Net.joinHostPort (ip.string other) (toString port)) :
    lookups (trace (serveEvents lib (eventServerForReporterFinder s.reporter s.finder) req)) =
      [Net.ipv4 a b c d] ∧
    ∀ id payload, (id, payload) ∈
        posts (trace (serveEvents lib (eventServerForReporterFinder s.reporter s.finder) req)) →
      ∃ disc, s.finder.byIP (Net.ipv4 a b c d) = (disc, none) ∧ disc.instance? = some ⟨id⟩ ∧
        id ≠ "" := by
  obtain ⟨hsp, hip⟩ := client_address_parsed parseIPv6 other port hsplit hparse h4 hr
  exact ⟨by rw [lookups_serveEvents, hsp]; simp [hip],
    fun _ _ => posts_serveEvents_of_parsed lib s hsp hip⟩

/-- The client 10.0.0.2, port 68, is looked up at its own address. -/
theorem client_looked_up_at_its_address :
    ipv4Stdlib.splitHostPort = Net.splitHostPort ∧
    ipv4Stdlib.parseIP = Net.parseIP (fun _ => none) ∧
    (⟨[10, 0, 0, 2]⟩ : IP).to4 = some ⟨[10, 0, 0, 2]⟩ ∧
    (eventsRequest bootBody).remoteAddr =
      Net.joinHostPort ((⟨[10, 0, 0, 2]⟩ : IP).string fun _ => "") (toString 68) ∧
    (lookups (trace (serveEvents ipv4Stdlib (eventServerForReporterFinder
        (instanceServer "inst-1").reporter (instanceServer "inst-1").finder)
        (eventsRequest bootBody))) = [Net.ipv4 10 0 0 2] ∧
    ∀ id payload, (id, payload) ∈ posts (trace (serveEvents ipv4Stdlib (eventServerForReporterFinder
        (instanceServer "inst-1").reporter (instanceServer "inst-1").finder)
        (eventsRequest bootBody))) →
      ∃ disc, (instanceServer "inst-1").finder.byIP (Net.ipv4 10 0 0 2) = (disc, none) ∧
        disc.instance? = some ⟨id⟩ ∧ id ≠ "") :=
  ⟨rfl, rfl, rfl, by decide, serveEvents_serves_client_address (fun _ => none) (fun _ => "") _ _ _ 68
    rfl rfl (rfl : (⟨[10, 0, 0, 2]⟩ : IP).to4 = some ⟨[10, 0, 0, 2]⟩) (by decide)⟩

end Boots.Http
