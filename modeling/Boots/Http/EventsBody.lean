import Boots.Http.JsonMarshal
import Boots.Http.JsonInvariant
import Boots.Http.ServerRelay

/-! `/events` with Go's `json.Unmarshal` as the decoder: a device posting any object of literal
members gets the user event of what `decodeObject` makes of it; a body of one literal, only null. -/
namespace Boots.Http

open JsonDecode JsonScan

section Device

variable {lib : Stdlib} {es : EventsServer} {req : Request} {host port d : String} {ip : IP}
  (hlib : lib.unmarshal = goUnmarshal) (hsplit : lib.splitHostPort req.remoteAddr = (host, port, none))
  (hip : lib.parseIP host = some ip) (hid : es.getInstanceIDFromIP ip = (d, none)) (hd : d ≠ "")

include hlib hsplit hip hid hd

/-- With Go's decoder, a device's request is relayed with the user event of what its body decodes
to, or not at all when the body does not decode. -/
theorem relayedEvent_goUnmarshal (hread : req.body.readErr = none) (hne : req.body.data ≠ []) :
    relayedEvent lib es req = (unmarshalEvent req.body.data).map fun r => (d, (marshal (userEvent r)).1) := by
  rcases h : unmarshalEvent req.body.data with _ | r <;>
    simp [relayedEvent, hsplit, hip, hid, hd, hread, hne, hlib, goUnmarshal, h]

/-- A device at an address that names its instance `d`, posting an object of literal members with
spaces around it, gets the user event of what the object decodes to posted to `d`, and nothing
posted when it does not decode. -/
theorem serveEvents_posts_decoded_object {b : List UInt8} {ms : List (List Char × Literal)}
    (hobj : ObjectText b ms) {ws ws' : List UInt8} (hws : Ws ws) (hws' : Ws ws')
    (hbody : req.body = ⟨ws ++ b ++ ws', none⟩) :
    posts (trace (serveEvents lib es req)) =
      ((decodeObject ms).map fun r => (d, (marshal (userEvent r)).1)).toList := by
  have hne : ws ++ b ++ ws' ≠ [] := by cases hobj <;> simp
  rw [(serveEvents_run lib es req).1, relayedEvent_goUnmarshal hlib hsplit hip hid hd (by rw [hbody])
    (by rw [hbody]; exact hne), hbody, unmarshalEvent_object hobj hws hws']

/-- A device posting one literal, with spaces around it or not, gets the zero event posted for
null, "user.0" with no state and no message, and nothing posted for any other literal. -/
theorem serveEvents_posts_literal {b : List UInt8} {lit : Literal} (hlit : LiteralText b lit)
    {ws ws' : List UInt8} (hws : Ws ws) (hws' : Ws ws') (hbody : req.body = ⟨ws ++ b ++ ws', none⟩) :
    posts (trace (serveEvents lib es req)) =
      if lit = .value .null then [(d, (marshal (userEvent ⟨0, "", ""⟩)).1)] else [] := by
  have hne : ws ++ b ++ ws' ≠ [] := by simp [hlit.ne_nil]
  rw [(serveEvents_run lib es req).1, relayedEvent_goUnmarshal hlib hsplit hip hid hd (by rw [hbody])
    (by rw [hbody]; exact hne), hbody, unmarshalEvent_literal hlit hws hws']
  split_ifs <;> rfl

end Device

/-- The device at 10.0.0.2, whose record carries "inst-1", posting the object of `spacedObject`
after a space and before a newline, gets what it decodes to posted to "inst-1". -/
theorem spaced_object_posted :
    posts (trace (serveEvents ipv4Stdlib (eventServerForReporterFinder (instanceServer "inst-1").reporter
      (instanceServer "inst-1").finder) (eventsRequest ([0x20] ++ spacedObject ++ [0x0A])))) =
      ((decodeObject [("code".toList, .value (.int 5)), ("state".toList, .value (.str "café".toList))]).map
        fun r => ("inst-1", (marshal (userEvent r)).1)).toList :=
  serveEvents_posts_decoded_object rfl (show ipv4Stdlib.splitHostPort "10.0.0.2:68" = ("10.0.0.2", "68", none) by
    decide) rfl rfl (by decide) spacedObject_text (by decide) (by decide) rfl

/-- The same device posting null, a space before it and a newline after, gets "user.0" posted. -/
theorem null_body_posted :
    posts (trace (serveEvents ipv4Stdlib (eventServerForReporterFinder (instanceServer "inst-1").reporter
      (instanceServer "inst-1").finder) (eventsRequest ([0x20] ++ [0x6E, 0x75, 0x6C, 0x6C] ++ [0x0A])))) =
      if Literal.value .null = .value .null then [("inst-1", (marshal (userEvent ⟨0, "", ""⟩)).1)] else [] :=
  serveEvents_posts_literal rfl (show ipv4Stdlib.splitHostPort "10.0.0.2:68" = ("10.0.0.2", "68", none) by decide)
    rfl rfl (by decide) .null (by decide) (by decide) rfl

end Boots.Http
