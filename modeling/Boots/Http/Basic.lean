import Mathlib.Data.List.Basic

/-! What the handlers of `cmd/boots/http.go` pass around: Go errors, status codes, the job a
request resolves to, the collaborators behind the server, and the events a handler run emits. -/
namespace Boots.Http

/-- A Go `error`; only its message can be observed. -/
structure GoError where
  msg : String
  deriving DecidableEq, Repr

namespace GoError

/-- `errors.New`. -/
def new (msg : String) : GoError := ⟨msg⟩

/-- `errors.Wrap(err, msg)`: a nil error stays nil. -/
def wrap (err : Option GoError) (msg : String) : Option GoError :=
  err.map fun e => ⟨msg ++ ": " ++ e.msg⟩

@[simp] theorem wrap_none (msg : String) : wrap none msg = none := rfl

@[simp] theorem wrap_some (e : GoError) (msg : String) :
    wrap (some e) msg = some ⟨msg ++ ": " ++ e.msg⟩ := rfl

@[simp] theorem wrap_eq_none (err : Option GoError) (msg : String) :
    wrap err msg = none ↔ err = none := Option.map_eq_none'

end GoError

/-- `http.StatusOK`. -/
def statusOK : Nat := 200
/-- `http.StatusMovedPermanently`. -/
def statusMovedPermanently : Nat := 301
/-- `http.StatusBadRequest`. -/
def statusBadRequest : Nat := 400
/-- `http.StatusNotFound`. -/
def statusNotFound : Nat := 404
/-- `http.StatusInternalServerError`. -/
def statusInternalServerError : Nat := 500

/-- The panic of a method call on a nil interface value. -/
def nilDereference : String := "runtime error: invalid memory address or nil pointer dereference"

/-- What the handlers read of a `*job.Job`: `AllowPXE()`, `CanWorkflow()`, `HardwareID()`.
Package `job` computes them from the hardware record, so every value is possible here. -/
structure Job where
  allowPXE : Bool
  canWorkflow : Bool
  hardwareID : String
  deriving DecidableEq, Repr

/-- `net.IP`, a byte slice. -/
structure IP where
  bytes : List UInt8
  deriving DecidableEq, Repr

/-- `job.Manager`. A Go `(value, error)` result is a pair; the value is not read on error. -/
structure Manager where
  createFromRemoteAddr : String → Job × Option GoError

/-- `client.WorkflowFinder`. -/
structure WorkflowFinder where
  hasActiveWorkflow : String → Bool × Option GoError

/-- `client.Instance`; only its `ID` is read. -/
structure Instance where
  id : String
  deriving DecidableEq, Repr

/-- `client.Discoverer`; only `Instance()` is read, nil when the hardware has no instance. -/
structure Discoverer where
  instance? : Option Instance
  deriving DecidableEq, Repr

/-- `client.HardwareFinder`. -/
structure HardwareFinder where
  byIP : IP → Discoverer × Option GoError

/-- `client.Reporter`; the event body is the bytes of its reader. -/
structure Reporter where
  postInstanceEvent : String → String → String × Option GoError

/-- `BootsHTTPServer`. A nil `workflowFinder` interface is `none`. -/
structure BootsHTTPServer where
  workflowFinder : Option WorkflowFinder
  reporter : Reporter
  finder : HardwareFinder
  jobManager : Manager

/-- `req.Body`: `io.ReadAll` returns `data`, and `readErr` when reading stopped on an error. -/
structure Body where
  data : List UInt8
  readErr : Option GoError
  deriving DecidableEq, Repr

/-- The parts of an `*http.Request` that the mux and the handlers read: `Method`, `Host`,
`URL.Host`, `URL.Path`, `RemoteAddr` and `Body`. -/
structure Request where
  method : String
  host : String
  urlHost : String
  path : String
  remoteAddr : String
  body : Body
  deriving DecidableEq, Repr

/-- What the health check reports and meets: the build's `GitRev`, the JSON text `encoding/json`
writes for the uptime `time.Since(start).Seconds()`, `runtime.NumGoroutine()`, and the error of
the response writer's `Write`. -/
structure Runtime where
  gitRev : String
  uptime : String
  goroutines : Nat
  writeErr : Option GoError
  deriving DecidableEq, Repr

/-- The `job.Job` method a handler hands the request to. -/
inductive Delegate where
  | serveFile
  | addHardware
  | servePhoneHomeEndpoint
  | serveProblemEndpoint
  deriving DecidableEq, Repr

/-- What a handler run does that a collaborator or the client can observe. -/
inductive Event where
  | createFromRemoteAddr (addr : String)
  | hasActiveWorkflow (hardwareID : String)
  | getInstanceIDFromIP (ip : IP)
  | postInstanceEvent (id : String) (payload : String)
  | delegate (d : Delegate) (j : Job)
  | writeHeader (code : Nat)
  | write (data : List UInt8)
  | logError (err : GoError)
  | panic (msg : String)
  | external (pattern : String)
  deriving DecidableEq, Repr

/-- The events that write to the `http.ResponseWriter`. -/
@[simp] def Event.isWrite : Event → Bool
  | .writeHeader _ | .write _ => true
  | _ => false

/-- A handler run emits its events oldest first; Go's early `return` is the do block's. -/
abbrev HandlerM := StateM (List Event)

def emit (e : Event) : HandlerM Unit := modify (· ++ [e])

/-- The events of a run from the start of a request. -/
def trace {α : Type} (m : HandlerM α) : List Event := (m.run []).2

/-- What a run returns. -/
def result {α : Type} (m : HandlerM α) : α := (m.run []).1

/-- The job an event hands the request to, when it is a delegation. -/
@[simp] def Event.delegation? : Event → Option (Delegate × Job)
  | .delegate d j => some (d, j)
  | _ => none

/-- The jobs a run handed the request to, with the method used. -/
def delegations (t : List Event) : List (Delegate × Job) := t.filterMap Event.delegation?

/-- A GET request for `path` from the DHCP client at 10.0.0.2, port 68, with an empty body. -/
def clientRequest (path : String) : Request := ⟨"GET", "", "", path, "10.0.0.2:68", ⟨[], none⟩⟩

end Boots.Http
