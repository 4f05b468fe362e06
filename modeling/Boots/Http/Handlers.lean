import Boots.Http.ResponseWriter
import Boots.Http.Json

/-! The handlers of `http.go` other than `/events`: the job handlers and the health check, with
the trace each one emits for every answer of its collaborators. Metrics and debug log lines are
left out; they write nothing the client or a collaborator reads. -/
namespace Boots.Http

/-- `jobHandler`; its installers are only passed on to `ServeFile`. -/
structure JobHandler where
  jobManager : Manager

/-- `(*jobHandler).serveJobFile`, the `/` route: 404 unless a job resolves and may PXE boot. -/
def JobHandler.serveJobFile (h : JobHandler) (req : Request) : HandlerM Unit := do
  emit (.createFromRemoteAddr req.remoteAddr)
  let (j, err) := h.jobManager.createFromRemoteAddr req.remoteAddr
  if err.isSome then
    emit (.writeHeader statusNotFound)
    return
  if !j.allowPXE then
    emit (.writeHeader statusNotFound)
    return
  emit (.delegate .serveFile j)

namespace BootsHTTPServer

/-- `serveHardware`, the `/hardware-components` route. Unlike `serveProblem` it does not test
`workflowFinder` for nil before calling it. -/
def serveHardware (s : BootsHTTPServer) (req : Request) : HandlerM Unit := do
  emit (.createFromRemoteAddr req.remoteAddr)
  let (j, err) := s.jobManager.createFromRemoteAddr req.remoteAddr
  if err.isSome then
    emit (.writeHeader statusNotFound)
    return
  if j.canWorkflow then
    let some wf := s.workflowFinder
      | do emit (.panic nilDereference); return
    emit (.hasActiveWorkflow j.hardwareID)
    let (activeWorkflows, err) := wf.hasActiveWorkflow j.hardwareID
    if err.isSome then
      emit (.writeHeader statusNotFound)
      return
    if !activeWorkflows then
      emit (.writeHeader statusNotFound)
      return
  emit (.delegate .addHardware j)

/-- `servePhoneHome`, the `/phone-home` route: 200 when no job resolves. -/
def servePhoneHome (s : BootsHTTPServer) (req : Request) : HandlerM Unit := do
  emit (.createFromRemoteAddr req.remoteAddr)
  let (j, err) := s.jobManager.createFromRemoteAddr req.remoteAddr
  if err.isSome then
    emit (.writeHeader statusOK)
    return
  emit (.delegate .servePhoneHomeEndpoint j)

/-- `serveProblem`, the `/problem` route; the workflow test runs only when
`j.CanWorkflow() && s.workflowFinder != nil`. -/
def serveProblem (s : BootsHTTPServer) (req : Request) : HandlerM Unit := do
  emit (.createFromRemoteAddr req.remoteAddr)
  let (j, err) := s.jobManager.createFromRemoteAddr req.remoteAddr
  if err.isSome then
    emit (.writeHeader statusNotFound)
    return
  if j.canWorkflow then
    if let some wf := s.workflowFinder then
      emit (.hasActiveWorkflow j.hardwareID)
      let (activeWorkflows, err) := wf.hasActiveWorkflow j.hardwareID
      if err.isSome then
        emit (.writeHeader statusNotFound)
        return
      if !activeWorkflows then
        emit (.writeHeader statusNotFound)
        return
  emit (.delegate .serveProblemEndpoint j)

/-- The report `json.NewEncoder(w).Encode` writes for the health check: the struct's fields under
their tags, then a newline. -/
def healthReport (rt : Runtime) : List UInt8 :=
  (String.mk ("\x7b\"git_rev\":\"".toList ++ quoteTail rt.gitRev.toList ++ ",\"uptime\":".toList ++
    rt.uptime.toList ++ ",\"goroutines\":".toList ++ (toString rt.goroutines).toList ++
    ['\x7d', '\n'])).toUTF8.data.toList

/-- `serveHealthchecker`, both health check routes. `Encode` fails only when the writer's `Write`
does, the uptime being finite, so the `WriteHeader(500)` it calls then comes after a write. -/
def serveHealthchecker (rt : Runtime) : HandlerM Unit := do
  emit (.write (healthReport rt))
  let some err := GoError.wrap rt.writeErr "marshaling healtcheck json" | return
  emit (.writeHeader statusInternalServerError)
  emit (.logError err)

end BootsHTTPServer

/-! Traces, one lemma per handler, by what the collaborators answered. -/

section Traces

variable {req : Request} {j : Job} {err : Option GoError}

/-- "returned (true, nil)": the only answer of `HasActiveWorkflow` that lets a request through. -/
def activeOK (answer : Bool × Option GoError) : Bool := answer.2.isNone && answer.1

theorem serveJobFile_trace (h : JobHandler)
    (hr : h.jobManager.createFromRemoteAddr req.remoteAddr = (j, err)) :
    trace (h.serveJobFile req) = .createFromRemoteAddr req.remoteAddr ::
      if err.isNone && j.allowPXE then [.delegate .serveFile j]
      else [.writeHeader statusNotFound] := by
  cases err <;> cases hp : j.allowPXE <;> simp [trace, JobHandler.serveJobFile, emit, hr, hp]

/-- The workflow test both `serveHardware` and `serveProblem` run once they have a finder. -/
def workflowCheck (wf : WorkflowFinder) (d : Delegate) (j : Job) : List Event :=
  .hasActiveWorkflow j.hardwareID ::
    if activeOK (wf.hasActiveWorkflow j.hardwareID) then [.delegate d j]
    else [.writeHeader statusNotFound]

theorem serveHardware_trace (s : BootsHTTPServer)
    (hr : s.jobManager.createFromRemoteAddr req.remoteAddr = (j, err)) :
    trace (s.serveHardware req) = .createFromRemoteAddr req.remoteAddr ::
      if err.isSome then [.writeHeader statusNotFound]
      else if !j.canWorkflow then [.delegate .addHardware j]
      else match s.workflowFinder with
        | none => [.panic nilDereference]
        | some wf => workflowCheck wf .addHardware j := by
  cases err with
  | some e => simp [trace, BootsHTTPServer.serveHardware, emit, hr]
  | none =>
    cases hc : j.canWorkflow
    · simp [trace, BootsHTTPServer.serveHardware, emit, hr, hc]
    · cases hf : s.workflowFinder with
      | none => simp [trace, BootsHTTPServer.serveHardware, emit, hr, hc, hf]
      | some wf =>
        rcases hw : wf.hasActiveWorkflow j.hardwareID with ⟨_ | _, _ | e⟩ <;>
          simp [trace, BootsHTTPServer.serveHardware, emit, hr, hc, hf, hw, workflowCheck, activeOK]

theorem servePhoneHome_trace (s : BootsHTTPServer)
    (hr : s.jobManager.createFromRemoteAddr req.remoteAddr = (j, err)) :
    trace (s.servePhoneHome req) = .createFromRemoteAddr req.remoteAddr ::
      if err.isSome then [.writeHeader statusOK] else [.delegate .servePhoneHomeEndpoint j] := by
  cases err <;> simp [trace, BootsHTTPServer.servePhoneHome, emit, hr]

theorem serveProblem_trace (s : BootsHTTPServer)
    (hr : s.jobManager.createFromRemoteAddr req.remoteAddr = (j, err)) :
    trace (s.serveProblem req) = .createFromRemoteAddr req.remoteAddr ::
      if err.isSome then [.writeHeader statusNotFound]
      else if !j.canWorkflow then [.delegate .serveProblemEndpoint j]
      else match s.workflowFinder with
        | none => [.delegate .serveProblemEndpoint j]
        | some wf => workflowCheck wf .serveProblemEndpoint j := by
  cases err with
  | some e => simp [trace, BootsHTTPServer.serveProblem, emit, hr]
  | none =>
    cases hc : j.canWorkflow
    · simp [trace, BootsHTTPServer.serveProblem, emit, hr, hc]
    · cases hf : s.workflowFinder with
      | none => simp [trace, BootsHTTPServer.serveProblem, emit, hr, hc, hf]
      | some wf =>
        rcases hw : wf.hasActiveWorkflow j.hardwareID with ⟨_ | _, _ | e⟩ <;>
          simp [trace, BootsHTTPServer.serveProblem, emit, hr, hc, hf, hw, workflowCheck, activeOK]

theorem serveHealthchecker_trace (rt : Runtime) :
    trace (BootsHTTPServer.serveHealthchecker rt) = .write (BootsHTTPServer.healthReport rt) ::
      match rt.writeErr with
      | none => []
      | some e => [.writeHeader statusInternalServerError,
          .logError ⟨"marshaling healtcheck json: " ++ e.msg⟩] := by
  cases h : rt.writeErr <;> simp [trace, BootsHTTPServer.serveHealthchecker, emit, h]

end Traces

end Boots.Http
