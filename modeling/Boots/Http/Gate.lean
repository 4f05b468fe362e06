import Boots.Http.Handlers

/-! The gate in front of each job delegate, stated once as what the endpoint is for, and the
four job handlers shown to keep it for every answer of their collaborators. -/
namespace Boots.Http

/-- What a gated endpoint is for: the resolved job gets the request, through `d`, exactly when
`gate` holds of it; otherwise no job is involved and the client gets `refusal`. -/
def Guarded (d : Delegate) (gate : Job → Bool) (refusal : Nat)
    (resolved : Job × Option GoError) (t : List Event) : Prop :=
  if resolved.2.isNone && gate resolved.1 then delegations t = [(d, resolved.1)]
  else delegations t = [] ∧ Response.statusOf t = some refusal

/-- `serveJobFile`'s gate: the hardware record allows PXE. -/
def pxeGate (j : Job) : Bool := j.allowPXE

/-- The workflow gate once a finder is there: no workflow support, or an active workflow. -/
def workflowGate (wf : WorkflowFinder) (j : Job) : Bool :=
  !j.canWorkflow || activeOK (wf.hasActiveWorkflow j.hardwareID)

/-- `serveProblem`'s gate: without a finder every job passes. -/
def problemGate : Option WorkflowFinder → Job → Bool
  | none, _ => true
  | some wf, j => workflowGate wf j

/-- The hardware IDs a run asked `HasActiveWorkflow` about. -/
def workflowQueries (t : List Event) : List String :=
  t.filterMap fun
    | .hasActiveWorkflow id => some id
    | _ => none

section Handlers

variable (req : Request)

theorem serveJobFile_guarded (h : JobHandler) :
    Guarded .serveFile pxeGate statusNotFound
      (h.jobManager.createFromRemoteAddr req.remoteAddr) (trace (h.serveJobFile req)) := by
  rcases hr : h.jobManager.createFromRemoteAddr req.remoteAddr with ⟨j, _ | e⟩ <;>
    cases hp : j.allowPXE <;>
    simp [serveJobFile_trace h hr, Guarded, delegations, pxeGate, hp]

/-- The workflow test, once a finder is there, delegates exactly through `workflowGate`. -/
private theorem workflowCheck_guarded (a : String) (wf : WorkflowFinder) (d : Delegate)
    (j : Job) (hc : j.canWorkflow = true) :
    Guarded d (workflowGate wf) statusNotFound (j, none)
      (.createFromRemoteAddr a :: workflowCheck wf d j) := by
  unfold Guarded workflowCheck
  split <;> simp_all [delegations, workflowGate]

theorem serveProblem_guarded (s : BootsHTTPServer) :
    Guarded .serveProblemEndpoint (problemGate s.workflowFinder) statusNotFound
      (s.jobManager.createFromRemoteAddr req.remoteAddr) (trace (s.serveProblem req)) := by
  rcases hr : s.jobManager.createFromRemoteAddr req.remoteAddr with ⟨j, _ | e⟩
  · rw [serveProblem_trace s hr]
    cases hc : j.canWorkflow
    · cases hf : s.workflowFinder <;>
        simp [Guarded, delegations, problemGate, workflowGate, hc, hf]
    · cases hf : s.workflowFinder with
      | none => simp [Guarded, delegations, problemGate, hc, hf]
      | some wf => simpa [hc, problemGate] using workflowCheck_guarded _ wf _ j hc
  · simp [serveProblem_trace s hr, Guarded, delegations]

theorem serveHardware_guarded (s : BootsHTTPServer) {wf : WorkflowFinder}
    (hf : s.workflowFinder = some wf) :
    Guarded .addHardware (workflowGate wf) statusNotFound
      (s.jobManager.createFromRemoteAddr req.remoteAddr) (trace (s.serveHardware req)) := by
  rcases hr : s.jobManager.createFromRemoteAddr req.remoteAddr with ⟨j, _ | e⟩
  · rw [serveHardware_trace s hr]
    cases hc : j.canWorkflow
    · simp [Guarded, delegations, workflowGate, hc]
    · simpa [hc, hf] using workflowCheck_guarded _ wf _ j hc
  · simp [serveHardware_trace s hr, Guarded, delegations]

/-- In every configuration `serveHardware` reaches `AddHardware` only through the workflow
gate; without a finder it never does for a job that can run workflows. -/
theorem serveHardware_delegates_through_gate (s : BootsHTTPServer) {d : Delegate} {j : Job}
    (hd : (d, j) ∈ delegations (trace (s.serveHardware req))) :
    s.jobManager.createFromRemoteAddr req.remoteAddr = (j, none) ∧ d = .addHardware ∧
      (!j.canWorkflow ∨ ∃ wf, s.workflowFinder = some wf ∧
        activeOK (wf.hasActiveWorkflow j.hardwareID)) := by
  rcases hr : s.jobManager.createFromRemoteAddr req.remoteAddr with ⟨j', _ | e⟩
  · rw [serveHardware_trace s hr] at hd
    cases hc : j'.canWorkflow
    · simp_all [delegations]
    · cases hf : s.workflowFinder with
      | none => simp_all [delegations]
      | some wf =>
        by_cases ha : activeOK (wf.hasActiveWorkflow j'.hardwareID) <;>
          simp_all [delegations, workflowCheck]
  · simp_all [serveHardware_trace s hr, delegations]

private theorem workflowQueries_check (a : String) (wf : WorkflowFinder) (d : Delegate) (j : Job) :
    workflowQueries (.createFromRemoteAddr a :: workflowCheck wf d j) = [j.hardwareID] := by
  unfold workflowCheck
  split <;> rfl

/-- Both workflow handlers ask the finder once, about the resolved job's hardware ID, exactly
when the job resolved, can run workflows and a finder is there. -/
def WorkflowAsked (s : BootsHTTPServer) (resolved : Job × Option GoError) (t : List Event) :
    Prop :=
  workflowQueries t =
    if resolved.2.isNone && resolved.1.canWorkflow && s.workflowFinder.isSome
    then [resolved.1.hardwareID] else []

theorem serveHardware_asks (s : BootsHTTPServer) :
    WorkflowAsked s (s.jobManager.createFromRemoteAddr req.remoteAddr)
      (trace (s.serveHardware req)) := by
  rcases hr : s.jobManager.createFromRemoteAddr req.remoteAddr with ⟨j, _ | e⟩
  · rw [WorkflowAsked, serveHardware_trace s hr]
    cases hc : j.canWorkflow <;> cases s.workflowFinder <;>
      simp [workflowQueries_check, hc] <;> rfl
  · simp [WorkflowAsked, serveHardware_trace s hr, workflowQueries]

theorem serveProblem_asks (s : BootsHTTPServer) :
    WorkflowAsked s (s.jobManager.createFromRemoteAddr req.remoteAddr)
      (trace (s.serveProblem req)) := by
  rcases hr : s.jobManager.createFromRemoteAddr req.remoteAddr with ⟨j, _ | e⟩
  · rw [WorkflowAsked, serveProblem_trace s hr]
    cases hc : j.canWorkflow <;> cases s.workflowFinder <;>
      simp [workflowQueries_check, hc] <;> rfl
  · simp [WorkflowAsked, serveProblem_trace s hr, workflowQueries]

end Handlers

/-- Each job handler hands the request to its job only through its gate and otherwise answers
404 with no job involved. With a finder, `serveHardware` and `serveProblem` share one gate,
decided by their own call about the job's hardware ID; without one, `serveProblem` passes every
job and `serveHardware` still never reaches `AddHardware` for a job that can run workflows. -/
theorem job_handlers_gated (h : JobHandler) (s : BootsHTTPServer) (req : Request) :
    Guarded .serveFile pxeGate statusNotFound
      (h.jobManager.createFromRemoteAddr req.remoteAddr) (trace (h.serveJobFile req)) ∧
    Guarded .serveProblemEndpoint (problemGate s.workflowFinder) statusNotFound
      (s.jobManager.createFromRemoteAddr req.remoteAddr) (trace (s.serveProblem req)) ∧
    (∀ wf, s.workflowFinder = some wf →
      Guarded .addHardware (workflowGate wf) statusNotFound
        (s.jobManager.createFromRemoteAddr req.remoteAddr) (trace (s.serveHardware req)) ∧
      problemGate s.workflowFinder = workflowGate wf) ∧
    (∀ d j, (d, j) ∈ delegations (trace (s.serveHardware req)) →
      s.jobManager.createFromRemoteAddr req.remoteAddr = (j, none) ∧ d = .addHardware ∧
        (!j.canWorkflow ∨ ∃ wf, s.workflowFinder = some wf ∧
          activeOK (wf.hasActiveWorkflow j.hardwareID))) ∧
    WorkflowAsked s (s.jobManager.createFromRemoteAddr req.remoteAddr)
      (trace (s.serveHardware req)) ∧
    WorkflowAsked s (s.jobManager.createFromRemoteAddr req.remoteAddr)
      (trace (s.serveProblem req)) :=
  ⟨serveJobFile_guarded req h, serveProblem_guarded req s,
    fun _ hf => ⟨serveHardware_guarded req s hf, by rw [hf]; rfl⟩,
    fun _ _ hd => serveHardware_delegates_through_gate req s hd,
    serveHardware_asks req s, serveProblem_asks req s⟩

/-- A server with no workflow finder whose job manager resolves every address to `j`. -/
def finderlessServer (j : Job) : BootsHTTPServer :=
  ⟨none, ⟨fun _ _ => ("", none)⟩, ⟨fun _ => (⟨none⟩, none)⟩, ⟨fun _ => (j, none)⟩⟩

/-- Without a finder, `serveProblem` hands a job that can run workflows its request although
`HasActiveWorkflow` was never asked. -/
theorem serveProblem_skips_workflow_check_without_finder :
    let j : Job := ⟨true, true, "hw-0"⟩
    (finderlessServer j).workflowFinder = none ∧ j.canWorkflow = true ∧
      delegations (trace ((finderlessServer j).serveProblem (clientRequest "/problem"))) =
        [(.serveProblemEndpoint, j)] ∧
      workflowQueries (trace ((finderlessServer j).serveProblem (clientRequest "/problem"))) =
        [] :=
  ⟨rfl, rfl, rfl, rfl⟩

end Boots.Http
