import Boots.Http.Basic

/-! `net/http`'s response writer as a state machine driven by the writes of one handler run.
Its status is committed by the first write and no later event changes it. -/
namespace Boots.Http

/-- What has reached an `http.ResponseWriter`: the committed status and the body. -/
structure Response where
  status : Option Nat
  body : List UInt8
  deriving DecidableEq, Repr

namespace Response

/-- Nothing written yet. -/
def empty : Response := ⟨none, []⟩

/-- `bodyAllowedForStatus`: 1xx, 204 and 304 responses carry no body. -/
def bodyAllowedForStatus (status : Nat) : Bool :=
  !(100 ≤ status && status ≤ 199) && status != 204 && status != 304

/-- `checkWriteHeaderCode`: whether `WriteHeader` accepts `code` rather than panicking. -/
def checkWriteHeaderCode (code : Nat) : Bool := 100 ≤ code && code ≤ 999

@[simp] theorem checkWriteHeaderCode_statusOK : checkWriteHeaderCode statusOK = true := rfl
@[simp] theorem checkWriteHeaderCode_statusBadRequest :
    checkWriteHeaderCode statusBadRequest = true := rfl
@[simp] theorem checkWriteHeaderCode_statusMovedPermanently :
    checkWriteHeaderCode statusMovedPermanently = true := rfl
@[simp] theorem checkWriteHeaderCode_statusNotFound :
    checkWriteHeaderCode statusNotFound = true := rfl
@[simp] theorem checkWriteHeaderCode_statusInternalServerError :
    checkWriteHeaderCode statusInternalServerError = true := rfl

/-- `(*response).WriteHeader`: the first call commits the status, a later one is superfluous
and only logged; a code `checkWriteHeaderCode` rejects panics. -/
def writeHeader (r : Response) (code : Nat) : Except String Response :=
  if r.status.isSome then .ok r
  else if checkWriteHeaderCode code then .ok { r with status := some code }
  else .error s!"invalid WriteHeader code {code}"

/-- `(*response).Write`: an uncommitted response commits `http.StatusOK` first; an empty write
ends there, and a status without a body drops the data (`ErrBodyNotAllowed`). -/
def write (r : Response) (data : List UInt8) : Response :=
  let status := r.status.getD statusOK
  if data.isEmpty || !bodyAllowedForStatus status then { r with status := some status }
  else ⟨some status, r.body ++ data⟩

/-- One event of a run; only the handler's own writes reach the response. -/
def apply (r : Response) : Event → Except String Response
  | .writeHeader code => r.writeHeader code
  | .write data => .ok (r.write data)
  | _ => .ok r

/-- The response after a run's events, or the panic that stopped the writer. -/
def replay (r : Response) : List Event → Except String Response
  | [] => .ok r
  | e :: t =>
    match r.apply e with
    | .ok r' => replay r' t
    | .error msg => .error msg

/-- The status the client receives from a run, when the writer did not panic. -/
def statusOf (t : List Event) : Option Nat :=
  match replay empty t with
  | .ok r => r.status
  | .error _ => none

@[simp] theorem replay_nil (r : Response) : r.replay [] = .ok r := rfl

theorem replay_cons (r : Response) (e : Event) (t : List Event) :
    r.replay (e :: t) = (r.apply e).bind fun r' => r'.replay t := by
  simp only [replay]
  cases r.apply e <;> rfl

theorem replay_append (r : Response) (t u : List Event) :
    r.replay (t ++ u) = (r.replay t).bind fun r' => r'.replay u := by
  induction t generalizing r with
  | nil => rfl
  | cons e t ih =>
    rw [List.cons_append, replay_cons, replay_cons]
    cases r.apply e <;> simp [Except.bind, ih]

/-- A committed status survives any event. -/
theorem apply_committed {r : Response} {c : Nat} (h : r.status = some c) (e : Event) :
    ∃ r', r.apply e = .ok r' ∧ r'.status = some c := by
  cases e with
  | writeHeader code => exact ⟨r, by simp [apply, writeHeader, h], h⟩
  | write data =>
    refine ⟨r.write data, rfl, ?_⟩
    simp only [write, h, Option.getD_some]
    split <;> rfl
  | _ => exact ⟨r, rfl, h⟩

/-- Run lemma: once committed, the status is the one the client gets, whatever follows. -/
theorem replay_committed {r : Response} {c : Nat} (h : r.status = some c) (t : List Event) :
    ∃ r', r.replay t = .ok r' ∧ r'.status = some c := by
  induction t generalizing r with
  | nil => exact ⟨r, rfl, h⟩
  | cons e t ih =>
    obtain ⟨r', he, hr'⟩ := apply_committed h e
    rw [replay_cons, he]
    exact ih hr'

/-- Events that are not writes leave the writer alone. -/
theorem apply_of_isWrite_false (r : Response) {e : Event} (he : e.isWrite = false) :
    r.apply e = .ok r := by
  cases e <;> first | rfl | cases he

theorem replay_of_isWrite_false (r : Response) {t : List Event}
    (h : ∀ e ∈ t, e.isWrite = false) : r.replay t = .ok r := by
  induction t with
  | nil => rfl
  | cons e t ih =>
    rw [replay_cons, apply_of_isWrite_false r (h e (List.mem_cons_self e t))]
    exact ih fun e' h' => h e' (List.mem_cons_of_mem e h')

/-- The client gets the first status a run writes, whatever the run does afterwards. -/
theorem statusOf_first {pre post : List Event} {c : Nat} (hpre : ∀ e ∈ pre, e.isWrite = false)
    (hc : checkWriteHeaderCode c = true) : statusOf (pre ++ .writeHeader c :: post) = some c := by
  have hw : empty.apply (.writeHeader c) = .ok ⟨some c, []⟩ := by
    simp [apply, writeHeader, empty, hc]
  obtain ⟨r', hr, hs⟩ := replay_committed (r := ⟨some c, []⟩) rfl post
  simp [statusOf, replay_append, replay_of_isWrite_false empty hpre, replay_cons, hw, hr, hs,
    Except.bind]

@[simp] theorem statusOf_writeHeader_cons {c : Nat} (hc : checkWriteHeaderCode c = true)
    (t : List Event) : statusOf (.writeHeader c :: t) = some c :=
  @statusOf_first [] t c (by simp) hc

@[simp] theorem statusOf_cons_of_isWrite_false {e : Event} (he : e.isWrite = false)
    (t : List Event) : statusOf (e :: t) = statusOf t := by
  simp [statusOf, replay_cons, apply_of_isWrite_false empty he, Except.bind]

@[simp] theorem status_empty_write (data : List UInt8) :
    (empty.write data).status = some statusOK := by
  simp only [write, empty, Option.getD_none]
  split <;> rfl

/-- A `Write` before any `WriteHeader` commits 200, whatever follows. -/
@[simp] theorem statusOf_write_cons (data : List UInt8) (t : List Event) :
    statusOf (.write data :: t) = some statusOK := by
  obtain ⟨r', hr, hr'⟩ := replay_committed (status_empty_write data) t
  simp [statusOf, replay_cons, apply, hr, hr', Except.bind]

@[simp] theorem statusOf_nil : statusOf [] = none := rfl

end Response

end Boots.Http
