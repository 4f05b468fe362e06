import Boots.Http.Basic
import Mathlib.Data.String.Basic

/-! `http.ServeMux` as `ServeHTTP` uses it: `Handle` registers a pattern or panics, `match`
takes the exact pattern, else the longest subtree pattern that prefixes the path. -/
namespace Boots.Http

/-- `strings.HasPrefix`. -/
def hasPrefix (s pre : String) : Bool := pre.data.isPrefixOf s.data

/-- A subtree pattern: its last byte is "/". -/
def IsSubtree (pattern : String) : Prop := pattern.data.getLast? = some '/'

instance (pattern : String) : Decidable (IsSubtree pattern) :=
  inferInstanceAs (Decidable (pattern.data.getLast? = some '/'))

/-- `muxEntry`. -/
structure MuxEntry (α : Type) where
  h : α
  pattern : String

/-- `http.ServeMux`: `m` maps each registered pattern to its handler, `es` holds the subtree
patterns longest first, `hosts` records a pattern that does not start with "/". -/
structure ServeMux (α : Type) where
  m : String → Option α
  es : List (MuxEntry α)
  hosts : Bool

namespace ServeMux

variable {α : Type}

/-- A new, empty `ServeMux`. -/
def empty : ServeMux α := ⟨fun _ => none, [], false⟩

/-- `appendSorted`: `e` goes before the first entry whose pattern is shorter, which is where
`sort.Search` puts it in a list sorted longest first. -/
def appendSorted (e : MuxEntry α) : List (MuxEntry α) → List (MuxEntry α)
  | [] => [e]
  | x :: xs =>
    if x.pattern.utf8ByteSize < e.pattern.utf8ByteSize then e :: x :: xs
    else x :: appendSorted e xs

/-- `(*ServeMux).Handle`: an empty or already registered pattern panics. Every handler here is
a value, so the nil-handler panic does not arise. -/
def handle (mux : ServeMux α) (pattern : String) (h : α) : Except String (ServeMux α) :=
  if pattern = "" then .error "http: invalid pattern"
  else if (mux.m pattern).isSome then .error ("http: multiple registrations for " ++ pattern)
  else .ok ⟨fun p => if p = pattern then some h else mux.m p,
    if IsSubtree pattern then appendSorted ⟨h, pattern⟩ mux.es else mux.es,
    mux.hosts || pattern.data.head? != some '/'⟩

/-- `(*ServeMux).match`: the exact pattern, else the first subtree pattern of `es` that
prefixes the path. -/
def match? (mux : ServeMux α) (path : String) : Option (α × String) :=
  match mux.m path with
  | some h => some (h, path)
  | none => (mux.es.find? fun e => hasPrefix path e.pattern).map fun e => (e.h, e.pattern)

/-- `(*ServeMux).handler`: a host-specific pattern takes precedence; `none` is
`NotFoundHandler`. -/
def handler (mux : ServeMux α) (host path : String) : Option (α × String) :=
  (if mux.hosts then mux.match? (host ++ path) else none) <|> mux.match? path

/-- `Handle` called on each registration in turn. -/
def register (mux : ServeMux α) (regs : List (String × α)) : Except String (ServeMux α) :=
  regs.foldlM (fun mux r => mux.handle r.1 r.2) mux

/-- What `Handle` keeps: `es` holds exactly the subtree patterns of `m`, once each and longest
first, `hosts` says whether some pattern does not start with "/", and "" is not registered. -/
structure WF (mux : ServeMux α) : Prop where
  mem_es : ∀ e, e ∈ mux.es ↔ mux.m e.pattern = some e.h ∧ IsSubtree e.pattern
  nodup : (mux.es.map (·.pattern)).Nodup
  sorted : mux.es.Pairwise fun a b => b.pattern.utf8ByteSize ≤ a.pattern.utf8ByteSize
  hosts : mux.hosts = true ↔ ∃ p, (mux.m p).isSome ∧ p.data.head? ≠ some '/'
  empty : mux.m "" = none

theorem wf_empty : WF (empty : ServeMux α) :=
  ⟨by simp [empty], List.nodup_nil, List.Pairwise.nil, by simp [empty], rfl⟩

theorem appendSorted_perm (e : MuxEntry α) (es : List (MuxEntry α)) :
    (appendSorted e es).Perm (e :: es) := by
  induction es with
  | nil => rfl
  | cons x xs ih =>
    unfold appendSorted
    split
    · rfl
    · exact (ih.cons x).trans (List.Perm.swap e x xs)

theorem appendSorted_sorted (e : MuxEntry α) {es : List (MuxEntry α)}
    (hs : es.Pairwise fun a b => b.pattern.utf8ByteSize ≤ a.pattern.utf8ByteSize) :
    (appendSorted e es).Pairwise fun a b => b.pattern.utf8ByteSize ≤ a.pattern.utf8ByteSize := by
  induction es with
  | nil => exact List.pairwise_singleton _ _
  | cons x xs ih =>
    obtain ⟨hx, hxs⟩ := List.pairwise_cons.mp hs
    unfold appendSorted
    split
    · refine List.pairwise_cons.mpr ⟨fun y hy => ?_, hs⟩
      rcases List.mem_cons.mp hy with rfl | hy
      · omega
      · have := hx y hy
        omega
    · refine List.pairwise_cons.mpr ⟨fun y hy => ?_, ih hxs⟩
      rcases List.mem_cons.mp ((appendSorted_perm e xs).mem_iff.mp hy) with rfl | hy
      · omega
      · exact hx y hy

variable {mux mux' : ServeMux α} {p : String} {h : α}

/-- Everything a successful `Handle` does. -/
theorem handle_ok (hh : mux.handle p h = .ok mux') :
    p ≠ "" ∧ mux.m p = none ∧ mux'.m = (fun q => if q = p then some h else mux.m q) ∧
      mux'.es = (if IsSubtree p then appendSorted ⟨h, p⟩ mux.es else mux.es) ∧
      mux'.hosts = (mux.hosts || p.data.head? != some '/') := by
  unfold handle at hh
  split at hh
  · cases hh
  · split at hh
    · cases hh
    · cases hh
      simp_all

/-- `Handle` succeeds exactly on a non-empty pattern not registered yet. -/
theorem handle_isOk_iff : (∃ mux', mux.handle p h = .ok mux') ↔ p ≠ "" ∧ mux.m p = none := by
  refine ⟨fun ⟨_, hh⟩ => ⟨(handle_ok hh).1, (handle_ok hh).2.1⟩, fun ⟨hp, hm⟩ => ?_⟩
  simp [handle, hp, hm]

/-- Step lemma: `Handle` keeps the invariant. -/
theorem WF.handle (hw : WF mux) (hh : mux.handle p h = .ok mux') : WF mux' := by
  obtain ⟨hp, hnew, hm, hes, hhosts⟩ := handle_ok hh
  have hnot : p ∉ mux.es.map (·.pattern) := fun hmem => by
    obtain ⟨e, he, rfl⟩ := List.mem_map.mp hmem
    simp [(hw.mem_es e).mp he |>.1] at hnew
  refine ⟨fun e => ?_, ?_, ?_, ?_, by simp [hm, hp.symm, hw.empty]⟩
  · rw [hes, hm]
    by_cases hs : IsSubtree p
    · rw [if_pos hs, (appendSorted_perm _ _).mem_iff, List.mem_cons, hw.mem_es]
      obtain ⟨eh, ep⟩ := e
      by_cases he : ep = p
      · subst he; simp_all; exact eq_comm
      · simp [he]
    · rw [if_neg hs, hw.mem_es]
      by_cases he : e.pattern = p
      · simp_all
      · simp [he]
  · rw [hes]
    split
    · exact ((appendSorted_perm _ _).map _).nodup_iff.mpr
        (List.nodup_cons.mpr ⟨hnot, hw.nodup⟩)
    · exact hw.nodup
  · rw [hes]
    split
    · exact appendSorted_sorted _ hw.sorted
    · exact hw.sorted
  · rw [hhosts, hm, Bool.or_eq_true, hw.hosts]
    constructor
    · rintro (⟨q, hq, hq'⟩ | hp')
      · exact ⟨q, by by_cases e : q = p <;> simp_all, hq'⟩
      · exact ⟨p, by simp, by simpa using hp'⟩
    · rintro ⟨q, hq, hq'⟩
      by_cases e : q = p
      · subst e; exact .inr (by simpa using hq')
      · exact .inl ⟨q, by simpa [e] using hq, hq'⟩

/-- Run lemma: registering a list keeps the invariant and adds exactly its entries, and it
succeeds only on distinct, non-empty patterns that were not registered before. -/
theorem register_ok {regs : List (String × α)} (hw : WF mux) (hr : mux.register regs = .ok mux') :
    WF mux' ∧ (∀ p h, mux'.m p = some h ↔ mux.m p = some h ∨ (p, h) ∈ regs) ∧
      (regs.map (·.1)).Nodup ∧ ∀ r ∈ regs, r.1 ≠ "" ∧ mux.m r.1 = none := by
  induction regs generalizing mux with
  | nil =>
    cases hr
    simp [hw]
  | cons r regs ih =>
    rcases hh : mux.handle r.1 r.2 with e | mid
    · simp [register, hh] at hr
      cases hr
    · simp only [register, List.foldlM_cons, hh] at hr
      obtain ⟨hw', hm', hnd, hfresh⟩ := ih (hw.handle hh) hr
      obtain ⟨hp, hnew, hm, -, -⟩ := handle_ok hh
      have hne : ∀ r' ∈ regs, r'.1 ≠ r.1 := fun r' hr' he => by
        simpa [hm, he] using (hfresh r' hr').2
      refine ⟨hw', fun q h' => ?_, ?_, ?_⟩
      · rw [hm', hm]
        by_cases hq : q = r.1
        · subst hq
          have : (r.1, h') ∉ regs := fun hmem => hne _ hmem rfl
          obtain ⟨p0, h0⟩ := r
          simp [hnew, this]
          exact eq_comm
        · simp [hq, Prod.ext_iff]
      · exact List.nodup_cons.mpr ⟨fun hmem => by
          obtain ⟨r', hr', he⟩ := List.mem_map.mp hmem
          exact hne r' hr' he, hnd⟩
      · intro r' hr'
        rcases List.mem_cons.mp hr' with rfl | hr'
        · exact ⟨hp, hnew⟩
        · have := (hfresh r' hr').2
          simp only [hm, hne r' hr', if_false] at this
          exact ⟨(hfresh r' hr').1, this⟩

/-- Registration succeeds on distinct, non-empty patterns that were not registered before. -/
theorem register_isOk {regs : List (String × α)} (hnd : (regs.map (·.1)).Nodup)
    (hfresh : ∀ r ∈ regs, r.1 ≠ "" ∧ mux.m r.1 = none) : ∃ mux', mux.register regs = .ok mux' := by
  induction regs generalizing mux with
  | nil => exact ⟨mux, rfl⟩
  | cons r regs ih =>
    obtain ⟨mid, hh⟩ := handle_isOk_iff.mpr (hfresh r (List.mem_cons_self r regs))
    obtain ⟨-, -, hm, -, -⟩ := handle_ok hh
    obtain ⟨hnot, hnd⟩ := List.nodup_cons.mp hnd
    obtain ⟨mux', hr⟩ := @ih mid hnd fun r' hr' => by
      have hne : r'.1 ≠ r.1 := fun he => hnot (List.mem_map.mpr ⟨r', hr', he⟩)
      simpa [hm, hne] using hfresh r' (List.mem_cons_of_mem r hr')
    exact ⟨mux', by rw [register, List.foldlM_cons, hh]; exact hr⟩

/-- `p` serves `path` among the registered patterns `m`: `path` itself when it is registered,
else the longest registered subtree pattern that prefixes `path`. -/
def Serves (m : String → Option α) (path : String) (h : α) (p : String) : Prop :=
  m p = some h ∧ (p = path ∨ m path = none ∧ IsSubtree p ∧ hasPrefix path p = true ∧
    ∀ q h', m q = some h' → IsSubtree q → hasPrefix path q = true → q.utf8ByteSize ≤ p.utf8ByteSize)

/-- Two prefixes of one path with the same byte length are the same pattern. -/
theorem eq_of_hasPrefix {path p q : String} (hp : hasPrefix path p = true)
    (hq : hasPrefix path q = true) (he : p.utf8ByteSize = q.utf8ByteSize) : p = q := by
  obtain ⟨p⟩ := p
  obtain ⟨q⟩ := q
  simp only [hasPrefix, List.isPrefixOf_iff_prefix, String.utf8ByteSize_mk] at hp hq he
  congr
  rcases List.prefix_or_prefix_of_prefix hp hq with ⟨r, rfl⟩ | ⟨r, rfl⟩
  all_goals simp_all

theorem serves_unique {m : String → Option α} {path p p' : String} {h h' : α}
    (hs : Serves m path h p) (hs' : Serves m path h' p') : h = h' ∧ p = p' := by
  suffices hp : p = p' by subst hp; exact ⟨Option.some.inj (hs.1.symm.trans hs'.1), rfl⟩
  obtain ⟨hm, rfl | ⟨hn, hsub, hpre, hmax⟩⟩ := hs <;>
    obtain ⟨hm', rfl | ⟨hn', hsub', hpre', hmax'⟩⟩ := hs'
  · rfl
  · simp_all
  · simp_all
  · exact eq_of_hasPrefix hpre hpre' (Nat.le_antisymm (hmax' _ _ hm hsub hpre)
      (hmax _ _ hm' hsub' hpre'))

variable {path : String}

/-- What `match` returns is the pattern that serves the path. -/
theorem WF.match?_serves (hw : WF mux) (hmatch : mux.match? path = some (h, p)) :
    Serves mux.m path h p := by
  unfold match? at hmatch
  split at hmatch
  · cases hmatch
    exact ⟨‹_›, .inl rfl⟩
  · obtain ⟨e, hfind, he⟩ := Option.map_eq_some'.mp hmatch
    cases he
    obtain ⟨hme, hsub⟩ := (hw.mem_es e).mp (List.mem_of_find?_eq_some hfind)
    refine ⟨hme, .inr ⟨‹_›, hsub,
      List.find?_some (p := fun e : MuxEntry α => hasPrefix path e.pattern) hfind,
      fun q h' hq hsq hpq => ?_⟩⟩
    have hqmem := (hw.mem_es ⟨h', q⟩).mpr ⟨hq, hsq⟩
    obtain ⟨-, as, bs, hes, has⟩ := List.find?_eq_some.mp hfind
    have hsorted := hw.sorted
    rw [hes] at hqmem hsorted
    rcases List.mem_append.mp hqmem with hin | hin
    · simpa [hpq] using has _ hin
    · rcases List.mem_cons.mp hin with he | hin
      · rw [← he]
      · exact List.rel_of_pairwise_cons (List.pairwise_append.mp hsorted).2.1 hin

/-- A path that some pattern serves is matched. -/
theorem WF.match?_isSome (hw : WF mux) (hs : Serves mux.m path h p) :
    (mux.match? path).isSome := by
  unfold match?
  split
  · rfl
  · obtain ⟨hm, rfl | ⟨-, hsub, hpre, -⟩⟩ := hs
    · simp_all
    · simpa [List.find?_isSome] using ⟨_, (hw.mem_es ⟨h, p⟩).mpr ⟨hm, hsub⟩, hpre⟩

/-- Two well-formed muxes with the same patterns match every path alike. -/
theorem WF.match?_eq {mux' : ServeMux α} (hw : WF mux) (hw' : WF mux') (hm : mux.m = mux'.m)
    (path : String) : mux.match? path = mux'.match? path := by
  rcases h1 : mux.match? path with _ | ⟨h, p⟩ <;>
    rcases h2 : mux'.match? path with _ | ⟨h', p'⟩
  · rfl
  · have := hw.match?_isSome (hm ▸ hw'.match?_serves h2)
    simp_all
  · have := hw'.match?_isSome (hm ▸ hw.match?_serves h1)
    simp_all
  · obtain ⟨rfl, rfl⟩ := serves_unique (hm ▸ hw.match?_serves h1) (hw'.match?_serves h2)
    rfl

theorem WF.handler_eq {mux' : ServeMux α} (hw : WF mux) (hw' : WF mux') (hm : mux.m = mux'.m)
    (host path : String) : mux.handler host path = mux'.handler host path := by
  have hh : mux.hosts = mux'.hosts := Bool.eq_iff_iff.mpr (by rw [hw.hosts, hw'.hosts, hm])
  simp only [handler, hh, hw.match?_eq hw' hm]

/-- Registration on a new mux succeeds exactly on distinct, non-empty patterns. -/
theorem register_empty_ok_iff (regs : List (String × α)) :
    (∃ mux, empty.register regs = .ok mux) ↔ (regs.map (·.1)).Nodup ∧ ∀ r ∈ regs, r.1 ≠ "" := by
  constructor
  · rintro ⟨_, hr⟩
    obtain ⟨-, -, hnd, hf⟩ := register_ok wf_empty hr
    exact ⟨hnd, fun r hr => (hf r hr).1⟩
  · rintro ⟨hnd, hf⟩
    exact register_isOk hnd fun r hr => ⟨hf r hr, rfl⟩

/-- `shouldRedirectRLocked`: neither `path` nor `host + path` is registered, one of them with
"/" appended is, and `path` does not already end in "/". -/
def shouldRedirect (mux : ServeMux α) (host path : String) : Bool :=
  (mux.m path).isNone && (mux.m (host ++ path)).isNone && path != "" &&
    ((mux.m (path ++ "/")).isSome || (mux.m (host ++ path ++ "/")).isSome) &&
    path.data.getLast? != some '/'

/-- What `(*ServeMux).Handler` hands a request to. -/
inductive Dispatch (α : Type) where
  | redirect (url : String)
  | serve (h : α) (pattern : String)
  | notFound
  deriving DecidableEq, Repr

/-- What `handler` found, as `Handler` hands it on: `none` is `NotFoundHandler`. -/
def Dispatch.ofHandler : Option (α × String) → Dispatch α
  | some (h, pattern) => .serve h pattern
  | none => .notFound

@[simp] theorem Dispatch.ofHandler_ne_redirect (o : Option (α × String)) (url : String) :
    Dispatch.ofHandler o ≠ .redirect url := by
  rcases o with _ | ⟨h, p⟩ <;> simp [Dispatch.ofHandler]

/-- A lookup serves exactly what the mux's patterns serve. -/
theorem WF.ofHandler_match?_eq_serve (hw : WF mux) :
    Dispatch.ofHandler (mux.match? path) = .serve h p ↔ Serves mux.m path h p := by
  constructor
  · intro hh
    rcases hmp : mux.match? path with _ | ⟨h', p'⟩ <;>
      simp only [hmp, Dispatch.ofHandler, reduceCtorEq, Dispatch.serve.injEq] at hh
    obtain ⟨rfl, rfl⟩ := hh
    exact hw.match?_serves hmp
  · intro hsv
    obtain ⟨⟨h', p'⟩, hmp⟩ := Option.isSome_iff_exists.mp (hw.match?_isSome hsv)
    obtain ⟨rfl, rfl⟩ := serves_unique hsv (hw.match?_serves hmp)
    rw [hmp]
    rfl

/-- `(*ServeMux).Handler`. A CONNECT request is not canonicalized: only the subtree redirect
applies, checked against the URL's host, and `handler` sees the raw host and path. Any other
request has the port stripped from its host and its path cleaned, and a path that cleaning
changes is redirected to the cleaned one. -/
def Handler (mux : ServeMux α) (cleanPath stripHostPort : String → String) (r : Request) :
    Dispatch α :=
  if r.method = "CONNECT" then
    if mux.shouldRedirect r.urlHost r.path then .redirect (r.path ++ "/")
    else .ofHandler (mux.handler r.host r.path)
  else
    let host := stripHostPort r.host
    let path := cleanPath r.path
    if mux.shouldRedirect host path then .redirect (path ++ "/")
    else if path ≠ r.path then .redirect path
    else .ofHandler (mux.handler host r.path)

theorem hasPrefix_slash (s : String) : hasPrefix s "/" = true ↔ s.data.head? = some '/' := by
  obtain ⟨_ | ⟨c, l⟩⟩ := s
  · decide
  · show ['/'].isPrefixOf (c :: l) = true ↔ some c = some '/'
    simp only [List.isPrefixOf, List.isPrefixOf_nil_left, Bool.and_true, beq_iff_eq,
      Option.some.injEq]
    exact eq_comm

/-- Without host patterns `handler` is `match` on the path. -/
theorem WF.handler_of_rooted (hw : WF mux) (hr : ∀ p h, mux.m p = some h → hasPrefix p "/" = true)
    (host path : String) : mux.handler host path = mux.match? path := by
  have hh : mux.hosts = false := by
    by_contra hc
    obtain ⟨p, hp, hp'⟩ := hw.hosts.mp (by simpa using hc)
    obtain ⟨h, hph⟩ := Option.isSome_iff_exists.mp hp
    exact hp' ((hasPrefix_slash p).mp (hr p h hph))
  simp [handler, hh]

/-- A registered "/" catches every path that starts with "/". -/
theorem WF.match?_isSome_of_root (hw : WF mux) (hroot : mux.m "/" = some h)
    (hpath : hasPrefix path "/" = true) : (mux.match? path).isSome := by
  unfold match?
  split
  · rfl
  · simpa [List.find?_isSome] using ⟨_, (hw.mem_es ⟨h, "/"⟩).mpr ⟨hroot, rfl⟩, hpath⟩

variable {cleanPath stripHostPort : String → String} {r : Request}

/-- A request other than CONNECT whose path is clean and needs no subtree redirect goes to what
`handler` finds. -/
theorem Handler_eq_serve (hm : r.method ≠ "CONNECT")
    (hs : mux.shouldRedirect (stripHostPort r.host) r.path = false) (hc : cleanPath r.path = r.path) :
    mux.Handler cleanPath stripHostPort r = .ofHandler (mux.handler (stripHostPort r.host) r.path) := by
  simp [Handler, hm, hs, hc]

/-- A request `Handler` does not redirect goes to what `handler` finds for its path. -/
theorem Handler_of_ne_redirect (h : ∀ url, mux.Handler cleanPath stripHostPort r ≠ .redirect url) :
    ∃ host, mux.Handler cleanPath stripHostPort r = .ofHandler (mux.handler host r.path) := by
  unfold Handler at h ⊢
  dsimp only at h ⊢
  split_ifs at h ⊢ with hm h1 h2 h3
  · exact absurd rfl (h _)
  · exact ⟨_, rfl⟩
  · exact absurd rfl (h _)
  · exact absurd rfl (h _)
  · exact ⟨_, rfl⟩

/-- With "/" registered, `handler` finds a handler for every path that starts with "/". -/
theorem WF.handler_isSome (hw : WF mux) (hroot : mux.m "/" = some h)
    (hpath : hasPrefix path "/" = true) (host : String) : (mux.handler host path).isSome := by
  obtain ⟨⟨h', p⟩, hmp⟩ := Option.isSome_iff_exists.mp (hw.match?_isSome_of_root hroot hpath)
  unfold handler
  cases (if mux.hosts then mux.match? (host ++ path) else none) <;> simp [hmp]

/-- With "/" registered, no path that starts with "/" reaches `NotFoundHandler`. -/
theorem WF.Handler_ne_notFound (hw : WF mux) (hroot : mux.m "/" = some h)
    (hpath : hasPrefix r.path "/" = true) (cleanPath stripHostPort : String → String) :
    mux.Handler cleanPath stripHostPort r ≠ .notFound := by
  by_cases hr : ∀ url, mux.Handler cleanPath stripHostPort r ≠ .redirect url
  · obtain ⟨host, he⟩ := Handler_of_ne_redirect hr
    obtain ⟨⟨h', p⟩, hh⟩ := Option.isSome_iff_exists.mp (hw.handler_isSome hroot hpath host)
    simp [he, hh, Dispatch.ofHandler]
  · obtain ⟨url, hu⟩ := not_forall_not.mp hr
    simp [hu]

theorem WF.Handler_eq {mux' : ServeMux α} (hw : WF mux) (hw' : WF mux') (hm : mux.m = mux'.m)
    (cleanPath stripHostPort : String → String) (r : Request) :
    mux.Handler cleanPath stripHostPort r = mux'.Handler cleanPath stripHostPort r := by
  simp only [Handler, shouldRedirect, hm, hw.handler_eq hw' hm]

/-- Registering the same patterns in another order panics exactly when this order does, and
otherwise routes every request the same. -/
theorem register_perm {regs regs' : List (String × α)} (hp : regs.Perm regs') :
    ((∃ mux, empty.register regs = .ok mux) ↔ ∃ mux', empty.register regs' = .ok mux') ∧
      ∀ mux mux', empty.register regs = .ok mux → empty.register regs' = .ok mux' →
        ∀ cleanPath stripHostPort r,
          mux.Handler cleanPath stripHostPort r = mux'.Handler cleanPath stripHostPort r := by
  constructor
  · rw [register_empty_ok_iff, register_empty_ok_iff, (hp.map _).nodup_iff]
    simp only [hp.mem_iff]
  intro mux mux' hr hr' cleanPath stripHostPort r
  obtain ⟨hw, hm, -⟩ := register_ok wf_empty hr
  obtain ⟨hw', hm', -⟩ := register_ok wf_empty hr'
  refine hw.Handler_eq hw' (funext fun q => Option.ext fun h => ?_) cleanPath stripHostPort r
  rw [Option.mem_def, Option.mem_def, hm, hm', hp.mem_iff]

end ServeMux

end Boots.Http
