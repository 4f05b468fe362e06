import Boots.Http.Mux

/-! `path.Clean` and `net/http`'s `cleanPath` over a `lazybuf`, shown to resolve a path's elements:
a handler sees only clean paths, and a redirect never leads to another. -/
namespace Boots.Http

namespace Clean

/-- Whether `path[r:]` ends the current element: `r == n || path[r] == '/'`. -/
def atElementEnd : List Char → Bool
  | [] => true
  | c :: _ => c == '/'

/-- The backtracking `..` case: drop the last byte, then keep dropping while more than `dotdot`
bytes remain and the byte just dropped is not "/". The buffer is its first `out.w` bytes, last
byte first. -/
def backtrack (dotdot : Nat) : List Char → List Char
  | [] => []
  | c :: rest => if dotdot < rest.length ∧ c ≠ '/' then backtrack dotdot rest else rest

/-- The `..` case: backtrack if the buffer holds more than `dotdot` bytes; else, for a path that
is not rooted, append ".." and move `dotdot` past it. -/
def dotdotStep (rooted : Bool) (dotdot : Nat) (out : List Char) : List Char × Nat :=
  if dotdot < out.length then (backtrack dotdot out, dotdot)
  else if !rooted then
    let out := '.' :: '.' :: (if 0 < out.length then '/' :: out else out)
    (out, out.length)
  else (out, dotdot)

/-- A real element begins: a "/" unless it is the first element, then its first byte. -/
def startElement (rooted : Bool) (out : List Char) (c : Char) : List Char :=
  c :: if rooted && out.length != 1 || !rooted && out.length != 0 then '/' :: out else out

/-- The loop of `path.Clean` over `path[r:]`. `copying` holds inside the inner loop that copies a
real element; it stops at the next "/", which the outer loop then skips. -/
def loop (rooted : Bool) : Bool → Nat → List Char → List Char → List Char
  | _, _, out, [] => out
  | true, dotdot, out, c :: rest =>
    if c = '/' then loop rooted false dotdot out rest
    else loop rooted true dotdot (c :: out) rest
  | false, dotdot, out, c :: rest =>
    if c = '/' then loop rooted false dotdot out rest
    else if c = '.' ∧ atElementEnd rest then loop rooted false dotdot out rest
    else match rest with
      | [] => loop rooted true dotdot (startElement rooted out c) []
      | c' :: tl =>
        if c = '.' ∧ c' = '.' ∧ atElementEnd tl then
          loop rooted false (dotdotStep rooted dotdot out).2 (dotdotStep rooted dotdot out).1 tl
        else loop rooted true dotdot (startElement rooted out c) (c' :: tl)
termination_by structural _ _ _ input => input

/-! What `Clean` computes for a rooted path, stated over its elements. -/

/-- The "/"-separated elements of a path, empty ones included. -/
def elements : List Char → List (List Char)
  | [] => [[]]
  | c :: cs => if c = '/' then [] :: elements cs else (elements cs).modifyHead (c :: ·)

/-- Elements joined with "/". -/
def joinElements : List (List Char) → List Char
  | [] => []
  | [e] => e
  | e :: es => e ++ '/' :: joinElements es

/-- How `Clean` treats one element of a rooted path: an empty or "." element vanishes, ".." drops
the element before it, if there is one, and any other element is kept. -/
def pushElement (st : List (List Char)) (e : List Char) : List (List Char) :=
  if e = [] ∨ e = ['.'] then st else if e = ['.', '.'] then st.tail else e :: st

/-- The elements of the rooted path "/" ++ `q` after lexical processing. -/
def resolve (q : List Char) : List (List Char) := ((elements q).foldl pushElement []).reverse

/-- The rooted path with elements `es`. -/
def render (es : List (List Char)) : List Char := '/' :: joinElements es

/-- An element that `Clean` keeps: not empty, not "." or "..", and without "/". -/
def Real (e : List Char) : Prop := e ≠ [] ∧ e ≠ ['.'] ∧ e ≠ ['.', '.'] ∧ '/' ∉ e

end Clean

/-- `path.Clean`: the shortest path name equivalent to `path` by purely lexical processing. -/
def clean (path : String) : String :=
  if path.data = [] then "." else
    let out :=
      if path.data.head? = some '/' then Clean.loop true false 1 ['/'] path.data.tail
      else Clean.loop false false 0 [] path.data
    if out = [] then "." else ⟨out.reverse⟩

/-- `cleanPath`: the canonical path for `p`, rooted, keeping a trailing "/". -/
def cleanPath (p : String) : String :=
  if p = "" then "/" else
    let p := if p.data.head? ≠ some '/' then "/" ++ p else p
    let np := clean p
    if p.data.getLast? = some '/' ∧ np ≠ "/" then
      if p.utf8ByteSize = np.utf8ByteSize + 1 ∧ hasPrefix p np then p else np ++ "/"
    else np

namespace Clean

/-! Elements: splitting a path at "/" and joining it back. -/

theorem elements_ne_nil (q : List Char) : elements q ≠ [] := by
  induction q with
  | nil => simp [elements]
  | cons c q ih =>
    unfold elements
    split
    · simp
    · obtain ⟨e, es, he⟩ := List.exists_cons_of_ne_nil ih
      simp [he]

theorem slash_not_mem_of_mem_elements {q e : List Char} (he : e ∈ elements q) : '/' ∉ e := by
  induction q generalizing e with
  | nil => simp_all [elements]
  | cons c q ih =>
    unfold elements at he
    split at he
    · rcases List.mem_cons.mp he with rfl | he
      · simp
      · exact ih he
    · obtain ⟨e', es, hq⟩ := List.exists_cons_of_ne_nil (elements_ne_nil q)
      rw [hq, List.modifyHead_cons] at he
      rcases List.mem_cons.mp he with rfl | he
      · simpa [Ne.symm ‹c ≠ '/'›] using ih (hq ▸ List.mem_cons_self e' es)
      · exact ih (hq ▸ List.mem_cons_of_mem e' he)

theorem joinElements_cons_cons (e e' : List Char) (es : List (List Char)) :
    joinElements (e :: e' :: es) = e ++ '/' :: joinElements (e' :: es) := rfl

theorem joinElements_modifyHead (c : Char) {es : List (List Char)} (hes : es ≠ []) :
    joinElements (es.modifyHead (c :: ·)) = c :: joinElements es := by
  obtain ⟨e, es, rfl⟩ := List.exists_cons_of_ne_nil hes
  cases es <;> rfl

/-- Joining the elements of a path gives the path back. -/
theorem joinElements_elements (q : List Char) : joinElements (elements q) = q := by
  induction q with
  | nil => rfl
  | cons c q ih =>
    unfold elements
    split
    · subst c
      obtain ⟨e, es, he⟩ := List.exists_cons_of_ne_nil (elements_ne_nil q)
      rw [he, joinElements_cons_cons, ← he, ih]
      rfl
    · rw [joinElements_modifyHead c (elements_ne_nil q), ih]

theorem elements_of_slash_not_mem {e : List Char} (he : '/' ∉ e) : elements e = [e] := by
  induction e with
  | nil => rfl
  | cons c e ih =>
    simp only [List.mem_cons, not_or] at he
    simp [elements, Ne.symm he.1, ih he.2]

theorem elements_append_slash {e : List Char} (he : '/' ∉ e) (t : List Char) :
    elements (e ++ '/' :: t) = e :: elements t := by
  induction e with
  | nil => simp [elements]
  | cons c e ih =>
    simp only [List.mem_cons, not_or] at he
    simp [elements, Ne.symm he.1, ih he.2]

/-- Splitting joined elements that hold no "/" gives them back. -/
theorem elements_joinElements {es : List (List Char)} (hne : es ≠ [])
    (hs : ∀ e ∈ es, '/' ∉ e) : elements (joinElements es) = es := by
  induction es with
  | nil => exact absurd rfl hne
  | cons e es ih =>
    cases es with
    | nil => exact elements_of_slash_not_mem (hs e (List.mem_singleton_self e))
    | cons e' es =>
      rw [joinElements_cons_cons, elements_append_slash (hs e (List.mem_cons_self e _)),
        ih (List.cons_ne_nil e' es) fun x hx => hs x (List.mem_cons_of_mem e hx)]

theorem elements_append_slash_end (q : List Char) : elements (q ++ ['/']) = elements q ++ [[]] := by
  induction q with
  | nil => rfl
  | cons c q ih =>
    obtain ⟨e, es, he⟩ := List.exists_cons_of_ne_nil (elements_ne_nil q)
    by_cases hc : c = '/' <;> simp [elements, hc, ih, he]

/-! The loop against a stack of kept elements. -/

/-- The buffer `Clean` holds once the kept elements of a rooted path are the stack `st`, top
first: the rooted path of those elements, last byte first. -/
def buffer (st : List (List Char)) : List Char := (render st.reverse).reverse

theorem joinElements_append_singleton (l : List (List Char)) (e : List Char) :
    joinElements (l ++ [e]) = if l = [] then e else joinElements l ++ '/' :: e := by
  induction l with
  | nil => rfl
  | cons x l ih =>
    cases l with
    | nil => rfl
    | cons y l =>
      rw [List.cons_append, List.cons_append, joinElements_cons_cons, ← List.cons_append, ih]
      simp [joinElements_cons_cons]

theorem buffer_cons (e : List Char) (st : List (List Char)) :
    buffer (e :: st) = e.reverse ++ if st = [] then ['/'] else '/' :: buffer st := by
  by_cases h : st = []
  · subst h; simp [buffer, render, joinElements]
  · simp [buffer, render, joinElements_append_singleton, h]

theorem buffer_ne_nil (st : List (List Char)) : buffer st ≠ [] := by
  simp [buffer, render]

theorem length_buffer_cons {e : List Char} (he : e ≠ []) (st : List (List Char)) :
    1 < (buffer (e :: st)).length := by
  have := List.length_pos.mpr he
  have := List.length_pos.mpr (buffer_ne_nil st)
  rw [buffer_cons]
  split <;> simp <;> omega

theorem loop_copy_end {r : Bool} {d : Nat} {s : List Char} (hs : '/' ∉ s) (out : List Char) :
    loop r true d out s = s.reverse ++ out := by
  induction s generalizing out with
  | nil => rfl
  | cons c s ih =>
    simp only [List.mem_cons, not_or] at hs
    simp [loop, Ne.symm hs.1, ih hs.2]

theorem loop_copy_slash {r : Bool} {d : Nat} {s : List Char} (hs : '/' ∉ s) (out t : List Char) :
    loop r true d out (s ++ '/' :: t) = loop r false d (s.reverse ++ out) t := by
  induction s generalizing out with
  | nil => simp [loop]
  | cons c s ih =>
    simp only [List.mem_cons, not_or] at hs
    simp [loop, Ne.symm hs.1, ih hs.2]

theorem backtrack_append {l X : List Char} (hl : '/' ∉ l) (hX : 1 < X.length) :
    backtrack 1 (l ++ X) = backtrack 1 X := by
  induction l with
  | nil => rfl
  | cons c l ih =>
    simp only [List.mem_cons, not_or] at hl
    rw [List.cons_append, backtrack, if_pos ⟨by simp; omega, Ne.symm hl.1⟩, ih hl.2]

theorem backtrack_last {l : List Char} (hl : '/' ∉ l) (hne : l ≠ []) :
    backtrack 1 (l ++ ['/']) = ['/'] := by
  induction l with
  | nil => exact absurd rfl hne
  | cons c l ih =>
    simp only [List.mem_cons, not_or] at hl
    cases l with
    | nil => simp [backtrack]
    | cons c' l =>
      rw [List.cons_append, backtrack, if_pos ⟨by simp, Ne.symm hl.1⟩,
        ih hl.2 (List.cons_ne_nil _ _)]

/-- Backtracking over a kept element removes it with the "/" before it. -/
theorem backtrack_buffer {e : List Char} (he : e ≠ []) (hs : '/' ∉ e) (st : List (List Char)) :
    backtrack 1 (buffer (e :: st)) = buffer st := by
  have hs' : '/' ∉ e.reverse := by simpa using hs
  rw [buffer_cons]
  split
  · subst st
    exact backtrack_last hs' (by simpa using he)
  · have := List.length_pos.mpr (buffer_ne_nil st)
    rw [backtrack_append hs' (by simp; omega), backtrack, if_neg (by simp)]

theorem dotdotStep_buffer {st : List (List Char)} (hst : ∀ e ∈ st, Real e) :
    dotdotStep true 1 (buffer st) = (buffer st.tail, 1) := by
  cases st with
  | nil => rfl
  | cons e st =>
    obtain ⟨he, -, -, hs⟩ := hst e (List.mem_cons_self e st)
    simp [dotdotStep, length_buffer_cons he, backtrack_buffer he hs]

theorem startElement_buffer {st : List (List Char)} (hst : ∀ e ∈ st, Real e) (c : Char) :
    startElement true (buffer st) c = c :: if st = [] then ['/'] else '/' :: buffer st := by
  cases st with
  | nil => rfl
  | cons e st =>
    have := length_buffer_cons (hst e (List.mem_cons_self e st)).1 st
    simp [startElement]
    omega

theorem loop_slash (r : Bool) (d : Nat) (out t : List Char) :
    loop r false d out ('/' :: t) = loop r false d out t := by
  cases t <;> simp [loop]

/-- A "." element is skipped. -/
theorem loop_dot (r : Bool) (d : Nat) (out : List Char) {t : List Char}
    (ht : atElementEnd t = true) : loop r false d out ('.' :: t) = loop r false d out t := by
  cases t <;> simp_all [loop]

/-- A ".." element takes the `..` case. -/
theorem loop_dotdot (r : Bool) (d : Nat) (out : List Char) {t : List Char}
    (ht : atElementEnd t = true) :
    loop r false d out ('.' :: '.' :: t) =
      loop r false (dotdotStep r d out).2 (dotdotStep r d out).1 t := by
  rw [loop.eq_4, if_neg (by decide), if_neg (by simp [atElementEnd]), if_pos ⟨rfl, rfl, ht⟩]

/-- A real element: the outer loop starts copying it. -/
theorem loop_start {r : Bool} {d : Nat} {out : List Char} {c : Char} {rest t : List Char}
    (hs : Real (c :: rest)) (ht : atElementEnd t = true) :
    loop r false d out (c :: (rest ++ t)) = loop r true d (startElement r out c) (rest ++ t) := by
  obtain ⟨-, h1, h2, h3⟩ := hs
  simp only [List.mem_cons, not_or] at h3
  have hc : c ≠ '/' := Ne.symm h3.1
  cases rest with
  | nil =>
    have hd : c ≠ '.' := fun h => h1 (h ▸ rfl)
    cases t <;> simp [loop, hc, hd]
  | cons c1 rest =>
    simp only [List.mem_cons, not_or] at h3
    have hdd : ¬(c = '.' ∧ c1 = '.' ∧ atElementEnd (rest ++ t) = true) := by
      rintro ⟨rfl, rfl, he⟩
      cases rest with
      | nil => exact h2 rfl
      | cons c2 rest =>
        simp only [List.cons_append, atElementEnd, beq_iff_eq] at he
        exact h3.2.2 (he ▸ List.mem_cons_self _ _)
    rw [List.cons_append, loop.eq_4, if_neg hc, if_neg (by simp [atElementEnd, Ne.symm h3.2.1]),
      if_neg hdd]

theorem pushElement_of_real {e : List Char} (he : Real e) (st : List (List Char)) :
    pushElement st e = e :: st := by
  obtain ⟨h0, h1, h2, -⟩ := he
  simp [pushElement, h0, h1, h2]

theorem real_of_mem_pushElement {st : List (List Char)} (hst : ∀ x ∈ st, Real x) {e : List Char}
    (he : '/' ∉ e) : ∀ x ∈ pushElement st e, Real x := by
  unfold pushElement
  split
  · exact hst
  · split
    · exact fun x hx => hst x (List.mem_of_mem_tail hx)
    · rintro x (_ | ⟨_, hx⟩)
      · exact ⟨by tauto, by tauto, by tauto, he⟩
      · exact hst x hx

/-- The loop applies one element followed by "/". -/
theorem loop_element {st : List (List Char)} (hst : ∀ x ∈ st, Real x) {e : List Char}
    (he : '/' ∉ e) (t : List Char) :
    loop true false 1 (buffer st) (e ++ '/' :: t) = loop true false 1 (buffer (pushElement st e)) t := by
  by_cases h0 : e = []
  · subst h0; simp [loop_slash, pushElement]
  by_cases h1 : e = ['.']
  · subst h1; simp [loop_dot _ _ _ (rfl : atElementEnd ('/' :: t) = true), loop_slash, pushElement]
  by_cases h2 : e = ['.', '.']
  · subst h2
    simp [loop_dotdot _ _ _ (rfl : atElementEnd ('/' :: t) = true), loop_slash, pushElement,
      dotdotStep_buffer hst]
  obtain ⟨c, rest, rfl⟩ := List.exists_cons_of_ne_nil h0
  have hr : Real (c :: rest) := ⟨h0, h1, h2, he⟩
  rw [List.cons_append, loop_start (t := '/' :: t) hr rfl, loop_copy_slash (fun h => he (List.mem_cons_of_mem c h)),
    startElement_buffer hst, pushElement_of_real hr, buffer_cons]
  simp

/-- The loop applies the last element of the path. -/
theorem loop_last_element {st : List (List Char)} (hst : ∀ x ∈ st, Real x) {e : List Char}
    (he : '/' ∉ e) : loop true false 1 (buffer st) e = buffer (pushElement st e) := by
  by_cases h0 : e = []
  · subst h0; simp [loop, pushElement]
  by_cases h1 : e = ['.']
  · subst h1
    rw [loop_dot _ _ _ (t := []) rfl]
    simp [loop, pushElement]
  by_cases h2 : e = ['.', '.']
  · subst h2
    rw [loop_dotdot _ _ _ (t := []) rfl, dotdotStep_buffer hst]
    simp [loop, pushElement]
  obtain ⟨c, rest, rfl⟩ := List.exists_cons_of_ne_nil h0
  have hr : Real (c :: rest) := ⟨h0, h1, h2, he⟩
  have : loop true false 1 (buffer st) (c :: rest) =
      loop true true 1 (startElement true (buffer st) c) rest := by
    simpa using loop_start (t := []) hr rfl
  rw [this, loop_copy_end (fun h => he (List.mem_cons_of_mem c h)), startElement_buffer hst,
    pushElement_of_real hr, buffer_cons]
  simp

/-- Refinement: on a rooted path, the byte loop computes the element stack. -/
theorem loop_joinElements {ss : List (List Char)} (hne : ss ≠ []) (hs : ∀ e ∈ ss, '/' ∉ e)
    {st : List (List Char)} (hst : ∀ x ∈ st, Real x) :
    loop true false 1 (buffer st) (joinElements ss) = buffer (ss.foldl pushElement st) := by
  induction ss generalizing st with
  | nil => exact absurd rfl hne
  | cons e ss ih =>
    have he := hs e (List.mem_cons_self e ss)
    cases ss with
    | nil => exact loop_last_element hst he
    | cons e' ss =>
      rw [joinElements_cons_cons, loop_element hst he, List.foldl_cons,
        ih (List.cons_ne_nil e' ss) (fun x hx => hs x (List.mem_cons_of_mem e hx))
          (real_of_mem_pushElement hst he)]

end Clean

namespace Clean

theorem foldl_pushElement_of_real {es : List (List Char)} (hes : ∀ e ∈ es, Real e)
    (st : List (List Char)) : es.foldl pushElement st = es.reverse ++ st := by
  induction es generalizing st with
  | nil => rfl
  | cons e es ih =>
    rw [List.foldl_cons, pushElement_of_real (hes e (List.mem_cons_self e es)),
      ih (fun x hx => hes x (List.mem_cons_of_mem e hx))]
    simp

theorem real_of_mem_foldl {ss : List (List Char)} (hs : ∀ e ∈ ss, '/' ∉ e)
    {st : List (List Char)} (hst : ∀ x ∈ st, Real x) : ∀ x ∈ ss.foldl pushElement st, Real x := by
  induction ss generalizing st with
  | nil => exact hst
  | cons e ss ih =>
    exact ih (fun x hx => hs x (List.mem_cons_of_mem e hx))
      (real_of_mem_pushElement hst (hs e (List.mem_cons_self e ss)))

/-- Every element `Clean` keeps is real. -/
theorem real_of_mem_resolve {q e : List Char} (he : e ∈ resolve q) : Real e :=
  real_of_mem_foldl (fun _ hx => slash_not_mem_of_mem_elements hx)
    (fun x hx => absurd hx (List.not_mem_nil x)) e (List.mem_reverse.mp he)

/-- Real elements resolve to themselves: a clean path is a fixed point. -/
theorem resolve_joinElements {es : List (List Char)} (hes : ∀ e ∈ es, Real e) :
    resolve (joinElements es) = es := by
  cases es with
  | nil => rfl
  | cons e es =>
    rw [resolve, elements_joinElements (List.cons_ne_nil e es) fun x hx => (hes x hx).2.2.2,
      foldl_pushElement_of_real hes]
    simp

theorem resolve_append_slash (q : List Char) : resolve (q ++ ['/']) = resolve q := by
  simp [resolve, elements_append_slash_end, pushElement]

theorem joinElements_eq_nil {es : List (List Char)} (hes : ∀ e ∈ es, Real e) :
    joinElements es = [] ↔ es = [] := by
  refine ⟨fun h => ?_, fun h => h ▸ rfl⟩
  cases es with
  | nil => rfl
  | cons e es =>
    have he := (hes e (List.mem_cons_self e es)).1
    cases es with
    | nil => exact absurd h he
    | cons e' es => simp [joinElements_cons_cons] at h

/-- A path of real elements does not end in "/". -/
theorem getLast_render {es : List (List Char)} (hes : ∀ e ∈ es, Real e) (hne : es ≠ []) :
    (render es).getLast? ≠ some '/' := by
  obtain ⟨init, e, rfl⟩ := List.eq_nil_or_concat es |>.resolve_left hne
  rw [List.concat_eq_append] at hes ⊢
  obtain ⟨he, -, -, hs⟩ := hes e (by simp)
  obtain ⟨x, hx⟩ := Option.isSome_iff_exists.mp (List.getLast?_isSome.mpr he)
  have hY : ∃ Y, render (init ++ [e]) = Y ++ e := by
    rw [render, joinElements_append_singleton]
    split
    · exact ⟨['/'], rfl⟩
    · exact ⟨'/' :: joinElements init ++ ['/'], by simp⟩
  obtain ⟨Y, hY⟩ := hY
  rw [hY, List.getLast?_append, hx]
  exact fun h => hs (List.mem_of_getLast?_eq_some (hx.trans (Option.some.inj h ▸ rfl)))

/-- The loop over a rooted path's tail leaves the buffer of its resolved elements. -/
theorem loop_rooted (q : List Char) :
    loop true false 1 ['/'] q = buffer ((elements q).foldl pushElement []) := by
  conv_lhs => rw [← joinElements_elements q]
  exact loop_joinElements (elements_ne_nil q) (fun e he => slash_not_mem_of_mem_elements he)
    fun x hx => absurd hx (List.not_mem_nil x)

end Clean

/-- `path.Clean` on a rooted path is "/" followed by the lexical resolution of its elements:
empty and "." elements dropped, each ".." cancelling the element before it or dropped at the
root. -/
theorem clean_rooted (q : List Char) : clean ⟨'/' :: q⟩ = ⟨Clean.render (Clean.resolve q)⟩ := by
  simp [clean, Clean.loop_rooted, Clean.buffer, Clean.resolve, Clean.render]

/-- The rooted form of `p` after its leading "/". -/
def rootedTail (p : String) : List Char :=
  if p.data.head? = some '/' then p.data.tail else p.data

/-- `cleanPath`'s fast path agrees with the plain one: a `p` one byte longer than `np`, with `np`
as prefix and "/" as last byte, is `np ++ "/"`. -/
theorem eq_append_slash_of_hasPrefix {p np : String} (hl : p.data.getLast? = some '/')
    (hs : p.utf8ByteSize = np.utf8ByteSize + 1) (hpre : hasPrefix p np = true) :
    p = np ++ "/" := by
  obtain ⟨p⟩ := p
  obtain ⟨np⟩ := np
  simp only [hasPrefix, List.isPrefixOf_iff_prefix, String.utf8ByteSize_mk] at hpre hs hl
  obtain ⟨r, rfl⟩ := hpre
  rw [String.utf8Len_append] at hs
  match r, hs, hl with
  | [], hs, _ => simp at hs
  | [x], _, hl =>
    simp only [List.getLast?_append, List.getLast?_singleton] at hl
    cases Option.some.inj hl
    rfl
  | x :: y :: r, hs, _ =>
    have := Char.utf8Size_pos x
    have := Char.utf8Size_pos y
    simp only [String.utf8Len_cons] at hs
    omega

/-- `cleanPath` without its fast path: a cleaned path that lost its trailing "/" gets it back. -/
def cleanPathPlain (p : String) : String :=
  if p = "" then "/" else
    let p := if p.data.head? ≠ some '/' then "/" ++ p else p
    let np := clean p
    if p.data.getLast? = some '/' ∧ np ≠ "/" then np ++ "/" else np

/-- The fast path of `cleanPath`, which returns `p` itself when `p` is the cleaned path with one
"/" added, never changes the result. -/
theorem cleanPath_eq_plain (p : String) : cleanPath p = cleanPathPlain p := by
  unfold cleanPath cleanPathPlain
  split
  · rfl
  · generalize (if p.data.head? ≠ some '/' then "/" ++ p else p) = q
    simp only
    split_ifs with h1 h2
    · exact eq_append_slash_of_hasPrefix h1.1 h2.1 h2.2
    · rfl
    · rfl

/-- What `cleanPath` computes: the resolved elements of the rooted path, and a trailing "/"
when the path had one and kept an element. -/
theorem cleanPath_data (p : String) :
    (cleanPath p).data = Clean.render (Clean.resolve (rootedTail p)) ++
      if ('/' :: rootedTail p).getLast? = some '/' ∧ Clean.resolve (rootedTail p) ≠ [] then ['/']
      else [] := by
  by_cases hp : p = ""
  · subst hp
    rfl
  have hroot : (if p.data.head? ≠ some '/' then "/" ++ p else p) = ⟨'/' :: rootedTail p⟩ := by
    obtain ⟨l⟩ := p
    cases l with
    | nil => exact absurd rfl hp
    | cons c l =>
      by_cases hc : c = '/'
      · simp [rootedTail, hc]
      · simp [rootedTail, hc]
        rfl
  have hslash : (⟨Clean.render (Clean.resolve (rootedTail p))⟩ : String) ≠ "/" ↔
      Clean.resolve (rootedTail p) ≠ [] := by
    rw [Ne, Ne, ← Clean.joinElements_eq_nil fun _ he => Clean.real_of_mem_resolve he]
    simp [Clean.render, String.ext_iff]
  have hclean : clean ⟨'/' :: rootedTail p⟩ = ⟨Clean.render (Clean.resolve (rootedTail p))⟩ := by
    simp [clean, Clean.loop_rooted, Clean.buffer, Clean.resolve, Clean.render]
  simp only [cleanPath, hp, if_false, hroot, hclean, hslash]
  split_ifs with h1 h2
  · rw [eq_append_slash_of_hasPrefix h1.1 h2.1 h2.2]
    simp [h1.2]
  · simp [h1.2]
  · simp_all

theorem rootedTail_render (es : List (List Char)) (t : List Char) :
    rootedTail ⟨Clean.render es ++ t⟩ = Clean.joinElements es ++ t := by
  simp [rootedTail, Clean.render]

/-- A clean path without a trailing "/" is its own `cleanPath`. -/
theorem cleanPath_render {es : List (List Char)} (hes : ∀ e ∈ es, Clean.Real e) :
    cleanPath ⟨Clean.render es⟩ = ⟨Clean.render es⟩ := by
  have h := cleanPath_data ⟨Clean.render es⟩
  rw [show rootedTail ⟨Clean.render es⟩ = Clean.joinElements es by simp [rootedTail, Clean.render],
    Clean.resolve_joinElements hes] at h
  refine String.ext (h.trans ?_)
  by_cases hne : es = []
  · simp [hne]
  · simp [hne, show ('/' :: Clean.joinElements es).getLast? ≠ some '/' from
      Clean.getLast_render hes hne]

/-- A clean path with a trailing "/" after an element is its own `cleanPath`. -/
theorem cleanPath_render_slash {es : List (List Char)} (hes : ∀ e ∈ es, Clean.Real e)
    (hne : es ≠ []) : cleanPath ⟨Clean.render es ++ ['/']⟩ = ⟨Clean.render es ++ ['/']⟩ := by
  refine String.ext ((cleanPath_data _).trans ?_)
  rw [rootedTail_render, Clean.resolve_append_slash, Clean.resolve_joinElements hes]
  simp [hne, List.getLast?_cons]

/-- What `cleanPath` returns: "/" and real elements joined by "/", with a trailing "/" only after
an element. No element of the result is empty, "." or "..". -/
theorem cleanPath_spec (p : String) :
    ∃ es, (∀ e ∈ es, Clean.Real e) ∧
      ((cleanPath p).data = Clean.render es ∨ es ≠ [] ∧ (cleanPath p).data = Clean.render es ++ ['/']) := by
  refine ⟨Clean.resolve (rootedTail p), fun _ he => Clean.real_of_mem_resolve he, ?_⟩
  rw [cleanPath_data]
  split
  · exact .inr ⟨‹_ ∧ _›.2, rfl⟩
  · exact .inl (List.append_nil _)

/-- A path of the form `cleanPath` returns is its own `cleanPath`. -/
theorem cleanPath_of_clean {s : String} {es : List (List Char)} (hes : ∀ e ∈ es, Clean.Real e)
    (h : s.data = Clean.render es ∨ es ≠ [] ∧ s.data = Clean.render es ++ ['/']) :
    cleanPath s = s := by
  rcases h with h | ⟨hne, h⟩
  · rw [show s = ⟨Clean.render es⟩ from String.ext h, cleanPath_render hes]
  · rw [show s = ⟨Clean.render es ++ ['/']⟩ from String.ext h, cleanPath_render_slash hes hne]

/-- `cleanPath` is idempotent. -/
theorem cleanPath_cleanPath (p : String) : cleanPath (cleanPath p) = cleanPath p :=
  let ⟨_, hes, h⟩ := cleanPath_spec p
  cleanPath_of_clean hes h

/-- A cleaned path that does not end in "/" stays clean with a "/" added. -/
theorem cleanPath_append_slash {p : String} (hl : (cleanPath p).data.getLast? ≠ some '/') :
    cleanPath (cleanPath p ++ "/") = cleanPath p ++ "/" := by
  obtain ⟨es, hes, hc⟩ := cleanPath_spec p
  have hc : (cleanPath p).data = Clean.render es :=
    hc.resolve_right fun ⟨_, hc⟩ => hl (by simp [hc])
  have hne : es ≠ [] := by
    rintro rfl
    simp [hc, Clean.render, Clean.joinElements] at hl
  exact cleanPath_of_clean hes (.inr ⟨hne, by simp [hc]⟩)

namespace ServeMux

variable {α : Type} {mux : ServeMux α} {stripHostPort : String → String} {r : Request}

/-- `Handler` redirects every request other than CONNECT whose path `cleanPath` changes. -/
theorem Handler_redirect_or_fixed (mux : ServeMux α) (cleanPath stripHostPort : String → String)
    (hm : r.method ≠ "CONNECT") :
    (∃ url, mux.Handler cleanPath stripHostPort r = .redirect url) ∨ cleanPath r.path = r.path := by
  by_cases hc : cleanPath r.path = r.path
  · exact .inr hc
  · by_cases h1 : mux.shouldRedirect (stripHostPort r.host) (cleanPath r.path) <;>
      simp [Handler, hm, h1, hc]

/-- A mux with the subtree pattern "/dir/" alone. -/
def dirMux : ServeMux Unit := ⟨fun p => if p = "/dir/" then some () else none, [⟨(), "/dir/"⟩], false⟩

/-- A request other than CONNECT whose path `cleanPath` keeps and needs no added slash is not
redirected. -/
theorem Handler_ne_redirect {url : String} (hm : r.method ≠ "CONNECT") (hu : cleanPath r.path = r.path)
    (hs : mux.shouldRedirect (stripHostPort r.host) r.path = false) :
    mux.Handler cleanPath stripHostPort r ≠ .redirect url := by
  rw [Handler_eq_serve hm hs hu]
  exact Dispatch.ofHandler_ne_redirect _ _

/-- A path `shouldRedirect` sends to its subtree does not end in "/", and the path with the "/"
added needs no redirect. -/
theorem shouldRedirect_append_slash {host c : String} (h : mux.shouldRedirect host c = true) :
    mux.shouldRedirect host (c ++ "/") = false ∧ c.data.getLast? ≠ some '/' := by
  simp only [shouldRedirect, Bool.and_eq_true, Option.isNone_iff_eq_none, bne_iff_ne, ne_eq,
    Bool.or_eq_true, Option.isSome_iff_exists] at h
  obtain ⟨⟨⟨⟨-, -⟩, -⟩, hreg⟩, hlast⟩ := h
  refine ⟨?_, hlast⟩
  simp only [shouldRedirect, String.append_assoc] at hreg ⊢
  rcases hreg with ⟨_, hh⟩ | ⟨_, hh⟩ <;> simp [hh]

/-- `Handler` hands a handler only a clean path when the request is not a CONNECT: "/" and
elements none of which is empty, "." or "..", with at most a trailing "/". -/
theorem Handler_serve_clean {h : α} {pattern : String} (hm : r.method ≠ "CONNECT")
    (hd : mux.Handler cleanPath stripHostPort r = .serve h pattern) :
    ∃ es, (∀ e ∈ es, Clean.Real e) ∧
      (r.path.data = Clean.render es ∨ es ≠ [] ∧ r.path.data = Clean.render es ++ ['/']) := by
  rcases mux.Handler_redirect_or_fixed cleanPath stripHostPort hm with ⟨_, hr⟩ | hc
  · cases hd.symm.trans hr
  · rw [← hc]
    exact cleanPath_spec r.path

/-- A GET request for a file under "/dir/" is served, and its path is clean. -/
theorem dir_file_served_clean :
    (clientRequest "/dir/a").method ≠ "CONNECT" ∧
      dirMux.Handler cleanPath id (clientRequest "/dir/a") = .serve () "/dir/" ∧
      ∃ es, (∀ e ∈ es, Clean.Real e) ∧ ("/dir/a".data = Clean.render es ∨
        es ≠ [] ∧ "/dir/a".data = Clean.render es ++ ['/']) :=
  have h : dirMux.Handler cleanPath id (clientRequest "/dir/a") = .serve () "/dir/" := rfl
  ⟨by decide, h, Handler_serve_clean (by decide) h⟩

/-- Every redirect `Handler` issues leads, for the same method, to a path it does not redirect
again. -/
theorem Handler_redirect_settles {url : String}
    (hd : mux.Handler cleanPath stripHostPort r = .redirect url) (url' : String) :
    mux.Handler cleanPath stripHostPort { r with path := url } ≠ .redirect url' := by
  by_cases hm : r.method = "CONNECT"
  · simp only [Handler, if_pos hm] at hd ⊢
    split_ifs at hd with h1
    · cases hd
      simp [(shouldRedirect_append_slash h1).1]
    · simp at hd
  · simp only [Handler, if_neg hm] at hd
    split_ifs at hd with h1 h2
    · cases hd
      obtain ⟨hs, hl⟩ := shouldRedirect_append_slash h1
      exact Handler_ne_redirect hm (cleanPath_append_slash hl) hs
    · cases hd
      obtain ⟨es, hes, hc⟩ := cleanPath_spec r.path
      exact Handler_ne_redirect hm (cleanPath_of_clean hes hc) (by simpa using h1)
    · simp at hd

/-- A GET request for "/dir/./" is redirected to "/dir/", which is served. -/
theorem dir_redirect_settles :
    dirMux.Handler cleanPath id (clientRequest "/dir/./") = .redirect "/dir/" ∧
      ∀ url, dirMux.Handler cleanPath id { clientRequest "/dir/./" with path := "/dir/" } ≠
        .redirect url :=
  have h : dirMux.Handler cleanPath id (clientRequest "/dir/./") = .redirect "/dir/" := rfl
  ⟨h, Handler_redirect_settles h⟩

end ServeMux

end Boots.Http
