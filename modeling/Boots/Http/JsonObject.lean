import Boots.Http.JsonLiteral

/-! Any object of literal members, spaces, escapes and number forms included, read by the decoder of
`json.Unmarshal` as `decodeObject` says; a body that is one literal decodes only when it is null. -/
namespace Boots.Http

namespace JsonDecode

open JsonScan

/-! The decoder against `decodeObject`. -/

/-- The struct and the saved error after a member, as the decoder keeps them: an error is saved
and the next members are still decoded. -/
def storeMember (p : EventRequest × Bool) (m : List Char × Literal) : EventRequest × Bool :=
  match applyMember p.1 m with
  | some res => (res, p.2)
  | none => (p.1, true)

/-- Decoding on after a saved error ends in an error; with none saved, it ends as the fold. -/
theorem storeMembers_result (ms : List (List Char × Literal)) (res : EventRequest) (sv : Bool) :
    (if (ms.foldl storeMember (res, sv)).2 then none else some (ms.foldl storeMember (res, sv)).1) =
      if sv then none else ms.foldlM applyMember res := by
  induction ms generalizing res sv with
  | nil => rfl
  | cons m ms ih =>
    rw [List.foldl_cons, List.foldlM_cons]
    rcases h : applyMember res m with _ | r <;> rw [storeMember, h, ih] <;> cases sv <;> rfl

theorem endLiteral_of_none {d : Decoder} (h : d.lit = none) : d.endLiteral = d := by
  simp [Decoder.endLiteral, h]

theorem endLiteral_lit (d : Decoder) : d.endLiteral.lit = none := by
  unfold Decoder.endLiteral
  split <;> simp_all

/-- A key's field, once a byte after the key has ended it. -/
theorem endLiteral_key (res : EventRequest) (sv : Bool) (f : Option Field) {k : List UInt8} {key : List Char}
    (hk : StringText k key) :
    (⟨res, sv, f, some (.key, k)⟩ : Decoder).endLiteral = ⟨res, sv, fieldOf key, none⟩ := by
  simp [Decoder.endLiteral, Decoder.store, unquoteBytes_string hk]

/-- A member's value, once a byte after it has ended it: stored as `storeMember` says. -/
theorem endLiteral_member (res : EventRequest) (sv : Bool) (key : List Char) {v : List UInt8} {lit : Literal}
    (h : LiteralText v lit) :
    (⟨res, sv, fieldOf key, some (.member, v)⟩ : Decoder).endLiteral =
      ⟨(storeMember (res, sv) (key, lit)).1, (storeMember (res, sv) (key, lit)).2, fieldOf key, none⟩ := by
  rcases hf : fieldOf key with _ | f
  · simp only [Decoder.endLiteral, Decoder.store, storeMember, applyMember, hf]
  · simp only [Decoder.endLiteral, Decoder.store, storeMember, applyMember, hf, literalStore_literal f h]
    cases setLiteral res f lit <;> rfl

/-! Spaces. -/

theorem isSpace_cases {b : UInt8} (h : isSpace b = true) : b = 0x20 ∨ b = 0x09 ∨ b = 0x0D ∨ b = 0x0A := by
  simpa [isSpace, or_assoc] using h

/-- Spaces where the scanner skips them leave it and the decoder as they are. -/
theorem run_spaces (s : Scanner) (d : Decoder) (op : Op) (hop : op ≠ .scanError)
    (hs : ∀ b, isSpace b = true → s.scan b = (s, op)) (hd : ∀ b, d.step s.parseState b op = d)
    {ws : List UInt8} (hws : Ws ws) (rest : List UInt8) :
    run s d (ws ++ rest) = run s d rest := by
  induction ws with
  | nil => rfl
  | cons b ws ih =>
    rw [List.cons_append, run_cons (hs b (hws b (List.mem_cons_self b ws))) hop, hd,
      ih fun x hx => hws x (List.mem_cons_of_mem b hx)]

/-- Spaces before a value or a key change nothing. -/
theorem run_skip {st : Step}
    (hst : st = .stateBeginValue ∨ st = .stateBeginString ∨ st = .stateBeginStringOrEmpty)
    (ps : List ParseState) {d : Decoder} (hd : d.lit = none) {ws : List UInt8} (hws : Ws ws)
    (rest : List UInt8) : run ⟨st, ps, false⟩ d (ws ++ rest) = run ⟨st, ps, false⟩ d rest :=
  run_spaces _ d .scanSkipSpace (by decide)
    (fun c hc => by
      rcases hst with rfl | rfl | rfl <;>
        simp [Scanner.scan, Scanner.stateBeginValue, Scanner.stateBeginString,
          Scanner.stateBeginStringOrEmpty, hc])
    (fun _ => endLiteral_of_none hd) hws rest

/-- A space after a literal inside a container ends it. -/
theorem scan_space_in {st : Step} (hst : AfterValue st) {b : UInt8} (hb : isSpace b = true)
    (p : ParseState) (ps : List ParseState) :
    (⟨st, p :: ps, false⟩ : Scanner).scan b = (⟨.stateEndValue, p :: ps, false⟩, .scanSkipSpace) := by
  rcases hst with rfl | rfl | rfl | rfl | rfl <;> rcases isSpace_cases hb with rfl | rfl | rfl | rfl <;> rfl

/-- Spaces after a literal inside a container: the scanner stays after the value, and the decoder
has ended the literal or, with no spaces, still holds it. -/
theorem run_value_spaces {st : Step} (hst : AfterValue st) (p : ParseState) (ps : List ParseState)
    (d : Decoder) {ws : List UInt8} (hws : Ws ws) (rest : List UInt8) :
    ∃ st' d', AfterValue st' ∧ d'.endLiteral = d.endLiteral ∧
      run ⟨st, p :: ps, false⟩ d (ws ++ rest) = run ⟨st', p :: ps, false⟩ d' rest := by
  cases ws with
  | nil => exact ⟨st, d, hst, rfl, rfl⟩
  | cons b ws =>
    have hend := endLiteral_of_none (endLiteral_lit d)
    refine ⟨.stateEndValue, d.endLiteral, .inl rfl, hend, ?_⟩
    rw [List.cons_append, run_cons (scan_space_in hst (hws b (List.mem_cons_self b ws)) p ps) (by decide)]
    exact run_spaces _ _ _ (by decide) (fun c hc => scan_space_in (.inl rfl) hc p ps) (fun _ => hend)
      (fun x hx => hws x (List.mem_cons_of_mem b hx)) rest

/-! Members and objects. -/

/-- A key, the spaces after it and the colon: the key names the field its value goes to. -/
theorem run_key {st : Step} (hst : st = .stateBeginString ∨ st = .stateBeginStringOrEmpty)
    {k : List UInt8} {key : List Char} (hk : StringText k key) {ws : List UInt8} (hws : Ws ws)
    (res : EventRequest) (sv : Bool) (f : Option Field) (rest : List UInt8) :
    run ⟨st, [.parseObjectKey], false⟩ ⟨res, sv, f, none⟩ (k ++ (ws ++ 0x3A :: rest)) =
      run ⟨.stateBeginValue, [.parseObjectValue], false⟩ ⟨res, sv, fieldOf key, none⟩ rest := by
  have hq : (⟨st, [.parseObjectKey], false⟩ : Scanner).scan 0x22 =
      (⟨.stateInString, [.parseObjectKey], false⟩, .scanBeginLiteral) := by
    rcases hst with rfl | rfl <;> rfl
  obtain ⟨st', d', hst', hd', h⟩ :=
    run_value_spaces (.inl rfl) .parseObjectKey [] ⟨res, sv, f, some (.key, k)⟩ hws (0x3A :: rest)
  rw [run_string st _ hq hk, show roleOf [.parseObjectKey] = .key from rfl, h, ← endLiteral_key res sv f hk, ← hd']
  rcases hst' with rfl | rfl | rfl | rfl | rfl <;> rfl

/-- After a member's value, spaces and a comma end it and a key comes next; spaces and a closing
brace end it and the object. -/
theorem run_value_end {st : Step} (hst : AfterValue st) (d : Decoder) {ws : List UInt8} (hws : Ws ws)
    (rest : List UInt8) :
    run ⟨st, [.parseObjectValue], false⟩ d (ws ++ 0x2C :: rest) =
        run ⟨.stateBeginString, [.parseObjectKey], false⟩ d.endLiteral rest ∧
      run ⟨st, [.parseObjectValue], false⟩ d (ws ++ 0x7D :: rest) =
        run ⟨.stateEndTop, [], true⟩ d.endLiteral rest := by
  obtain ⟨st1, d1, hst1, hd1, h1⟩ := run_value_spaces hst .parseObjectValue [] d hws (0x2C :: rest)
  obtain ⟨st2, d2, hst2, hd2, h2⟩ := run_value_spaces hst .parseObjectValue [] d hws (0x7D :: rest)
  constructor
  · rw [h1, ← hd1]
    rcases hst1 with rfl | rfl | rfl | rfl | rfl <;> rfl
  · rw [h2, ← hd2]
    rcases hst2 with rfl | rfl | rfl | rfl | rfl <;> rfl

/-- A member, from the byte before its key to the comma or the closing brace after it: the decoder
stores its value as `storeMember` says. -/
theorem run_member {st : Step} (hst : st = .stateBeginString ∨ st = .stateBeginStringOrEmpty)
    {b : List UInt8} {m : List Char × Literal} (h : MemberText b m) (res : EventRequest) (sv : Bool)
    (f : Option Field) (rest : List UInt8) :
    run ⟨st, [.parseObjectKey], false⟩ ⟨res, sv, f, none⟩ (b ++ 0x2C :: rest) =
        run ⟨.stateBeginString, [.parseObjectKey], false⟩
          ⟨(storeMember (res, sv) m).1, (storeMember (res, sv) m).2, fieldOf m.1, none⟩ rest ∧
      run ⟨st, [.parseObjectKey], false⟩ ⟨res, sv, f, none⟩ (b ++ 0x7D :: rest) =
        run ⟨.stateEndTop, [], true⟩
          ⟨(storeMember (res, sv) m).1, (storeMember (res, sv) m).2, fieldOf m.1, none⟩ rest := by
  cases h with
  | @mk w1 k w2 w3 v w4 key lit hw1 hk hw2 hw3 hv hw4 =>
  have hval : ∀ t, ∃ st', AfterValue st' ∧
      run ⟨st, [.parseObjectKey], false⟩ ⟨res, sv, f, none⟩ (w1 ++ (k ++ (w2 ++ 0x3A :: (w3 ++ (v ++ t))))) =
        run ⟨st', [.parseObjectValue], false⟩ ⟨res, sv, fieldOf key, some (.member, v)⟩ t := fun t => by
    obtain ⟨st', hst', h⟩ := run_literal [.parseObjectValue] hv res sv (fieldOf key) t
    refine ⟨st', hst', ?_⟩
    rw [run_skip (.inr hst) _ rfl hw1, run_key hst hk hw2, run_skip (.inl rfl) _ rfl hw3]
    exact h
  obtain ⟨st1, hst1, h1⟩ := hval (w4 ++ 0x2C :: rest)
  obtain ⟨st2, hst2, h2⟩ := hval (w4 ++ 0x7D :: rest)
  simp only [List.append_assoc, List.cons_append]
  rw [h1, h2, (run_value_end hst1 _ hw4 rest).1, (run_value_end hst2 _ hw4 rest).2,
    endLiteral_member res sv key hv]
  exact ⟨rfl, rfl⟩

/-- The members and the closing brace: the decoder ends as `storeMember` folds them. -/
theorem run_members {st : Step} (hst : st = .stateBeginString ∨ st = .stateBeginStringOrEmpty)
    {b : List UInt8} {ms : List (List Char × Literal)} (h : MembersText b ms) (res : EventRequest)
    (sv : Bool) (f : Option Field) :
    ∃ f', ∀ rest, run ⟨st, [.parseObjectKey], false⟩ ⟨res, sv, f, none⟩ (b ++ 0x7D :: rest) =
      run ⟨.stateEndTop, [], true⟩
        ⟨(ms.foldl storeMember (res, sv)).1, (ms.foldl storeMember (res, sv)).2, f', none⟩ rest := by
  induction h generalizing st res sv f with
  | one hm => exact ⟨_, fun rest => (run_member hst hm res sv f rest).2⟩
  | @cons b bs m ms hm _ ih =>
    obtain ⟨f', h'⟩ := ih (.inl rfl) (storeMember (res, sv) m).1 (storeMember (res, sv) m).2 (fieldOf m.1)
    refine ⟨f', fun rest => ?_⟩
    rw [List.append_assoc, List.cons_append, (run_member hst hm res sv f _).1, h']
    rfl

theorem run_open (res : EventRequest) (sv : Bool) (f : Option Field) (rest : List UInt8) :
    run Scanner.reset ⟨res, sv, f, none⟩ (0x7B :: rest) =
      run ⟨.stateBeginStringOrEmpty, [.parseObjectKey], false⟩ ⟨res, sv, f, none⟩ rest := rfl

/-- An object of literal members takes the scanner from its start to the end of the top value,
and the decoder to a struct and a saved error that `decodeObject` describes. -/
theorem run_object {b : List UInt8} {ms : List (List Char × Literal)} (h : ObjectText b ms) :
    ∃ d : Decoder, d.lit = none ∧ (if d.saved then none else some d.res) = decodeObject ms ∧
      ∀ rest, run Scanner.reset Decoder.init (b ++ rest) = run ⟨.stateEndTop, [], true⟩ d rest := by
  cases h with
  | empty hw =>
    refine ⟨Decoder.init, rfl, rfl, fun rest => ?_⟩
    rw [List.cons_append, List.append_assoc, Decoder.init, run_open, run_skip (.inr (.inr rfl)) _ rfl hw]
    rfl
  | members hms =>
    obtain ⟨f', h⟩ := run_members (.inr rfl) hms ⟨0, "", ""⟩ false none
    refine ⟨⟨(ms.foldl storeMember (⟨0, "", ""⟩, false)).1, (ms.foldl storeMember (⟨0, "", ""⟩, false)).2, f',
      none⟩, rfl, storeMembers_result ms ⟨0, "", ""⟩ false, fun rest => ?_⟩
    rw [List.cons_append, List.append_assoc, List.singleton_append]
    exact (run_open _ _ _ _).trans (h rest)

theorem unmarshalEvent_of_run {data : List UInt8} {s : Scanner} {d : Decoder}
    (h : run Scanner.reset Decoder.init data = some (s, d)) (he : s.eof = true) :
    unmarshalEvent data = if d.endLiteral.saved then none else some d.endLiteral.res := by
  simp only [unmarshalEvent, h, he, if_true]

theorem scan_endTop (b : UInt8) :
    (⟨.stateEndTop, [], true⟩ : Scanner).scan b =
      (if isSpace b then ⟨.stateEndTop, [], true⟩ else ⟨.stateError, [], true⟩, .scanEnd) := by
  simp only [Scanner.scan, Scanner.stateEndTop]
  split_ifs <;> rfl

/-- Once the top value is complete, the body may go on only with spaces: any other byte is the
error "invalid character after top-level value". -/
theorem unmarshalEvent_after_top {pre : List UInt8} {d : Decoder} (hd : d.lit = none)
    (hpre : ∀ rest, run Scanner.reset Decoder.init (pre ++ rest) = run ⟨.stateEndTop, [], true⟩ d rest)
    (tail : List UInt8) :
    unmarshalEvent (pre ++ tail) = if tail.all isSpace then (if d.saved then none else some d.res) else none := by
  have hstep : ∀ b, d.step [] b .scanEnd = d := fun _ => endLiteral_of_none hd
  induction tail generalizing pre with
  | nil => rw [unmarshalEvent_of_run ((hpre []).trans rfl) rfl, endLiteral_of_none hd]; rfl
  | cons b tail ih =>
    by_cases hb : isSpace b = true
    · rw [List.all_cons, hb, Bool.true_and, ← ih fun rest => ?_, List.append_cons]
      rw [List.append_assoc, List.singleton_append, hpre, run_cons (scan_endTop b) (by decide), hstep, if_pos hb]
    · have hrun : run Scanner.reset Decoder.init (pre ++ b :: tail) = run ⟨.stateError, [], true⟩ d tail := by
        rw [hpre, run_cons (scan_endTop b) (by decide), if_neg hb, hstep]
      rw [List.all_cons, Bool.eq_false_iff.mpr hb, Bool.false_and, if_neg Bool.false_ne_true, unmarshalEvent, hrun]
      cases tail <;> rfl

/-- Spaces before the top value change nothing. -/
theorem run_reset_spaces {ws : List UInt8} (hws : Ws ws) (rest : List UInt8) :
    run Scanner.reset Decoder.init (ws ++ rest) = run Scanner.reset Decoder.init rest :=
  run_skip (.inl rfl) [] rfl hws rest

/-- `json.Unmarshal` of an object of literal members with spaces around it decodes it as
`decodeObject` says. -/
theorem unmarshalEvent_object {b : List UInt8} {ms : List (List Char × Literal)} (hobj : ObjectText b ms)
    {ws ws' : List UInt8} (hws : Ws ws) (hws' : Ws ws') : unmarshalEvent (ws ++ b ++ ws') = decodeObject ms := by
  obtain ⟨d, hd, hres, hrun⟩ := run_object hobj
  rw [unmarshalEvent_after_top hd (fun rest => by rw [List.append_assoc, run_reset_spaces hws, hrun]), hres,
    if_pos (List.all_eq_true.mpr hws')]

/-- `json.Unmarshal` of an object of literal members with spaces before it and anything after it:
spaces after it, such as the newline `json.Encoder` ends with, change nothing; any other byte
after it makes the whole body an error. -/
theorem unmarshalEvent_object_then {b : List UInt8} {ms : List (List Char × Literal)}
    (hobj : ObjectText b ms) {ws : List UInt8} (hws : Ws ws) (tail : List UInt8) :
    unmarshalEvent (ws ++ b ++ tail) = if tail.all isSpace then decodeObject ms else none := by
  obtain ⟨d, hd, hres, hrun⟩ := run_object hobj
  rw [unmarshalEvent_after_top hd (fun rest => by rw [List.append_assoc, run_reset_spaces hws, hrun]), hres]

/-- An object as a person may write it: spaces around the separators and a "\u" escape. -/
def spacedObject : List UInt8 := Utf8.encode "\x7b\"code\" : 5 , \"state\" : \"caf\\u00e9\"\x7d".toList

theorem spacedObject_text :
    ObjectText spacedObject [("code".toList, .value (.int 5)), ("state".toList, .value (.str "café".toList))] :=
  .members (.cons
    (.mk (show Ws [] by decide) (.mk (Chars.ofPlain "code".toList (by decide))) (show Ws [0x20] by decide)
      (show Ws [0x20] by decide) (.num ⟨false, [0x35], none, none, by decide, .inr (by decide), nofun, nofun⟩)
      (show Ws [0x20] by decide))
    (.one (.mk (show Ws [0x20] by decide) (.mk (Chars.ofPlain "state".toList (by decide)))
      (show Ws [0x20] by decide) (show Ws [0x20] by decide)
      (.str (.mk (.plain (c := 'c') (by decide) (by decide) (by decide)
        (.plain (c := 'a') (by decide) (by decide) (by decide) (.plain (c := 'f') (by decide) (by decide) (by decide)
          (.unit (.mk (a := 0x30) (b := 0x30) (c := 0x65) (d := 0x39) rfl rfl rfl rfl) (.inl (by decide)) .nil))))))
      (show Ws [] by decide))))

/-- That object after a space and before the newline `json.Encoder` ends with. -/
theorem spaced_object_read :
    unmarshalEvent ([0x20] ++ spacedObject ++ [0x0A]) =
      if [0x0A].all isSpace then
        decodeObject [("code".toList, .value (.int 5)), ("state".toList, .value (.str "café".toList))]
      else none :=
  unmarshalEvent_object_then spacedObject_text (by decide) [0x0A]

/-! A body that is one literal. -/

/-- A space after a value at the top ends it. -/
theorem scan_space_top {st : Step} (hst : AfterValue st) {b : UInt8} (hb : isSpace b = true) :
    (⟨st, [], false⟩ : Scanner).scan b = (⟨.stateEndTop, [], true⟩, .scanEnd) := by
  rcases hst with rfl | rfl | rfl | rfl | rfl <;> rcases isSpace_cases hb with rfl | rfl | rfl | rfl <;> rfl

/-- After a value at the top, the decoder ends as `endLiteral` leaves it, spaces or not. -/
theorem run_after_top {st : Step} (hst : AfterValue st) (d : Decoder) {ws : List UInt8} (hws : Ws ws) :
    ∃ s d', run ⟨st, [], false⟩ d ws = some (s, d') ∧ d'.endLiteral = d.endLiteral ∧ s.eof = true := by
  cases ws with
  | nil => exact ⟨_, d, rfl, rfl, by rcases hst with rfl | rfl | rfl | rfl | rfl <;> rfl⟩
  | cons b ws =>
    have hend := endLiteral_of_none (endLiteral_lit d)
    refine ⟨⟨.stateEndTop, [], true⟩, d.endLiteral, ?_, hend, rfl⟩
    rw [run_cons (scan_space_top hst (hws b (List.mem_cons_self b ws))) (by decide), ← List.append_nil ws]
    exact (run_spaces _ _ .scanEnd (by decide) (fun c hc => by simp [Scanner.scan, Scanner.stateEndTop, hc])
      (fun _ => hend) (fun x hx => hws x (List.mem_cons_of_mem b hx)) []).trans rfl

/-- `json.Unmarshal` of a body that is one literal, with spaces around it: null is the zero
struct, any other literal an error. -/
theorem unmarshalEvent_literal {b : List UInt8} {lit : Literal} (h : LiteralText b lit) {ws ws' : List UInt8}
    (hws : Ws ws) (hws' : Ws ws') :
    unmarshalEvent (ws ++ b ++ ws') = if lit = .value .null then some ⟨0, "", ""⟩ else none := by
  obtain ⟨st, hst, hrun⟩ := run_literal [] h ⟨0, "", ""⟩ false none ws'
  obtain ⟨s, d', hs, hd', he⟩ := run_after_top hst ⟨⟨0, "", ""⟩, false, none, some (.top, b)⟩ hws'
  rw [unmarshalEvent_of_run (by rw [List.append_assoc, run_reset_spaces hws]; exact hrun.trans hs) he, hd']
  by_cases hn : lit = .value .null <;>
    simp [Decoder.endLiteral, Decoder.store, Decoder.saveError, h.eq_null_iff, hn]

example : unmarshalEvent (Utf8.encode "\x7b\"code\":5,\"state\":\"booted\",\"message\":\"ok\"\x7d".toList) =
    some ⟨5, "booted", "ok"⟩ := by decide

example : unmarshalEvent (Utf8.encode "\x7b \"CODE\" : 7 , \"ſtate\":\"\\u00e9\"\x7d".toList) =
    some ⟨7, "é", ""⟩ := by decide

example : unmarshalEvent (Utf8.encode "\x7b\"code\":1.5\x7d".toList) = none := by decide

example : unmarshalEvent (Utf8.encode "\x7b\"code\":5,\"other\":[\x7b\"code\":\"x\"\x7d]\x7d".toList) =
    some ⟨5, "", ""⟩ := by decide

example : unmarshalEvent (Utf8.encode " null ".toList) = some ⟨0, "", ""⟩ := by decide

example : unmarshalEvent (Utf8.encode "[]".toList) = none := by decide

end JsonDecode

end Boots.Http
