import Boots.Http.JsonGrammar

/-! Every literal of the grammar, read by the scanner and the decoder of `json.Unmarshal`: each
lemma takes them from the state before the bytes it reads to the state after, whatever follows. -/
namespace Boots.Http

namespace JsonDecode

open JsonScan

section Run

variable {s s' : Scanner} {d : Decoder} {c : UInt8} {op : Op}

theorem run_cons (h : s.scan c = (s', op)) (hop : op ≠ .scanError) (cs : List UInt8) :
    run s d (c :: cs) = run s' (d.step s.parseState c op) cs := by
  simp only [run, h]

/-- A byte inside a literal appends to it. -/
theorem run_continue {st st' : Step} {ps : List ParseState} {role : Role} {item : List UInt8}
    (hd : d.lit = some (role, item))
    (h : (⟨st, ps, false⟩ : Scanner).scan c = (⟨st', ps, false⟩, .scanContinue)) (cs : List UInt8) :
    run ⟨st, ps, false⟩ d (c :: cs) = run ⟨st', ps, false⟩ { d with lit := some (role, item ++ [c]) } cs := by
  rw [run_cons h (by decide)]
  simp [Decoder.step, hd]

theorem lit_eq {role : Role} {item : List UInt8} (hd : d.lit = some (role, item)) :
    { d with lit := some (role, item) } = d := by
  cases d
  simp_all

/-- Bytes that keep the scanner in its state all append to the literal. -/
theorem run_continues {st : Step} {ps : List ParseState} {role : Role} {item bs : List UInt8}
    (hst : ∀ b ∈ bs, (⟨st, ps, false⟩ : Scanner).scan b = (⟨st, ps, false⟩, .scanContinue))
    (hd : d.lit = some (role, item)) (rest : List UInt8) :
    run ⟨st, ps, false⟩ d (bs ++ rest) = run ⟨st, ps, false⟩ { d with lit := some (role, item ++ bs) } rest := by
  induction bs generalizing d item with
  | nil => rw [List.nil_append, List.append_nil, lit_eq hd]
  | cons b bs ih =>
    rw [List.cons_append, run_continue hd (hst b (List.mem_cons_self b bs)),
      ih (fun x hx => hst x (List.mem_cons_of_mem b hx)) rfl]
    simp

end Run

/-- Where the scanner is once a literal is read: after it, or inside a number that the next byte
ends. -/
def AfterValue (st : Step) : Prop :=
  st = .stateEndValue ∨ st = .state0 ∨ st = .state1 ∨ st = .stateDot0 ∨ st = .stateE0

/-! Inside a string. -/

section Strings

/-- A byte a string may hold as it is: no control byte, quote or backslash. -/
def Plain (b : UInt8) : Prop := 0x20 ≤ b.toNat ∧ b.toNat ≠ 0x22 ∧ b.toNat ≠ 0x5C

variable {ps : List ParseState} {d : Decoder} {role : Role} {item : List UInt8}

theorem scan_inString_plain {b : UInt8} (hb : Plain b) :
    (⟨.stateInString, ps, false⟩ : Scanner).scan b = (⟨.stateInString, ps, false⟩, .scanContinue) := by
  obtain ⟨h1, h2, h3⟩ := hb
  have h2 : b ≠ 0x22 := fun h => h2 (Utf8.eq_iff_toNat.mp h)
  have h3 : b ≠ 0x5C := fun h => h3 (Utf8.eq_iff_toNat.mp h)
  have h1 : ¬b < 0x20 := fun h => by rw [Utf8.lt_iff_toNat, Utf8.toNat_lit] at h; omega
  simp [Scanner.scan, Scanner.stateInString, h1, h2, h3]

theorem eq_of_toNat {ch : Char} {n : Nat} (h : ch.toNat = n) : ch = Char.ofNat n := by
  rw [← h, Char.ofNat_toNat]

/-- The bytes of a character written as itself are plain. -/
theorem plain_encodeRune {ch : Char} (h1 : 0x20 ≤ ch.toNat) (h2 : ch ≠ '"') (h3 : ch ≠ '\\') :
    ∀ b ∈ Utf8.encodeRune ch, Plain b := by
  by_cases hc : ch.toNat < 0x80
  · rw [Utf8.encodeRune_ascii hc]
    intro b hb
    rw [List.mem_singleton.mp hb, Plain, Utf8.toNat_toUInt8 (by omega)]
    exact ⟨h1, fun h => h2 (eq_of_toNat h), fun h => h3 (eq_of_toNat h)⟩
  · intro b hb
    have := Utf8.encodeRune_ge (by omega) b hb
    exact ⟨by omega, by omega, by omega⟩

theorem shortEscapes_cases {e : UInt8} {ch : Char} (h : (e, ch) ∈ shortEscapes) :
    e = 0x22 ∧ ch = '"' ∨ e = 0x5C ∧ ch = '\\' ∨ e = 0x2F ∧ ch = '/' ∨ e = 0x62 ∧ ch = Char.ofNat 8 ∨
      e = 0x66 ∧ ch = Char.ofNat 12 ∨ e = 0x6E ∧ ch = '\n' ∨ e = 0x72 ∧ ch = '\r' ∨
      e = 0x74 ∧ ch = '\t' := by
  simpa [shortEscapes] using h

theorem run_escape {e : UInt8} {ch : Char} (he : (e, ch) ∈ shortEscapes)
    (hd : d.lit = some (role, item)) (rest : List UInt8) :
    run ⟨.stateInString, ps, false⟩ d (0x5C :: e :: rest) =
      run ⟨.stateInString, ps, false⟩ { d with lit := some (role, item ++ [0x5C, e]) } rest := by
  rw [run_continue hd rfl]
  rcases shortEscapes_cases he with ⟨rfl, -⟩ | ⟨rfl, -⟩ | ⟨rfl, -⟩ | ⟨rfl, -⟩ | ⟨rfl, -⟩ | ⟨rfl, -⟩ |
    ⟨rfl, -⟩ | ⟨rfl, -⟩ <;> (rw [run_continue rfl rfl]; simp)

theorem isHex_of_hexNibble {b : UInt8} {v : Nat} (h : hexNibble b = some v) : isHex b = true := by
  unfold hexNibble at h
  split_ifs at h with h1 h2 h3 <;> simp_all [isHex, isDigit]

theorem scan_hex (st next : Step) {h : UInt8} (hh : isHex h = true)
    (hst : (⟨st, ps, false⟩ : Scanner).scan h = Scanner.stateInStringHex ⟨st, ps, false⟩ h next) :
    (⟨st, ps, false⟩ : Scanner).scan h = (⟨next, ps, false⟩, .scanContinue) := by
  rw [hst, Scanner.stateInStringHex, if_pos hh]
  rfl

/-- A "\u" escape stays inside the string. -/
theorem run_unitEscape {u : List UInt8} {v : Nat} (hu : UnitEscape u v)
    (hd : d.lit = some (role, item)) (rest : List UInt8) :
    run ⟨.stateInString, ps, false⟩ d (u ++ rest) =
      run ⟨.stateInString, ps, false⟩ { d with lit := some (role, item ++ u) } rest := by
  obtain ⟨ha, hb, hc, he⟩ := hu
  simp only [List.cons_append, List.nil_append]
  rw [run_continue hd rfl, run_continue rfl rfl,
    run_continue rfl (scan_hex .stateInStringEscU .stateInStringEscU1 (isHex_of_hexNibble ha) rfl),
    run_continue rfl (scan_hex .stateInStringEscU1 .stateInStringEscU12 (isHex_of_hexNibble hb) rfl),
    run_continue rfl (scan_hex .stateInStringEscU12 .stateInStringEscU123 (isHex_of_hexNibble hc) rfl),
    run_continue rfl (scan_hex .stateInStringEscU123 .stateInString (isHex_of_hexNibble he) rfl)]
  simp

/-- The bytes of a string's characters all stay inside the string literal. -/
theorem run_chars {body : List UInt8} {s : List Char} (h : Chars body s)
    (hd : d.lit = some (role, item)) (rest : List UInt8) :
    run ⟨.stateInString, ps, false⟩ d (body ++ rest) =
      run ⟨.stateInString, ps, false⟩ { d with lit := some (role, item ++ body) } rest := by
  induction h generalizing d item with
  | nil => rw [List.nil_append, List.append_nil, lit_eq hd]
  | plain h1 h2 h3 _ ih =>
    rw [List.append_assoc, run_continues (fun b hb => scan_inString_plain (plain_encodeRune h1 h2 h3 b hb)) hd,
      ih rfl]
    simp
  | short he _ ih =>
    rw [List.cons_append, List.cons_append, run_escape he hd, ih rfl]
    simp
  | unit hu _ _ ih =>
    rw [List.append_assoc, run_unitEscape hu hd, ih rfl]
    simp
  | pair hu hu' _ _ _ ih =>
    rw [List.append_assoc, List.append_assoc, run_unitEscape hu hd, run_unitEscape hu' rfl, ih rfl]
    simp
  | lone hu _ _ _ ih =>
    rw [List.append_assoc, run_unitEscape hu hd, ih rfl]
    simp

/-- A string literal, from the byte before its opening quote to its closing one. -/
theorem run_string (st : Step) (ps : List ParseState) {res : EventRequest} {sv : Bool} {f : Option Field}
    (hq : (⟨st, ps, false⟩ : Scanner).scan 0x22 = (⟨.stateInString, ps, false⟩, .scanBeginLiteral))
    {b : List UInt8} {s : List Char} (h : StringText b s) (rest : List UInt8) :
    run ⟨st, ps, false⟩ ⟨res, sv, f, none⟩ (b ++ rest) =
      run ⟨.stateEndValue, ps, false⟩ ⟨res, sv, f, some (roleOf ps, b)⟩ rest := by
  obtain ⟨hc⟩ := h
  rw [List.cons_append, run_cons hq (by decide), List.append_assoc,
    show Decoder.step ⟨res, sv, f, none⟩ ps 0x22 .scanBeginLiteral = ⟨res, sv, f, some (roleOf ps, [0x22])⟩ from rfl,
    run_chars hc rfl, show ([0x22] ++ rest : List UInt8) = 0x22 :: rest from rfl, run_continue rfl rfl]
  rfl

end Strings

/-! `unquoteBytes` on the characters of a string. -/

section Unquote

theorem unquoteLoop_skip (xs rest : List UInt8) : unquoteLoop xs.length (xs ++ rest) = unquoteLoop 0 rest := by
  induction xs with
  | nil => rfl
  | cons x xs ih => exact ih

/-- A turn that reads the bytes `bs` of a character and the skips after it leave the rest. -/
theorem unquoteLoop_of_nextRune {bs rest : List UInt8} {ch : Char} (hne : bs ≠ [])
    (h : nextRune (bs ++ rest) = some (ch, bs.length)) :
    unquoteLoop 0 (bs ++ rest) = (ch :: ·) <$> unquoteLoop 0 rest := by
  obtain ⟨b, tail, rfl⟩ := List.exists_cons_of_ne_nil hne
  rw [List.cons_append, unquoteLoop, ← List.cons_append, h]
  simp only [List.length_cons, Nat.add_sub_cancel, unquoteLoop_skip]

theorem nextRune_ascii {b : UInt8} {rest : List UInt8} (hb : Plain b) (h : b.toNat < 0x80) :
    nextRune (b :: rest) = some (Char.ofNat b.toNat, 1) := by
  obtain ⟨h1, h2, h3⟩ := hb
  unfold nextRune
  dsimp only
  rw [if_neg, if_neg, if_pos]
  all_goals simp only [Utf8.eq_iff_toNat, Utf8.lt_iff_toNat, Utf8.toNat_lit]; omega

theorem nextRune_multibyte {b : UInt8} {rest : List UInt8} (hb : 0x80 ≤ b.toNat) :
    nextRune (b :: rest) = some (Utf8.decodeRune (b :: rest)) := by
  unfold nextRune
  dsimp only
  rw [if_neg, if_neg, if_neg]
  all_goals simp only [Utf8.eq_iff_toNat, Utf8.lt_iff_toNat, Utf8.toNat_lit]; omega

theorem encodeRune_ne_nil (ch : Char) : Utf8.encodeRune ch ≠ [] := by
  unfold Utf8.encodeRune
  dsimp only
  split_ifs <;> simp

/-- A character written as itself reads back, ASCII or not. -/
theorem nextRune_plain {ch : Char} (h1 : 0x20 ≤ ch.toNat) (h2 : ch ≠ '"') (h3 : ch ≠ '\\')
    (rest : List UInt8) :
    nextRune (Utf8.encodeRune ch ++ rest) = some (ch, (Utf8.encodeRune ch).length) := by
  by_cases hc : ch.toNat < 0x80
  · have hp := plain_encodeRune h1 h2 h3
    rw [Utf8.encodeRune_ascii hc] at hp ⊢
    have hb : (ch.toNat.toUInt8).toNat = ch.toNat := Utf8.toNat_toUInt8 (by omega)
    rw [List.singleton_append, nextRune_ascii (hp _ (List.mem_singleton_self _)) (by rw [hb]; exact hc), hb,
      Char.ofNat_toNat]
    rfl
  · obtain ⟨b, tail, he⟩ := List.exists_cons_of_ne_nil (encodeRune_ne_nil ch)
    have hb := Utf8.encodeRune_ge (by omega) b (he ▸ List.mem_cons_self b tail)
    rw [← Utf8.decodeRune_encodeRune, he, List.cons_append, nextRune_multibyte hb]

theorem nextRune_short {e : UInt8} {ch : Char} (he : (e, ch) ∈ shortEscapes) (rest : List UInt8) :
    nextRune (0x5C :: e :: rest) = some (ch, 2) := by
  rcases shortEscapes_cases he with ⟨rfl, rfl⟩ | ⟨rfl, rfl⟩ | ⟨rfl, rfl⟩ | ⟨rfl, rfl⟩ | ⟨rfl, rfl⟩ |
    ⟨rfl, rfl⟩ | ⟨rfl, rfl⟩ | ⟨rfl, rfl⟩ <;> rfl

theorem getu4_unitEscape {u : List UInt8} {v : Nat} (hu : UnitEscape u v) (rest : List UInt8) :
    getu4 (u ++ rest) = some v := by
  obtain ⟨ha, hb, hc, hd⟩ := hu
  simp [getu4, ha, hb, hc, hd]

/-- `getu4` finds a code unit only at a "\u" escape. -/
theorem getu4_eq_some {t : List UInt8} {v : Nat} (h : getu4 t = some v) :
    ∃ u t', UnitEscape u v ∧ t = u ++ t' := by
  match t, h with
  | x :: y :: a :: b :: c :: d :: rest, h =>
    simp only [getu4] at h
    split_ifs at h with hxy
    obtain ⟨rfl, rfl⟩ := hxy
    rcases ha : hexNibble a with _ | va <;> rcases hb : hexNibble b with _ | vb <;>
      rcases hc : hexNibble c with _ | vc <;> rcases hd : hexNibble d with _ | vd <;>
      simp [ha, hb, hc, hd] at h
    exact ⟨_, rest, h ▸ UnitEscape.mk ha hb hc hd, rfl⟩

/-- The turn of `unquoteBytes` at a "\u" escape: a character outside the surrogates, a surrogate
pair, or `RuneError` for a surrogate without its pair. -/
theorem nextRune_unitEscape {u : List UInt8} {v : Nat} (hu : UnitEscape u v) (rest : List UInt8) :
    nextRune (u ++ rest) =
      if isSurrogate v then
        match (getu4 rest).bind (decodePair v) with
        | some dec => some (dec, 12)
        | none => some (Utf8.runeError, 6)
      else some (Char.ofNat v, 6) := by
  have hg := getu4_unitEscape hu rest
  obtain ⟨-, -, -, -⟩ := hu
  simp only [List.cons_append, List.nil_append] at hg ⊢
  unfold nextRune
  simp only [if_pos, hg]
  rfl

theorem UnitEscape.length_eq {u : List UInt8} {v : Nat} (hu : UnitEscape u v) : u.length = 6 := by
  cases hu
  rfl

theorem nextRune_unit {u : List UInt8} {v : Nat} (hu : UnitEscape u v) (hv : v < 0xD800 ∨ 0xE000 ≤ v)
    (rest : List UInt8) : nextRune (u ++ rest) = some (Char.ofNat v, u.length) := by
  rw [nextRune_unitEscape hu, if_neg (by simp [isSurrogate]; omega), hu.length_eq]

theorem nextRune_pair {u u' : List UInt8} {hi lo : Nat} (hu : UnitEscape u hi) (hu' : UnitEscape u' lo)
    (hh : 0xD800 ≤ hi ∧ hi < 0xDC00) (hl : 0xDC00 ≤ lo ∧ lo < 0xE000) (rest : List UInt8) :
    nextRune (u ++ u' ++ rest) =
      some (Char.ofNat ((hi - 0xD800) * 0x400 + (lo - 0xDC00) + 0x10000), (u ++ u').length) := by
  rw [List.append_assoc, nextRune_unitEscape hu, if_pos (by simp [isSurrogate]; omega),
    getu4_unitEscape hu', Option.some_bind, decodePair, if_pos ⟨hh.1, hh.2, hl⟩, List.length_append,
    hu.length_eq, hu'.length_eq]

theorem nextRune_lone {u t : List UInt8} {v : Nat} (hu : UnitEscape u v) (hv : 0xD800 ≤ v ∧ v < 0xE000)
    (hn : ∀ u' t' lo, UnitEscape u' lo → t = u' ++ t' → ¬(v < 0xDC00 ∧ 0xDC00 ≤ lo ∧ lo < 0xE000)) :
    nextRune (u ++ t) = some (Char.ofNat 0xFFFD, u.length) := by
  have hb : (getu4 t).bind (decodePair v) = none := by
    rcases h : getu4 t with _ | lo
    · rfl
    · obtain ⟨u', t', hu', rfl⟩ := getu4_eq_some h
      have := hn u' t' lo hu' rfl
      simp only [Option.some_bind, decodePair]
      rw [if_neg (by omega)]
  rw [nextRune_unitEscape hu, if_pos (by simp [isSurrogate]; omega), hb, hu.length_eq]
  rfl

/-- The characters of a string read back. -/
theorem unquoteLoop_chars {body : List UInt8} {s : List Char} (h : Chars body s) :
    unquoteLoop 0 body = some s := by
  induction h with
  | nil => rfl
  | plain h1 h2 h3 _ ih =>
    rw [unquoteLoop_of_nextRune (encodeRune_ne_nil _) (nextRune_plain h1 h2 h3 _), ih]
    rfl
  | short he _ ih =>
    exact (unquoteLoop_of_nextRune (List.cons_ne_nil 0x5C [_]) (nextRune_short he _)).trans (by rw [ih]; rfl)
  | unit hu hv _ ih =>
    rw [unquoteLoop_of_nextRune (by simp [← List.length_pos, hu.length_eq]) (nextRune_unit hu hv _), ih]
    rfl
  | pair hu hu' hh hl _ ih =>
    rw [unquoteLoop_of_nextRune (by simp [← List.length_pos, hu.length_eq]) (nextRune_pair hu hu' hh hl _), ih]
    rfl
  | lone hu hv hn _ ih =>
    rw [unquoteLoop_of_nextRune (by simp [← List.length_pos, hu.length_eq]) (nextRune_lone hu hv hn), ih]
    rfl

/-- `unquoteBytes` gives a string literal's characters. -/
theorem unquoteBytes_string {b : List UInt8} {s : List Char} (h : StringText b s) :
    unquoteBytes b = some s := by
  obtain ⟨hc⟩ := h
  rw [unquoteBytes, List.getLast?_concat, if_pos rfl, List.dropLast_concat, unquoteLoop_chars hc]

end Unquote

/-! Numbers. -/

section Numbers

/-- The digits of a natural number with no leading zero but in "0", and their value. -/
structure Decimal (u : List UInt8) (m : Nat) : Prop where
  digits : Digits u
  value : digitsValue u = m
  lead : u = [0x30] ∨ u.head? ≠ some 0x30

theorem Number.decimal (n : Number) : Decimal n.int (digitsValue n.int) :=
  ⟨n.int_digits, rfl, n.int_lead⟩

theorem isDigit_toNat {b : UInt8} (h : isDigit b = true) : 0x30 ≤ b.toNat ∧ b.toNat ≤ 0x39 := by
  simpa only [isDigit, Bool.and_eq_true, decide_eq_true_eq, Utf8.le_iff_toNat, Utf8.toNat_lit] using h

theorem isDigit_cases {b : UInt8} (h : isDigit b = true) :
    b = 0x30 ∨ b = 0x31 ∨ b = 0x32 ∨ b = 0x33 ∨ b = 0x34 ∨ b = 0x35 ∨ b = 0x36 ∨ b = 0x37 ∨ b = 0x38 ∨
      b = 0x39 := by
  have := isDigit_toNat h
  simp only [Utf8.eq_iff_toNat, Utf8.toNat_lit]
  omega

variable {ps : List ParseState} {d : Decoder} {role : Role} {item : List UInt8}

/-- Digits whose first takes the scanner from `st` to `st'`, which keeps the others. -/
theorem run_digits {st st' : Step} {ds : List UInt8} (hds : Digits ds)
    (hfirst : ∀ b, isDigit b = true → (⟨st, ps, false⟩ : Scanner).scan b = (⟨st', ps, false⟩, .scanContinue))
    (hstay : ∀ b, isDigit b = true → (⟨st', ps, false⟩ : Scanner).scan b = (⟨st', ps, false⟩, .scanContinue))
    (hd : d.lit = some (role, item)) (rest : List UInt8) :
    run ⟨st, ps, false⟩ d (ds ++ rest) = run ⟨st', ps, false⟩ { d with lit := some (role, item ++ ds) } rest := by
  obtain ⟨hne, hall⟩ := hds
  obtain ⟨b, t, rfl⟩ := List.exists_cons_of_ne_nil hne
  rw [List.cons_append, run_continue hd (hfirst b (hall b (List.mem_cons_self b t))),
    run_continues (fun x hx => hstay x (hall x (List.mem_cons_of_mem b hx))) rfl]
  simp

theorem scan_state1_digit {b : UInt8} (h : isDigit b = true) :
    (⟨.state1, ps, false⟩ : Scanner).scan b = (⟨.state1, ps, false⟩, .scanContinue) := by
  simp only [Scanner.scan, Scanner.state1, h, if_true]

/-- A first digit other than "0", at the start of a value or after "-". -/
theorem scan_first_digit {b : UInt8} (h : isDigit b = true) (h0 : b ≠ 0x30) :
    (⟨.stateBeginValue, ps, false⟩ : Scanner).scan b = (⟨.state1, ps, false⟩, .scanBeginLiteral) ∧
      (⟨.stateNeg, ps, false⟩ : Scanner).scan b = (⟨.state1, ps, false⟩, .scanContinue) := by
  rcases isDigit_cases h with rfl | rfl | rfl | rfl | rfl | rfl | rfl | rfl | rfl | rfl
  · exact absurd rfl h0
  all_goals exact ⟨rfl, rfl⟩

theorem scan_stateDot_digit {b : UInt8} (h : isDigit b = true) :
    (⟨.stateDot, ps, false⟩ : Scanner).scan b = (⟨.stateDot0, ps, false⟩, .scanContinue) := by
  simp [Scanner.scan, Scanner.stateDot, h, Scanner.goto]

theorem scan_stateDot0_digit {b : UInt8} (h : isDigit b = true) :
    (⟨.stateDot0, ps, false⟩ : Scanner).scan b = (⟨.stateDot0, ps, false⟩, .scanContinue) := by
  simp [Scanner.scan, Scanner.stateDot0, h]

theorem scan_stateE0_digit {b : UInt8} (h : isDigit b = true) :
    (⟨.stateE0, ps, false⟩ : Scanner).scan b = (⟨.stateE0, ps, false⟩, .scanContinue) := by
  simp [Scanner.scan, Scanner.stateE0, h]

/-- The integer part, from the state that reads its first digit: it ends in `state0` after a
lone "0", else in `state1`. -/
theorem run_decimal (st : Step) {op : Op} {u : List UInt8} {m : Nat} (hop : op ≠ .scanError)
    (h0 : (⟨st, ps, false⟩ : Scanner).scan 0x30 = (⟨.state0, ps, false⟩, op))
    (h1 : ∀ b, isDigit b = true → b ≠ 0x30 → (⟨st, ps, false⟩ : Scanner).scan b = (⟨.state1, ps, false⟩, op))
    (hstep : ∀ b, d.step ps b op = { d with lit := some (role, item ++ [b]) })
    (hu : Decimal u m) (rest : List UInt8) :
    ∃ st', (st' = .state0 ∨ st' = .state1) ∧
      run ⟨st, ps, false⟩ d (u ++ rest) = run ⟨st', ps, false⟩ { d with lit := some (role, item ++ u) } rest := by
  obtain ⟨b, t, rfl⟩ := List.exists_cons_of_ne_nil hu.digits.1
  rcases hu.lead with h | hb
  · obtain ⟨rfl, rfl⟩ := List.cons_eq_cons.mp h
    exact ⟨_, .inl rfl, by rw [List.singleton_append, run_cons h0 hop, hstep]⟩
  · refine ⟨_, .inr rfl, ?_⟩
    have hb : b ≠ 0x30 := fun h => hb (by rw [h]; rfl)
    rw [List.cons_append, run_cons (h1 b (hu.digits.2 b (List.mem_cons_self b t)) hb) hop, hstep,
      run_continues (fun c hc => scan_state1_digit (hu.digits.2 c (List.mem_cons_of_mem b hc))) rfl]
    simp

/-- The sign and the integer part of a number, from the start of a value. -/
theorem run_intPart (ps : List ParseState) (n : Number) (res : EventRequest) (sv : Bool) (f : Option Field) (rest : List UInt8) :
    ∃ st, (st = .state0 ∨ st = .state1) ∧
      run ⟨.stateBeginValue, ps, false⟩ ⟨res, sv, f, none⟩ ((if n.neg then [0x2D] else []) ++ n.int ++ rest) =
        run ⟨st, ps, false⟩ ⟨res, sv, f, some (roleOf ps, (if n.neg then [0x2D] else []) ++ n.int)⟩ rest := by
  cases n.neg
  · exact run_decimal .stateBeginValue (by decide) rfl (fun b h h0 => (scan_first_digit h h0).1)
      (fun _ => rfl) n.decimal rest
  · obtain ⟨st, hst, h⟩ := run_decimal (d := ⟨res, sv, f, some (roleOf ps, [0x2D])⟩) .stateNeg
      (by decide) rfl (fun b h h0 => (scan_first_digit h h0).2) (fun _ => rfl) n.decimal rest
    have hneg : (⟨.stateBeginValue, ps, false⟩ : Scanner).scan 0x2D =
        (⟨.stateNeg, ps, false⟩, .scanBeginLiteral) := rfl
    exact ⟨st, hst, (run_cons hneg (by decide) _).trans h⟩

/-- A fraction, when the number has one, after the integer part. -/
theorem run_fracPart (ps : List ParseState) {st : Step} (hst : st = .state0 ∨ st = .state1)
    {frac : Option (List UInt8)} (hf : ∀ f, frac = some f → Digits f) (res : EventRequest) (sv : Bool)
    (f : Option Field) (role : Role) (item rest : List UInt8) :
    ∃ st', (st' = .state0 ∨ st' = .state1 ∨ st' = .stateDot0) ∧
      run ⟨st, ps, false⟩ ⟨res, sv, f, some (role, item)⟩ ((frac.map (0x2E :: ·)).getD [] ++ rest) =
        run ⟨st', ps, false⟩ ⟨res, sv, f, some (role, item ++ (frac.map (0x2E :: ·)).getD [])⟩ rest := by
  cases frac with
  | none => exact ⟨st, hst.imp_right .inl, by simp⟩
  | some fr =>
    refine ⟨.stateDot0, .inr (.inr rfl), ?_⟩
    have hdot : (⟨st, ps, false⟩ : Scanner).scan 0x2E = (⟨.stateDot, ps, false⟩, .scanContinue) := by
      rcases hst with rfl | rfl <;> rfl
    simp only [Option.map_some', Option.getD_some, List.cons_append]
    rw [run_continue rfl hdot, run_digits (hf fr rfl) (fun _ => scan_stateDot_digit)
      (fun _ => scan_stateDot0_digit) rfl]
    simp

theorem scan_exp_letter {st : Step} (hst : st = .state0 ∨ st = .state1 ∨ st = .stateDot0) {b : UInt8}
    (hb : b = 0x65 ∨ b = 0x45) :
    (⟨st, ps, false⟩ : Scanner).scan b = (⟨.stateE, ps, false⟩, .scanContinue) := by
  rcases hst with rfl | rfl | rfl <;> rcases hb with rfl | rfl <;> rfl

theorem scan_exp_digit {st : Step} (hst : st = .stateE ∨ st = .stateESign) {b : UInt8}
    (h : isDigit b = true) : (⟨st, ps, false⟩ : Scanner).scan b = (⟨.stateE0, ps, false⟩, .scanContinue) := by
  rcases hst with rfl | rfl <;> rcases isDigit_cases h with rfl | rfl | rfl | rfl | rfl | rfl | rfl | rfl |
    rfl | rfl <;> rfl

/-- An exponent's letter and sign. -/
theorem run_mark {st : Step} (hst : st = .state0 ∨ st = .state1 ∨ st = .stateDot0) {m : List UInt8}
    (hm : m ∈ exponentMarks) (hd : d.lit = some (role, item)) (rest : List UInt8) :
    ∃ st', (st' = .stateE ∨ st' = .stateESign) ∧
      run ⟨st, ps, false⟩ d (m ++ rest) = run ⟨st', ps, false⟩ { d with lit := some (role, item ++ m) } rest := by
  simp only [exponentMarks, List.mem_cons, List.mem_singleton, List.not_mem_nil, or_false] at hm
  rcases hm with rfl | rfl | rfl | rfl | rfl | rfl
  all_goals first
    | exact ⟨_, .inl rfl, by rw [List.singleton_append, run_continue hd (scan_exp_letter hst (by decide))]⟩
    | refine ⟨_, .inr rfl, ?_⟩
      rw [List.cons_append, List.singleton_append, run_continue hd (scan_exp_letter hst (by decide)),
        run_continue rfl rfl]
      simp

/-- An exponent, when the number has one, after the integer part or the fraction. -/
theorem run_expPart (ps : List ParseState) {st : Step} (hst : st = .state0 ∨ st = .state1 ∨ st = .stateDot0)
    {exp : Option (List UInt8 × List UInt8)} (he : ∀ m ds, exp = some (m, ds) → m ∈ exponentMarks ∧ Digits ds)
    (res : EventRequest) (sv : Bool) (f : Option Field) (role : Role) (item rest : List UInt8) :
    ∃ st', AfterValue st' ∧
      run ⟨st, ps, false⟩ ⟨res, sv, f, some (role, item)⟩ ((exp.map fun e => e.1 ++ e.2).getD [] ++ rest) =
        run ⟨st', ps, false⟩ ⟨res, sv, f, some (role, item ++ (exp.map fun e => e.1 ++ e.2).getD [])⟩ rest := by
  cases exp with
  | none =>
    refine ⟨st, ?_, by simp⟩
    rcases hst with h | h | h <;> simp [AfterValue, h]
  | some e =>
    obtain ⟨hm, hds⟩ := he e.1 e.2 rfl
    obtain ⟨st', hst', h⟩ := run_mark hst hm (d := ⟨res, sv, f, some (role, item)⟩) rfl (e.2 ++ rest)
    refine ⟨.stateE0, .inr (.inr (.inr (.inr rfl))), ?_⟩
    simp only [Option.map_some', Option.getD_some, List.append_assoc]
    rw [h, run_digits hds (fun _ => scan_exp_digit hst') (fun _ => scan_stateE0_digit) rfl]
    simp

/-- A number from the start of a value, one literal. -/
theorem run_number (ps : List ParseState) (n : Number) (res : EventRequest) (sv : Bool) (f : Option Field)
    (rest : List UInt8) :
    ∃ st, AfterValue st ∧
      run ⟨.stateBeginValue, ps, false⟩ ⟨res, sv, f, none⟩ (n.bytes ++ rest) =
        run ⟨st, ps, false⟩ ⟨res, sv, f, some (roleOf ps, n.bytes)⟩ rest := by
  obtain ⟨st1, hst1, h1⟩ := run_intPart ps n res sv f
    ((n.frac.map (0x2E :: ·)).getD [] ++ ((n.exp.map fun e => e.1 ++ e.2).getD [] ++ rest))
  obtain ⟨st2, hst2, h2⟩ := run_fracPart ps hst1 n.frac_digits res sv f (roleOf ps) _
    ((n.exp.map fun e => e.1 ++ e.2).getD [] ++ rest)
  obtain ⟨st3, hst3, h3⟩ := run_expPart ps hst2 n.exp_digits res sv f (roleOf ps) _ rest
  refine ⟨st3, hst3, ?_⟩
  simpa only [Number.bytes, List.append_assoc] using h1.trans (h2.trans h3)

/-! `ParseInt` on a number's text. -/

theorem Digits.exists_cons {ds : List UInt8} (h : Digits ds) : ∃ b t, ds = b :: t ∧ isDigit b = true := by
  obtain ⟨b, t, rfl⟩ := List.exists_cons_of_ne_nil h.1
  exact ⟨b, t, rfl, h.2 b (List.mem_cons_self b t)⟩

theorem parseUint_decimal {u : List UInt8} {m : Nat} (hd : Decimal u m) :
    parseUint u = if m < 2 ^ 64 then some m else none := by
  simp [parseUint, hd.value, hd.digits.1, List.all_eq_true.mpr hd.digits.2]

/-- A byte that is no digit makes `ParseUint` fail. -/
theorem parseUint_nondigit (u t : List UInt8) {b : UInt8} (hb : isDigit b = false) :
    parseUint (u ++ b :: t) = none := by
  simp [parseUint, List.all_append, hb]

theorem parseInt_unsigned {s : List UInt8} (h1 : s.head? ≠ some 0x2B) (h2 : s.head? ≠ some 0x2D) :
    parseInt s = (parseUint s).bind fun un => if 2 ^ 63 ≤ un then none else some (un : Int) := by
  unfold parseInt
  split
  rename_i heq
  split at heq
  · simp at h1
  · simp at h2
  · obtain ⟨rfl, rfl⟩ := Prod.mk.inj heq
    rcases parseUint s with _ | un <;> simp

theorem parseInt_neg (s : List UInt8) :
    parseInt (0x2D :: s) = (parseUint s).bind fun un => if 2 ^ 63 < un then none else some (-(un : Int)) := by
  unfold parseInt
  rcases h : parseUint s with _ | un <;> simp [h]

/-- A sign, when written, and a digit after it: `ParseInt` reads past the sign. -/
theorem parseInt_signed (neg : Bool) {b : UInt8} (hb : isDigit b = true) (t : List UInt8) :
    parseInt ((if neg then [0x2D] else []) ++ b :: t) =
      (parseUint (b :: t)).bind fun un =>
        if neg then (if 2 ^ 63 < un then none else some (-(un : Int)))
        else if 2 ^ 63 ≤ un then none else some (un : Int) := by
  have := isDigit_toNat hb
  cases neg
  · refine parseInt_unsigned ?_ ?_ <;>
      simp only [if_neg Bool.false_ne_true, List.nil_append, List.head?_cons, ne_eq, Option.some.injEq,
        Utf8.eq_iff_toNat, Utf8.toNat_lit] <;> omega
  · exact parseInt_neg _

/-- `ParseInt`'s range test after `ParseUint`, on the signed value: `int64`'s range. -/
theorem parseInt_range (neg : Bool) (m : Nat) :
    ((if m < 2 ^ 64 then some m else none).bind fun un =>
        if neg then (if 2 ^ 63 < un then none else some (-(un : Int)))
        else if 2 ^ 63 ≤ un then none else some (un : Int)) =
      if -2 ^ 63 ≤ (if neg then -(m : Int) else m) ∧ (if neg then -(m : Int) else m) < 2 ^ 63 then
        some (if neg then -(m : Int) else m)
      else none := by
  by_cases h : m < 2 ^ 64
  · cases neg <;> simp only [if_pos h, Option.some_bind] <;> split_ifs <;> first | rfl | omega
  · cases neg <;> simp only [if_neg h, Option.none_bind] <;> split_ifs <;> first | rfl | omega

theorem Number.bytes_plain {n : Number} (hp : n.frac = none ∧ n.exp = none) :
    n.bytes = (if n.neg then [0x2D] else []) ++ n.int := by
  simp [Number.bytes, hp]

/-- A number with a fraction or an exponent has a byte that is no digit after its integer part. -/
theorem Number.bytes_nondigit {n : Number} (hp : ¬(n.frac = none ∧ n.exp = none)) :
    ∃ c u, isDigit c = false ∧ n.bytes = (if n.neg then [0x2D] else []) ++ (n.int ++ c :: u) := by
  rcases hf : n.frac with _ | fr
  · rcases he : n.exp with _ | ⟨m, ds⟩
    · exact absurd ⟨hf, he⟩ hp
    · obtain ⟨hm, -⟩ := n.exp_digits m ds he
      obtain ⟨e, m', rfl, he'⟩ : ∃ e m', m = e :: m' ∧ isDigit e = false := by
        simp only [exponentMarks, List.mem_cons, List.mem_nil_iff, or_false] at hm
        rcases hm with rfl | rfl | rfl | rfl | rfl | rfl <;> exact ⟨_, _, rfl, rfl⟩
      exact ⟨e, m' ++ ds, he', by simp [Number.bytes, hf, he]⟩
  · exact ⟨0x2E, fr ++ (n.exp.map fun e => e.1 ++ e.2).getD [], rfl, by simp [Number.bytes, hf]⟩

/-- `ParseInt` of a number's text: the integer it denotes within the range of `int64`, and an error
for a fraction or an exponent. -/
theorem parseInt_number (n : Number) :
    parseInt n.bytes = match n.literal with
      | .value (.int v) => if -2 ^ 63 ≤ v ∧ v < 2 ^ 63 then some v else none
      | _ => none := by
  obtain ⟨b, t, hbt, hb⟩ := n.int_digits.exists_cons
  unfold Number.literal
  by_cases hp : n.frac = none ∧ n.exp = none
  · rw [n.bytes_plain hp, if_pos hp, hbt, parseInt_signed n.neg hb, ← hbt, parseUint_decimal n.decimal,
      parseInt_range]
  · obtain ⟨c, u, hc, hcu⟩ := n.bytes_nondigit hp
    rw [hcu, if_neg hp, hbt, List.cons_append, parseInt_signed n.neg hb, ← List.cons_append,
      parseUint_nondigit _ _ hc]
    rfl

/-- A literal that starts as a number does: `ParseInt` into `code`, an error into a string field. -/
theorem literalStore_numeric {b : UInt8} {t : List UInt8} (h1 : 0x2D ≤ b.toNat) (h2 : b.toNat < 0x3A)
    (f : Field) (res : EventRequest) :
    literalStore f (b :: t) res =
      if f = .code then (parseInt (b :: t)).map fun n => { res with code := n } else none := by
  rw [literalStore.eq_def]
  dsimp only
  rw [if_neg, if_neg, if_neg]
  · cases f <;> rfl
  all_goals simp only [Utf8.eq_iff_toNat, Utf8.toNat_lit]; omega

/-- A number's text starts with a minus sign or a digit. -/
theorem Number.bytes_cons (n : Number) : ∃ b t, n.bytes = b :: t ∧ 0x2D ≤ b.toNat ∧ b.toNat < 0x3A := by
  obtain ⟨b, t, hbt, hb⟩ := n.int_digits.exists_cons
  have := isDigit_toNat hb
  cases hn : n.neg
  · exact ⟨b, t ++ (n.frac.map (0x2E :: ·)).getD [] ++ (n.exp.map fun e => e.1 ++ e.2).getD [],
      by simp [Number.bytes, hn, hbt], by omega, by omega⟩
  · exact ⟨0x2D, n.int ++ (n.frac.map (0x2E :: ·)).getD [] ++ (n.exp.map fun e => e.1 ++ e.2).getD [],
      by simp [Number.bytes, hn], by decide, by decide⟩

/-- `literalStore` of a number's text does what the number denotes. -/
theorem literalStore_number (f : Field) (n : Number) (res : EventRequest) :
    literalStore f n.bytes res = setLiteral res f n.literal := by
  obtain ⟨b, t, hbt, h1, h2⟩ := n.bytes_cons
  rw [hbt, literalStore_numeric h1 h2, ← hbt, parseInt_number]
  unfold Number.literal
  by_cases hp : n.frac = none ∧ n.exp = none
  · rw [if_pos hp]
    cases f <;> simp [setLiteral, setField, apply_ite (Option.map _)]
  · rw [if_neg hp]
    cases f <;> rfl

end Numbers

/-! Literals. -/

section Literals

/-- `literalStore` of a string literal does what the string denotes. -/
theorem literalStore_string (f : Field) {b : List UInt8} {s : List Char} (h : StringText b s)
    (res : EventRequest) : literalStore f b res = setField res f (.str s) := by
  have hu := unquoteBytes_string h
  obtain ⟨-⟩ := h
  cases f <;> simp [literalStore, hu, setField]

/-- `literalStore` of any literal does what the literal denotes. -/
theorem literalStore_literal (f : Field) {b : List UInt8} {lit : Literal} (h : LiteralText b lit)
    (res : EventRequest) : literalStore f b res = setLiteral res f lit := by
  cases h with
  | num n => exact literalStore_number f n res
  | str hs => exact literalStore_string f hs res
  | «true» | «false» | null => cases f <;> rfl

/-- A literal from the start of a value: the scanner reads it as one literal and stops after it or
inside a number that the next byte ends. -/
theorem run_literal (ps : List ParseState) {b : List UInt8} {lit : Literal} (h : LiteralText b lit)
    (res : EventRequest) (sv : Bool) (f : Option Field) (rest : List UInt8) :
    ∃ st, AfterValue st ∧
      run ⟨.stateBeginValue, ps, false⟩ ⟨res, sv, f, none⟩ (b ++ rest) =
        run ⟨st, ps, false⟩ ⟨res, sv, f, some (roleOf ps, b)⟩ rest := by
  cases h with
  | num n => exact run_number ps n res sv f rest
  | str hs => exact ⟨_, .inl rfl, run_string .stateBeginValue ps rfl hs rest⟩
  | «true» | «false» | null => exact ⟨_, .inl rfl, rfl⟩

/-- Only null's text is "null". -/
theorem LiteralText.eq_null_iff {b : List UInt8} {lit : Literal} (h : LiteralText b lit) :
    b = [0x6E, 0x75, 0x6C, 0x6C] ↔ lit = .value .null := by
  cases h with
  | num n =>
    obtain ⟨b, t, hbt, -, h2⟩ := n.bytes_cons
    refine iff_of_false (fun h => ?_) (by unfold Number.literal; split_ifs <;> simp)
    rw [hbt, List.cons.injEq] at h
    rw [h.1, Utf8.toNat_lit] at h2
    omega
  | str hs =>
    obtain ⟨-⟩ := hs
    exact iff_of_false (fun h => absurd (List.cons.inj h).1 (by decide)) (by simp)
  | «true» | «false» => decide
  | null => exact iff_of_true rfl rfl

theorem LiteralText.ne_nil {b : List UInt8} {lit : Literal} (h : LiteralText b lit) : b ≠ [] := by
  cases h with
  | num n =>
    obtain ⟨b, t, hbt, -⟩ := n.bytes_cons
    rw [hbt]
    exact List.cons_ne_nil b t
  | str hs =>
    obtain ⟨-⟩ := hs
    exact List.cons_ne_nil _ _
  | «true» | «false» | null => exact List.cons_ne_nil _ _

end Literals

end JsonDecode

end Boots.Http
