import Boots.Http.JsonObject

/-! What a client written in Go sends: `json.Marshal`'s text of an object of literals is an object
of the grammar, so `json.Unmarshal` reads the request back. -/
namespace Boots.Http

namespace JsonDecode

open JsonScan

/-! `json.Marshal`'s text. -/

/-- The text `json.Marshal` writes for a value. -/
def Value.text : Value → List Char
  | .int n => (toString n).toList
  | .str s => '"' :: quoteTail s
  | .bool true => "true".toList
  | .bool false => "false".toList
  | .null => "null".toList

/-- A member: its key, a colon and its value. -/
def memberText (m : List Char × Value) : List Char := '"' :: quoteTail m.1 ++ ':' :: m.2.text

/-- The members after the opening brace, separated by commas, and the closing brace. -/
def membersText : List (List Char × Value) → List Char
  | [] => ['\x7d']
  | [m] => memberText m ++ ['\x7d']
  | m :: m' :: ms => memberText m ++ ',' :: membersText (m' :: ms)

/-- An object of literal members, written without spaces. -/
def objectText (ms : List (List Char × Value)) : List Char := '\x7b' :: membersText ms

/-- `json.Marshal` of the struct `serveEvents` decodes, as a client written in Go sends it: its
three fields under their tags, in order. -/
def marshalRequest (r : EventRequest) : List Char :=
  objectText [("code".toList, .int r.code), ("state".toList, .str r.state.toList),
    ("message".toList, .str r.message.toList)]

theorem encode_append (l l' : List Char) : Utf8.encode (l ++ l') = Utf8.encode l ++ Utf8.encode l' :=
  List.flatMap_append _ _ _

/-! Escaped strings. -/

section Strings

/-- The byte of `hexDigit n`. -/
def hexByte (n : Nat) : UInt8 := (if n < 10 then 48 + n else 87 + n).toUInt8

theorem encodeRune_hexDigit : ∀ n, n < 16 → Utf8.encodeRune (hexDigit n) = [hexByte n] := by
  decide

theorem hexNibble_hexByte : ∀ n, n < 16 → hexNibble (hexByte n) = some n := by decide

theorem encode_unicode_low {ch : Char} (h : ch.toNat < 0x40) :
    Utf8.encode ['\\', 'u', '0', '0', hexDigit (ch.toNat / 16), hexDigit (ch.toNat % 16)] =
      [0x5C, 0x75, 0x30, 0x30, hexByte (ch.toNat / 16), hexByte (ch.toNat % 16)] := by
  simp only [Utf8.encode, List.flatMap_cons, List.flatMap_nil,
    encodeRune_hexDigit _ (by omega : ch.toNat / 16 < 16),
    encodeRune_hexDigit _ (Nat.mod_lt _ (by omega) : ch.toNat % 16 < 16)]
  rfl

theorem encode_unicode_line {ch : Char} :
    Utf8.encode ['\\', 'u', '2', '0', '2', hexDigit (ch.toNat % 16)] =
      [0x5C, 0x75, 0x32, 0x30, 0x32, hexByte (ch.toNat % 16)] := by
  simp only [Utf8.encode, List.flatMap_cons, List.flatMap_nil,
    encodeRune_hexDigit _ (Nat.mod_lt _ (by omega) : ch.toNat % 16 < 16)]
  rfl

/-- The shapes `escapeChar` writes a character in: a two-character escape of a quote, a backslash
or a line break; a "\\u00XX" escape of a control or HTML character; a "\\u202X" escape of a line
or paragraph separator; or the character itself. -/
inductive Escape : Char → List Char → Prop
  | short {c : Char} (e : Char)
      (h : c = '\\' ∧ e = '\\' ∨ c = '"' ∧ e = '"' ∨ c = '\n' ∧ e = 'n' ∨ c = '\r' ∧ e = 'r' ∨
        c = '\t' ∧ e = 't') :
      Escape c ['\\', e]
  | low {c : Char} (h : c.toNat < 0x40) :
      Escape c ['\\', 'u', '0', '0', hexDigit (c.toNat / 16), hexDigit (c.toNat % 16)]
  | line {c : Char} (h : c.toNat = 0x2028 ∨ c.toNat = 0x2029) :
      Escape c ['\\', 'u', '2', '0', '2', hexDigit (c.toNat % 16)]
  | plain {c : Char} (h1 : c ≠ '\\') (h2 : c ≠ '"') (h3 : 0x20 ≤ c.toNat) : Escape c [c]

theorem escape_escapeChar (c : Char) : Escape c (escapeChar c) := by
  rw [escapeChar]
  by_cases h1 : c = '\\' ∨ c = '"'
  · rw [if_pos h1]
    rcases h1 with rfl | rfl
    exacts [.short _ (.inl ⟨rfl, rfl⟩), .short _ (.inr (.inl ⟨rfl, rfl⟩))]
  rw [if_neg h1]
  by_cases h2 : c = '\n'
  · rw [if_pos h2]; exact .short _ (.inr (.inr (.inl ⟨h2, rfl⟩)))
  rw [if_neg h2]
  by_cases h3 : c = '\r'
  · rw [if_pos h3]; exact .short _ (.inr (.inr (.inr (.inl ⟨h3, rfl⟩))))
  rw [if_neg h3]
  by_cases h4 : c = '\t'
  · rw [if_pos h4]; exact .short _ (.inr (.inr (.inr (.inr ⟨h4, rfl⟩))))
  rw [if_neg h4]
  by_cases h5 : c.toNat < 0x20 ∨ c = '<' ∨ c = '>' ∨ c = '&'
  · rw [if_pos h5]
    refine .low ?_
    rcases h5 with h | rfl | rfl | rfl
    · omega
    all_goals decide
  rw [if_neg h5]
  by_cases h6 : c.toNat = 0x2028 ∨ c.toNat = 0x2029
  · rw [if_pos h6]; exact .line h6
  rw [if_neg h6]
  exact .plain (fun h => h1 (.inl h)) (fun h => h1 (.inr h)) (by omega)

theorem unitEscape_hex {v : Nat} (a b : Nat) (ha : a < 16) (hb : b < 16) (c d : Nat) (hc : c < 16) (hd : d < 16)
    (hv : ((a * 16 + b) * 16 + c) * 16 + d = v) :
    UnitEscape [0x5C, 0x75, hexByte a, hexByte b, hexByte c, hexByte d] v :=
  hv ▸ .mk (hexNibble_hexByte a ha) (hexNibble_hexByte b hb) (hexNibble_hexByte c hc) (hexNibble_hexByte d hd)

/-- One escaped character before the characters of the rest of a string. -/
theorem Escape.chars {c : Char} {l : List Char} (h : Escape c l) {t : List UInt8} {s : List Char}
    (ht : Chars t s) : Chars (Utf8.encode l ++ t) (c :: s) := by
  cases h with
  | short e h =>
    rcases h with ⟨rfl, rfl⟩ | ⟨rfl, rfl⟩ | ⟨rfl, rfl⟩ | ⟨rfl, rfl⟩ | ⟨rfl, rfl⟩ <;>
      exact .short (by decide) ht
  | low h =>
    rw [encode_unicode_low h]
    have hu := unitEscape_hex 0 0 (by omega) (by omega) (c.toNat / 16) (c.toNat % 16) (by omega)
      (Nat.mod_lt _ (by omega)) (by omega : _ = c.toNat)
    simpa only [Char.ofNat_toNat] using Chars.unit hu (.inl (by omega)) ht
  | line h =>
    rw [encode_unicode_line]
    have hu := unitEscape_hex 2 0 (by omega) (by omega) 2 (c.toNat % 16) (by omega) (Nat.mod_lt _ (by omega))
      (by omega : _ = c.toNat)
    simpa only [Char.ofNat_toNat] using Chars.unit hu (.inl (by omega)) ht
  | plain h1 h2 h3 =>
    rw [show Utf8.encode [c] = Utf8.encodeRune c from List.append_nil _]
    exact .plain h3 h2 h1 ht

/-- The characters `json.Marshal` escapes spell the string back. -/
theorem chars_escaped (s : List Char) : Chars (Utf8.encode (s.flatMap escapeChar)) s := by
  induction s with
  | nil => exact .nil
  | cons c s ih =>
    rw [List.flatMap_cons, encode_append]
    exact (escape_escapeChar c).chars ih

theorem stringText_quoted (s : List Char) : StringText (Utf8.encode ('"' :: quoteTail s)) s := by
  rw [quoteTail, ← List.singleton_append, encode_append, encode_append]
  exact .mk (chars_escaped s)

end Strings

/-! The decimal text of an integer. -/

section Numbers

theorem encodeRune_digitChar : ∀ k, k < 10 → Utf8.encodeRune (Nat.digitChar k) = [(48 + k).toUInt8] := by
  decide

theorem isDigit_digitByte : ∀ k, k < 10 → isDigit (48 + k).toUInt8 = true := by decide

theorem digitsValue_concat (u : List UInt8) (b : UInt8) :
    digitsValue (u ++ [b]) = digitsValue u * 10 + (b.toNat - 0x30) := by
  rw [digitsValue, List.foldl_append]
  rfl

theorem Decimal.digit {k : Nat} (hk : k < 10) : Decimal [(48 + k).toUInt8] k where
  digits := ⟨List.cons_ne_nil _ _, fun b hb => List.mem_singleton.mp hb ▸ isDigit_digitByte k hk⟩
  value := by
    rw [← List.nil_append [_], digitsValue_concat, Utf8.toNat_toUInt8 (by omega)]
    show 0 * 10 + (48 + k - 48) = k
    omega
  lead := by
    rcases Nat.eq_zero_or_pos k with rfl | hk0
    · exact .inl rfl
    · refine .inr fun h => ?_
      have := congrArg UInt8.toNat (Option.some.inj h)
      rw [Utf8.toNat_toUInt8 (by omega), Utf8.toNat_lit] at this
      omega

theorem Decimal.snoc {u : List UInt8} {q k : Nat} (hu : Decimal u q) (hq : 0 < q) (hk : k < 10) :
    Decimal (u ++ [(48 + k).toUInt8]) (q * 10 + k) where
  digits := ⟨by simp, fun b hb => by
    rcases List.mem_append.mp hb with hb | hb
    · exact hu.digits.2 b hb
    · exact List.mem_singleton.mp hb ▸ isDigit_digitByte k hk⟩
  value := by rw [digitsValue_concat, hu.value, Utf8.toNat_toUInt8 (by omega)]; omega
  lead := by
    rcases hu.lead with rfl | hb
    · exact absurd hu.value (by rw [show digitsValue [0x30] = 0 from rfl]; omega)
    · obtain ⟨b, t, rfl⟩ := List.exists_cons_of_ne_nil hu.digits.1
      exact .inr hb

/-- `Nat.toDigitsCore` puts the digits of `n` in front of `ds`, given more fuel than `n`. -/
theorem decimal_toDigitsCore : ∀ fuel n (ds : List Char), n < fuel →
    ∃ u, Utf8.encode (Nat.toDigitsCore 10 fuel n ds) = u ++ Utf8.encode ds ∧ Decimal u n
  | 0, _, _, h => absurd h (Nat.not_lt_zero _)
  | fuel + 1, n, ds, h => by
    have hk : n % 10 < 10 := Nat.mod_lt _ (by omega)
    have henc : Utf8.encode (Nat.digitChar (n % 10) :: ds) = [(48 + n % 10).toUInt8] ++ Utf8.encode ds := by
      rw [← encodeRune_digitChar _ hk]
      rfl
    rw [Nat.toDigitsCore]
    split_ifs with h0
    · refine ⟨_, henc, ?_⟩
      have := Decimal.digit hk
      rwa [Nat.mod_eq_of_lt (by omega : n < 10)] at this ⊢
    · obtain ⟨u, hu, hd⟩ := decimal_toDigitsCore fuel (n / 10) _ (by omega)
      refine ⟨u ++ [(48 + n % 10).toUInt8], by rw [hu, henc, List.append_assoc], ?_⟩
      have := hd.snoc (Nat.pos_of_ne_zero h0) hk
      rwa [Nat.div_add_mod'] at this

/-- The decimal text `toString` writes for a natural number. -/
theorem decimal_toDigits (m : Nat) : Decimal (Utf8.encode (Nat.toDigits 10 m)) m := by
  obtain ⟨u, hu, hd⟩ := decimal_toDigitsCore (m + 1) m [] (Nat.lt_succ_self m)
  rw [Nat.toDigits, hu, show Utf8.encode [] = [] from rfl, List.append_nil]
  exact hd

/-- The number `toString` writes for an integer: its sign and its decimal digits. -/
def Number.ofInt (n : Int) : Number where
  neg := decide (n < 0)
  int := Utf8.encode (Nat.toDigits 10 n.natAbs)
  frac := none
  exp := none
  int_digits := (decimal_toDigits n.natAbs).digits
  int_lead := (decimal_toDigits n.natAbs).lead
  frac_digits _ h := nomatch h
  exp_digits _ _ h := nomatch h

theorem Number.ofInt_bytes (n : Int) : (Number.ofInt n).bytes = Utf8.encode (toString n).toList := by
  cases n with
  | ofNat m =>
    rw [show (toString (Int.ofNat m)).toList = Nat.toDigits 10 m from rfl]
    simp [Number.bytes, Number.ofInt]
  | negSucc m =>
    rw [show (toString (Int.negSucc m)).toList = '-' :: Nat.toDigits 10 (m + 1) from rfl]
    simp [Number.bytes, Number.ofInt, Int.negSucc_lt_zero]
    rfl

theorem Number.ofInt_literal (n : Int) : (Number.ofInt n).literal = .value (.int n) := by
  have hv : digitsValue (Number.ofInt n).int = n.natAbs := (decimal_toDigits n.natAbs).value
  rw [Number.literal, if_pos ⟨rfl, rfl⟩, hv]
  congr 2
  cases n with
  | ofNat m => simp [Number.ofInt]
  | negSucc m =>
    rw [if_pos (by simp [Number.ofInt, Int.negSucc_lt_zero]), Int.natAbs_negSucc, Int.negSucc_eq]
    push_cast
    rfl

end Numbers

/-! `json.Marshal`'s text is an object of the grammar. -/

theorem Ws.nil : Ws [] := fun _ h => absurd h (List.not_mem_nil _)

theorem literalText_text (v : Value) : LiteralText (Utf8.encode v.text) (.value v) := by
  cases v with
  | int n =>
    have h := LiteralText.num (Number.ofInt n)
    rwa [Number.ofInt_bytes, Number.ofInt_literal] at h
  | str s => exact .str (stringText_quoted s)
  | bool b => cases b <;> first | exact .true | exact .false
  | null => exact .null

theorem memberText_grammar (m : List Char × Value) :
    MemberText (Utf8.encode (memberText m)) (m.1, .value m.2) := by
  have h := MemberText.mk Ws.nil (stringText_quoted m.1) Ws.nil Ws.nil (literalText_text m.2) Ws.nil
  rw [memberText, encode_append, show Utf8.encode (':' :: m.2.text) = 0x3A :: Utf8.encode m.2.text from rfl]
  simpa only [List.nil_append, List.append_nil, List.append_assoc, List.singleton_append] using h

theorem membersText_grammar (m : List Char × Value) (ms : List (List Char × Value)) :
    ∃ b, Utf8.encode (membersText (m :: ms)) = b ++ [0x7D] ∧
      MembersText b ((m :: ms).map fun m => (m.1, .value m.2)) := by
  induction ms generalizing m with
  | nil => exact ⟨_, by rw [membersText, encode_append]; rfl, .one (memberText_grammar m)⟩
  | cons m' ms ih =>
    obtain ⟨b, hb, h⟩ := ih m'
    refine ⟨_, ?_, .cons (memberText_grammar m) h⟩
    rw [membersText, encode_append, show Utf8.encode (',' :: membersText (m' :: ms)) =
      0x2C :: Utf8.encode (membersText (m' :: ms)) from rfl, hb]
    simp

/-- `json.Marshal`'s text of an object of literal members is an object of the grammar, denoting
its members. -/
theorem objectText_grammar (ms : List (List Char × Value)) :
    ObjectText (Utf8.encode (objectText ms)) (ms.map fun m => (m.1, .value m.2)) := by
  cases ms with
  | nil => exact .empty Ws.nil
  | cons m ms =>
    obtain ⟨b, hb, h⟩ := membersText_grammar m ms
    rw [objectText, show Utf8.encode ('\x7b' :: membersText (m :: ms)) =
      0x7B :: Utf8.encode (membersText (m :: ms)) from rfl, hb]
    exact .members h

/-- `json.Unmarshal` reads back the request a client written in Go marshals, for every code
within `int` and every two strings. -/
theorem unmarshalEvent_marshalRequest (r : EventRequest) (hr : -2 ^ 63 ≤ r.code ∧ r.code < 2 ^ 63) :
    unmarshalEvent (Utf8.encode (marshalRequest r)) = some r := by
  have h := unmarshalEvent_object (objectText_grammar [("code".toList, .int r.code),
    ("state".toList, .str r.state.toList), ("message".toList, .str r.message.toList)]) Ws.nil Ws.nil
  rw [List.nil_append, List.append_nil] at h
  rw [marshalRequest, h]
  simp only [List.map, decodeObject, List.foldlM_cons, List.foldlM_nil, applyMember,
    setLiteral, setField, if_pos hr, show fieldOf "code".toList = some .code from rfl,
    show fieldOf "state".toList = some .state from rfl, show fieldOf "message".toList = some .message from rfl]
  rfl

theorem booted_request_read_back :
    (-2 ^ 63 ≤ (5 : Int) ∧ (5 : Int) < 2 ^ 63) ∧
      unmarshalEvent (Utf8.encode (marshalRequest ⟨5, "booted", "ok"⟩)) = some ⟨5, "booted", "ok"⟩ :=
  ⟨by decide, unmarshalEvent_marshalRequest ⟨5, "booted", "ok"⟩ (by decide)⟩

end JsonDecode

end Boots.Http
