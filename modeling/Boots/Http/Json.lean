import Boots.Http.Basic

/-! `json.Marshal` of the event `serveEvents` forwards, and a reader that gets the event back
from the payload, so distinct events are never forwarded as the same bytes. -/
namespace Boots.Http

/-- The struct `serveEvents` marshals: Go fields `Code`, `State`, `Message`, tagged `type`,
`state` and `body`. -/
structure UserEvent where
  code : String
  state : String
  message : String
  deriving DecidableEq, Repr

/-- `hex[n]`, the lower-case digit of `n < 16`. -/
def hexDigit (n : Nat) : Char := Char.ofNat (if n < 10 then 48 + n else 87 + n)

/-- One character of `(*encodeState).string` with HTML escaping on, as `json.Marshal` runs
it: `\b` and `\f` take the `\u00XX` form like the other control characters. -/
def escapeChar (c : Char) : List Char :=
  if c = '\\' ∨ c = '"' then ['\\', c]
  else if c = '\n' then ['\\', 'n']
  else if c = '\r' then ['\\', 'r']
  else if c = '\t' then ['\\', 't']
  else if c.toNat < 0x20 ∨ c = '<' ∨ c = '>' ∨ c = '&' then
    ['\\', 'u', '0', '0', hexDigit (c.toNat / 16), hexDigit (c.toNat % 16)]
  else if c.toNat = 0x2028 ∨ c.toNat = 0x2029 then
    ['\\', 'u', '2', '0', '2', hexDigit (c.toNat % 16)]
  else [c]

/-- `(*encodeState).string`: the escaped characters of `s` and the closing quote. -/
def quoteTail (s : List Char) : List Char := s.flatMap escapeChar ++ ['"']

/-- `json.Marshal(e)`: the fields in declaration order under their tags, without spaces. It
cannot fail on three strings, so the error is always nil. -/
def marshal (e : UserEvent) : String × Option GoError :=
  (String.mk ("\x7b\"type\":\"".toList ++ quoteTail e.code.toList ++
    ",\"state\":\"".toList ++ quoteTail e.state.toList ++
    ",\"body\":\"".toList ++ quoteTail e.message.toList ++ ['\x7d']), none)

/-- The value of a hex digit. -/
def hexValue (c : Char) : Option Nat :=
  if '0' ≤ c ∧ c ≤ '9' then some (c.toNat - 48)
  else if 'a' ≤ c ∧ c ≤ 'f' then some (c.toNat - 87)
  else none

/-- The character a one-letter escape stands for. -/
def shortEscape : Char → Option Char
  | '\\' => some '\\'
  | '"' => some '"'
  | 'n' => some '\n'
  | 'r' => some '\r'
  | 't' => some '\t'
  | _ => none

/-- Reads a string body written by `quoteTail`: its characters, and what follows the closing
quote. -/
def unquote : List Char → Option (List Char × List Char)
  | [] => none
  | '"' :: rest => some ([], rest)
  | '\\' :: 'u' :: a :: b :: c :: d :: rest => do
    let n := ((← hexValue a) * 16 + (← hexValue b)) * 256 + (← hexValue c) * 16 + (← hexValue d)
    let (s, r) ← unquote rest
    pure (Char.ofNat n :: s, r)
  | '\\' :: e :: rest => do
    let c ← shortEscape e
    let (s, r) ← unquote rest
    pure (c :: s, r)
  | c :: rest => do
    let (s, r) ← unquote rest
    pure (c :: s, r)

/-- Reads back the event `marshal` wrote. -/
def readUserEvent (payload : String) : Option UserEvent := do
  let r ← payload.toList.dropPrefix? "\x7b\"type\":\"".toList
  let (code, r) ← unquote r
  let r ← r.dropPrefix? ",\"state\":\"".toList
  let (state, r) ← unquote r
  let r ← r.dropPrefix? ",\"body\":\"".toList
  let (message, r) ← unquote r
  if r = ['\x7d'] then some ⟨String.mk code, String.mk state, String.mk message⟩ else none

private theorem hexValue_hexDigit : ∀ n, n < 16 → hexValue (hexDigit n) = some n := by decide

private theorem bind_cons (c : Char) (x : Option (List Char × List Char)) :
    (x.bind fun p => some (c :: p.1, p.2)) = x.map fun p => (c :: p.1, p.2) := by
  cases x <;> rfl

private theorem unquote_plain {c : Char} (h1 : c ≠ '"') (h2 : c ≠ '\\') (rest : List Char) :
    unquote (c :: rest) = (unquote rest).map fun p => (c :: p.1, p.2) := by
  rw [unquote] <;> simp_all [bind_cons]

private theorem unquote_hex {c : Char} (h : c.toNat < 0x40) (rest : List Char) :
    unquote (['\\', 'u', '0', '0', hexDigit (c.toNat / 16), hexDigit (c.toNat % 16)] ++ rest) =
      (unquote rest).map fun p => (c :: p.1, p.2) := by
  have h0 : hexValue '0' = some 0 := rfl
  simp [unquote, hexValue_hexDigit _ (by omega : c.toNat / 16 < 16),
    hexValue_hexDigit _ (Nat.mod_lt _ (by omega) : c.toNat % 16 < 16), h0,
    Nat.div_add_mod', Char.ofNat_toNat, bind_cons]

private theorem unquote_line_separator {c : Char} (h : c.toNat = 0x2028 ∨ c.toNat = 0x2029)
    (rest : List Char) :
    unquote (['\\', 'u', '2', '0', '2', hexDigit (c.toNat % 16)] ++ rest) =
      (unquote rest).map fun p => (c :: p.1, p.2) := by
  have hc : (2 * 16 + 0) * 256 + 2 * 16 + c.toNat % 16 = c.toNat := by omega
  have h0 : hexValue '0' = some 0 := rfl
  have h2 : hexValue '2' = some 2 := rfl
  simp [unquote, hexValue_hexDigit _ (Nat.mod_lt _ (by omega) : c.toNat % 16 < 16), h0, h2,
    hc, Char.ofNat_toNat, bind_cons]

/-- Reading one escaped character gives the character back. -/
theorem unquote_escapeChar (c : Char) (rest : List Char) :
    unquote (escapeChar c ++ rest) = (unquote rest).map fun p => (c :: p.1, p.2) := by
  unfold escapeChar
  split_ifs with h1 h2 h3 h4 h5 h6
  · rcases h1 with rfl | rfl <;> simp [unquote, shortEscape, bind_cons]
  · subst h2; simp [unquote, shortEscape, bind_cons]
  · subst h3; simp [unquote, shortEscape, bind_cons]
  · subst h4; simp [unquote, shortEscape, bind_cons]
  · exact unquote_hex (by rcases h5 with h | rfl | rfl | rfl <;> simp_all; omega) rest
  · exact unquote_line_separator h6 rest
  · exact unquote_plain (by rintro rfl; simp at h1) (by rintro rfl; simp at h1) rest

/-- Reading a quoted string stops at its closing quote with the string back. -/
theorem unquote_quoteTail (s rest : List Char) : unquote (quoteTail s ++ rest) = some (s, rest) := by
  induction s with
  | nil => simp [quoteTail, unquote]
  | cons c s ih =>
    simp only [quoteTail, List.flatMap_cons, List.append_assoc] at ih ⊢
    rw [unquote_escapeChar, ih]
    rfl

private theorem dropPrefix_append (p l : List Char) : (p ++ l).dropPrefix? p = some l :=
  List.dropPrefix?_append_of_beq l (beq_self_eq_true p)

theorem marshal_reads_back (e : UserEvent) : readUserEvent (marshal e).1 = some e := by
  have hmk (l : List Char) : (String.mk l).toList = l := rfl
  simp only [readUserEvent, marshal, hmk, List.append_assoc, dropPrefix_append, unquote_quoteTail,
    Option.bind_eq_bind, Option.some_bind]
  rfl

/-- Round trip: the payload `json.Marshal` writes reads back as the event. -/
theorem readUserEvent_marshal (e : UserEvent) : readUserEvent (marshal e).1 = some e :=
  marshal_reads_back e

@[simp] theorem marshal_error (e : UserEvent) : (marshal e).2 = none := rfl

end Boots.Http
