import Boots.Http.JsonDecode

/-! The JSON text of an object of literal members (RFC 8259), as relations from bytes to what they
denote, and what `json.Unmarshal` into `serveEvents`' struct is documented to make of it. -/
namespace Boots.Http

namespace JsonDecode

open JsonScan

/-! What a literal denotes, and what decoding an object means. -/

/-- A member's value as a client writes it: a number, a string, true or false, or null. -/
inductive Value where
  | int (n : Int)
  | str (s : List Char)
  | bool (b : Bool)
  | null
  deriving DecidableEq, Repr

/-- What a literal denotes: a `Value`, or a number written with a fraction or an exponent, which
`encoding/json` stores in no integer field. -/
inductive Literal where
  | value (v : Value)
  | frac
  deriving DecidableEq, Repr

/-- What a value does to the field it is decoded into: one of the field's kind replaces it, an
`int` only within the range of `int64`; null leaves it; anything else is an error. -/
def setField (res : EventRequest) : Field → Value → Option EventRequest
  | _, .null => some res
  | .code, .int n => if -2 ^ 63 ≤ n ∧ n < 2 ^ 63 then some { res with code := n } else none
  | .state, .str s => some { res with state := ⟨s⟩ }
  | .message, .str s => some { res with message := ⟨s⟩ }
  | _, _ => none

/-- What a literal does to the field it is decoded into: a fraction is an error in every field. -/
def setLiteral (res : EventRequest) (f : Field) : Literal → Option EventRequest
  | .value v => setField res f v
  | .frac => none

/-- What a member does to the struct: a key that names no field is skipped, whatever its value;
a key equal to a field's tag up to Unicode case folding names that field. -/
def applyMember (res : EventRequest) (m : List Char × Literal) : Option EventRequest :=
  match fieldOf m.1 with
  | none => some res
  | some f => setLiteral res f m.2

/-- The struct an object decodes to, member after member from the zero struct, or `none` at the
first error. -/
def decodeObject (ms : List (List Char × Literal)) : Option EventRequest :=
  ms.foldlM applyMember ⟨0, "", ""⟩

/-! Strings. -/

/-- The two-character escapes and the characters they stand for. -/
def shortEscapes : List (UInt8 × Char) :=
  [(0x22, '"'), (0x5C, '\\'), (0x2F, '/'), (0x62, Char.ofNat 8), (0x66, Char.ofNat 12),
    (0x6E, '\n'), (0x72, '\r'), (0x74, '\t')]

/-- A "\u" escape and the UTF-16 code unit its four hex digits spell. -/
inductive UnitEscape : List UInt8 → Nat → Prop
  | mk {a b c d : UInt8} {va vb vc vd : Nat} (ha : hexNibble a = some va)
      (hb : hexNibble b = some vb) (hc : hexNibble c = some vc) (hd : hexNibble d = some vd) :
      UnitEscape [0x5C, 0x75, a, b, c, d] (((va * 16 + vb) * 16 + vc) * 16 + vd)

/-- The characters the bytes between a string's quotes spell: a character written as its UTF-8
(no control character, quote or backslash), a two-character escape, a "\u" escape of a character
outside the surrogates, a surrogate pair, or a lone surrogate, which `encoding/json` documents it
reads as U+FFFD. -/
inductive Chars : List UInt8 → List Char → Prop
  | nil : Chars [] []
  | plain {c : Char} {t : List UInt8} {s : List Char} (h1 : 0x20 ≤ c.toNat) (h2 : c ≠ '"')
      (h3 : c ≠ '\\') : Chars t s → Chars (Utf8.encodeRune c ++ t) (c :: s)
  | short {e : UInt8} {c : Char} {t : List UInt8} {s : List Char} (h : (e, c) ∈ shortEscapes) :
      Chars t s → Chars (0x5C :: e :: t) (c :: s)
  | unit {u t : List UInt8} {s : List Char} {v : Nat} (hu : UnitEscape u v)
      (hv : v < 0xD800 ∨ 0xE000 ≤ v) : Chars t s → Chars (u ++ t) (Char.ofNat v :: s)
  | pair {u u' t : List UInt8} {s : List Char} {hi lo : Nat} (hu : UnitEscape u hi)
      (hu' : UnitEscape u' lo) (hh : 0xD800 ≤ hi ∧ hi < 0xDC00) (hl : 0xDC00 ≤ lo ∧ lo < 0xE000) :
      Chars t s → Chars (u ++ u' ++ t) (Char.ofNat ((hi - 0xD800) * 0x400 + (lo - 0xDC00) + 0x10000) :: s)
  | lone {u t : List UInt8} {s : List Char} {v : Nat} (hu : UnitEscape u v)
      (hv : 0xD800 ≤ v ∧ v < 0xE000)
      (hn : ∀ u' t' lo, UnitEscape u' lo → t = u' ++ t' → ¬(v < 0xDC00 ∧ 0xDC00 ≤ lo ∧ lo < 0xE000)) :
      Chars t s → Chars (u ++ t) (Char.ofNat 0xFFFD :: s)

/-- Characters with no control character, quote or backslash are written as they are. -/
theorem Chars.ofPlain (s : List Char) (h : ∀ c ∈ s, 0x20 ≤ c.toNat ∧ c ≠ '"' ∧ c ≠ '\\') :
    Chars (Utf8.encode s) s := by
  induction s with
  | nil => exact .nil
  | cons c s ih =>
    obtain ⟨h1, h2, h3⟩ := h c (List.mem_cons_self c s)
    exact .plain h1 h2 h3 (ih fun x hx => h x (List.mem_cons_of_mem c hx))

/-- A string literal: its quotes around the bytes of its characters. -/
inductive StringText : List UInt8 → List Char → Prop
  | mk {body : List UInt8} {s : List Char} : Chars body s → StringText (0x22 :: (body ++ [0x22])) s

/-! Numbers. -/

/-- Decimal digits, at least one. -/
def Digits (ds : List UInt8) : Prop := ds ≠ [] ∧ ∀ b ∈ ds, isDigit b = true

instance (ds : List UInt8) : Decidable (Digits ds) := inferInstanceAs (Decidable (_ ∧ _))

/-- The letter and the sign that may start an exponent. -/
def exponentMarks : List (List UInt8) :=
  [[0x65], [0x45], [0x65, 0x2B], [0x65, 0x2D], [0x45, 0x2B], [0x45, 0x2D]]

/-- A number (RFC 8259 §6) by its parts: a minus sign or none, the integer part, with no leading
zero unless it is "0", and the fraction's digits and the exponent, with its mark, when written. -/
structure Number where
  neg : Bool
  int : List UInt8
  frac : Option (List UInt8)
  exp : Option (List UInt8 × List UInt8)
  int_digits : Digits int
  int_lead : int = [0x30] ∨ int.head? ≠ some 0x30
  frac_digits : ∀ f, frac = some f → Digits f
  exp_digits : ∀ m ds, exp = some (m, ds) → m ∈ exponentMarks ∧ Digits ds

/-- The text of a number. -/
def Number.bytes (n : Number) : List UInt8 :=
  (if n.neg then [0x2D] else []) ++ n.int ++ (n.frac.map (0x2E :: ·)).getD [] ++
    (n.exp.map fun e => e.1 ++ e.2).getD []

/-- What a number denotes: the integer it spells when written without fraction and exponent. -/
def Number.literal (n : Number) : Literal :=
  if n.frac = none ∧ n.exp = none then
    .value (.int (if n.neg then -(digitsValue n.int : Int) else digitsValue n.int))
  else .frac

/-! Literals, members and objects. -/

/-- A literal's text and what it denotes. -/
inductive LiteralText : List UInt8 → Literal → Prop
  | num (n : Number) : LiteralText n.bytes n.literal
  | str {b : List UInt8} {s : List Char} : StringText b s → LiteralText b (.value (.str s))
  | true : LiteralText [0x74, 0x72, 0x75, 0x65] (.value (.bool true))
  | false : LiteralText [0x66, 0x61, 0x6C, 0x73, 0x65] (.value (.bool false))
  | null : LiteralText [0x6E, 0x75, 0x6C, 0x6C] (.value .null)

/-- Whitespace: space, tab, line feed and carriage return, which `isSpace` tells. -/
def Ws (ws : List UInt8) : Prop := ∀ b ∈ ws, isSpace b = true

instance (ws : List UInt8) : Decidable (Ws ws) := inferInstanceAs (Decidable (∀ b ∈ ws, _))

/-- A member: its key's string literal, a colon and its value's literal, with whitespace around
each. -/
inductive MemberText : List UInt8 → List Char × Literal → Prop
  | mk {w1 k w2 w3 v w4 : List UInt8} {key : List Char} {lit : Literal} (h1 : Ws w1)
      (hk : StringText k key) (h2 : Ws w2) (h3 : Ws w3) (hv : LiteralText v lit) (h4 : Ws w4) :
      MemberText (w1 ++ k ++ w2 ++ 0x3A :: w3 ++ v ++ w4) (key, lit)

/-- One member or more, separated by commas. -/
inductive MembersText : List UInt8 → List (List Char × Literal) → Prop
  | one {b : List UInt8} {m : List Char × Literal} : MemberText b m → MembersText b [m]
  | cons {b bs : List UInt8} {m : List Char × Literal} {ms : List (List Char × Literal)} :
      MemberText b m → MembersText bs ms → MembersText (b ++ 0x2C :: bs) (m :: ms)

/-- An object of literal members, braces included. -/
inductive ObjectText : List UInt8 → List (List Char × Literal) → Prop
  | empty {w : List UInt8} : Ws w → ObjectText (0x7B :: (w ++ [0x7D])) []
  | members {b : List UInt8} {ms : List (List Char × Literal)} :
      MembersText b ms → ObjectText (0x7B :: (b ++ [0x7D])) ms

end JsonDecode

end Boots.Http
