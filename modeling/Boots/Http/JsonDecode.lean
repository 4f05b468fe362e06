import Boots.Http.JsonScan
import Boots.Http.Events
import Mathlib.Data.Nat.Digits

/-! `json.Unmarshal(b, &res)` into `serveEvents`' zero struct: `checkValid` scans the whole body,
then the decoder walks the same opcodes, storing each member whose key names a field (by its tag
or under case folding); a value of the wrong kind saves an error and decoding goes on. -/
namespace Boots.Http

namespace JsonDecode

open JsonScan

/-! `unquoteBytes`. -/

/-- The value of a hex digit in `getu4`. -/
def hexNibble (c : UInt8) : Option Nat :=
  if 0x30 ≤ c ∧ c ≤ 0x39 then some (c.toNat - 0x30)
  else if 0x61 ≤ c ∧ c ≤ 0x66 then some (c.toNat - 0x61 + 10)
  else if 0x41 ≤ c ∧ c ≤ 0x46 then some (c.toNat - 0x41 + 10)
  else none

/-- `getu4`: the code unit of the escape "\\uXXXX" at the start of `s`, `none` (Go\x27s -1) when
`s` does not start with one. -/
def getu4 : List UInt8 → Option Nat
  | x :: y :: a :: b :: c :: d :: _ =>
    if x = 0x5C ∧ y = 0x75 then do
      return (((← hexNibble a) * 16 + (← hexNibble b)) * 16 + (← hexNibble c)) * 16 + (← hexNibble d)
    else none
  | _ => none

/-- `utf16.IsSurrogate`. -/
def isSurrogate (r : Nat) : Bool := 0xD800 ≤ r && r < 0xE000

/-- `utf16.DecodeRune`: a high and a low surrogate make one character; `none` is Go's
`ReplacementChar`. -/
def decodePair (r1 r2 : Nat) : Option Char :=
  if 0xD800 ≤ r1 ∧ r1 < 0xDC00 ∧ 0xDC00 ≤ r2 ∧ r2 < 0xE000 then
    some (Char.ofNat ((r1 - 0xD800) * 1024 + (r2 - 0xDC00) + 0x10000))
  else none

/-- The character of a one-letter escape. -/
def escapeOf (e : UInt8) : Option Char :=
  if e = 0x22 ∨ e = 0x5C ∨ e = 0x2F ∨ e = 0x27 then some (Char.ofNat e.toNat)
  else if e = 0x62 then some (Char.ofNat 8)
  else if e = 0x66 then some (Char.ofNat 12)
  else if e = 0x6E then some '\n'
  else if e = 0x72 then some '\r'
  else if e = 0x74 then some '\t'
  else none

/-- One turn of the loop of `unquoteBytes`, at the bytes `s` left to read: the character it writes
and how many bytes it reads, or `none` where it gives up. It switches on the first byte: an
escape (in "\\u" a surrogate pair, or `RuneError` for a lone surrogate); a quote or a control
byte, which fail; ASCII; and `DecodeRune` for the rest, which reads each byte of invalid UTF-8 as
`RuneError`. -/
def nextRune : List UInt8 → Option (Char × Nat)
  | [] => none
  | c :: rest =>
    if c = 0x5C then
      match rest with
      | [] => none
      | e :: _ =>
        if e = 0x75 then
          match getu4 (c :: rest) with
          | none => none
          | some rr =>
            if isSurrogate rr then
              match (getu4 ((c :: rest).drop 6)).bind (decodePair rr) with
              | some dec => some (dec, 12)
              | none => some (Utf8.runeError, 6)
            else some (Char.ofNat rr, 6)
        else (escapeOf e).map (·, 2)
    else if c = 0x22 ∨ c < 0x20 then none
    else if c < 0x80 then some (Char.ofNat c.toNat, 1)
    else some (Utf8.decodeRune (c :: rest))

/-- The loop of `unquoteBytes` over the bytes between the quotes; `skip` bytes of the character
just read are still to pass over (`r += size`). -/
def unquoteLoop : Nat → List UInt8 → Option (List Char)
  | _, [] => some []
  | skip + 1, _ :: rest => unquoteLoop skip rest
  | 0, c :: rest =>
    match nextRune (c :: rest) with
    | none => none
    | some (ch, size) => (ch :: ·) <$> unquoteLoop (size - 1) rest

/-- `unquoteBytes`: a string literal's characters, its quotes stripped. -/
def unquoteBytes : List UInt8 → Option (List Char)
  | 0x22 :: body => if body.getLast? = some 0x22 then unquoteLoop 0 body.dropLast else none
  | _ => none

/-! `strconv.ParseInt(s, 10, 64)`. -/

/-- The number the decimal digits `ds` spell. -/
def digitsValue (ds : List UInt8) : Nat := ds.foldl (fun n c => n * 10 + (c.toNat - 0x30)) 0

/-- `strconv.ParseUint(s, 10, 64)`: digits only, at least one, below 2^64. -/
def parseUint (s : List UInt8) : Option Nat :=
  if s ≠ [] ∧ s.all isDigit ∧ digitsValue s < 2 ^ 64 then some (digitsValue s) else none

/-- `strconv.ParseInt(s, 10, 64)`: an optional sign, then `ParseUint`, within the range of
`int64`. -/
def parseInt (s : List UInt8) : Option Int :=
  let (neg, digits) := match s with
    | 0x2B :: rest => (false, rest)
    | 0x2D :: rest => (true, rest)
    | _ => (false, s)
  match parseUint digits with
  | none => none
  | some un =>
    if !neg ∧ 2 ^ 63 ≤ un then none
    else if neg ∧ 2 ^ 63 < un then none
    else some (if neg then -(un : Int) else un)

/-! The struct's fields. -/

/-- The fields of the struct `serveEvents` decodes into. -/
inductive Field where
  | code
  | state
  | message
  deriving DecidableEq, Repr

/-- A field's tag. -/
def Field.name : Field → List Char
  | .code => "code".toList
  | .state => "state".toList
  | .message => "message".toList

/-- A key character against a lower-case ASCII letter of a tag under `bytes.EqualFold`: the
letter, its upper case, and the Kelvin sign and the long s, which fold with "k" and "s". -/
def foldsTo (l r : Char) : Bool :=
  r == l || r == l.toUpper || (l == 'k' && r.toNat == 0x212A) || (l == 's' && r.toNat == 0x17F)

/-- `bytes.EqualFold(key, name)` for a tag of lower-case ASCII letters. -/
def equalFold (name key : List Char) : Bool :=
  name.length == key.length && (name.zip key).all fun p => foldsTo p.1 p.2

/-- The field a key names: its tag, else the first tag equal to it under case folding. -/
def fieldOf (key : List Char) : Option Field :=
  [Field.code, .state, .message].find? fun f => equalFold f.name key

/-- `literalStore` of a literal into a field, by its first byte: null leaves the field as it is, a
string goes into `state` or `message`, a number into `code` through `ParseInt`; true, false and
any other pairing are an `UnmarshalTypeError`, here `none`. -/
def literalStore (f : Field) (item : List UInt8) (res : EventRequest) : Option EventRequest :=
  match item with
  | [] => none
  | c :: _ =>
    if c = 0x6E then some res
    else if c = 0x74 ∨ c = 0x66 then none
    else if c = 0x22 then
      match f with
      | .code => none
      | .state => (unquoteBytes item).map fun s => { res with state := ⟨s⟩ }
      | .message => (unquoteBytes item).map fun s => { res with message := ⟨s⟩ }
    else
      match f with
      | .code => (parseInt item).map fun n => { res with code := n }
      | _ => none

/-! The decoder, on the scanner's opcodes. -/

/-- What a literal is, by where it begins: the top value, a key or a member's value of the top
object, or something nested deeper, which is skipped. -/
inductive Role where
  | top
  | key
  | member
  | nested
  deriving DecidableEq, Repr

/-- A literal's role from the containers open where it begins. -/
def roleOf : List ParseState → Role
  | [] => .top
  | [.parseObjectKey] => .key
  | [.parseObjectValue] => .member
  | _ => .nested

/-- The decoder: the struct so far, whether an error was saved, the field the current member's
key names, and the literal being read with its role. -/
structure Decoder where
  res : EventRequest
  saved : Bool
  field : Option Field
  lit : Option (Role × List UInt8)
  deriving DecidableEq, Repr

namespace Decoder

/-- Before the first byte, into a zero struct. -/
def init : Decoder := ⟨⟨0, "", ""⟩, false, none, none⟩

/-- `saveError`: decoding goes on. -/
def saveError (d : Decoder) : Decoder := { d with saved := true }

/-- What a literal does once it is complete. -/
def store (d : Decoder) : Role → List UInt8 → Decoder
  | .top, item => if item = [0x6E, 0x75, 0x6C, 0x6C] then d else d.saveError
  | .key, item => { d with field := (unquoteBytes item).bind fieldOf }
  | .member, item => match d.field with
    | none => d
    | some f => match literalStore f item d.res with
      | some res => { d with res := res }
      | none => d.saveError
  | .nested, _ => d

/-- A literal ends at the first opcode that is not `scanContinue`. -/
def endLiteral (d : Decoder) : Decoder :=
  match d.lit with
  | none => d
  | some (role, item) => { d.store role item with lit := none }

/-- An object or array opened where `ps` are open: the top object is the struct, the top
array, and a container in place of a field's value, are type errors. -/
def beginContainer (d : Decoder) (ps : List ParseState) (isObject : Bool) : Decoder :=
  match ps with
  | [] => if isObject then d else d.saveError
  | [.parseObjectValue] => if d.field.isSome then d.saveError else d
  | _ => d

/-- One byte, with the opcode the scanner gave it and the containers open before it. -/
def step (d : Decoder) (ps : List ParseState) (c : UInt8) : Op → Decoder
  | .scanContinue => { d with lit := d.lit.map fun (role, item) => (role, item ++ [c]) }
  | .scanBeginLiteral => { d.endLiteral with lit := some (roleOf ps, [c]) }
  | .scanBeginObject => d.endLiteral.beginContainer ps true
  | .scanBeginArray => d.endLiteral.beginContainer ps false
  | _ => d.endLiteral

end Decoder

/-- `checkValid`'s loop with the decoder beside it; `none` at the first `scanError`. -/
def run : Scanner → Decoder → List UInt8 → Option (Scanner × Decoder)
  | s, d, [] => some (s, d)
  | s, d, c :: cs =>
    match s.scan c with
    | (_, .scanError) => none
    | (s', op) => run s' (d.step s.parseState c op) cs

/-- `json.Unmarshal` into the struct `serveEvents` decodes: the struct, or `none` when it
returns an error, the scanner's syntax error or the first type error the decoder saved. -/
def unmarshalEvent (data : List UInt8) : Option EventRequest :=
  match run Scanner.reset Decoder.init data with
  | none => none
  | some (s, d) =>
    if s.eof then
      let d := d.endLiteral
      if d.saved then none else some d.res
    else none

end JsonDecode

/-- `json.Unmarshal(b, &res)` as `serveEvents` calls it: the decoded struct and a nil error, or an
error, whose text `serveEvents` replaces with its own. -/
def goUnmarshal (data : List UInt8) : EventRequest × Option GoError :=
  match JsonDecode.unmarshalEvent data with
  | some res => (res, none)
  | none => (⟨0, "", ""⟩, some (.new "json: cannot unmarshal"))

end Boots.Http
