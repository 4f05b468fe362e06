import Boots.Http.Utf8

/-! The byte-at-a-time scanner of `encoding/json` (`checkValid`): its state function, the stack of
open objects and arrays, and the opcode each byte gives. -/
namespace Boots.Http

namespace JsonScan

/-- `parseObjectKey`, `parseObjectValue`, `parseArrayValue`. -/
inductive ParseState where
  | parseObjectKey
  | parseObjectValue
  | parseArrayValue
  deriving DecidableEq, Repr

/-- The state functions the scanner's `step` field holds. -/
inductive Step where
  | stateBeginValue
  | stateBeginValueOrEmpty
  | stateBeginStringOrEmpty
  | stateBeginString
  | stateEndValue
  | stateEndTop
  | stateInString
  | stateInStringEsc
  | stateInStringEscU
  | stateInStringEscU1
  | stateInStringEscU12
  | stateInStringEscU123
  | stateNeg
  | state1
  | state0
  | stateDot
  | stateDot0
  | stateE
  | stateESign
  | stateE0
  | stateT
  | stateTr
  | stateTru
  | stateF
  | stateFa
  | stateFal
  | stateFals
  | stateN
  | stateNu
  | stateNul
  | stateError
  deriving DecidableEq, Repr

/-- The opcodes a step returns. -/
inductive Op where
  | scanContinue
  | scanBeginLiteral
  | scanBeginObject
  | scanObjectKey
  | scanObjectValue
  | scanEndObject
  | scanBeginArray
  | scanArrayValue
  | scanEndArray
  | scanSkipSpace
  | scanEnd
  | scanError
  deriving DecidableEq, Repr

/-- `scanner`; `err` is set exactly when `step` is `stateError`. -/
structure Scanner where
  step : Step
  parseState : List ParseState
  endTop : Bool
  deriving DecidableEq, Repr

open Op

/-- `scanner.reset`. -/
def Scanner.reset : Scanner := ⟨.stateBeginValue, [], false⟩

/-- `maxNestingDepth`. -/
def maxNestingDepth : Nat := 10000

/-- `isSpace`: ' ', '\t', '\r', '\n'. -/
def isSpace (c : UInt8) : Bool := c == 0x20 || c == 0x09 || c == 0x0D || c == 0x0A

def isDigit (c : UInt8) : Bool := 0x30 ≤ c && c ≤ 0x39

def isHex (c : UInt8) : Bool := isDigit c || (0x61 ≤ c && c ≤ 0x66) || (0x41 ≤ c && c ≤ 0x46)

namespace Scanner

variable (s : Scanner) (c : UInt8)

/-- `(*scanner).error`. -/
def error : Scanner × Op := ({ s with step := .stateError }, scanError)

/-- `s.step = next; return op`. -/
def goto (next : Step) (op : Op) : Scanner × Op := ({ s with step := next }, op)

/-- `pushParseState`: the new container is too deep past `maxNestingDepth`. -/
def pushParseState (newParseState : ParseState) (successState : Op) : Scanner × Op :=
  let s := { s with parseState := newParseState :: s.parseState }
  if s.parseState.length ≤ maxNestingDepth then (s, successState) else s.error

/-- `popParseState`: after the outermost container the value is complete. -/
def popParseState : Scanner :=
  match s.parseState with
  | [] | [_] => { s with parseState := [], step := .stateEndTop, endTop := true }
  | _ :: ps => { s with parseState := ps, step := .stateEndValue }

/-- `stateEndTop`: only spaces may follow the value; the error shows at the next byte. -/
def stateEndTop : Scanner × Op :=
  if isSpace c then (s, scanEnd) else ({ s with step := .stateError }, scanEnd)

/-- `stateEndValue`: after a value, what the innermost container expects. -/
def stateEndValue : Scanner × Op :=
  match s.parseState with
  | [] => Scanner.stateEndTop { s with step := .stateEndTop, endTop := true } c
  | ps :: rest =>
    if isSpace c then s.goto .stateEndValue scanSkipSpace
    else match ps with
      | .parseObjectKey =>
        if c = 0x3A then ({ s with parseState := .parseObjectValue :: rest, step := .stateBeginValue },
          scanObjectKey)
        else s.error
      | .parseObjectValue =>
        if c = 0x2C then ({ s with parseState := .parseObjectKey :: rest, step := .stateBeginString },
          scanObjectValue)
        else if c = 0x7D then (s.popParseState, scanEndObject)
        else s.error
      | .parseArrayValue =>
        if c = 0x2C then s.goto .stateBeginValue scanArrayValue
        else if c = 0x5D then (s.popParseState, scanEndArray)
        else s.error

/-- `stateBeginValue`: the first byte of a value. -/
def stateBeginValue : Scanner × Op :=
  if isSpace c then (s, scanSkipSpace)
  else if c = 0x7B then
    pushParseState { s with step := .stateBeginStringOrEmpty } .parseObjectKey scanBeginObject
  else if c = 0x5B then
    pushParseState { s with step := .stateBeginValueOrEmpty } .parseArrayValue scanBeginArray
  else if c = 0x22 then s.goto .stateInString scanBeginLiteral
  else if c = 0x2D then s.goto .stateNeg scanBeginLiteral
  else if c = 0x30 then s.goto .state0 scanBeginLiteral
  else if c = 0x74 then s.goto .stateT scanBeginLiteral
  else if c = 0x66 then s.goto .stateF scanBeginLiteral
  else if c = 0x6E then s.goto .stateN scanBeginLiteral
  else if 0x31 ≤ c ∧ c ≤ 0x39 then s.goto .state1 scanBeginLiteral
  else s.error

/-- `stateBeginValueOrEmpty`: after "[". -/
def stateBeginValueOrEmpty : Scanner × Op :=
  if isSpace c then (s, scanSkipSpace)
  else if c = 0x5D then s.stateEndValue c
  else s.stateBeginValue c

/-- `stateBeginString`: a key's opening quote. -/
def stateBeginString : Scanner × Op :=
  if isSpace c then (s, scanSkipSpace)
  else if c = 0x22 then s.goto .stateInString scanBeginLiteral
  else s.error

/-- `stateBeginStringOrEmpty`: after "\x7b". -/
def stateBeginStringOrEmpty : Scanner × Op :=
  if isSpace c then (s, scanSkipSpace)
  else if c = 0x7D then
    Scanner.stateEndValue { s with parseState := .parseObjectValue :: s.parseState.tail } c
  else s.stateBeginString c

/-- `stateInString`: a control byte is an error; any other byte, valid UTF-8 or not, goes. -/
def stateInString : Scanner × Op :=
  if c = 0x22 then s.goto .stateEndValue scanContinue
  else if c = 0x5C then s.goto .stateInStringEsc scanContinue
  else if c < 0x20 then s.error
  else (s, scanContinue)

/-- `stateInStringEsc`: b, f, n, r, t, backslash, slash, quote, or u. -/
def stateInStringEsc : Scanner × Op :=
  if c = 0x62 ∨ c = 0x66 ∨ c = 0x6E ∨ c = 0x72 ∨ c = 0x74 ∨ c = 0x5C ∨ c = 0x2F ∨ c = 0x22 then
    s.goto .stateInString scanContinue
  else if c = 0x75 then s.goto .stateInStringEscU scanContinue
  else s.error

/-- The four hex digits of "\u", one state each. -/
def stateInStringHex (next : Step) : Scanner × Op :=
  if isHex c then s.goto next scanContinue else s.error

/-- `state0`: after a leading "0" or the integer part. -/
def state0 : Scanner × Op :=
  if c = 0x2E then s.goto .stateDot scanContinue
  else if c = 0x65 ∨ c = 0x45 then s.goto .stateE scanContinue
  else s.stateEndValue c

/-- `state1`: in the integer part after a non-zero digit. -/
def state1 : Scanner × Op :=
  if isDigit c then (s, scanContinue) else s.state0 c

/-- `stateNeg`: after "-". -/
def stateNeg : Scanner × Op :=
  if c = 0x30 then s.goto .state0 scanContinue
  else if 0x31 ≤ c ∧ c ≤ 0x39 then s.goto .state1 scanContinue
  else s.error

/-- `stateDot`: after ".", a digit must follow. -/
def stateDot : Scanner × Op :=
  if isDigit c then s.goto .stateDot0 scanContinue else s.error

/-- `stateDot0`: in the fraction. -/
def stateDot0 : Scanner × Op :=
  if isDigit c then (s, scanContinue)
  else if c = 0x65 ∨ c = 0x45 then s.goto .stateE scanContinue
  else s.stateEndValue c

/-- `stateESign`: after "e" and its sign, a digit must follow. -/
def stateESign : Scanner × Op :=
  if isDigit c then s.goto .stateE0 scanContinue else s.error

/-- `stateE`: after "e". -/
def stateE : Scanner × Op :=
  if c = 0x2B ∨ c = 0x2D then s.goto .stateESign scanContinue else s.stateESign c

/-- `stateE0`: in the exponent. -/
def stateE0 : Scanner × Op :=
  if isDigit c then (s, scanContinue) else s.stateEndValue c

/-- The letters of "true", "false" and "null" after the first: `expected` must come next. -/
def stateLetter (expected : UInt8) (next : Step) : Scanner × Op :=
  if c = expected then s.goto next scanContinue else s.error

/-- `s.step(s, c)`: the state function the scanner is in, on the next byte. -/
def scan : Scanner × Op :=
  match s.step with
  | .stateBeginValue => s.stateBeginValue c
  | .stateBeginValueOrEmpty => s.stateBeginValueOrEmpty c
  | .stateBeginStringOrEmpty => s.stateBeginStringOrEmpty c
  | .stateBeginString => s.stateBeginString c
  | .stateEndValue => s.stateEndValue c
  | .stateEndTop => s.stateEndTop c
  | .stateInString => s.stateInString c
  | .stateInStringEsc => s.stateInStringEsc c
  | .stateInStringEscU => s.stateInStringHex c .stateInStringEscU1
  | .stateInStringEscU1 => s.stateInStringHex c .stateInStringEscU12
  | .stateInStringEscU12 => s.stateInStringHex c .stateInStringEscU123
  | .stateInStringEscU123 => s.stateInStringHex c .stateInString
  | .stateNeg => s.stateNeg c
  | .state1 => s.state1 c
  | .state0 => s.state0 c
  | .stateDot => s.stateDot c
  | .stateDot0 => s.stateDot0 c
  | .stateE => s.stateE c
  | .stateESign => s.stateESign c
  | .stateE0 => s.stateE0 c
  | .stateT => s.stateLetter c 0x72 .stateTr
  | .stateTr => s.stateLetter c 0x75 .stateTru
  | .stateTru => s.stateLetter c 0x65 .stateEndValue
  | .stateF => s.stateLetter c 0x61 .stateFa
  | .stateFa => s.stateLetter c 0x6C .stateFal
  | .stateFal => s.stateLetter c 0x73 .stateFals
  | .stateFals => s.stateLetter c 0x65 .stateEndValue
  | .stateN => s.stateLetter c 0x75 .stateNu
  | .stateNu => s.stateLetter c 0x6C .stateNul
  | .stateNul => s.stateLetter c 0x6C .stateEndValue
  | .stateError => (s, scanError)

/-- `(*scanner).eof`: whether the input may end here; a pending number is ended by a space. -/
def eof : Bool :=
  s.step != .stateError && (s.endTop || (s.scan 0x20).1.endTop)

end Scanner

end JsonScan

end Boots.Http
