import Boots.Http.JsonDecode

/-! The scanner of `json.Unmarshal` never holds more than `maxNestingDepth` open objects and
arrays, whatever the body: the one push that could pass the bound is an error. -/
namespace Boots.Http

namespace JsonScan

namespace Scanner

/-- A result of the scanner that is an error, or leaves at most `maxNestingDepth` containers
open. -/
def Within (r : Scanner × Op) : Prop := r.2 = .scanError ∨ r.1.parseState.length ≤ maxNestingDepth

variable {s : Scanner} {c : UInt8}

theorem within_ite {p : Prop} [Decidable p] {a b : Scanner × Op} :
    Within (if p then a else b) ↔ (p → Within a) ∧ (¬p → Within b) := by
  by_cases h : p <;> simp [h]

theorem within_error (s : Scanner) : Within s.error := .inl rfl

theorem within_pushParseState (p : ParseState) (op : Op) : Within (s.pushParseState p op) := by
  unfold pushParseState
  dsimp only
  split_ifs with h
  exacts [.inr h, .inl rfl]

variable (hs : s.parseState.length ≤ maxNestingDepth)
include hs

theorem within_keep (op : Op) : Within (s, op) := .inr hs

theorem within_goto (next : Step) (op : Op) : Within (s.goto next op) := .inr hs

theorem within_with_step (next : Step) (op : Op) : Within ({ s with step := next }, op) := .inr hs

theorem within_stateEndValue : Within (s.stateEndValue c) := by
  obtain ⟨st, ps, e⟩ := s
  rcases ps with _ | ⟨p, _ | ⟨p', rest⟩⟩ <;> (try cases p) <;>
    simp only [stateEndValue, stateEndTop, popParseState, goto, error, within_ite] <;>
    simp only [Within, List.length_cons, List.length_nil] at hs ⊢ <;> omega

theorem within_stateBeginStringOrEmpty : Within (s.stateBeginStringOrEmpty c) := by
  have hv : ({ s with parseState := .parseObjectValue :: s.parseState.tail } : Scanner).parseState.length ≤
      maxNestingDepth := by
    rw [List.length_cons, List.length_tail]
    unfold maxNestingDepth at hs ⊢
    omega
  simp only [stateBeginStringOrEmpty, stateBeginString, within_ite, within_keep hs, within_goto hs,
    within_error, within_stateEndValue hv, implies_true, and_self]

/-- No byte takes the scanner past `maxNestingDepth` open containers, unless it is an error. -/
theorem within_scan : Within (s.scan c) := by
  cases h : s.step <;> simp only [scan, h, stateBeginValue, stateBeginValueOrEmpty, stateBeginString,
    stateEndTop, stateInString, stateInStringEsc, stateInStringHex, stateNeg, state1, state0, stateDot,
    stateDot0, stateESign, stateE, stateE0, stateLetter, within_ite, within_keep hs, within_goto hs,
    within_with_step hs, within_error, within_pushParseState, within_stateEndValue hs,
    within_stateBeginStringOrEmpty hs, implies_true, and_self]

end Scanner

end JsonScan

namespace JsonDecode

open JsonScan

/-- From any scanner state within the bound, every state `checkValid`'s loop reaches holds at
most `maxNestingDepth` open containers, however deeply the body nests. -/
theorem run_depth {s s' : Scanner} {d d' : Decoder} {data : List UInt8}
    (hs : s.parseState.length ≤ maxNestingDepth) (h : run s d data = some (s', d')) :
    s'.parseState.length ≤ maxNestingDepth := by
  induction data generalizing s d with
  | nil => cases h; exact hs
  | cons c cs ih =>
    unfold run at h
    split at h
    · cases h
    · rename_i s'' op hne heq
      have hw := Scanner.within_scan (c := c) hs
      rw [heq] at hw
      exact ih (hw.resolve_left hne) h

/-- A body cut off inside three arrays leaves the scanner with three open. -/
theorem cut_off_arrays_within_depth :
    (Scanner.reset.parseState.length ≤ maxNestingDepth ∧
      run Scanner.reset Decoder.init (Utf8.encode "[[[1".toList) =
        some (⟨.state1, [.parseArrayValue, .parseArrayValue, .parseArrayValue], false⟩,
          ⟨⟨0, "", ""⟩, true, none, some (.nested, [0x31])⟩)) ∧
      [ParseState.parseArrayValue, .parseArrayValue, .parseArrayValue].length ≤ maxNestingDepth :=
  have h : run Scanner.reset Decoder.init (Utf8.encode "[[[1".toList) =
      some (⟨.state1, [.parseArrayValue, .parseArrayValue, .parseArrayValue], false⟩,
        ⟨⟨0, "", ""⟩, true, none, some (.nested, [0x31])⟩) := by decide
  ⟨⟨by decide, h⟩, run_depth (by decide) h⟩

end JsonDecode

end Boots.Http
