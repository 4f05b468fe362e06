import Boots.Http.Basic

/-! Go's `unicode/utf8` as `encoding/json` uses it to read a request body: `EncodeRune` writes a
character's bytes, `DecodeRune` reads one back and turns every byte that starts no valid sequence
into `RuneError`. Bytes are `UInt8`; the arithmetic is on their values. -/
namespace Boots.Http

namespace Utf8

/-- `RuneError`, U+FFFD. -/
def runeError : Char := Char.ofNat 0xFFFD

/-- `utf8.EncodeRune` on a valid character: one byte below 0x80, else a leading byte and 6-bit
continuation bytes. -/
def encodeRune (c : Char) : List UInt8 :=
  let v := c.toNat
  if v < 0x80 then [v.toUInt8]
  else if v < 0x800 then [(0xC0 + v / 64).toUInt8, (0x80 + v % 64).toUInt8]
  else if v < 0x10000 then
    [(0xE0 + v / 4096).toUInt8, (0x80 + v / 64 % 64).toUInt8, (0x80 + v % 64).toUInt8]
  else
    [(0xF0 + v / 262144).toUInt8, (0x80 + v / 4096 % 64).toUInt8, (0x80 + v / 64 % 64).toUInt8,
      (0x80 + v % 64).toUInt8]

/-- The bytes of a Go string holding the characters `s`. -/
def encode (s : List Char) : List UInt8 := s.flatMap encodeRune

/-- `first` and `acceptRanges` for a byte of 0x80 or more: the size of the sequence it leads and
the range its second byte must lie in, or `none` when it leads no sequence. -/
def leading (b : Nat) : Option (Nat × Nat × Nat) :=
  if 0xC2 ≤ b ∧ b ≤ 0xDF then some (2, 0x80, 0xBF)
  else if b = 0xE0 then some (3, 0xA0, 0xBF)
  else if 0xE1 ≤ b ∧ b ≤ 0xEC then some (3, 0x80, 0xBF)
  else if b = 0xED then some (3, 0x80, 0x9F)
  else if 0xEE ≤ b ∧ b ≤ 0xEF then some (3, 0x80, 0xBF)
  else if b = 0xF0 then some (4, 0x90, 0xBF)
  else if 0xF1 ≤ b ∧ b ≤ 0xF3 then some (4, 0x80, 0xBF)
  else if b = 0xF4 then some (4, 0x80, 0x8F)
  else none

/-- A continuation byte, `locb` to `hicb`. -/
def IsCont (b : UInt8) : Prop := 0x80 ≤ b.toNat ∧ b.toNat ≤ 0xBF

instance (b : UInt8) : Decidable (IsCont b) := inferInstanceAs (Decidable (_ ∧ _))

/-- `utf8.DecodeRune`: the character at the start of `p` and its size; `(RuneError, 1)` for a
byte that starts no valid sequence, and `(RuneError, 0)` for no byte. -/
def decodeRune : List UInt8 → Char × Nat
  | [] => (runeError, 0)
  | b0 :: rest =>
    if b0.toNat < 0x80 then (Char.ofNat b0.toNat, 1)
    else match leading b0.toNat, rest with
      | some (2, lo, hi), b1 :: _ =>
        if lo ≤ b1.toNat ∧ b1.toNat ≤ hi then
          (Char.ofNat (b0.toNat % 32 * 64 + b1.toNat % 64), 2)
        else (runeError, 1)
      | some (3, lo, hi), b1 :: b2 :: _ =>
        if lo ≤ b1.toNat ∧ b1.toNat ≤ hi ∧ IsCont b2 then
          (Char.ofNat (b0.toNat % 16 * 4096 + b1.toNat % 64 * 64 + b2.toNat % 64), 3)
        else (runeError, 1)
      | some (4, lo, hi), b1 :: b2 :: b3 :: _ =>
        if lo ≤ b1.toNat ∧ b1.toNat ≤ hi ∧ IsCont b2 ∧ IsCont b3 then
          (Char.ofNat (b0.toNat % 8 * 262144 + b1.toNat % 64 * 4096 + b2.toNat % 64 * 64 +
            b3.toNat % 64), 4)
        else (runeError, 1)
      | _, _ => (runeError, 1)

theorem lt_iff_toNat {a b : UInt8} : a < b ↔ a.toNat < b.toNat := Iff.rfl

theorem le_iff_toNat {a b : UInt8} : a ≤ b ↔ a.toNat ≤ b.toNat := Iff.rfl

theorem eq_iff_toNat {a b : UInt8} : a = b ↔ a.toNat = b.toNat :=
  ⟨congrArg _, fun h => UInt8.eq_of_val_eq (Fin.ext h)⟩

/-- The value of a byte literal, for `omega`. -/
theorem toNat_lit (n : Nat) : (no_index (OfNat.ofNat n : UInt8)).toNat = (OfNat.ofNat n : Nat) % 256 :=
  rfl

section RoundTrip

variable {c : Char} {rest : List UInt8}

theorem toNat_toUInt8 {n : Nat} (h : n < 256) : n.toUInt8.toNat = n :=
  UInt8.toNat_ofNat_of_lt h

/-- A character's value is below 0xD800 or above 0xDFFF, and at most 0x10FFFF. -/
theorem toNat_valid (c : Char) : c.toNat < 0xD800 ∨ (0xDFFF < c.toNat ∧ c.toNat < 0x110000) := by
  rcases c.valid with h | h
  · exact .inl h
  · exact .inr h

theorem encodeRune_ascii (h : c.toNat < 0x80) : encodeRune c = [c.toNat.toUInt8] := by
  simp [encodeRune, h]

/-- Every byte of a character of 0x80 or more is 0x80 or more: none is ASCII. -/
theorem encodeRune_ge (h : 0x80 ≤ c.toNat) : ∀ b ∈ encodeRune c, 0x80 ≤ b.toNat := by
  have hv := toNat_valid c
  unfold encodeRune
  dsimp only
  split_ifs with h1 h2 h3
  · omega
  all_goals
    simp only [List.mem_cons, List.mem_singleton, List.not_mem_nil, or_false]
    rintro b (rfl | rfl | rfl | rfl) <;> rw [toNat_toUInt8 (by omega)] <;> omega

variable {v : Nat}

/-- The leading bytes of two-byte sequences. -/
theorem leading_C : ∀ k, 2 ≤ k → k < 32 → leading (0xC0 + k) = some (2, 0x80, 0xBF) := by
  decide

/-- The leading bytes of three-byte sequences, and the range of the second byte after each. -/
theorem leading_E : ∀ k, k < 16 →
    leading (0xE0 + k) = some (3, if k = 0 then 0xA0 else 0x80, if k = 13 then 0x9F else 0xBF) := by
  decide

/-- The leading bytes of four-byte sequences, and the range of the second byte after each. -/
theorem leading_F : ∀ k, k < 5 →
    leading (0xF0 + k) = some (4, if k = 0 then 0x90 else 0x80, if k = 4 then 0x8F else 0xBF) := by
  decide

theorem leading_three (h1 : 0x800 ≤ v) (h2 : v < 0x10000) (hs : v < 0xD800 ∨ 0xDFFF < v) :
    ∃ lo hi, leading (0xE0 + v / 4096) = some (3, lo, hi) ∧ lo ≤ 0x80 + v / 64 % 64 ∧
      0x80 + v / 64 % 64 ≤ hi :=
  ⟨_, _, leading_E _ (by omega), by split_ifs <;> omega, by split_ifs <;> omega⟩

theorem leading_four (h1 : 0x10000 ≤ v) (h2 : v < 0x110000) :
    ∃ lo hi, leading (0xF0 + v / 262144) = some (4, lo, hi) ∧ lo ≤ 0x80 + v / 4096 % 64 ∧
      0x80 + v / 4096 % 64 ≤ hi :=
  ⟨_, _, leading_F _ (by omega), by split_ifs <;> omega, by split_ifs <;> omega⟩

theorem decodeRune_two (h1 : 0x80 ≤ v) (h2 : v < 0x800) :
    decodeRune ((0xC0 + v / 64).toUInt8 :: (0x80 + v % 64).toUInt8 :: rest) = (Char.ofNat v, 2) := by
  have hl := leading_C (v / 64) (by omega) (by omega)
  simp only [decodeRune, toNat_toUInt8 (by omega : 0xC0 + v / 64 < 256),
    toNat_toUInt8 (by omega : 0x80 + v % 64 < 256), if_neg (by omega : ¬0xC0 + v / 64 < 0x80), hl]
  rw [if_pos (by omega)]
  congr 2
  omega

theorem decodeRune_three (h1 : 0x800 ≤ v) (h2 : v < 0x10000) (hs : v < 0xD800 ∨ 0xDFFF < v) :
    decodeRune ((0xE0 + v / 4096).toUInt8 :: (0x80 + v / 64 % 64).toUInt8 ::
      (0x80 + v % 64).toUInt8 :: rest) = (Char.ofNat v, 3) := by
  obtain ⟨lo, hi, hl, hlo, hhi⟩ := leading_three h1 h2 hs
  simp only [decodeRune, toNat_toUInt8 (by omega : 0xE0 + v / 4096 < 256),
    toNat_toUInt8 (by omega : 0x80 + v / 64 % 64 < 256), toNat_toUInt8 (by omega : 0x80 + v % 64 < 256),
    if_neg (by omega : ¬0xE0 + v / 4096 < 0x80), hl, IsCont]
  rw [if_pos (by omega)]
  congr 2
  omega

/-- A continuation byte keeps the low six bits it carries. -/
theorem cont_mod (x : Nat) : (0x80 + x) % 64 = x % 64 := by omega

/-- A value put back together from its 6-bit groups. -/
theorem groups_four (v : Nat) :
    v / 262144 * 262144 + v / 4096 % 64 * 4096 + v / 64 % 64 * 64 + v % 64 = v := by
  have h64 := Nat.div_add_mod v 64
  have h4096 := Nat.div_add_mod (v / 64) 64
  have h262144 := Nat.div_add_mod (v / 4096) 64
  rw [Nat.div_div_eq_div_mul] at h4096 h262144
  generalize v / 262144 = q at *
  generalize v / 4096 = r at *
  generalize v / 64 = s at *
  omega

theorem decodeRune_four (h1 : 0x10000 ≤ v) (h2 : v < 0x110000) :
    decodeRune ((0xF0 + v / 262144).toUInt8 :: (0x80 + v / 4096 % 64).toUInt8 ::
      (0x80 + v / 64 % 64).toUInt8 :: (0x80 + v % 64).toUInt8 :: rest) = (Char.ofNat v, 4) := by
  obtain ⟨lo, hi, hl, hlo, hhi⟩ := leading_four h1 h2
  simp only [decodeRune, toNat_toUInt8 (by omega : 0xF0 + v / 262144 < 256),
    toNat_toUInt8 (by omega : 0x80 + v / 4096 % 64 < 256),
    toNat_toUInt8 (by omega : 0x80 + v / 64 % 64 < 256), toNat_toUInt8 (by omega : 0x80 + v % 64 < 256),
    if_neg (by omega : ¬0xF0 + v / 262144 < 0x80), hl, IsCont]
  rw [if_pos (by omega)]
  congr 2
  rw [cont_mod, cont_mod, cont_mod, Nat.mod_mod, Nat.mod_mod, Nat.mod_mod,
    show (0xF0 + v / 262144) % 8 = v / 262144 by omega]
  exact groups_four v

/-- `DecodeRune` reads back the character `EncodeRune` writes, whatever follows it. -/
theorem decodeRune_encodeRune (c : Char) (rest : List UInt8) :
    decodeRune (encodeRune c ++ rest) = (c, (encodeRune c).length) := by
  have hv := toNat_valid c
  unfold encodeRune
  dsimp only
  split_ifs with h1 h2 h3
  · simp only [List.singleton_append, decodeRune, toNat_toUInt8 (show c.toNat < 256 by omega),
      if_pos h1, List.length_singleton, Char.ofNat_toNat]
  · rw [List.cons_append, List.singleton_append, decodeRune_two (by omega) h2, Char.ofNat_toNat]
    rfl
  · rw [List.cons_append, List.cons_append, List.singleton_append,
      decodeRune_three (by omega) h3 (by omega), Char.ofNat_toNat]
    rfl
  · rw [List.cons_append, List.cons_append, List.cons_append, List.singleton_append,
      decodeRune_four (by omega) (by omega), Char.ofNat_toNat]
    rfl

end RoundTrip

end Utf8

end Boots.Http
