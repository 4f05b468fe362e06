import Boots.Http.Basic
import Mathlib.Tactic.IntervalCases
import Mathlib.Data.Nat.Digits

/-! Go's `net.SplitHostPort`, `JoinHostPort`, `ParseIP` (IPv4 as Go 1.17 and later parse it) and
`(IP).String`, read by characters since no byte of a multi-byte character is ASCII. Each parser
inverts its printer and accepts nothing else. -/
namespace Boots.Http

namespace Net

/-! Byte search. -/

/-- `bytealg.IndexByteString(s, c)`; `none` is -1. -/
def indexByte (c : Char) : List Char → Option Nat
  | [] => none
  | x :: s => if x = c then some 0 else (indexByte c s).map (· + 1)

/-- `last(s, c)`: the index of the last `c`; `none` is -1. -/
def last (c : Char) : List Char → Option Nat
  | [] => none
  | x :: s => match last c s with
    | some i => some (i + 1)
    | none => if x = c then some 0 else none

variable {c : Char} {s t : List Char}

theorem indexByte_eq_none : indexByte c s = none ↔ c ∉ s := by
  induction s with
  | nil => simp [indexByte]
  | cons x s ih =>
    by_cases hx : x = c
    · simp [indexByte, hx]
    · simp [indexByte, hx, Ne.symm hx, ← ih]

theorem indexByte_eq_some {e : Nat} (h : indexByte c s = some e) :
    ∃ a b, s = a ++ c :: b ∧ c ∉ a ∧ e = a.length := by
  induction s generalizing e with
  | nil => cases h
  | cons x s ih =>
    by_cases hx : x = c
    · simp only [indexByte, hx, if_true, Option.some.injEq] at h
      exact ⟨[], s, by simp [hx], List.not_mem_nil c, h.symm⟩
    · simp only [indexByte, hx, if_false, Option.map_eq_some'] at h
      obtain ⟨e', he', rfl⟩ := h
      obtain ⟨a, b, rfl, ha, rfl⟩ := ih he'
      exact ⟨x :: a, b, rfl, by simp [ha, Ne.symm hx], rfl⟩

theorem indexByte_append (hc : c ∉ s) : indexByte c (s ++ c :: t) = some s.length := by
  induction s with
  | nil => simp [indexByte]
  | cons x s ih =>
    simp only [List.mem_cons, not_or] at hc
    simp [indexByte, Ne.symm hc.1, ih hc.2]

theorem last_eq_none : last c s = none ↔ c ∉ s := by
  induction s with
  | nil => simp [last]
  | cons x s ih =>
    rcases hl : last c s with _ | i
    · by_cases hx : x = c
      · simp [last, hl, hx]
      · simp [last, hl, hx, Ne.symm hx, ih.mp hl]
    · have : c ∈ s := Classical.not_not.mp (mt ih.mpr (by simp [hl]))
      simp [last, hl, this]

theorem last_eq_some {i : Nat} (h : last c s = some i) :
    ∃ a b, s = a ++ c :: b ∧ c ∉ b ∧ i = a.length := by
  induction s generalizing i with
  | nil => cases h
  | cons x s ih =>
    rcases hl : last c s with _ | i'
    · simp only [last, hl] at h
      split_ifs at h with hx
      cases h
      exact ⟨[], s, by simp [hx], last_eq_none.mp hl, rfl⟩
    · simp only [last, hl, Option.some.injEq] at h
      obtain ⟨a, b, rfl, hb, rfl⟩ := ih hl
      exact ⟨x :: a, b, rfl, hb, h.symm⟩

theorem last_append (ht : c ∉ t) : last c (s ++ c :: t) = some s.length := by
  induction s with
  | nil => simp [last, last_eq_none.mpr ht]
  | cons x s ih => simp [last, ih]

/-! `SplitHostPort` and `JoinHostPort`. -/

def missingPort : String := "missing port in address"

def tooManyColons : String := "too many colons in address"

/-- `(*AddrError).Error()`. -/
def addrError (addr why : String) : GoError :=
  ⟨if addr = "" then why else "address " ++ addr ++ ": " ++ why⟩

/-- The host `SplitHostPort` cuts out of `s`, with the offsets after which no '[' and no ']'
may appear, or why it refuses `s`; `i` is the index of the last ':'. -/
def splitHost (s : List Char) (i : Nat) : Except String (List Char × Nat × Nat) :=
  if s.head? = some '[' then
    match indexByte ']' s with
    | none => .error "missing \x27]\x27 in address"
    | some e =>
      if e + 1 = s.length then .error missingPort
      else if e + 1 = i then .ok ((s.take e).drop 1, 1, e + 1)
      else if s[e + 1]? = some ':' then .error tooManyColons
      else .error missingPort
  else if ':' ∈ s.take i then .error tooManyColons
  else .ok (s.take i, 0, 0)

/-- `net.SplitHostPort`: on error the host and port are "". -/
def splitHostPort (hostport : String) : String × String × Option GoError :=
  match last ':' hostport.data with
  | none => ("", "", some (addrError hostport missingPort))
  | some i =>
    match splitHost hostport.data i with
    | .error why => ("", "", some (addrError hostport why))
    | .ok (host, j, k) =>
      if '[' ∈ hostport.data.drop j then
        ("", "", some (addrError hostport "unexpected \x27[\x27 in address"))
      else if ']' ∈ hostport.data.drop k then
        ("", "", some (addrError hostport "unexpected \x27]\x27 in address"))
      else (⟨host⟩, ⟨hostport.data.drop (i + 1)⟩, none)

/-- `net.JoinHostPort`: a host with a colon is taken for an IPv6 literal and bracketed. -/
def joinHostPort (host port : String) : String :=
  if ':' ∈ host.data then "[" ++ host ++ "]:" ++ port else host ++ ":" ++ port

/-- No ':', '[' or ']'. -/
def Plain (s : List Char) : Prop := ':' ∉ s ∧ '[' ∉ s ∧ ']' ∉ s

theorem splitHost_eq_ok {i j k : Nat} {host : List Char}
    (h : splitHost s i = .ok (host, j, k)) :
    s.head? ≠ some '[' ∧ ':' ∉ s.take i ∧ host = s.take i ∧ j = 0 ∧ k = 0 ∨
      s.head? = some '[' ∧ ∃ e, indexByte ']' s = some e ∧ e + 1 = i ∧
        host = (s.take e).drop 1 ∧ j = 1 ∧ k = e + 1 := by
  unfold splitHost at h
  split_ifs at h with h1 h2
  · split at h
    · cases h
    · rename_i e he
      split_ifs at h with h3 h4
      cases h
      exact .inr ⟨h1, e, he, h4, rfl, rfl, rfl⟩
  · cases h
    exact .inl ⟨h1, h2, rfl, rfl, rfl⟩

/-- Every error of `SplitHostPort` leaves host and port empty and names the address. -/
theorem splitHostPort_error {hostport host port : String} {err : GoError}
    (h : splitHostPort hostport = (host, port, some err)) :
    host = "" ∧ port = "" ∧ ∃ why, err = addrError hostport why := by
  unfold splitHostPort at h
  split at h
  · cases h
    exact ⟨rfl, rfl, _, rfl⟩
  · split at h
    · cases h
      exact ⟨rfl, rfl, _, rfl⟩
    · split_ifs at h <;> cases h <;> exact ⟨rfl, rfl, _, rfl⟩

theorem splitHostPort_plain_data {h p : List Char} (hh : Plain h) (hp : Plain p) :
    splitHostPort ⟨h ++ ':' :: p⟩ = (⟨h⟩, ⟨p⟩, none) := by
  have hhead : (h ++ ':' :: p).head? ≠ some '[' := by
    cases h with
    | nil => simp
    | cons x h =>
      simp only [List.cons_append, List.head?_cons, ne_eq, Option.some.injEq]
      rintro rfl
      exact hh.2.1 (List.mem_cons_self _ _)
  have hsplit : splitHost (h ++ ':' :: p) h.length = .ok (h, 0, 0) := by
    rw [splitHost, if_neg hhead, List.take_left, if_neg hh.1]
  simp [splitHostPort, last_append hp.1, hsplit, hh.2.1, hh.2.2, hp.2.1, hp.2.2]

theorem splitHostPort_bracket_data {h p : List Char} (hh : '[' ∉ h ∧ ']' ∉ h) (hp : Plain p) :
    splitHostPort ⟨'[' :: (h ++ ']' :: ':' :: p)⟩ = (⟨h⟩, ⟨p⟩, none) := by
  have hlast : last ':' ('[' :: (h ++ ']' :: ':' :: p)) = some (h.length + 2) := by
    simpa using last_append (s := '[' :: h ++ [']']) hp.1
  have hidx : indexByte ']' ('[' :: (h ++ ']' :: ':' :: p)) = some (h.length + 1) := by
    simpa using indexByte_append (s := '[' :: h) (t := ':' :: p) (by simpa using hh.2)
  have hsplit : splitHost ('[' :: (h ++ ']' :: ':' :: p)) (h.length + 2) =
      .ok (h, 1, h.length + 2) := by
    simp [splitHost, hidx]
  simp [splitHostPort, hlast, hsplit, hh.1, hp.2.1, hp.2.2]

theorem splitHostPort_plain {h p : String} (hh : Plain h.data) (hp : Plain p.data) :
    splitHostPort (h ++ ":" ++ p) = (h, p, none) := by
  rw [show h ++ ":" ++ p = ⟨h.data ++ ':' :: p.data⟩ from String.ext (by simp)]
  exact splitHostPort_plain_data hh hp

theorem splitHostPort_bracket {h p : String} (hh : '[' ∉ h.data ∧ ']' ∉ h.data)
    (hp : Plain p.data) : splitHostPort ("[" ++ h ++ "]:" ++ p) = (h, p, none) := by
  rw [show "[" ++ h ++ "]:" ++ p = ⟨'[' :: (h.data ++ ']' :: ':' :: p.data)⟩ from String.ext (by simp)]
  exact splitHostPort_bracket_data hh hp

/-- `SplitHostPort` inverts `JoinHostPort` on every host without brackets and every port
without colons or brackets, such as a decimal port. -/
theorem splitHostPort_joinHostPort {h p : String} (hh : '[' ∉ h.data ∧ ']' ∉ h.data)
    (hp : Plain p.data) : splitHostPort (joinHostPort h p) = (h, p, none) := by
  by_cases hc : ':' ∈ h.data
  · rw [joinHostPort, if_pos hc]
    exact splitHostPort_bracket hh hp
  · rw [joinHostPort, if_neg hc]
    exact splitHostPort_plain ⟨hc, hh⟩ hp

/-- The IPv6 loopback on port 80 is bracketed and split back. -/
theorem loopback_splits_back :
    ('[' ∉ "::1".data ∧ ']' ∉ "::1".data) ∧ Plain "80".data ∧
      splitHostPort (joinHostPort "::1" "80") = ("::1", "80", none) :=
  have hp : Plain "80".data := ⟨by decide, by decide, by decide⟩
  ⟨by decide, hp, splitHostPort_joinHostPort (by decide) hp⟩

/-- The addresses `SplitHostPort` splits without error have one of the two forms it inverts. -/
theorem splitHostPort_eq_ok {s h p : String} (hs : splitHostPort s = (h, p, none)) :
    Plain p.data ∧ (Plain h.data ∧ s = h ++ ":" ++ p ∨
      '[' ∉ h.data ∧ ']' ∉ h.data ∧ s = "[" ++ h ++ "]:" ++ p) := by
  obtain ⟨sd⟩ := s
  unfold splitHostPort at hs
  rcases hl : last ':' sd with _ | i
  · simp [hl] at hs
  obtain ⟨a, b, rfl, hb, rfl⟩ := last_eq_some hl
  rcases hsplit : splitHost (a ++ ':' :: b) a.length with why | ⟨host, j, k⟩
  · simp [hl, hsplit] at hs
  simp only [hl, hsplit] at hs
  split_ifs at hs with h1 h2
  · simp at hs
  · simp at hs
  obtain ⟨rfl, rfl, -⟩ := Prod.mk.inj_iff.mp hs |>.imp_right Prod.mk.inj_iff.mp
  rcases splitHost_eq_ok hsplit with ⟨-, hcol, rfl, rfl, rfl⟩ | ⟨hhead, e, he, hei, rfl, rfl, rfl⟩
  · have hp : (a ++ ':' :: b).drop (a.length + 1) = b := by
      simp [List.drop_append_eq_append_drop]
    simp only [List.take_left, List.drop_zero, List.mem_append, List.mem_cons, not_or] at hcol h1 h2
    simp only [hp, List.take_left]
    exact ⟨⟨hb, h1.2.2, h2.2.2⟩, .inl ⟨⟨hcol, h1.1, h2.1⟩, String.ext (by simp)⟩⟩
  · obtain ⟨a', b', hab, ha', rfl⟩ := indexByte_eq_some he
    obtain ⟨h', rfl⟩ : ∃ h', a' = '[' :: h' := by
      rw [hab] at hhead
      cases a' with
      | nil => simp at hhead
      | cons x h' => exact ⟨h', by simpa using hhead⟩
    obtain ⟨rfl, rfl⟩ := List.append_inj
      (by rw [hab]; simp : a ++ ':' :: b = ('[' :: h' ++ [']']) ++ b') (by simp at hei ⊢; omega)
    simp at h1 h2 ha' ⊢
    exact ⟨⟨hb, h1.2, h2⟩, .inr ⟨h1.1, ha', String.ext (by simp)⟩⟩

/-- `SplitHostPort` splits exactly the addresses of the two forms `JoinHostPort` writes: a host
and a port with no colon or bracket around the last colon, or a bracketed host, which may hold
colons, before it. -/
theorem splitHostPort_eq_ok_iff {s h p : String} :
    splitHostPort s = (h, p, none) ↔ Plain p.data ∧ (Plain h.data ∧ s = h ++ ":" ++ p ∨
      '[' ∉ h.data ∧ ']' ∉ h.data ∧ s = "[" ++ h ++ "]:" ++ p) :=
  ⟨splitHostPort_eq_ok, fun ⟨hp, hs⟩ => hs.elim (fun ⟨hh, hs⟩ => hs ▸ splitHostPort_plain hh hp)
    fun ⟨h1, h2, hs⟩ => hs ▸ splitHostPort_bracket ⟨h1, h2⟩ hp⟩

/-! `ParseIP` and its IPv4 parser. -/

/-- `big`: `dtoi` gives up once the number reaches it. -/
def big : Nat := 0xFFFFFF

/-- The loop of `dtoi`: `n` is the number read from the first `i` digits. -/
def dtoiLoop (n i : Nat) : List Char → Nat × Nat × Bool
  | [] => (n, i, true)
  | c :: s =>
    if '0' ≤ c ∧ c ≤ '9' then
      if big ≤ n * 10 + (c.toNat - '0'.toNat) then (big, i, false)
      else dtoiLoop (n * 10 + (c.toNat - '0'.toNat)) (i + 1) s
    else (n, i, true)

/-- `dtoi`: the decimal number at the start of `s`, the digits it took, and whether there was a
digit and the number stayed below `big`. -/
def dtoi (s : List Char) : Nat × Nat × Bool :=
  match dtoiLoop 0 0 s with
  | (_, 0, true) => (0, 0, false)
  | r => r

/-- The octet at the start of `s` in `parseIPv4`: a decimal up to 255 with no leading zero. -/
def ipv4Octet (s : List Char) : Option (UInt8 × List Char) :=
  match dtoi s with
  | (n, c, ok) =>
    if !ok ∨ 0xFF < n then none
    else if 1 < c ∧ s.head? = some '0' then none
    else some (n.toUInt8, s.drop c)

/-- One turn of `parseIPv4`'s loop: an empty rest fails, and after the first field a "." is
skipped before the octet. -/
def ipv4Field (first : Bool) (s : List Char) : Option (UInt8 × List Char) :=
  if s = [] then none
  else if first then ipv4Octet s
  else if s.head? = some '.' then ipv4Octet s.tail
  else none

/-- `v4InV6Prefix`. -/
def v4InV6Prefix : List UInt8 := [0, 0, 0, 0, 0, 0, 0, 0, 0, 0, 0xff, 0xff]

/-- `net.IPv4(a, b, c, d)`, in its 16-byte form. -/
def ipv4 (a b c d : UInt8) : IP := ⟨v4InV6Prefix ++ [a, b, c, d]⟩

/-- `parseIPv4`, its loop over the four fields unrolled; nothing may follow the last. -/
def parseIPv4 (s : List Char) : Option IP := do
  let (a, s) ← ipv4Field true s
  let (b, s) ← ipv4Field false s
  let (c, s) ← ipv4Field false s
  let (d, s) ← ipv4Field false s
  if s = [] then some (ipv4 a b c d) else none

/-- `net.ParseIP`: the first "." or ":" picks the IPv4 or the IPv6 parser; the IPv6 parser is a
parameter. -/
def parseIP (parseIPv6 : List Char → Option IP) (s : String) : Option IP :=
  match s.data.find? fun c => c == '.' || c == ':' with
  | some '.' => parseIPv4 s.data
  | some _ => parseIPv6 s.data
  | none => none

/-! `(IP).String` on IPv4 addresses. -/

/-- The digit `d` as `ubtoa` writes it, `d + '0'`. -/
def digit (d : Nat) : Char := Char.ofNat (d + '0'.toNat)

/-- `ubtoa`: the decimal digits of a byte. -/
def ubtoa (v : UInt8) : List Char :=
  if v.toNat < 10 then [digit v.toNat]
  else if v.toNat < 100 then [digit (v.toNat / 10), digit (v.toNat % 10)]
  else [digit (v.toNat / 100), digit (v.toNat / 10 % 10), digit (v.toNat % 10)]

/-- The dotted decimal `(IP).String` writes for the IPv4 address `a.b.c.d`. -/
def dotted (a b c d : UInt8) : List Char :=
  ubtoa a ++ '.' :: (ubtoa b ++ '.' :: (ubtoa c ++ '.' :: ubtoa d))

/-! The IPv4 round trip, byte by byte: `dtoi` reads back what `ubtoa` writes, and every octet
`parseIPv4` accepts is one that `ubtoa` writes. -/

section Digits

variable {d : Nat} {s : List Char}

theorem isDigit_iff {c : Char} : ('0' ≤ c ∧ c ≤ '9') ↔ 48 ≤ c.toNat ∧ c.toNat ≤ 57 := by
  simp only [Char.le_def, UInt32.le_def, BitVec.le_def]
  rfl

theorem toNat_digit (hd : d < 10) : (digit d).toNat = d + 48 := by
  interval_cases d <;> rfl

theorem digit_isDigit (hd : d < 10) : '0' ≤ digit d ∧ digit d ≤ '9' := by
  interval_cases d <;> decide

theorem digit_eq_zero (hd : d < 10) : digit d = '0' ↔ d = 0 := by
  interval_cases d <;> decide

/-- A digit character is the `digit` of its value. -/
theorem digit_value {c : Char} (hc : '0' ≤ c ∧ c ≤ '9') : digit (c.toNat - '0'.toNat) = c := by
  have := isDigit_iff.mp hc
  rw [digit, show c.toNat - '0'.toNat + '0'.toNat = c.toNat by simp; omega, Char.ofNat_toNat]

theorem value_lt {c : Char} (hc : '0' ≤ c ∧ c ≤ '9') : c.toNat - '0'.toNat < 10 := by
  have := isDigit_iff.mp hc
  simp
  omega

theorem toNat_toUInt8 (v : UInt8) : v.toNat.toUInt8 = v :=
  UInt8.eq_of_val_eq (Fin.ext (UInt8.toNat_ofNat_of_lt v.toNat_lt_size))

theorem dtoiLoop_digit {n i : Nat} (hd : d < 10) (hn : n * 10 + d < big) :
    dtoiLoop n i (digit d :: s) = dtoiLoop (n * 10 + d) (i + 1) s := by
  have hv : (digit d).toNat - '0'.toNat = d := by rw [toNat_digit hd]; rfl
  rw [dtoiLoop, if_pos (digit_isDigit hd), hv, if_neg (Nat.not_le.mpr hn)]

theorem dtoiLoop_stop {n i : Nat} (hs : ∀ c ∈ s.head?, ¬('0' ≤ c ∧ c ≤ '9')) :
    dtoiLoop n i s = (n, i, true) := by
  cases s with
  | nil => rfl
  | cons c s => exact if_neg (hs c rfl)

theorem ubtoa_ne_nil (v : UInt8) : ubtoa v ≠ [] := by
  unfold ubtoa
  split_ifs <;> simp

theorem dtoi_ubtoa (v : UInt8) (hs : ∀ c ∈ s.head?, ¬('0' ≤ c ∧ c ≤ '9')) :
    dtoi (ubtoa v ++ s) = (v.toNat, (ubtoa v).length, true) := by
  have hv : v.toNat < 256 := v.toNat_lt_size
  unfold ubtoa
  split_ifs with h1 h2
  · rw [List.singleton_append, dtoi, dtoiLoop_digit h1 (by unfold big; omega), dtoiLoop_stop hs]
    simp
  · rw [List.cons_append, List.singleton_append, dtoi, dtoiLoop_digit (by omega) (by unfold big; omega),
      dtoiLoop_digit (by omega) (by unfold big; omega), dtoiLoop_stop hs]
    simp
    omega
  · rw [List.cons_append, List.cons_append, List.singleton_append, dtoi,
      dtoiLoop_digit (by omega) (by unfold big; omega), dtoiLoop_digit (by omega) (by unfold big; omega),
      dtoiLoop_digit (by omega) (by unfold big; omega), dtoiLoop_stop hs]
    simp
    omega

/-- `ubtoa` writes no leading zero. -/
theorem ubtoa_head (v : UInt8) (h : 1 < (ubtoa v).length) : (ubtoa v).head? ≠ some '0' := by
  have hv : v.toNat < 256 := v.toNat_lt_size
  unfold ubtoa at h ⊢
  split_ifs at h ⊢ with h1 h2
  · simp at h
  · simpa [digit_eq_zero (show v.toNat / 10 < 10 by omega)] using by omega
  · simpa [digit_eq_zero (show v.toNat / 100 < 10 by omega)] using by omega

theorem ipv4Octet_ubtoa (v : UInt8) (hs : ∀ c ∈ s.head?, ¬('0' ≤ c ∧ c ≤ '9')) :
    ipv4Octet (ubtoa v ++ s) = some (v, s) := by
  have hv : v.toNat < 256 := v.toNat_lt_size
  have hz : ¬(1 < (ubtoa v).length ∧ (ubtoa v ++ s).head? = some '0') := fun ⟨h1, h2⟩ =>
    ubtoa_head v h1 (by rwa [List.head?_append_of_ne_nil _ (ubtoa_ne_nil v)] at h2)
  rw [ipv4Octet, dtoi_ubtoa v hs]
  simp only [Bool.not_true, Bool.false_eq_true, false_or, if_neg hz, List.drop_left, toNat_toUInt8]
  rw [if_neg (by omega)]

theorem ipv4Field_first (v : UInt8) (hs : ∀ c ∈ s.head?, ¬('0' ≤ c ∧ c ≤ '9')) :
    ipv4Field true (ubtoa v ++ s) = some (v, s) := by
  rw [ipv4Field, if_neg (by simp [ubtoa_ne_nil]), if_pos rfl, ipv4Octet_ubtoa v hs]

theorem ipv4Field_next (v : UInt8) (hs : ∀ c ∈ s.head?, ¬('0' ≤ c ∧ c ≤ '9')) :
    ipv4Field false ('.' :: (ubtoa v ++ s)) = some (v, s) := by
  simp [ipv4Field, ipv4Octet_ubtoa v hs]

theorem not_isDigit_dot (t : List Char) : ∀ c ∈ ('.' :: t).head?, ¬('0' ≤ c ∧ c ≤ '9') := by
  rintro c ⟨⟩
  decide

theorem parseIPv4_dotted (a b c d : UInt8) : parseIPv4 (dotted a b c d) = some (ipv4 a b c d) := by
  simp [parseIPv4, dotted, ipv4Field_first a (not_isDigit_dot _), ipv4Field_next b (not_isDigit_dot _),
    ipv4Field_next c (not_isDigit_dot _),
    (by simpa using ipv4Field_next d (s := []) (by simp) : ipv4Field false ('.' :: ubtoa d) = _)]

/-- The number the digits `ds` spell after `n`, as `dtoi` accumulates it. -/
def digitsValue (n : Nat) (ds : List Char) : Nat := ds.foldl (fun n c => n * 10 + (c.toNat - '0'.toNat)) n

theorem digitsValue_cons (n : Nat) (c : Char) (ds : List Char) :
    digitsValue n (c :: ds) = digitsValue (n * 10 + (c.toNat - '0'.toNat)) ds := rfl

theorem le_digitsValue (n : Nat) (ds : List Char) : n ≤ digitsValue n ds := by
  induction ds generalizing n with
  | nil => exact le_refl n
  | cons c ds ih => exact le_trans (by omega) (ih (n * 10 + (c.toNat - '0'.toNat)))

theorem exists_digit {c : Char} (hc : '0' ≤ c ∧ c ≤ '9') : ∃ d < 10, c = digit d :=
  ⟨_, value_lt hc, (digit_value hc).symm⟩

theorem value_digit (hd : d < 10) : (digit d).toNat - '0'.toNat = d := by
  rw [toNat_digit hd]
  rfl

/-- What `dtoi`'s loop reads: a run of digits, up to a character that is not one. -/
theorem dtoiLoop_eq {n i m j : Nat} (h : dtoiLoop n i s = (m, j, true)) :
    ∃ ds rest, s = ds ++ rest ∧ (∀ c ∈ ds, '0' ≤ c ∧ c ≤ '9') ∧
      (∀ c ∈ rest.head?, ¬('0' ≤ c ∧ c ≤ '9')) ∧ j = i + ds.length ∧ m = digitsValue n ds := by
  induction s generalizing n i with
  | nil =>
    cases h
    exact ⟨[], [], rfl, by simp, by simp, rfl, rfl⟩
  | cons c s ih =>
    unfold dtoiLoop at h
    split_ifs at h with hc hbig
    · cases h
    · obtain ⟨ds, rest, rfl, hds, hrest, rfl, rfl⟩ := ih h
      refine ⟨c :: ds, rest, rfl, ?_, hrest, by simp; omega, rfl⟩
      simpa [hc] using hds
    · cases h
      exact ⟨[], c :: s, rfl, by simp, fun c' hc' => by cases hc'; exact hc, rfl, rfl⟩

theorem dtoi_eq {n c : Nat} (h : dtoi s = (n, c, true)) :
    ∃ ds rest, s = ds ++ rest ∧ ds ≠ [] ∧ (∀ x ∈ ds, '0' ≤ x ∧ x ≤ '9') ∧ c = ds.length ∧
      n = digitsValue 0 ds := by
  rcases hl : dtoiLoop 0 0 s with ⟨m, _ | j, _ | _⟩ <;> simp [dtoi, hl] at h
  obtain ⟨rfl, rfl⟩ := h
  obtain ⟨ds, rest, rfl, hds, -, hj, rfl⟩ := dtoiLoop_eq hl
  exact ⟨ds, rest, rfl, by rintro rfl; simp at hj, hds, by omega, rfl⟩

theorem ubtoa_ofNat {n : Nat} (hn : n < 256) : ubtoa n.toUInt8 =
    if n < 10 then [digit n] else if n < 100 then [digit (n / 10), digit (n % 10)]
    else [digit (n / 100), digit (n / 10 % 10), digit (n % 10)] := by
  rw [ubtoa, show n.toUInt8.toNat = n from UInt8.toNat_ofNat_of_lt hn]

/-- Digits with a value up to 255 and no leading zero are what `ubtoa` writes for the value. -/
theorem ubtoa_digitsValue {ds : List Char} (hds : ∀ x ∈ ds, '0' ≤ x ∧ x ≤ '9') (hne : ds ≠ [])
    (hv : digitsValue 0 ds ≤ 255) (hz : ¬(1 < ds.length ∧ ds.head? = some '0')) :
    ubtoa (digitsValue 0 ds).toUInt8 = ds := by
  rw [ubtoa_ofNat (by omega)]
  rcases ds with _ | ⟨x, _ | ⟨y, _ | ⟨z, _ | ⟨w, tl⟩⟩⟩⟩
  · exact absurd rfl hne
  · obtain ⟨dx, hx, rfl⟩ := exists_digit (hds x (by simp))
    simp only [digitsValue, List.foldl, value_digit hx, Nat.zero_mul, Nat.zero_add]
    rw [if_pos hx]
  · obtain ⟨dx, hx, rfl⟩ := exists_digit (hds x (by simp))
    obtain ⟨dy, hy, rfl⟩ := exists_digit (hds y (by simp))
    simp only [digitsValue, List.foldl, value_digit hx, value_digit hy] at hv ⊢
    simp [digit_eq_zero hx] at hz
    rw [if_neg (by omega), if_pos (by omega)]
    simp only [List.cons.injEq, and_true]
    exact ⟨congrArg digit (by omega), congrArg digit (by omega)⟩
  · obtain ⟨dx, hx, rfl⟩ := exists_digit (hds x (by simp))
    obtain ⟨dy, hy, rfl⟩ := exists_digit (hds y (by simp))
    obtain ⟨dz, hz', rfl⟩ := exists_digit (hds z (by simp))
    simp only [digitsValue, List.foldl, value_digit hx, value_digit hy, value_digit hz'] at hv ⊢
    simp [digit_eq_zero hx] at hz
    rw [if_neg (by omega), if_neg (by omega)]
    simp only [List.cons.injEq, and_true]
    exact ⟨congrArg digit (by omega), congrArg digit (by omega), congrArg digit (by omega)⟩
  · obtain ⟨dx, hx, rfl⟩ := exists_digit (hds x (by simp))
    simp [digit_eq_zero hx] at hz
    rw [digitsValue_cons, digitsValue_cons, digitsValue_cons, digitsValue_cons, value_digit hx] at hv
    exact absurd (le_trans (le_digitsValue _ tl) hv) (by omega)

theorem ipv4Octet_eq_some {v : UInt8} {rest : List Char} (h : ipv4Octet s = some (v, rest)) :
    s = ubtoa v ++ rest := by
  rcases hd : dtoi s with ⟨n, c, _ | _⟩
  · simp [ipv4Octet, hd] at h
  rw [ipv4Octet, hd] at h
  simp only at h
  split_ifs at h with h1 h2
  cases h
  obtain ⟨ds, rest, rfl, hne, hds, rfl, rfl⟩ := dtoi_eq hd
  rw [List.head?_append_of_ne_nil _ hne] at h2
  rw [ubtoa_digitsValue hds hne (by simp at h1; omega) h2, List.drop_left]

theorem ipv4Field_eq_some {first : Bool} {v : UInt8} {rest : List Char}
    (h : ipv4Field first s = some (v, rest)) :
    s = (if first then [] else ['.']) ++ ubtoa v ++ rest := by
  unfold ipv4Field at h
  split_ifs at h with h0 h1 h2
  · simp [h1, ipv4Octet_eq_some h]
  · obtain ⟨x, t, rfl⟩ := List.exists_cons_of_ne_nil h0
    simp only [List.head?_cons, Option.some.injEq] at h2
    simp only [List.tail_cons] at h
    simp [h1, h2, ipv4Octet_eq_some h]

theorem parseIPv4_eq_some {ip : IP} (h : parseIPv4 s = some ip) :
    ∃ a b c d, ip = ipv4 a b c d ∧ s = dotted a b c d := by
  simp only [parseIPv4, Option.bind_eq_bind, Option.bind_eq_some] at h
  obtain ⟨⟨a, s1⟩, h1, ⟨b, s2⟩, h2, ⟨c, s3⟩, h3, ⟨d, s4⟩, h4, h5⟩ := h
  simp only at h2 h3 h4 h5
  split_ifs at h5 with h6
  cases h5
  subst h6
  refine ⟨a, b, c, d, rfl, ?_⟩
  rw [ipv4Field_eq_some h1, ipv4Field_eq_some h2, ipv4Field_eq_some h3, ipv4Field_eq_some h4]
  simp [dotted]

theorem ubtoa_isDigit (v : UInt8) : ∀ c ∈ ubtoa v, '0' ≤ c ∧ c ≤ '9' := by
  have hv : v.toNat < 256 := v.toNat_lt_size
  unfold ubtoa
  split_ifs
  · rintro c hc
    rw [List.mem_singleton.mp hc]
    exact digit_isDigit (by omega)
  · simp only [List.mem_cons, List.mem_singleton, List.not_mem_nil, or_false]
    rintro c (rfl | rfl) <;> exact digit_isDigit (by omega)
  · simp only [List.mem_cons, List.mem_singleton, List.not_mem_nil, or_false]
    rintro c (rfl | rfl | rfl) <;> exact digit_isDigit (by omega)

theorem mem_dotted {a b c d : UInt8} {x : Char} (h : x ∈ dotted a b c d) :
    x = '.' ∨ ('0' ≤ x ∧ x ≤ '9') := by
  simp only [dotted, List.mem_append, List.mem_cons] at h
  rcases h with h | h | h | h | h | h | h <;>
    first | exact .inl h | exact .inr (ubtoa_isDigit _ _ h)

theorem digitChar_isDigit (hd : d < 10) : '0' ≤ Nat.digitChar d ∧ Nat.digitChar d ≤ '9' := by
  interval_cases d <;> decide

theorem mem_toDigitsCore {f n : Nat} {ds : List Char} {x : Char}
    (h : x ∈ Nat.toDigitsCore 10 f n ds) : x ∈ ds ∨ ('0' ≤ x ∧ x ≤ '9') := by
  induction f generalizing n ds with
  | zero => exact .inl h
  | succ f ih =>
    have hd := digitChar_isDigit (Nat.mod_lt n (show 10 > 0 by decide))
    simp only [Nat.toDigitsCore] at h
    split at h
    · rcases List.mem_cons.mp h with rfl | h
      · exact .inr hd
      · exact .inl h
    · rcases ih h with h | h
      · rcases List.mem_cons.mp h with rfl | h
        · exact .inr hd
        · exact .inl h
      · exact .inr h

/-- Decimals and dotted decimals hold no colon or bracket. -/
theorem plain_of_digits (h : ∀ x ∈ s, x = '.' ∨ ('0' ≤ x ∧ x ≤ '9')) : Plain s :=
  ⟨fun hm => absurd (h _ hm) (by decide), fun hm => absurd (h _ hm) (by decide),
    fun hm => absurd (h _ hm) (by decide)⟩

theorem plain_toString (n : Nat) : Plain (toString n).data :=
  plain_of_digits fun _ hx => .inr ((mem_toDigitsCore hx).resolve_left (List.not_mem_nil _))

theorem find?_dotted (a b c d : UInt8) :
    (dotted a b c d).find? (fun x => x == '.' || x == ':') = some '.' := by
  have hnone : (ubtoa a).find? (fun x => x == '.' || x == ':') = none :=
    List.find?_eq_none.mpr fun x hx => by
      have := isDigit_iff.mp (ubtoa_isDigit a x hx)
      simp only [Bool.or_eq_true, beq_iff_eq, not_or]
      constructor <;> rintro rfl <;> revert this <;> decide
  rw [dotted, List.find?_append, hnone]
  rfl

theorem parseIP_dotted (parseIPv6 : List Char → Option IP) (a b c d : UInt8) :
    parseIP parseIPv6 ⟨dotted a b c d⟩ = some (ipv4 a b c d) := by
  rw [parseIP, find?_dotted]
  exact parseIPv4_dotted a b c d

end Digits

/-- `parseIPv4` accepts exactly the dotted decimals `(IP).String` writes: four fields up to 255
with no leading zero, nothing before or after. -/
theorem parseIPv4_eq_some_iff {s : List Char} {ip : IP} :
    parseIPv4 s = some ip ↔ ∃ a b c d, ip = ipv4 a b c d ∧ s = dotted a b c d :=
  ⟨parseIPv4_eq_some, fun ⟨a, b, c, d, hip, hs⟩ => hs ▸ hip ▸ parseIPv4_dotted a b c d⟩

end Net

namespace IP

/-- `(IP).To4`: the four bytes of an IPv4 address, in either form. -/
def to4 (ip : IP) : Option IP :=
  if ip.bytes.length = 4 then some ip
  else if ip.bytes.length = 16 ∧ (ip.bytes.take 10).all (· == 0) ∧ ip.bytes[10]? = some 0xff ∧
    ip.bytes[11]? = some 0xff then some ⟨ip.bytes.drop 12⟩
  else none

/-- `(IP).String`: "<nil>" for no bytes, dotted decimal for an IPv4 address; `other` writes the
rest (IPv6 and "?" with hex digits). -/
def string (other : IP → String) (ip : IP) : String :=
  if ip.bytes = [] then "<nil>"
  else match ip.to4 with
    | some ⟨[a, b, c, d]⟩ => ⟨Net.dotted a b c d⟩
    | _ => other ip

theorem string_of_to4 (other : IP → String) {ip : IP} {a b c d : UInt8}
    (h : ip.to4 = some ⟨[a, b, c, d]⟩) : ip.string other = ⟨Net.dotted a b c d⟩ := by
  have hne : ip.bytes ≠ [] := fun he => by simp [to4, he] at h
  rw [string, if_neg hne, h]

end IP

end Boots.Http
