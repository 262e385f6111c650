import NativeExtension.Text.Utf8

/-!
# NativeExtension.Text.RoundTrip

**Encoded text reads back.** Every character's bytes are scanned as that one character
(`scan_encodeChar`), so a text that was encoded is scanned without a flaw, and both
readings give it back: `decodeLossy_encode`, `decode?_encode`. It follows that two
texts with the same bytes are one (`encode_injective`).

The proof looks at a character by the number of its bytes. The lead byte fixes the first
bits and the range of the next byte (`lead_two`, `lead_three`, `lead_four`); that the
next byte lies in the narrowed range is what rules out overlong forms and surrogates.
-/

namespace NativeExtension.Utf8

theorem lead_eq (b : UInt8) :
    lead b =
      if b.toNat < 0x80 then .single (Char.ofNat b.toNat)
      else if b.toNat < 0xC2 then .stray
      else if b.toNat < 0xE0 then .opens { bits := b.toNat - 0xC0, further := 0 }
      else if b.toNat = 0xE0 then .opens { bits := 0, further := 1, least := 0xA0 }
      else if b.toNat = 0xED then .opens { bits := 0xD, further := 1, greatest := 0x9F }
      else if b.toNat < 0xF0 then .opens { bits := b.toNat - 0xE0, further := 1 }
      else if b.toNat = 0xF0 then .opens { bits := 0, further := 2, least := 0x90 }
      else if b.toNat < 0xF4 then .opens { bits := b.toNat - 0xF0, further := 2 }
      else if b.toNat = 0xF4 then .opens { bits := 4, further := 2, greatest := 0x8F }
      else .stray := by
  simp [lead, UInt8.lt_iff_toNat_lt, ← UInt8.toNat_inj]

/-- A continuation byte in range is taken up. -/
theorem scan_continue {p : Pending} {b : UInt8} (rest : Bytes) (low : p.least ≤ b)
    (high : b ≤ p.greatest) :
    scan (some p) (b :: rest) =
      match p.further with
      | 0 => some (Char.ofNat (p.bits * 64 + (b.toNat - 0x80))) :: scan none rest
      | n + 1 => scan (some { bits := p.bits * 64 + (b.toNat - 0x80), further := n }) rest := by
  cases h : p.further <;> simp [scan, step, low, high, h]

/-- A lead byte that opens a character is taken up. -/
theorem scan_open {b : UInt8} {p : Pending} (rest : Bytes) (h : lead b = .opens p) :
    scan none (b :: rest) = scan (some p) rest := by
  simp [scan, step, start, h]

theorem toNat_byte {n : Nat} (h : n < 256) : (UInt8.ofNat n).toNat = n := by
  simp; omega

/-- A continuation byte made from six bits. -/
theorem scan_continue_byte {p : Pending} {n : Nat} (rest : Bytes) (fits : n < 64)
    (low : p.least.toNat ≤ n + 128) (high : n + 128 ≤ p.greatest.toNat) :
    scan (some p) (UInt8.ofNat (n + 128) :: rest) =
      match p.further with
      | 0 => some (Char.ofNat (p.bits * 64 + n)) :: scan none rest
      | m + 1 => scan (some { bits := p.bits * 64 + n, further := m }) rest := by
  have value : (UInt8.ofNat (n + 128)).toNat = n + 128 := toNat_byte (by omega)
  rw [scan_continue rest (by rw [UInt8.le_iff_toNat_le, value]; exact low)
    (by rw [UInt8.le_iff_toNat_le, value]; exact high), value]
  simp

/-- The lead byte of a character of two bytes. -/
theorem lead_two {n : Nat} (low : 2 ≤ n) (high : n < 32) :
    lead (UInt8.ofNat (n + 192)) = .opens { bits := n, further := 0 } := by
  rw [lead_eq, toNat_byte (by omega), if_neg (by omega), if_neg (by omega), if_pos (by omega)]
  simp

theorem lead_three {n : Nat} (high : n < 16) :
    ∃ p : Pending, lead (UInt8.ofNat (n + 224)) = .opens p ∧ p.bits = n ∧ p.further = 1 ∧
      p.least.toNat = (if n = 0 then 0xA0 else 0x80) ∧
      p.greatest.toNat = (if n = 13 then 0x9F else 0xBF) := by
  rw [lead_eq, toNat_byte (by omega), if_neg (by omega), if_neg (by omega), if_neg (by omega)]
  by_cases first : n = 0
  · subst first; exact ⟨_, if_pos rfl, rfl, rfl, rfl, rfl⟩
  · by_cases gap : n = 13
    · subst gap; exact ⟨_, rfl, rfl, rfl, rfl, rfl⟩
    · rw [if_neg (by omega), if_neg (by omega), if_pos (by omega)]
      refine ⟨_, rfl, by simp, rfl, ?_, ?_⟩ <;> simp [first, gap]

theorem lead_four {n : Nat} (high : n < 5) :
    ∃ p : Pending, lead (UInt8.ofNat (n + 240)) = .opens p ∧ p.bits = n ∧ p.further = 2 ∧
      p.least.toNat = (if n = 0 then 0x90 else 0x80) ∧
      p.greatest.toNat = (if n = 4 then 0x8F else 0xBF) := by
  match n, high with
  | 0, _ => exact ⟨_, rfl, rfl, rfl, rfl, rfl⟩
  | 1, _ => exact ⟨_, rfl, rfl, rfl, rfl, rfl⟩
  | 2, _ => exact ⟨_, rfl, rfl, rfl, rfl, rfl⟩
  | 3, _ => exact ⟨_, rfl, rfl, rfl, rfl, rfl⟩
  | 4, _ => exact ⟨_, rfl, rfl, rfl, rfl, rfl⟩

/-- A character's own bytes read back as that character, whatever follows. -/
theorem scan_encodeChar (c : Char) (rest : Bytes) :
    scan none (String.utf8EncodeChar c ++ rest) = some c :: scan none rest := by
  have back : Char.ofNat c.val.toNat = c := Char.ofNat_toNat c
  have valid : c.val.toNat < 0xD800 ∨ 0xDFFF < c.val.toNat ∧ c.val.toNat < 0x110000 := c.valid
  unfold String.utf8EncodeChar
  generalize c.val.toNat = v at back valid
  dsimp only
  split
  · have value : (UInt8.ofNat v).toNat = v := toNat_byte (by omega)
    simp only [List.cons_append, List.nil_append, scan, step, start, lead_eq, value]
    rw [if_pos (by omega)]
    simp [back]
  split
  · rw [Nat.mod_eq_of_lt (show v / 64 < 32 by omega), List.cons_append, List.cons_append,
      scan_open _ (lead_two (by omega) (by omega)),
      scan_continue_byte _ (by omega) (by simp) (by simp; omega)]
    simp only [List.nil_append]
    rw [show v / 64 * 64 + v % 64 = v by omega, back]
  split
  · rw [Nat.mod_eq_of_lt (show v / 4096 < 16 by omega)]
    obtain ⟨p, opened, bits, further, least, greatest⟩ :=
      lead_three (show v / 4096 < 16 by omega)
    rw [List.cons_append, List.cons_append, List.cons_append, scan_open _ opened,
      scan_continue_byte _ (by omega) (by rw [least]; split <;> omega)
        (by rw [greatest]; split <;> omega), further]
    dsimp only
    rw [scan_continue_byte _ (by omega) (by simp) (by simp; omega), bits]
    simp only [List.nil_append]
    rw [show (v / 4096 * 64 + v / 64 % 64) * 64 + v % 64 = v by omega, back]
  · rw [Nat.mod_eq_of_lt (show v / 262144 < 8 by omega)]
    obtain ⟨p, opened, bits, further, least, greatest⟩ :=
      lead_four (show v / 262144 < 5 by omega)
    rw [List.cons_append, List.cons_append, List.cons_append, List.cons_append,
      scan_open _ opened,
      scan_continue_byte _ (by omega) (by rw [least]; split <;> omega)
        (by rw [greatest]; split <;> omega), further]
    dsimp only
    rw [scan_continue_byte _ (by omega) (by simp) (by simp; omega)]
    dsimp only
    rw [scan_continue_byte _ (by omega) (by simp) (by simp; omega), bits]
    simp only [List.nil_append]
    rw [show ((v / 262144 * 64 + v / 4096 % 64) * 64 + v / 64 % 64) * 64 + v % 64 = v by omega,
      back]

/-- What was encoded is scanned without a flaw. -/
theorem scan_encode (text : List Char) : scan none (encode text) = text.map some := by
  induction text with
  | nil => rfl
  | cons c rest ih =>
    rw [encode, List.flatMap_cons, scan_encodeChar, List.map_cons]
    exact congrArg _ ih

/-- The shown form of an encoded text is the text. -/
@[simp] theorem decodeLossy_encode (text : List Char) : decodeLossy (encode text) = text := by
  simp [decodeLossy, scan_encode, Function.comp_def]

/-- An encoded text is well-formed and decodes to itself. -/
@[simp] theorem decode?_encode (text : List Char) : decode? (encode text) = some text := by
  rw [decode?, scan_encode]
  induction text with
  | nil => rfl
  | cons c rest ih => simp_all [List.mapM_cons]

@[simp] theorem encode_append (a b : List Char) : encode (a ++ b) = encode a ++ encode b := by
  simp [encode]

/-- Distinct texts have distinct bytes. -/
theorem encode_injective {a b : List Char} (h : encode a = encode b) : a = b := by
  simpa using congrArg decodeLossy h

end NativeExtension.Utf8

namespace NativeExtension

@[simp] theorem shown_utf8 (text : String) : shown (utf8 text) = text := by
  simp [shown, utf8]

@[simp] theorem text?_utf8 (text : String) : text? (utf8 text) = some text := by
  simp [text?, utf8]

theorem utf8_injective {a b : String} (h : utf8 a = utf8 b) : a = b := by
  simpa using congrArg shown h

end NativeExtension
