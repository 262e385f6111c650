import NativeExtension.Proofs.Text.Ascii

/-!
# NativeExtension.Proofs.Text.Decoding

**Only the bytes of a text decode to it** (`decode?_eq_some_iff`): no text has a second spelling, so
a byte string is text exactly if it is the encoding of one (`text?_eq_some_iff`).

The scan carries a half-read character along, and with it goes what its bytes are so far: whatever
completes it, the bytes read are then those that write the character (`Spells`). That a character
is written with as few bytes as possible is seen on its lead byte (`lead_spells`).
-/

namespace NativeExtension.Utf8

/-! ### The bytes of a character, by its number -/

theorem encodeChar_two {v : Nat} (h : 0x80 ≤ v) (h' : v < 0x800) :
    String.utf8EncodeChar (Char.ofNat v) =
      [UInt8.ofNat (v / 64 + 192), UInt8.ofNat (v % 64 + 128)] := by
  have hv : (Char.ofNat v).val.toNat = v := toNat_ofNat_of_valid (Or.inl (by omega))
  rw [String.utf8EncodeChar, hv, if_neg (by omega), if_pos (by omega),
    Nat.mod_eq_of_lt (show v / 64 < 32 by omega)]

theorem encodeChar_three {v : Nat} (h : 0x800 ≤ v) (h' : v < 0x10000) (hvalid : v.isValidChar) :
    String.utf8EncodeChar (Char.ofNat v) =
      [UInt8.ofNat (v / 4096 + 224), UInt8.ofNat (v / 64 % 64 + 128),
        UInt8.ofNat (v % 64 + 128)] := by
  have hv : (Char.ofNat v).val.toNat = v := toNat_ofNat_of_valid hvalid
  rw [String.utf8EncodeChar, hv, if_neg (by omega), if_neg (by omega), if_pos (by omega),
    Nat.mod_eq_of_lt (show v / 4096 < 16 by omega)]

theorem encodeChar_four {v : Nat} (h : 0x10000 ≤ v) (h' : v < 0x110000) :
    String.utf8EncodeChar (Char.ofNat v) =
      [UInt8.ofNat (v / 262144 + 240), UInt8.ofNat (v / 4096 % 64 + 128),
        UInt8.ofNat (v / 64 % 64 + 128), UInt8.ofNat (v % 64 + 128)] := by
  have hv : (Char.ofNat v).val.toNat = v := toNat_ofNat_of_valid (Or.inr (by omega))
  rw [String.utf8EncodeChar, hv, if_neg (by omega), if_neg (by omega), if_neg (by omega),
    Nat.mod_eq_of_lt (show v / 262144 < 8 by omega)]

/-! ### Half-read characters -/

/-- The bytes `front` begin every character that completes the `bits` read from them. The next byte
lies between `low` and `high`, and `further` bytes follow it. -/
def Spells : Nat → Nat → Nat → Nat → Bytes → Prop
  | 0, bits, low, high, front => ∀ x, low ≤ x → x ≤ high →
      front ++ [UInt8.ofNat x] = String.utf8EncodeChar (Char.ofNat (bits * 64 + (x - 128)))
  | further + 1, bits, low, high, front => ∀ x, low ≤ x → x ≤ high →
      Spells further (bits * 64 + (x - 128)) 128 191 (front ++ [UInt8.ofNat x])

/-- The byte to come has six bits, and the lead byte the others. -/
theorem spells_two (bits : Nat) (h : 2 ≤ bits) (h' : bits < 32) :
    Spells 0 bits 128 191 [UInt8.ofNat (bits + 192)] := by
  intro x hx hx'
  rw [encodeChar_two (by omega) (by omega)]
  rw [show (bits * 64 + (x - 128)) / 64 = bits by omega,
    show (bits * 64 + (x - 128)) % 64 + 128 = x by omega]
  rfl

theorem spells_three (bits low high : Nat) (hlow : 128 ≤ low) (hhigh : high ≤ 191)
    (h : ∀ x, low ≤ x → x ≤ high → 32 ≤ bits * 64 + (x - 128) ∧
      (bits * 64 + (x - 128) < 864 ∨
        896 ≤ bits * 64 + (x - 128) ∧ bits * 64 + (x - 128) < 1024)) :
    Spells 1 bits low high [UInt8.ofNat (bits + 224)] := by
  intro x hx hx' y hy hy'
  have hbits := h x hx hx'
  generalize hv : (bits * 64 + (x - 128)) * 64 + (y - 128) = v
  rw [encodeChar_three (by omega) (by omega) (by unfold Nat.isValidChar; omega)]
  rw [show v / 4096 = bits by omega, show v / 64 % 64 + 128 = x by omega,
    show v % 64 + 128 = y by omega]
  rfl

theorem spells_four (bits low high : Nat) (hlow : 128 ≤ low) (hhigh : high ≤ 191)
    (h : ∀ x, low ≤ x → x ≤ high →
      16 ≤ bits * 64 + (x - 128) ∧ bits * 64 + (x - 128) < 272) :
    Spells 2 bits low high [UInt8.ofNat (bits + 240)] := by
  intro x hx hx' y hy hy' z hz hz'
  have hbits := h x hx hx'
  generalize hv : ((bits * 64 + (x - 128)) * 64 + (y - 128)) * 64 + (z - 128) = v
  rw [encodeChar_four (by omega) (by omega)]
  rw [show v / 262144 = bits by omega, show v / 4096 % 64 + 128 = x by omega,
    show v / 64 % 64 + 128 = y by omega, show v % 64 + 128 = z by omega]
  rfl

/-- Each range of lead bytes on its own, as in `lead_sound`; here the bounds are those of the
shortest form. -/
theorem lead_spells {b : UInt8} {p : Pending} (h : lead b = .opens p) :
    Spells p.further p.bits p.least.toNat p.greatest.toNat [b] := by
  have hbyte : ∀ n, n = b.toNat → UInt8.ofNat n = b := by
    rintro _ rfl
    exact UInt8.ofNat_toNat
  rw [lead_eq] at h
  split at h
  · cases h
  split at h
  · cases h
  split at h
  · obtain rfl := Lead.opens.inj h
    have hspells := spells_two (b.toNat - 0xC0) (by omega) (by omega)
    rwa [hbyte _ (by omega)] at hspells
  split at h
  · obtain rfl := Lead.opens.inj h
    have hspells := spells_three 0 0xA0 191 (by omega) (by omega) (by omega)
    rwa [hbyte _ (by omega)] at hspells
  split at h
  · obtain rfl := Lead.opens.inj h
    have hspells := spells_three 0xD 128 0x9F (by omega) (by omega) (by omega)
    rwa [hbyte _ (by omega)] at hspells
  split at h
  · obtain rfl := Lead.opens.inj h
    have hspells := spells_three (b.toNat - 0xE0) 128 191 (by omega) (by omega) (by omega)
    rwa [hbyte _ (by omega)] at hspells
  split at h
  · obtain rfl := Lead.opens.inj h
    have hspells := spells_four 0 0x90 191 (by omega) (by omega) (by omega)
    rwa [hbyte _ (by omega)] at hspells
  split at h
  · obtain rfl := Lead.opens.inj h
    have hspells := spells_four (b.toNat - 0xF0) 128 191 (by omega) (by omega) (by omega)
    rwa [hbyte _ (by omega)] at hspells
  split at h
  · obtain rfl := Lead.opens.inj h
    have hspells := spells_four 4 128 0x8F (by omega) (by omega) (by omega)
    rwa [hbyte _ (by omega)] at hspells
  · cases h

/-- A byte that is a character of its own is all that is written of it. -/
theorem encodeChar_of_single {b : UInt8} {c : Char} (h : lead b = .single c) :
    String.utf8EncodeChar c = [b] := by
  have hsmall : b < 128 := by
    refine Decidable.byContradiction fun hlarge => ?_
    rw [lead, if_neg hlarge] at h
    repeat' split at h
    all_goals cases h
  have hlt : b.toNat < 128 := UInt8.lt_iff_toNat_lt.mp hsmall
  have hval : (Char.ofNat b.toNat).val.toNat = b.toNat :=
    toNat_ofNat_of_valid (Or.inl (by omega))
  rw [lead_of_ascii hsmall] at h
  obtain rfl := Lead.single.inj h
  rw [String.utf8EncodeChar, hval, if_pos (by omega), UInt8.ofNat_toNat]

/-! ### Scanning without a flaw -/

/-- What has been read of a character: nothing between two characters. -/
def HasRead (front : Bytes) : Option Pending → Prop
  | none => front = []
  | some p => Spells p.further p.bits p.least.toNat p.greatest.toNat front

/-- A byte that shows no flaw ends the character that was read so far, or goes on with it. -/
theorem step_hasRead {front : Bytes} {state : Option Pending} {b : UInt8} {text : List Char}
    (hread : HasRead front state) (h : (step state b).1 = text.map some) :
    ∃ front', HasRead front' (step state b).2 ∧ front ++ [b] = encode text ++ front' := by
  cases state with
  | none =>
      obtain rfl : front = [] := hread
      rw [step, start] at h ⊢
      cases hlead : lead b with
      | single c =>
          rw [hlead] at h
          obtain rfl : text = [c] := by
            cases text <;> simp_all
          exact ⟨[], rfl, by simp [encode, encodeChar_of_single hlead]⟩
      | opens p =>
          rw [hlead] at h
          obtain rfl : text = [] := by simpa using h.symm
          exact ⟨[b], lead_spells hlead, rfl⟩
      | stray =>
          rw [hlead] at h
          cases text <;> simp at h
  | some p =>
      by_cases hb : p.least ≤ b ∧ b ≤ p.greatest
      · have hnext : Spells p.further p.bits p.least.toNat p.greatest.toNat front := hread
        have hlow : p.least.toNat ≤ b.toNat := UInt8.le_iff_toNat_le.mp hb.1
        have hhigh : b.toNat ≤ p.greatest.toNat := UInt8.le_iff_toNat_le.mp hb.2
        rw [step_some_of_continues hb] at h ⊢
        cases hfurther : p.further with
        | zero =>
            rw [hfurther] at h hnext
            have hchar := hnext b.toNat hlow hhigh
            rw [UInt8.ofNat_toNat] at hchar
            obtain rfl : text = [Char.ofNat (p.bits * 64 + (b.toNat - 128))] := by
              cases text <;> simp_all
            exact ⟨[], rfl, by simp [encode, hchar]⟩
        | succ n =>
            rw [hfurther] at h hnext
            have hspells := hnext b.toNat hlow hhigh
            rw [UInt8.ofNat_toNat] at hspells
            obtain rfl : text = [] := by simpa using h.symm
            exact ⟨front ++ [b], hspells, rfl⟩
      · rw [step_some_of_breaks hb] at h
        cases text <;> simp at h

/-- Bytes that are scanned without a flaw are those of the characters that come out. -/
theorem eq_encode_of_scan {bytes front : Bytes} {state : Option Pending} {text : List Char}
    (hread : HasRead front state) (h : scan state bytes = text.map some) :
    front ++ bytes = encode text := by
  -- on the bytes, whatever has been read of a character before them
  induction bytes generalizing front state text with
  | nil =>
      cases state with
      | none =>
          obtain rfl : front = [] := hread
          obtain rfl : text = [] := by simpa [scan] using h.symm
          rfl
      | some p => cases text <;> simp [scan] at h
  | cons b rest ih =>
      rw [scan_cons] at h
      obtain ⟨shown, others, rfl, hshown, hothers⟩ := List.map_eq_append_iff.mp h.symm
      obtain ⟨front', hread', hfront⟩ := step_hasRead hread hshown.symm
      calc front ++ b :: rest = (front ++ [b]) ++ rest := by simp
        _ = encode shown ++ (front' ++ rest) := by rw [hfront, List.append_assoc]
        _ = encode (shown ++ others) := by rw [ih hread' hothers.symm, encode_append]

theorem eq_map_some_of_mapM {parts : List (Option Char)} {text : List Char}
    (h : parts.mapM id = some text) : parts = text.map some := by
  induction parts generalizing text with
  | nil => simpa using h.symm
  | cons part rest ih =>
      rw [List.mapM_cons] at h
      obtain ⟨c, hpart, hrest⟩ := Option.bind_eq_some_iff.mp h
      obtain ⟨others, hothers, htext⟩ := Option.bind_eq_some_iff.mp hrest
      obtain rfl := Option.some.inj htext
      rw [List.map_cons, ih hothers]
      exact congrArg (· :: others.map some) hpart

/-- **Only the bytes of a text decode to it.** -/
theorem decode?_eq_some_iff {bytes : Bytes} {text : List Char} :
    decode? bytes = some text ↔ bytes = encode text := by
  constructor
  · intro h
    have hread : HasRead [] none := rfl
    exact eq_encode_of_scan hread (eq_map_some_of_mapM h)
  · rintro rfl
    exact decode?_encode text

end NativeExtension.Utf8

namespace NativeExtension

/-- **A byte string spells a text exactly if it is its encoding.** -/
theorem text?_eq_some_iff {bytes : Bytes} {text : String} :
    text? bytes = some text ↔ bytes = utf8 text := by
  constructor
  · intro h
    obtain ⟨chars, hchars, rfl⟩ := Option.map_eq_some_iff.mp h
    rw [utf8, String.toList_ofList]
    exact Utf8.decode?_eq_some_iff.mp hchars
  · rintro rfl
    exact text?_utf8 text

end NativeExtension
