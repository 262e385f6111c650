import NativeExtension.Proofs.Text.Fields
import NativeExtension.Text.RoundTrip

/-!
# NativeExtension.Proofs.Text.Ascii

**ASCII characters of a shown byte string are its ASCII bytes.** No part of a longer
character and no ill-formed part is ever shown as an ASCII character, so a line end, a
zero or a bar stands in the shown text exactly where its byte stands in the bytes
(`mem_decodeLossy_iff`), and cuts the text where it cuts the bytes (`decodeLossy_append_cons`).

The scan carries a half-read character along. What has to be known of it is that whatever
bytes complete it, the number it gives is a valid code point beyond ASCII (`Completes`):
were it not valid, it would read as the zero character.
-/

namespace NativeExtension.Utf8

/-! ### Half-read characters -/

/-- Every completion of a character of which `bits` were read is valid and not ASCII.
The next byte lies between `low` and `high`, and `further` bytes follow it. -/
def Completes : Nat → Nat → Nat → Nat → Prop
  | 0, bits, low, high => ∀ x, low ≤ x → x ≤ high →
      128 ≤ bits * 64 + (x - 128) ∧ (bits * 64 + (x - 128)).isValidChar
  | further + 1, bits, low, high => ∀ x, low ≤ x → x ≤ high →
      Completes further (bits * 64 + (x - 128)) 128 191

/-- A half-read character that the scan can meet. -/
def Pending.Sound (p : Pending) : Prop :=
  128 ≤ p.least.toNat ∧ Completes p.further p.bits p.least.toNat p.greatest.toNat

/-- With one byte to come: the ranges leave out overlong forms and the surrogates. -/
theorem completes_one {bits low high : Nat}
    (h : ∀ x, low ≤ x → x ≤ high → 32 ≤ bits * 64 + (x - 128) ∧
      (bits * 64 + (x - 128) < 864 ∨
        896 ≤ bits * 64 + (x - 128) ∧ bits * 64 + (x - 128) < 17408)) :
    Completes 1 bits low high := by
  intro x hx hx' y hy hy'
  have hbits := h x hx hx'
  unfold Nat.isValidChar
  omega

/-- With two bytes to come: the next one brings the range down to the former case. -/
theorem completes_two {bits low high : Nat}
    (h : ∀ x, low ≤ x → x ≤ high →
      16 ≤ bits * 64 + (x - 128) ∧ bits * 64 + (x - 128) < 272) :
    Completes 2 bits low high := by
  intro x hx hx'
  have hbits := h x hx hx'
  exact completes_one fun y hy hy' => by omega

/-- Each range of lead bytes on its own, since each has its own bounds for the byte behind it.
-/
theorem lead_sound {b : UInt8} {p : Pending} (h : lead b = .opens p) : p.Sound := by
  have hb := b.toNat_lt
  rw [lead_eq] at h
  split at h
  · cases h
  split at h
  · cases h
  split at h
  · -- two bytes: the lead byte C2 or above leaves out what one byte can say
    obtain rfl := Lead.opens.inj h
    refine ⟨by simp, ?_⟩
    intro x hx hx'
    simp at *
    unfold Nat.isValidChar
    omega
  split at h
  · -- three bytes: what two bytes can say is left out
    obtain rfl := Lead.opens.inj h
    refine ⟨by simp, completes_one ?_⟩
    intro x hx hx'
    simp at *
    omega
  split at h
  · -- the surrogates are left out here
    obtain rfl := Lead.opens.inj h
    refine ⟨by simp, completes_one ?_⟩
    intro x hx hx'
    simp at *
    omega
  split at h
  · obtain rfl := Lead.opens.inj h
    refine ⟨by simp, completes_one ?_⟩
    intro x hx hx'
    simp at *
    omega
  split at h
  · -- four bytes: what three bytes can say is left out
    obtain rfl := Lead.opens.inj h
    refine ⟨by simp, completes_two ?_⟩
    intro x hx hx'
    simp at *
    omega
  split at h
  · obtain rfl := Lead.opens.inj h
    refine ⟨by simp, completes_two ?_⟩
    intro x hx hx'
    simp at *
    omega
  split at h
  · -- the numbers beyond the last code point are left out here
    obtain rfl := Lead.opens.inj h
    refine ⟨by simp, completes_two ?_⟩
    intro x hx hx'
    simp at *
    omega
  · cases h

/-! ### Bytes and the characters they show -/

theorem toNat_ofNat_of_valid {n : Nat} (h : n.isValidChar) : (Char.ofNat n).toNat = n := by
  unfold Char.ofNat
  rw [dif_pos h]
  rfl

theorem ofNat_byte_ne {a : UInt8} (ha : a < 128) {n : Nat} (hn : 128 ≤ n)
    (hv : n.isValidChar) : Char.ofNat a.toNat ≠ Char.ofNat n := by
  intro h
  have hlt : a.toNat < 128 := UInt8.lt_iff_toNat_lt.mp ha
  have heq := congrArg Char.toNat h
  rw [toNat_ofNat_of_valid (Or.inl (by omega)), toNat_ofNat_of_valid hv] at heq
  omega

theorem ofNat_byte_inj {a b : UInt8} (ha : a < 128) (hb : b < 128)
    (h : Char.ofNat a.toNat = Char.ofNat b.toNat) : a = b := by
  have ha' : a.toNat < 128 := UInt8.lt_iff_toNat_lt.mp ha
  have hb' : b.toNat < 128 := UInt8.lt_iff_toNat_lt.mp hb
  have heq := congrArg Char.toNat h
  rw [toNat_ofNat_of_valid (Or.inl (by omega)), toNat_ofNat_of_valid (Or.inl (by omega))] at heq
  exact UInt8.toNat_inj.mp heq

theorem lead_of_ascii {b : UInt8} (h : b < 128) : lead b = .single (Char.ofNat b.toNat) := by
  rw [lead, if_pos h]

/-- A byte between two characters shows an ASCII character only if it is its byte. -/
theorem mem_start_iff {a : UInt8} (ha : a < 128) (b : UInt8) :
    some (Char.ofNat a.toNat) ∈ (start b).1 ↔ a = b := by
  unfold start
  cases hl : lead b with
  | single c =>
      by_cases hb : b < 128
      · rw [lead_of_ascii hb] at hl
        obtain rfl := Lead.single.inj hl
        simp only [List.mem_singleton, Option.some.injEq]
        exact ⟨ofNat_byte_inj ha hb, fun h => h ▸ rfl⟩
      · rw [lead, if_neg hb] at hl
        repeat' split at hl
        all_goals cases hl
  | opens p =>
      simp only [List.not_mem_nil, false_iff]
      rintro rfl
      rw [lead_of_ascii ha] at hl
      cases hl
  | stray =>
      simp only [List.mem_singleton, reduceCtorEq, false_iff]
      rintro rfl
      rw [lead_of_ascii ha] at hl
      cases hl

theorem start_sound {b : UInt8} {p : Pending} (h : (start b).2 = some p) : p.Sound := by
  unfold start at h
  cases hl : lead b with
  | single c => simp [hl] at h
  | opens q =>
      simp only [hl, Option.some.injEq] at h
      exact h ▸ lead_sound hl
  | stray => simp [hl] at h

theorem step_some_of_continues {p : Pending} {b : UInt8} (h : p.least ≤ b ∧ b ≤ p.greatest) :
    step (some p) b =
      match p.further with
      | 0 => ([some (Char.ofNat (p.bits * 64 + (b.toNat - 128)))], none)
      | n + 1 => ([], some { bits := p.bits * 64 + (b.toNat - 128), further := n }) :=
  if_pos h

theorem step_some_of_breaks {p : Pending} {b : UInt8} (h : ¬(p.least ≤ b ∧ b ≤ p.greatest)) :
    step (some p) b = (none :: (start b).1, (start b).2) :=
  if_neg h

theorem scan_cons (state : Option Pending) (b : UInt8) (rest : Bytes) :
    scan state (b :: rest) = (step state b).1 ++ scan (step state b).2 rest := by
  cases state <;> rfl

/-- A byte shows an ASCII character only if it is its byte, and leaves a half-read
character sound. -/
theorem step_spec {a : UInt8} (ha : a < 128) {state : Option Pending}
    (hs : ∀ p, state = some p → p.Sound) (b : UInt8) :
    (some (Char.ofNat a.toNat) ∈ (step state b).1 ↔ a = b) ∧
      ∀ p, (step state b).2 = some p → p.Sound := by
  cases state with
  | none => exact ⟨mem_start_iff ha b, fun p h => start_sound h⟩
  | some p =>
      obtain ⟨hleast, hcompletes⟩ := hs p rfl
      by_cases hb : p.least ≤ b ∧ b ≤ p.greatest
      · have hlow : p.least.toNat ≤ b.toNat := UInt8.le_iff_toNat_le.mp hb.1
        have hhigh : b.toNat ≤ p.greatest.toNat := UInt8.le_iff_toNat_le.mp hb.2
        -- a continuation byte is not ASCII
        have hne : a ≠ b := by
          rintro rfl
          have := UInt8.lt_iff_toNat_lt.mp ha
          simp at this
          omega
        rw [step_some_of_continues hb]
        cases hf : p.further with
        | zero =>
            rw [hf] at hcompletes
            obtain ⟨hwide, hvalid⟩ := hcompletes b.toNat hlow hhigh
            simp only [List.mem_singleton, Option.some.injEq, reduceCtorEq, false_implies,
              implies_true, and_true, iff_false_right hne]
            exact ofNat_byte_ne ha hwide hvalid
        | succ n =>
            rw [hf] at hcompletes
            refine ⟨by simp [hne], ?_⟩
            intro q hq
            obtain rfl := Option.some.inj hq
            exact ⟨by simp, hcompletes b.toNat hlow hhigh⟩
      · rw [step_some_of_breaks hb]
        refine ⟨?_, fun q hq => start_sound hq⟩
        rw [List.mem_cons, mem_start_iff ha b]
        simp

/-- An ASCII byte always stands for itself: between characters it is one, and within one it
ends what was begun. -/
theorem mem_scan_iff {a : UInt8} (ha : a < 128) (bytes : Bytes) {state : Option Pending}
    (hs : ∀ p, state = some p → p.Sound) :
    some (Char.ofNat a.toNat) ∈ scan state bytes ↔ a ∈ bytes := by
  -- on the bytes, whatever character may be half read before them
  induction bytes generalizing state with
  | nil => cases state <;> simp [scan]
  | cons b rest ih =>
      obtain ⟨hmem, hsound⟩ := step_spec ha hs b
      rw [scan_cons, List.mem_append, hmem, ih hsound, List.mem_cons]

/-- **An ASCII character is shown exactly if its byte is there.** -/
theorem mem_decodeLossy_iff {a : UInt8} (ha : a < 128) (bytes : Bytes) :
    Char.ofNat a.toNat ∈ decodeLossy bytes ↔ a ∈ bytes := by
  have hnone : ∀ p, (none : Option Pending) = some p → p.Sound := nofun
  rw [← mem_scan_iff ha bytes hnone, decodeLossy, List.mem_map]
  constructor
  · rintro ⟨part, hpart, hshown⟩
    cases part with
    | some c => exact hshown ▸ hpart
    | none =>
        -- an ill-formed part is shown as a character beyond ASCII
        have heq : Char.ofNat a.toNat = Char.ofNat 0xFFFD := hshown.symm
        exact absurd heq (ofNat_byte_ne ha (by decide) (by decide))
  · intro h
    exact ⟨_, h, rfl⟩

/-- A byte shows something or leaves a character half read. -/
theorem step_shows_or_holds (state : Option Pending) (b : UInt8) :
    (step state b).1 ≠ [] ∨ (step state b).2 ≠ none := by
  have hstart : (start b).1 ≠ [] ∨ (start b).2 ≠ none := by
    unfold start
    cases lead b <;> simp
  cases state with
  | none => exact hstart
  | some p =>
      by_cases hb : p.least ≤ b ∧ b ≤ p.greatest
      · rw [step_some_of_continues hb]
        cases p.further <;> simp
      · rw [step_some_of_breaks hb]
        simp

theorem scan_eq_nil {bytes : Bytes} {state : Option Pending} (h : scan state bytes = []) :
    state = none ∧ bytes = [] := by
  induction bytes generalizing state with
  | nil =>
      cases state with
      | none => exact ⟨rfl, rfl⟩
      | some p => simp [scan] at h
  | cons b rest ih =>
      rw [scan_cons, List.append_eq_nil_iff] at h
      rcases step_shows_or_holds state b with hshows | hholds
      · exact absurd h.1 hshows
      · exact absurd (ih h.2).1 hholds

/-- Only the empty byte string is shown as nothing. -/
theorem decodeLossy_eq_nil_iff (bytes : Bytes) : decodeLossy bytes = [] ↔ bytes = [] := by
  constructor
  · intro h
    exact (scan_eq_nil (List.map_eq_nil_iff.mp h)).2
  · rintro rfl
    rfl

/-! ### Cutting at an ASCII byte -/

/-- An ASCII byte ends whatever was pending, so the scan behind it starts afresh. -/
theorem scan_append_cons {a : UInt8} (ha : a < 128) {state : Option Pending}
    (hs : ∀ p, state = some p → p.Sound) (front back : Bytes) :
    scan state (front ++ a :: back) =
      scan state front ++ some (Char.ofNat a.toNat) :: scan none back := by
  induction front generalizing state with
  | nil =>
      have hstart : start a = ([some (Char.ofNat a.toNat)], none) := by
        rw [start, lead_of_ascii ha]
      rw [List.nil_append, scan_cons]
      cases state with
      | none => simp [step, hstart, scan]
      | some p =>
          -- the byte breaks off the half-read character
          have hbreaks : ¬(p.least ≤ a ∧ a ≤ p.greatest) := by
            intro hcontinues
            have hlow := UInt8.le_iff_toNat_le.mp hcontinues.1
            have hascii : a.toNat < 128 := UInt8.lt_iff_toNat_lt.mp ha
            have hleast := (hs p rfl).1
            omega
          simp [step_some_of_breaks hbreaks, hstart, scan]
  | cons b rest ih =>
      rw [List.cons_append, scan_cons, scan_cons, ih (step_spec ha hs b).2, List.append_assoc]

/-- **An ASCII byte cuts what is shown** into what is shown of the bytes on its two sides. -/
theorem decodeLossy_append_cons {a : UInt8} (ha : a < 128) (front back : Bytes) :
    decodeLossy (front ++ a :: back) =
      decodeLossy front ++ Char.ofNat a.toNat :: decodeLossy back := by
  have hnone : ∀ p, (none : Option Pending) = some p → p.Sound := nofun
  unfold decodeLossy
  rw [scan_append_cons ha hnone, List.map_append, List.map_cons]
  rfl

/-- **What is shown as ASCII bytes are is those bytes.** -/
theorem eq_of_decodeLossy_eq {bytes plain : Bytes} (hplain : ∀ b ∈ plain, b < 128)
    (h : decodeLossy bytes = decodeLossy plain) : bytes = plain := by
  induction plain generalizing bytes with
  | nil => exact (decodeLossy_eq_nil_iff bytes).mp h
  | cons a rest ih =>
      obtain ⟨ha, hrest⟩ := List.forall_mem_cons.mp hplain
      have hcons : decodeLossy (a :: rest) = Char.ofNat a.toNat :: decodeLossy rest :=
        decodeLossy_append_cons ha [] rest
      rw [hcons] at h
      have hmem : a ∈ bytes := by
        rw [← mem_decodeLossy_iff ha, h]
        exact List.mem_cons_self
      obtain ⟨front, back, rfl, hfirst⟩ := List.eq_append_cons_of_mem hmem
      rw [decodeLossy_append_cons ha] at h
      cases hshown : decodeLossy front with
      | nil =>
          obtain rfl := (decodeLossy_eq_nil_iff front).mp hshown
          rw [hshown, List.nil_append] at h
          rw [List.nil_append, ih hrest (List.cons.inj h).2]
      | cons c others =>
          -- the first character shown would be the byte, which is not in front
          rw [hshown, List.cons_append] at h
          refine absurd ((mem_decodeLossy_iff ha front).mp ?_) hfirst
          rw [hshown, (List.cons.inj h).1]
          exact List.mem_cons_self

/-- **Cutting what is shown at an ASCII character** is cutting the bytes at its byte. -/
theorem fields_decodeLossy {a : UInt8} (ha : a < 128) (bytes : Bytes) :
    Text.fields (Char.ofNat a.toNat) (decodeLossy bytes) =
      (Text.fields a bytes).map decodeLossy := by
  -- on the number of bytes: what stands behind the first such byte is shorter
  induction hlength : bytes.length using Nat.strongRecOn generalizing bytes with
  | ind length ih =>
  by_cases hmem : a ∈ bytes
  · obtain ⟨front, back, rfl, hfront⟩ := List.eq_append_cons_of_mem hmem
    have hshown : Char.ofNat a.toNat ∉ decodeLossy front :=
      fun h => hfront ((mem_decodeLossy_iff ha front).mp h)
    have hback := ih back.length (by simp at hlength; omega) back rfl
    rw [decodeLossy_append_cons ha, Text.fields_append_cons hshown, hback,
      Text.fields_append_cons hfront, List.map_cons]
  · have hshown : Char.ofNat a.toNat ∉ decodeLossy bytes :=
      fun h => hmem ((mem_decodeLossy_iff ha bytes).mp h)
    rw [Text.fields_of_not_mem hshown, Text.fields_of_not_mem hmem, List.map_singleton]

/-- ASCII characters are written as ASCII bytes. -/
theorem encode_ascii {text : List Char} (h : ∀ c ∈ text, c.toNat < 128) :
    ∀ b ∈ encode text, b < 128 := by
  intro b hb
  obtain ⟨c, hc, hb⟩ := List.mem_flatMap.mp hb
  have hsmall := h c hc
  have hval : c.val.toNat ≤ 0x7F := Nat.le_of_lt_succ hsmall
  unfold String.utf8EncodeChar at hb
  rw [if_pos hval] at hb
  obtain rfl := List.mem_singleton.mp hb
  rw [UInt8.lt_iff_toNat_lt]
  simp
  omega

end NativeExtension.Utf8
