import NativeExtension.Text.Utf8

/-!
# NativeExtension.Text.ByteOrder

**The order of byte strings**: by the first byte that differs, and a string before every
longer one that starts with it. The order is linear, so the least of some byte strings
(`leastBytes?`) does not depend on the order in which they are given.
-/

namespace NativeExtension

/-- Does `a` come before `b`, or are they one? -/
def bytesLe : Bytes → Bytes → Bool
  | [], _ => true
  | _ :: _, [] => false
  | a :: as, b :: bs => a < b || (a == b && bytesLe as bs)

def lesserBytes (a b : Bytes) : Bytes := if bytesLe a b then a else b

/-- The least of some byte strings. -/
def leastBytes? : List Bytes → Option Bytes
  | [] => none
  | first :: rest => some (rest.foldl lesserBytes first)

theorem bytesLe_refl (a : Bytes) : bytesLe a a = true := by
  induction a with
  | nil => rfl
  | cons x xs ih => simp [bytesLe, ih]

theorem bytesLe_total (a b : Bytes) : bytesLe a b = true ∨ bytesLe b a = true := by
  induction a generalizing b with
  | nil => exact Or.inl rfl
  | cons x xs ih =>
    cases b with
    | nil => exact Or.inr rfl
    | cons y ys =>
      simp only [bytesLe, Bool.or_eq_true, Bool.and_eq_true, decide_eq_true_eq, beq_iff_eq,
        UInt8.lt_iff_toNat_lt, ← UInt8.toNat_inj]
      rcases Nat.lt_trichotomy x.toNat y.toNat with less | same | more
      · exact Or.inl (Or.inl less)
      · rcases ih ys with le | le
        · exact Or.inl (Or.inr ⟨same, le⟩)
        · exact Or.inr (Or.inr ⟨same.symm, le⟩)
      · exact Or.inr (Or.inl more)

theorem bytesLe_antisymm {a b : Bytes} (h : bytesLe a b = true) (h' : bytesLe b a = true) :
    a = b := by
  induction a generalizing b with
  | nil =>
    cases b with
    | nil => rfl
    | cons y ys => exact absurd h' (by simp [bytesLe])
  | cons x xs ih =>
    cases b with
    | nil => exact absurd h (by simp [bytesLe])
    | cons y ys =>
      simp only [bytesLe, Bool.or_eq_true, Bool.and_eq_true, decide_eq_true_eq, beq_iff_eq,
        UInt8.lt_iff_toNat_lt, ← UInt8.toNat_inj] at h h'
      have same : x.toNat = y.toNat := by omega
      have below : bytesLe xs ys = true ∧ bytesLe ys xs = true := by
        constructor
        · rcases h with less | ⟨-, le⟩
          · omega
          · exact le
        · rcases h' with less | ⟨-, le⟩
          · omega
          · exact le
      rw [UInt8.toNat_inj.mp same, ih below.1 below.2]

theorem bytesLe_trans {a b c : Bytes} (h : bytesLe a b = true) (h' : bytesLe b c = true) :
    bytesLe a c = true := by
  induction a generalizing b c with
  | nil => rfl
  | cons x xs ih =>
    cases b with
    | nil => exact absurd h (by simp [bytesLe])
    | cons y ys =>
      cases c with
      | nil => exact absurd h' (by simp [bytesLe])
      | cons z zs =>
        simp only [bytesLe, Bool.or_eq_true, Bool.and_eq_true, decide_eq_true_eq, beq_iff_eq,
          UInt8.lt_iff_toNat_lt, ← UInt8.toNat_inj] at h h' ⊢
        rcases h with less | ⟨same, le⟩
        · left
          rcases h' with less' | ⟨same', -⟩ <;> omega
        · rcases h' with less' | ⟨same', le'⟩
          · left; omega
          · exact Or.inr ⟨same.trans same', ih le le'⟩

/-- The lesser of two comes before both. -/
theorem bytesLe_lesserBytes (a b : Bytes) :
    bytesLe (lesserBytes a b) a = true ∧ bytesLe (lesserBytes a b) b = true := by
  unfold lesserBytes
  split
  · next h => exact ⟨bytesLe_refl a, h⟩
  · next h => exact ⟨(bytesLe_total a b).resolve_left h, bytesLe_refl b⟩

private theorem foldl_lesserBytes (first : Bytes) (rest : List Bytes) :
    rest.foldl lesserBytes first ∈ first :: rest ∧
      ∀ b ∈ first :: rest, bytesLe (rest.foldl lesserBytes first) b = true := by
  induction rest generalizing first with
  | nil => simp [bytesLe_refl]
  | cons next rest ih =>
    obtain ⟨member, least⟩ := ih (lesserBytes first next)
    obtain ⟨leFirst, leNext⟩ := bytesLe_lesserBytes first next
    have start := least (lesserBytes first next) (List.mem_cons_self ..)
    refine ⟨?_, ?_⟩
    · rcases List.mem_cons.mp member with same | inside
      · rw [List.foldl_cons, same, lesserBytes]
        split <;> simp
      · exact List.mem_cons_of_mem _ (List.mem_cons_of_mem _ inside)
    · intro b hb
      rcases List.mem_cons.mp hb with rfl | hb
      · exact bytesLe_trans start leFirst
      · rcases List.mem_cons.mp hb with rfl | hb
        · exact bytesLe_trans start leNext
        · exact least b (List.mem_cons_of_mem _ hb)

/-- The least of some byte strings is the one among them that comes before all of them. -/
theorem leastBytes?_eq_some_iff {names : List Bytes} {least : Bytes} :
    leastBytes? names = some least ↔
      least ∈ names ∧ ∀ name ∈ names, bytesLe least name = true := by
  cases names with
  | nil => simp [leastBytes?]
  | cons first rest =>
    obtain ⟨member, before⟩ := foldl_lesserBytes first rest
    constructor
    · intro h
      obtain rfl := Option.some.inj h
      exact ⟨member, before⟩
    · rintro ⟨inside, le⟩
      exact congrArg some (bytesLe_antisymm (before least inside) (le _ member))

/-- There is a least unless there is nothing. -/
theorem leastBytes?_eq_none_iff {names : List Bytes} : leastBytes? names = none ↔ names = [] := by
  cases names <;> simp [leastBytes?]

end NativeExtension
