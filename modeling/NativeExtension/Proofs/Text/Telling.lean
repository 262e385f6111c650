import NativeExtension.Proofs.Path.Respelled

/-!
# NativeExtension.Proofs.Text.Telling

**Texts that tell the spellings apart that were written into them.** Two spellings of a path show
the same letters, so they can differ in slashes and dots only. Written with a code that leaves
these as they are, and with something else behind them, they come out the same only if they are
the same (`SparesMarks.cancel`). `Tells P a b` says so of two pieces of text, whatever closes them,
and `TellsEnded P a b` of pieces that close themselves; both are put together piece by piece.
-/

namespace NativeExtension

/-- The text starts with no slash and no dot. -/
def Closes (text : List Char) : Prop := ∀ c, text.head? = some c → ¬IsMark c

theorem Closes.append {a : List Char} (h : Closes a) (hne : a ≠ []) (b : List Char) :
    Closes (a ++ b) := by
  intro c hc
  rw [List.head?_append_of_ne_nil _ hne] at hc
  exact h c hc

theorem closes_cons {c : Char} (h : ¬IsMark c) (rest : List Char) : Closes (c :: rest) := by
  intro first hfirst
  rwa [← Option.some.inj hfirst]

/-- A way to write characters that leaves slashes and dots as they are and starts nothing else
with one of them. -/
structure SparesMarks (code : Char → List Char) : Prop where
  mark : ∀ c, IsMark c → code c = [c]
  other : ∀ c, ¬IsMark c → code c ≠ [] ∧ Closes (code c)

namespace SparesMarks

variable {code : Char → List Char}

theorem flatMap_cons_of_mark (h : SparesMarks code) {c : Char} (hc : IsMark c)
    (rest r : List Char) :
    (c :: rest).flatMap code ++ r = c :: (rest.flatMap code ++ r) := by
  simp [h.mark c hc]

theorem closes_flatMap_cons (h : SparesMarks code) {c : Char} (hc : ¬IsMark c)
    (rest r : List Char) : Closes ((c :: rest).flatMap code ++ r) := by
  obtain ⟨hne, hcloses⟩ := h.other c hc
  rw [List.flatMap_cons, List.append_assoc]
  exact hcloses.append hne _

/-- **What is written tells which slashes and dots there were.** -/
theorem cancel (h : SparesMarks code) {a b : List Char} (hletters : letters a = letters b)
    {r r' : List Char} (hr : Closes r) (hr' : Closes r')
    (heq : a.flatMap code ++ r = b.flatMap code ++ r') : a = b ∧ r = r' := by
  induction a generalizing b with
  | nil =>
      cases b with
      | nil => exact ⟨rfl, heq⟩
      | cons d others =>
          by_cases hd : IsMark d
          · rw [h.flatMap_cons_of_mark hd] at heq
            exact absurd hd (hr d (by rw [← List.nil_append r, ← List.flatMap_nil, heq]; rfl))
          · rw [letters_cons_of_not_mark hd] at hletters
            cases hletters
  | cons c rest ih =>
      by_cases hc : IsMark c
      · rw [h.flatMap_cons_of_mark hc] at heq
        cases b with
        | nil =>
            refine absurd hc (hr' c ?_)
            rw [← List.nil_append r', ← List.flatMap_nil, ← heq]
            rfl
        | cons d others =>
            by_cases hd : IsMark d
            · rw [h.flatMap_cons_of_mark hd] at heq
              rw [letters_cons_of_mark hc, letters_cons_of_mark hd] at hletters
              obtain ⟨rfl, hbehind⟩ := List.cons.inj heq
              obtain ⟨rfl, hrest⟩ := ih hletters hbehind
              exact ⟨rfl, hrest⟩
            · exact absurd hc (h.closes_flatMap_cons hd others r' c (by rw [← heq]; rfl))
      · cases b with
        | nil =>
            rw [letters_cons_of_not_mark hc] at hletters
            cases hletters
        | cons d others =>
            by_cases hd : IsMark d
            · rw [h.flatMap_cons_of_mark hd] at heq
              exact absurd hd (h.closes_flatMap_cons hc rest r d (by rw [heq]; rfl))
            · rw [letters_cons_of_not_mark hc, letters_cons_of_not_mark hd] at hletters
              obtain ⟨rfl, hothers⟩ := List.cons.inj hletters
              rw [List.flatMap_cons, List.flatMap_cons, List.append_assoc, List.append_assoc] at heq
              obtain ⟨rfl, hrest⟩ := ih hothers (List.append_cancel_left heq)
              exact ⟨rfl, hrest⟩

/-- One code behind another. -/
theorem comp {outer : Char → List Char} (h : SparesMarks code) (houter : SparesMarks outer) :
    SparesMarks fun c => (code c).flatMap outer where
  mark c hc := by simp [h.mark c hc, houter.mark c hc]
  other c hc := by
    obtain ⟨hne, hcloses⟩ := h.other c hc
    obtain ⟨first, rest, hcode⟩ := List.exists_cons_of_ne_nil hne
    have hfirst : ¬IsMark first := hcloses first (by rw [hcode]; rfl)
    rw [hcode]
    refine ⟨?_, ?_⟩
    · simp [(houter.other first hfirst).1]
    · simpa using houter.closes_flatMap_cons hfirst rest []

end SparesMarks

/-! ### Pieces of text -/

/-- Two pieces of text, with whatever closes them behind them, are the same only if `P` holds and
the same stands behind them. -/
def Tells (P : Prop) (a b : List Char) : Prop :=
  ∀ r r', Closes r → Closes r' → a ++ r = b ++ r' → P ∧ r = r'

/-- The same of pieces that need nothing to close them. -/
def TellsEnded (P : Prop) (a b : List Char) : Prop := ∀ r r', a ++ r = b ++ r' → P ∧ r = r'

theorem SparesMarks.tells {code : Char → List Char} (h : SparesMarks code) {a b : List Char}
    (hletters : letters a = letters b) : Tells (a = b) (a.flatMap code) (b.flatMap code) :=
  fun _ _ hr hr' heq => h.cancel hletters hr hr' heq

variable {P Q : Prop} {a b c d : List Char}

theorem tells_same (a : List Char) : Tells True a a :=
  fun _ _ _ _ heq => ⟨trivial, List.append_cancel_left heq⟩

theorem tellsEnded_same (a : List Char) : TellsEnded True a a :=
  fun _ _ heq => ⟨trivial, List.append_cancel_left heq⟩

theorem Tells.imp (h : Tells P a b) (himp : P → Q) : Tells Q a b :=
  fun r r' hr hr' heq => (h r r' hr hr' heq).imp_left himp

theorem TellsEnded.imp (h : TellsEnded P a b) (himp : P → Q) : TellsEnded Q a b :=
  fun r r' heq => (h r r' heq).imp_left himp

theorem TellsEnded.tells (h : TellsEnded P a b) : Tells P a b :=
  fun r r' _ _ heq => h r r' heq

theorem Tells.behind (h : Tells P a b) (front : List Char) : Tells P (front ++ a) (front ++ b) := by
  intro r r' hr hr' heq
  rw [List.append_assoc, List.append_assoc] at heq
  exact h r r' hr hr' (List.append_cancel_left heq)

/-- Pieces behind one another tell what each of them tells, if the second closes the first. -/
theorem Tells.append (h : Tells P a b) (h' : Tells Q c d) (hc : c ≠ [] → Closes c)
    (hd : d ≠ [] → Closes d) : Tells (P ∧ Q) (a ++ c) (b ++ d) := by
  intro r r' hr hr' heq
  have hclose : ∀ {text rest : List Char}, (text ≠ [] → Closes text) → Closes rest →
      Closes (text ++ rest) := by
    intro text rest htext hrest
    by_cases hnil : text = []
    · rwa [hnil]
    · exact (htext hnil).append hnil rest
  rw [List.append_assoc, List.append_assoc] at heq
  obtain ⟨hP, heq⟩ := h _ _ (hclose hc hr) (hclose hd hr') heq
  obtain ⟨hQ, heq⟩ := h' r r' hr hr' heq
  exact ⟨⟨hP, hQ⟩, heq⟩

/-- Pieces that close themselves need no such condition. -/
theorem TellsEnded.append (h : TellsEnded P a b) (h' : TellsEnded Q c d) :
    TellsEnded (P ∧ Q) (a ++ c) (b ++ d) := by
  intro r r' heq
  rw [List.append_assoc, List.append_assoc] at heq
  obtain ⟨hP, heq⟩ := h _ _ heq
  obtain ⟨hQ, heq⟩ := h' r r' heq
  exact ⟨⟨hP, hQ⟩, heq⟩

/-- A piece between two fixed texts, the second of which closes it. -/
theorem Tells.between (h : Tells P a b) (front : List Char) {last : Char} (hlast : ¬IsMark last)
    (rest : List Char) :
    TellsEnded P (front ++ a ++ last :: rest) (front ++ b ++ last :: rest) := by
  intro r r' heq
  rw [List.append_assoc _ _ r, List.append_assoc _ _ r', List.cons_append, List.cons_append] at heq
  obtain ⟨hP, hbehind⟩ := h.behind front _ _ (closes_cons hlast _) (closes_cons hlast _) heq
  exact ⟨hP, List.append_cancel_left (List.cons.inj hbehind).2⟩

/-- Lists are told apart item by item. -/
theorem tellsEnded_flatMap {α : Type} {R : α → α → Prop} {xs ys : List α}
    (h : List.Forall₂ R xs ys) {text : α → List Char}
    (hitem : ∀ x y, R x y → TellsEnded (x = y) (text x) (text y)) :
    TellsEnded (xs = ys) (xs.flatMap text) (ys.flatMap text) := by
  induction h with
  | nil => exact (tellsEnded_same []).imp fun _ => rfl
  | cons hfirst _ ih =>
      rw [List.flatMap_cons, List.flatMap_cons]
      refine ((hitem _ _ hfirst).append ih).imp ?_
      rintro ⟨rfl, rfl⟩
      rfl

/-- By induction on the lists: every item closes the one in front of it. -/
theorem tells_flatMap {α : Type} {R : α → α → Prop} {xs ys : List α}
    (h : List.Forall₂ R xs ys) {text : α → List Char} (hcloses : ∀ x, Closes (text x))
    (hne : ∀ x, text x ≠ []) (hitem : ∀ x y, R x y → Tells (x = y) (text x) (text y)) :
    Tells (xs = ys) (xs.flatMap text) (ys.flatMap text) := by
  have hall : ∀ zs : List α, zs.flatMap text ≠ [] → Closes (zs.flatMap text) := by
    intro zs hzs
    cases zs with
    | nil => exact absurd rfl hzs
    | cons z rest =>
        rw [List.flatMap_cons]
        exact (hcloses z).append (hne z) _
  induction h with
  | nil => exact (tells_same []).imp fun _ => rfl
  | cons hfirst _ ih =>
      rw [List.flatMap_cons, List.flatMap_cons]
      refine ((hitem _ _ hfirst).append ih (hall _) (hall _)).imp ?_
      rintro ⟨rfl, rfl⟩
      rfl

end NativeExtension
