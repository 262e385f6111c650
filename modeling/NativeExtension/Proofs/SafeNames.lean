import NativeExtension.Headers
import NativeExtension.Proofs.Ninja.Commands
import NativeExtension.Proofs.Session.LinkedLibrary
import NativeExtension.Workspace

/-!
# NativeExtension.Proofs.SafeNames

**An accepted name is safe wherever it is written.** Exactly the identifiers are accepted
(`validateName_ok_iff`), and the reason why another name is not tells what is wrong with it. An
identifier is one step of a path, and so is the library named after it; no escape and no shell
touches it (`isSafe_of_isIdentifier`); and two of them never meet, be it as workspaces, libraries or
entry points (`apart_of_ne`).
-/

namespace NativeExtension

/-- A letter of ASCII or an underscore. -/
def StartsIdentifier (c : Char) : Prop := 'a' ≤ c ∧ c ≤ 'z' ∨ 'A' ≤ c ∧ c ≤ 'Z' ∨ c = '_'

/-- A letter or a digit of ASCII, or an underscore. -/
def GoesOnIdentifier (c : Char) : Prop := StartsIdentifier c ∨ '0' ≤ c ∧ c ≤ '9'

/-- A letter or an underscore, and behind it letters, digits and underscores. -/
def IsIdentifier (name : String) : Prop :=
  ∃ first rest, name.toList = first :: rest ∧ StartsIdentifier first ∧
    ∀ c ∈ rest, GoesOnIdentifier c

/-- The name is refused for that reason. -/
def RefusedFor (name reason : String) : Prop :=
  ∃ fault, validateName name = .error (.invalidName name fault) ∧ fault.reason = reason

/-- What becomes of a name. -/
structure Judged (name : String) : Prop where
  accepted : validateName name = .ok () ↔ IsIdentifier name
  empty : name = "" → RefusedFor name "name is empty"
  separator : '/' ∈ name.toList ∨ '\\' ∈ name.toList →
    RefusedFor name "name contains a path separator"
  other : name ≠ "" → '/' ∉ name.toList → '\\' ∉ name.toList → ¬IsIdentifier name →
    RefusedFor name "name must be a C identifier"

/-- The name can be written wherever it is needed, and stands there for itself. -/
structure IsSafe (name : String) : Prop where
  /-- Its workspace lies one step below the root. -/
  workspace : ∀ root, (workspaceOf root name).components = root.components ++ [.name (utf8 name)]
  /-- Its library is one file, whatever the system. -/
  library : ∀ toolchain : Toolchain, (Path.ofText (toolchain.artifactName name)).components =
    [.name (utf8 (toolchain.artifactName name))]
  target : ∀ toolchain : Toolchain,
    Ninja.escapePath (toolchain.artifactName name) = toolchain.artifactName name
  value : Ninja.escapeValue ("-DARTIFACT_NAME=" ++ name) = "-DARTIFACT_NAME=" ++ name
  word : Posix.ReadsAs ("-DARTIFACT_NAME=" ++ name).toList [("-DARTIFACT_NAME=" ++ name).toList]
  symbol : IsIdentifier (entrySymbol name)

/-- The names share nothing that is named after them, not even for different systems. -/
structure Apart (name other : String) : Prop where
  workspaces : ∀ root, ¬(workspaceOf root name).Equiv (workspaceOf root other)
  libraries : ∀ toolchain toolchain' : Toolchain,
    toolchain.artifactName name ≠ toolchain'.artifactName other
  symbols : entrySymbol name ≠ entrySymbol other

/-! ### Which names are accepted -/

theorem isIdentifierStart_iff {c : Char} : isIdentifierStart c = true ↔ StartsIdentifier c := by
  have halpha : c.isAlpha = true ↔ c.isUpper = true ∨ c.isLower = true := Bool.or_eq_true_iff
  have hupper : c.isUpper = true ↔ 'A' ≤ c ∧ c ≤ 'Z' := decide_eq_true_iff
  have hlower : c.isLower = true ↔ 'a' ≤ c ∧ c ≤ 'z' :=
    Bool.and_eq_true_iff.trans (and_congr decide_eq_true_iff decide_eq_true_iff)
  rw [isIdentifierStart, Bool.or_eq_true, halpha, hupper, hlower, decide_eq_true_iff,
    StartsIdentifier, or_comm (a := 'A' ≤ c ∧ c ≤ 'Z'), or_assoc]

theorem isIdentifierPart_iff {c : Char} : isIdentifierPart c = true ↔ GoesOnIdentifier c := by
  have halphanum : c.isAlphanum = true ↔ c.isAlpha = true ∨ c.isDigit = true :=
    Bool.or_eq_true_iff
  have hdigit : c.isDigit = true ↔ '0' ≤ c ∧ c ≤ '9' :=
    Bool.and_eq_true_iff.trans (and_congr decide_eq_true_iff decide_eq_true_iff)
  rw [GoesOnIdentifier, ← isIdentifierStart_iff, isIdentifierPart, isIdentifierStart,
    Bool.or_eq_true, Bool.or_eq_true, halphanum, hdigit, or_right_comm]

theorem not_isSeparator_of_goesOn {c : Char} (h : GoesOnIdentifier c) : c ≠ '/' ∧ c ≠ '\\' := by
  rw [← isIdentifierPart_iff] at h
  constructor
  · rintro rfl
    exact absurd h (by decide)
  · rintro rfl
    exact absurd h (by decide)

theorem IsIdentifier.goesOn {name : String} (h : IsIdentifier name) :
    ∀ c ∈ name.toList, GoesOnIdentifier c := by
  obtain ⟨first, rest, hname, hfirst, hrest⟩ := h
  rw [hname]
  exact List.forall_mem_cons.mpr ⟨Or.inl hfirst, hrest⟩

/-- A path separator in a name is what it is refused for. -/
theorem nameFault?_of_separator {name : String} (h : '/' ∈ name.toList ∨ '\\' ∈ name.toList) :
    nameFault? name = some .separator := by
  have hany : name.toList.any (fun c => c = '/' || c = '\\') = true := by
    rw [List.any_eq_true]
    rcases h with hmem | hmem
    · exact ⟨'/', hmem, by decide⟩
    · exact ⟨'\\', hmem, by decide⟩
  unfold nameFault?
  split
  · next hnil =>
    rw [hnil] at hany
    cases hany
  · next first rest hname =>
    rw [hname] at hany
    rw [if_pos hany]

/-- A name that is neither empty nor holds a path separator is judged by whether it is an
identifier. -/
theorem nameFault?_of_no_separator {name : String} (hne : name ≠ "")
    (hslash : '/' ∉ name.toList) (hbackslash : '\\' ∉ name.toList) :
    (IsIdentifier name → nameFault? name = none) ∧
      (¬IsIdentifier name → nameFault? name = some .notIdentifier) := by
  unfold nameFault?
  split
  · next hnil => exact absurd (String.toList_eq_nil_iff.mp hnil) hne
  · next first rest hname =>
    have hany : ¬(first :: rest).any (fun c => c = '/' || c = '\\') = true := by
      rw [List.any_eq_true]
      rintro ⟨c, hc, hseparator⟩
      rw [← hname] at hc
      rcases Bool.or_eq_true_iff.mp hseparator with heq | heq
      · exact hslash (of_decide_eq_true heq ▸ hc)
      · exact hbackslash (of_decide_eq_true heq ▸ hc)
    have hidentifier :
        (isIdentifierStart first && rest.all isIdentifierPart) = true ↔ IsIdentifier name := by
      rw [Bool.and_eq_true, List.all_eq_true, isIdentifierStart_iff]
      simp only [isIdentifierPart_iff]
      constructor
      · rintro ⟨hfirst, hrest⟩
        exact ⟨first, rest, hname, hfirst, hrest⟩
      · rintro ⟨first', rest', hname', hfirst, hrest⟩
        obtain ⟨rfl, rfl⟩ := List.cons.inj (hname.symm.trans hname')
        exact ⟨hfirst, hrest⟩
    rw [if_neg hany]
    exact ⟨fun h => if_pos (hidentifier.mpr h), fun h => if_neg (h ∘ hidentifier.mp)⟩

theorem validateName_ok_iff_nameFault? {name : String} :
    validateName name = .ok () ↔ nameFault? name = none := by
  unfold validateName
  cases nameFault? name <;> simp

theorem refusedFor_of_nameFault? {name : String} {fault : NameFault}
    (h : nameFault? name = some fault) : RefusedFor name fault.reason := by
  refine ⟨fault, ?_, rfl⟩
  unfold validateName
  rw [h]

/-- **Exactly the identifiers are accepted.** -/
theorem validateName_ok_iff {name : String} : validateName name = .ok () ↔ IsIdentifier name := by
  constructor
  · intro h
    obtain ⟨first, rest, hname, hfirst, hrest⟩ := validateName_ok h
    exact ⟨first, rest, hname, isIdentifierStart_iff.mp hfirst,
      fun c hc => isIdentifierPart_iff.mp (List.all_eq_true.mp hrest c hc)⟩
  · intro h
    rw [validateName_ok_iff_nameFault?]
    have hne : name ≠ "" := by
      rintro rfl
      obtain ⟨first, rest, hname, -⟩ := h
      cases hname
    exact (nameFault?_of_no_separator hne
      (fun hmem => (not_isSeparator_of_goesOn (h.goesOn _ hmem)).1 rfl)
      (fun hmem => (not_isSeparator_of_goesOn (h.goesOn _ hmem)).2 rfl)).1 h

/-- **Every name is accepted or refused for what is wrong with it.** -/
theorem judged (name : String) : Judged name where
  accepted := validateName_ok_iff
  empty := by
    rintro rfl
    have hempty : nameFault? "" = some .empty := by decide
    exact refusedFor_of_nameFault? hempty
  separator h := refusedFor_of_nameFault? (nameFault?_of_separator h)
  other hne hslash hbackslash h :=
    refusedFor_of_nameFault? ((nameFault?_of_no_separator hne hslash hbackslash).2 h)

/-! ### Where an accepted name is written -/

/-- Characters that mean nothing inside a path are written as they are. -/
theorem Ninja.escapePath_eq_self {path : String}
    (h : ∀ c ∈ path.toList, isSpecialInPath c = false) : escapePath path = path := by
  have hplain : path.toList.flatMap escapedPathChar = path.toList := by
    refine (List.flatMap_congr fun c hc => ?_).trans (List.flatMap_singleton' _)
    rw [escapedPathChar, h c hc]
    rfl
  rw [escapePath, hplain, String.ofList_toList]

theorem Ninja.escapeValue_eq_self {value : String} (h : '$' ∉ value.toList) :
    escapeValue value = value := by
  have hplain : value.toList.flatMap escapedValueChar = value.toList := by
    refine (List.flatMap_congr fun c hc => ?_).trans (List.flatMap_singleton' _)
    have hdollar : c ≠ '$' := fun heq => h (heq ▸ hc)
    rw [escapedValueChar, if_neg hdollar]
  rw [escapeValue, hplain, String.ofList_toList]

theorem toList_artifactName (toolchain : Toolchain) (name : String) :
    (toolchain.artifactName name).toList =
      name.toList ++ '.' :: toolchain.os.librarySuffix.toList := by
  simp [Toolchain.artifactName, String.toList_append]

/-- No character of an accepted name means anything inside a path. -/
theorem isSpecialInPath_of_goesOn {c : Char} (h : GoesOnIdentifier c) :
    Ninja.isSpecialInPath c = false := by
  rw [← isIdentifierPart_iff] at h
  rw [Bool.eq_false_iff]
  intro hspecial
  rcases Bool.or_eq_true_iff.mp hspecial with hspecial | hcolon
  · rcases Bool.or_eq_true_iff.mp hspecial with hdollar | hspace
    · rw [of_decide_eq_true hdollar] at h
      exact absurd h (by decide)
    · rw [of_decide_eq_true hspace] at h
      exact absurd h (by decide)
  · rw [of_decide_eq_true hcolon] at h
    exact absurd h (by decide)

theorem escapePath_artifactName {name : String} (h : IsIdentifier name) (toolchain : Toolchain) :
    Ninja.escapePath (toolchain.artifactName name) = toolchain.artifactName name := by
  have hsuffix : ('.' :: toolchain.os.librarySuffix.toList).all
      (fun c => !Ninja.isSpecialInPath c) = true := by
    cases toolchain.os <;> decide
  refine Ninja.escapePath_eq_self ?_
  rw [toList_artifactName]
  intro c hc
  rcases List.mem_append.mp hc with hname | hrest
  · exact isSpecialInPath_of_goesOn (h.goesOn c hname)
  · simpa using List.all_eq_true.mp hsuffix c hrest

/-- Behind an identifier's characters an identifier's characters make an identifier. -/
theorem IsIdentifier.append {front name : String} (hfront : IsIdentifier front)
    (h : IsIdentifier name) : IsIdentifier (front ++ name) := by
  have hgoesOn := h.goesOn
  obtain ⟨first, rest, hlist, hfirst, hrest⟩ := hfront
  refine ⟨first, rest ++ name.toList, by simp [String.toList_append, hlist], hfirst, ?_⟩
  intro c hc
  rcases List.mem_append.mp hc with hc | hc
  · exact hrest c hc
  · exact hgoesOn c hc

/-- **An identifier is safe wherever it is written.** -/
theorem isSafe_of_isIdentifier {name : String} (h : IsIdentifier name) : IsSafe name := by
  have haccepted := validateName_ok_iff.mpr h
  constructor
  case workspace =>
    exact fun root => Path.components_joinText root (isName_of_validateName haccepted)
  case library =>
    exact fun toolchain => (isName_library haccepted toolchain.os).components
  case target => exact escapePath_artifactName h
  case value =>
    refine Ninja.escapeValue_eq_self ?_
    rw [String.toList_append, List.mem_append]
    rintro (hfixed | hname)
    · exact absurd hfixed (by decide)
    · have hspecial := isSpecialInPath_of_goesOn (h.goesOn _ hname)
      exact absurd hspecial (by decide)
  case word =>
    exact Ninja.readsAs_bareWord
      (isBareWord_append (by decide) (Ninja.isBareWord_of_validateName haccepted).2)
  case symbol =>
    have hfront : IsIdentifier "extbuild_init_" := validateName_ok_iff.mp (by decide)
    exact hfront.append h

/-! ### Two accepted names -/

/-- **Two identifiers have nothing in common** of what is named after them. -/
theorem apart_of_ne {name other : String} (h : IsIdentifier name) (h' : IsIdentifier other)
    (hne : name ≠ other) : Apart name other := by
  have hdot : ∀ {name : String}, IsIdentifier name → '.' ∉ name.toList :=
    fun h => (isPlainWord_of_validateName (validateName_ok_iff.mpr h)).dot_notMem
  constructor
  case workspaces =>
    intro root hequiv
    have hcomponents : (workspaceOf root name).components = (workspaceOf root other).components :=
      hequiv
    rw [(isSafe_of_isIdentifier h).workspace, (isSafe_of_isIdentifier h').workspace] at hcomponents
    have hbytes := List.append_cancel_left hcomponents
    exact hne (utf8_injective (by simpa using hbytes))
  case libraries =>
    intro toolchain toolchain' heq
    -- what stands in front of the first dot
    have hfields := congrArg (Text.fields '.') (congrArg String.toList heq)
    rw [toList_artifactName, toList_artifactName, Text.fields_append_cons (hdot h),
      Text.fields_append_cons (hdot h')] at hfields
    exact hne (String.toList_inj.mp (List.cons.inj hfields).1)
  case symbols =>
    intro heq
    have hlists := congrArg String.toList heq
    rw [entrySymbol, entrySymbol, String.toList_append, String.toList_append] at hlists
    exact hne (String.toList_inj.mp (List.append_cancel_left hlists))

/-- **An accepted name is safe everywhere.** Exactly the identifiers are accepted, and every other
name is refused for what is wrong with it; an accepted name can be written wherever it is needed;
and two accepted names share nothing that is named after them. -/
theorem validateName_safe :
    (∀ name, Judged name) ∧
    (∀ name, validateName name = .ok () → IsSafe name) ∧
    (∀ name other, validateName name = .ok () → validateName other = .ok () → name ≠ other →
      Apart name other) := by
  refine ⟨judged, ?_, ?_⟩
  · intro name h
    exact isSafe_of_isIdentifier (validateName_ok_iff.mp h)
  · intro name other h h' hne
    exact apart_of_ne (validateName_ok_iff.mp h) (validateName_ok_iff.mp h') hne

/-- A name that starts with an underscore is accepted and safe, and lies apart from one that goes on
where it ends. -/
theorem validateName_safe_underscore :
    validateName "_x9" = .ok () ∧ IsSafe "_x9" ∧ Apart "_x9" "_x9_so" := by
  obtain ⟨-, hsafe, hapart⟩ := validateName_safe
  have hname : validateName "_x9" = .ok () := by decide
  exact ⟨hname, hsafe "_x9" hname, hapart "_x9" "_x9_so" hname (by decide) (by decide)⟩

end NativeExtension
