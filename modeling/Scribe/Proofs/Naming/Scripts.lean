import Scribe.Proofs.Naming.CaseFolding
import Scribe.Proofs.Text.Name

/-!
# Names with letters of other scripts

A name of the source may hold letters of any script, but words are made of
ASCII letters and digits. A name that is rewritten shows its ASCII letters and
digits and nothing else (`exists_rewritten`): every other letter is lost, and
a digit behind one may come to stand in front.

`name_kept_iff` says which names are kept, the ASCII ones and those that are
not rewritten, and which forms are names again.
-/

namespace Scribe.Identifier

open Text

/-! ## Characters of names -/

theorem isNamePart_of_isNameChar {c : Char} (h : isNameChar c = true) : isNamePart c = true := by
  rw [isNameChar, Bool.or_eq_true] at h
  rcases h with hword | hline
  · rw [isNamePart_of_lt (toNat_of_isWordChar hword), show c.isAlphanum = isWordChar c from rfl,
      hword, Bool.true_or]
  · obtain rfl : c = '_' := by simpa using hline
    decide

theorem isNameStart_of_isWordChar {c : Char} (h : isWordChar c = true) :
    isNameStart c = !c.isDigit := by
  have hne : (c == '_') = false := by simpa using ne_underscore_of_isWordChar h
  rw [isNameStart_of_lt (toNat_of_isWordChar h), hne, Bool.or_false, isAlpha_eq_not_isDigit h]

/-- On ASCII the characters of names are letters, digits and underscores. -/
theorem isWordChar_iff_lt {c : Char} (h : isNamePart c = true) (hne : c ≠ '_') :
    isWordChar c = true ↔ c.toNat < 0x80 := by
  refine ⟨toNat_of_isWordChar, fun hlt => ?_⟩
  rw [isNamePart_of_lt hlt] at h
  simpa [isWordChar_eq, Char.isAlphanum, hne] using h

theorem isNamePart_of_isNameStart {c : Char} (h : isNameStart c = true) :
    isNamePart c = true := by
  unfold isNameStart at h
  split at h
  · rename_i hlt
    rw [isNamePart_of_lt hlt, Char.isAlphanum]
    simp only [Bool.or_eq_true] at h ⊢
    exact h.imp_left .inl
  · simp only [Bool.and_eq_true] at h
    exact h.1.1.1

theorem isNamePart_of_mem {name : List Char} (h : isName name = true) :
    ∀ c ∈ name, isNamePart c = true := by
  cases name with
  | nil => cases h
  | cons c cs =>
    rw [isName, Bool.and_eq_true, List.all_eq_true] at h
    exact List.forall_mem_cons.2 ⟨isNamePart_of_isNameStart h.1, h.2⟩

/-- In front of ASCII letters, digits and underscores only the first
character matters. -/
theorem isName_cons {c : Char} {cs : List Char} (h : ∀ x ∈ cs, isNameChar x = true) :
    isName (c :: cs) = isNameStart c := by
  rw [isName, List.all_eq_true.2 fun x hx => isNamePart_of_isNameChar (h x hx), Bool.and_true]

/-! ## What a form shows -/

/-- The characters of a name other than underscores. -/
def letters (name : List Char) : List Char :=
  name.filter (· != '_')

theorem folded_eq_letters (name : List Char) : folded name = (letters name).map Char.toLower :=
  rfl

theorem any_isWordChar_of_isRewritten {name : List Char} (h : isRewritten name = true) :
    name.any isWordChar = true := by
  by_contra hnone
  refine words_ne_nil_of_isRewritten h (words_eq_nil_iff.2 fun c hc => ?_)
  exact Bool.eq_false_iff.2 fun hword =>
    hnone (List.any_eq_true.2 ⟨c, mem_of_mem_core hc, hword⟩)

theorem filter_underscores {us : List Char} (h : ∀ c ∈ us, c = '_') :
    us.filter isWordChar = [] := by
  refine List.filter_eq_nil_iff.2 fun c hc => ?_
  rw [h c hc]
  decide

/-- The ASCII letters and digits of a name are those of its core. -/
theorem filter_core {name : List Char} (h : name.any isWordChar = true) :
    (parts name).core.filter isWordChar = name.filter isWordChar := by
  have hproper := proper_parts (not_all_underscores h)
  conv_rhs => rw [← name_parts name]
  rw [Parts.name, List.filter_append, List.filter_append, filter_underscores hproper.lead,
    filter_underscores hproper.trail, List.nil_append, List.append_nil]

/-- **What a rewritten name shows**: underscores around its ASCII letters and
digits, in one case or another. -/
theorem exists_rewritten {name text : String} (h : isRewritten name.toList = true)
    (htext : text ∈ forms name) :
    ∃ core after, text.toList = leading name.toList ++ core ++ after ∧ (∀ c ∈ after, c = '_') ∧
      (∀ c ∈ core, isWordChar c = true) ∧
      core.map Char.toLower = (name.toList.filter isWordChar).map Char.toLower := by
  have hany := any_isWordChar_of_isRewritten h
  have hjoined : ∀ {join}, KeepsLetters join →
      (∀ c ∈ join (words (parts name.toList).core), isWordChar c = true) ∧
      (join (words (parts name.toList).core)).map Char.toLower =
        (name.toList.filter isWordChar).map Char.toLower := by
    intro join hjoin
    exact ⟨fun c hc => hjoin.isWordChar hc, by rw [hjoin, flatten_words, filter_core hany]⟩
  have hconvert : ∀ join, (convert join name.toList).name =
      leading name.toList ++ join (words (parts name.toList).core) ++ trailing name.toList := by
    intro join
    rw [convert_of_isRewritten h, Parts.name, lead_parts hany, trail_parts hany]
  have htrail : ∀ c ∈ trailing name.toList, c = '_' := fun _ => mem_trailing
  simp only [forms, List.mem_cons, List.not_mem_nil, or_false] at htext
  rcases htext with rfl | rfl | rfl
  · exact ⟨_, _, toList_camel_around (hconvert joinCamel), fun _ => mem_camelTrail,
      hjoined keepsLetters_joinCamel⟩
  · exact ⟨_, _, by rw [property, String.toList_ofList, hconvert], htrail,
      hjoined keepsLetters_joinCamel⟩
  · exact ⟨_, _, by rw [pascal, String.toList_ofList, hconvert], htrail,
      hjoined keepsLetters_joinPascal⟩

/-! ## Names that are kept -/

/-- **A name is kept**: it is ASCII, or it is not rewritten. -/
def IsKept (name : List Char) : Prop :=
  (∀ c ∈ name, c.toNat < 0x80) ∨ isRewritten name = false

/-- **The forms of a name start one**: it is not rewritten, or it has an
underscore in front, or its first ASCII letter or digit is a letter. -/
def FormsStart (name : List Char) : Prop :=
  isRewritten name = false ∨ leading name ≠ [] ∨ ∀ c ∈ name.find? isWordChar, c.isDigit = false

variable {name text : String}

/-- The ASCII letters and digits are among the characters other than
underscores. -/
theorem filter_letters (name : List Char) :
    (letters name).filter isWordChar = name.filter isWordChar := by
  rw [letters, List.filter_filter]
  refine List.filter_congr fun c _ => ?_
  cases hword : isWordChar c with
  | true => simpa using ne_underscore_of_isWordChar hword
  | false => rfl

/-- A name is ASCII exactly if, other than underscores, it has only ASCII
letters and digits. -/
theorem forall_lt_iff {name : List Char} (hname : isName name = true) :
    (∀ c ∈ name, c.toNat < 0x80) ↔ ∀ c ∈ letters name, isWordChar c = true := by
  have hpart := isNamePart_of_mem hname
  constructor
  · intro h c hc
    obtain ⟨hmem, hne⟩ := List.mem_filter.1 hc
    exact (isWordChar_iff_lt (hpart c hmem) (bne_iff_ne.1 hne)).2 (h c hmem)
  · intro h c hc
    by_cases hne : c = '_'
    · rw [hne]
      decide
    · exact toNat_of_isWordChar (h c (List.mem_filter.2 ⟨hc, bne_iff_ne.2 hne⟩))

theorem folded_form (h : isRewritten name.toList = true) (htext : text ∈ forms name) :
    folded text.toList = ((letters name.toList).filter isWordChar).map Char.toLower := by
  obtain ⟨core, after, heq, hafter, hcore, hcase⟩ := exists_rewritten h htext
  rw [heq, folded_around hcore (fun _ => mem_leading) hafter, hcase, filter_letters]

theorem length_letters_form (h : isRewritten name.toList = true) (htext : text ∈ forms name) :
    (letters text.toList).length = ((letters name.toList).filter isWordChar).length := by
  have hfolded := congrArg List.length (folded_form h htext)
  rwa [folded_eq_letters, List.length_map, List.length_map] at hfolded

/-- **A kept name folds to itself** in every form. -/
theorem folded_form_of_isKept (hname : isName name.toList = true) (hkept : IsKept name.toList)
    (htext : text ∈ forms name) : folded text.toList = folded name.toList := by
  cases h : isRewritten name.toList with
  | false => rw [eq_of_not_isRewritten h htext]
  | true =>
    have hascii : ∀ c ∈ name.toList, c.toNat < 0x80 :=
      hkept.resolve_right fun hnot => nomatch h.symm.trans hnot
    rw [folded_form h htext, List.filter_eq_self.2 ((forall_lt_iff hname).1 hascii),
      folded_eq_letters]

/-- **A name that is not kept loses letters** in every form. -/
theorem length_letters_lt (hname : isName name.toList = true) (hkept : ¬ IsKept name.toList)
    (htext : text ∈ forms name) :
    (letters text.toList).length < (letters name.toList).length := by
  obtain ⟨hascii, hrewritten⟩ := not_or.1 hkept
  rw [forall_lt_iff hname] at hascii
  push Not at hascii
  rw [length_letters_form (Bool.not_eq_false _ ▸ hrewritten) htext]
  exact List.length_filter_lt_length_iff_exists.2 hascii

/-- **The forms that are names**: what a form has in front is an underscore
of the name, or its first ASCII letter or digit. -/
theorem isName_form_iff (hname : isName name.toList = true) (htext : text ∈ forms name) :
    isName text.toList = true ↔ FormsStart name.toList := by
  cases h : isRewritten name.toList with
  | false =>
    rw [eq_of_not_isRewritten h htext, hname]
    exact iff_of_true rfl (.inl h)
  | true =>
    obtain ⟨core, after, heq, hafter, hcore, hcase⟩ := exists_rewritten h htext
    have hfirst : ∃ c, name.toList.find? isWordChar = some c := by
      rw [← Option.isSome_iff_exists, List.find?_isSome]
      exact List.any_eq_true.1 (any_isWordChar_of_isRewritten h)
    obtain ⟨c, hfind⟩ := hfirst
    have hword : isWordChar c = true := List.find?_some hfind
    rw [← List.head?_filter] at hfind
    obtain ⟨cs, hcs⟩ := List.head?_eq_some_iff.1 hfind
    -- the core starts with the same letter, in one case or the other
    rw [hcs, List.map_cons] at hcase
    obtain ⟨d, ds, rfl, hd, -⟩ := List.map_eq_cons_iff.1 hcase
    have hdword := hcore d (List.mem_cons_self ..)
    have hdigit : d.isDigit = c.isDigit := by
      rw [← isDigit_toLower hdword, hd, isDigit_toLower hword]
    have hrest : ∀ x ∈ ds ++ after, isNameChar x = true := by
      intro x hx
      rcases List.mem_append.1 hx with hx | hx
      · simp [isNameChar, hcore x (List.mem_cons_of_mem _ hx)]
      · simp [isNameChar, hafter x hx]
    rw [heq, FormsStart, h, ← List.head?_filter, hfind]
    cases hlead : leading name.toList with
    | nil =>
      rw [List.nil_append, List.cons_append, isName_cons hrest, isNameStart_of_isWordChar hdword,
        hdigit]
      simp
    | cons u us =>
      obtain rfl : u = '_' := mem_leading (hlead ▸ List.mem_cons_self ..)
      have hus : ∀ x ∈ us ++ d :: ds ++ after, isNameChar x = true := by
        intro x hx
        rw [List.append_assoc, List.cons_append, List.mem_append, List.mem_cons] at hx
        rcases hx with hx | rfl | hx
        · simp [isNameChar, mem_leading (hlead ▸ List.mem_cons_of_mem _ hx)]
        · simp [isNameChar, hdword]
        · exact hrest x hx
      rw [List.cons_append, List.cons_append, isName_cons hus]
      exact iff_of_true (by decide) (.inr (.inl (List.cons_ne_nil _ _)))

/-- A kept name has forms that are names. -/
theorem formsStart_of_isKept {name : List Char} (hname : isName name = true)
    (hkept : IsKept name) : FormsStart name := by
  rcases hkept with hascii | hstays
  · cases name with
    | nil => cases hname
    | cons c cs =>
      rw [isName, Bool.and_eq_true] at hname
      by_cases hline : c = '_'
      · refine .inr (.inl ?_)
        rw [leading, hline]
        exact List.cons_ne_nil _ _
      · -- an ASCII character that starts a name is a letter
        have hword := (isWordChar_iff_lt (isNamePart_of_isNameStart hname.1) hline).2
          (hascii c (List.mem_cons_self ..))
        refine .inr (.inr fun x hx => ?_)
        rw [List.find?_cons_of_pos hword] at hx
        obtain rfl : c = x := by simpa using hx
        simpa [isNameStart_of_isWordChar hword] using hname.1
  · exact .inl hstays

/-- **Which names conversion keeps.** A form of a name has all its characters
other than underscores, up to case and in order, and is a name again, exactly
if the name is ASCII or is not rewritten. Otherwise the form has fewer such
characters, and whether it is a name depends on what it has in front. -/
theorem name_kept_iff (name : String) (hname : isName name.toList = true) :
    ∀ text ∈ forms name,
      (folded text.toList = folded name.toList ∧ isName text.toList = true ↔
        IsKept name.toList) ∧
      (¬ IsKept name.toList → (letters text.toList).length < (letters name.toList).length) ∧
      (isName text.toList = true ↔ FormsStart name.toList) := by
  intro text htext
  refine ⟨⟨?_, ?_⟩, fun hkept => length_letters_lt hname hkept htext,
    isName_form_iff hname htext⟩
  · rintro ⟨hfolded, -⟩
    by_contra hkept
    have hlt := length_letters_lt hname hkept htext
    have hlength := congrArg List.length hfolded
    rw [folded_eq_letters, folded_eq_letters, List.length_map, List.length_map] at hlength
    omega
  · intro hkept
    exact ⟨folded_form_of_isKept hname hkept htext,
      (isName_form_iff hname htext).2 (formsStart_of_isKept hname hkept)⟩

/-- A name in capitalised words is kept with its accents. -/
theorem name_kept_iff_capitalized :
    isName "ÉtéBleu2".toList = true ∧ folded (pascal "ÉtéBleu2").toList = folded "ÉtéBleu2".toList ∧
      isName (pascal "ÉtéBleu2").toList = true := by
  have hname : isName "ÉtéBleu2".toList = true := by decide +kernel
  have hkept : IsKept "ÉtéBleu2".toList := .inr (by decide +kernel)
  exact ⟨hname, (name_kept_iff "ÉtéBleu2" hname (pascal "ÉtéBleu2") (by simp [forms])).1.2 hkept⟩

/-- **A digit comes to stand in front**: the letter before it is lost. -/
theorem accent_lost : isName "é1".toList = true ∧ camel "é1" = "1" ∧ pascal "é1" = "1" ∧
    folded (camel "é1").toList ≠ folded "é1".toList ∧ isName (camel "é1").toList = false := by
  decide +kernel

end Scribe.Identifier
