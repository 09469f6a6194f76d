import Scribe.Proofs.Naming.Words

/-!
# What conversion keeps of an identifier

Conversion cuts the core of a name into words and joins them in another
case. For an identifier of ASCII the words miss nothing but the underscores
(`flatten_words`), and joining changes nothing but the case of letters
(`KeepsLetters`). So every written form of a name has the underscores of the
name at its ends, and folds to the same letters and digits.

`exists_core` states this once for both cases; `identifier_recased` reads
off it what becomes of a variable and of a class, that a variable is an
identifier again, and that names which are written alike fold alike.
-/

namespace Scribe.Identifier

/-! ## Identifiers -/

/-- A character of identifiers. -/
def isNameChar (c : Char) : Bool :=
  isWordChar c || c == '_'

/-- **An identifier of ASCII**: letters, digits and underscores, with no
digit in front. -/
def isIdentifier (name : List Char) : Bool :=
  name.all isNameChar && name.head?.any (!·.isDigit)

/-- The underscores in front of a name. -/
def leading (name : List Char) : List Char :=
  name.takeWhile (· == '_')

/-- The underscores behind a name. -/
def trailing (name : List Char) : List Char :=
  name.reverse.takeWhile (· == '_')

/-- **A name without its underscores and its case.** -/
def folded (name : List Char) : List Char :=
  (name.filter (· != '_')).map Char.toLower

theorem folded_append (as bs : List Char) : folded (as ++ bs) = folded as ++ folded bs := by
  simp [folded]

theorem folded_underscores {us : List Char} (h : ∀ c ∈ us, c = '_') : folded us = [] := by
  simpa [folded, List.filter_eq_nil_iff] using h

theorem ne_underscore_of_isWordChar {c : Char} (h : isWordChar c = true) : c ≠ '_' := by
  rintro rfl
  exact absurd h (by decide)

theorem folded_cons {c : Char} (cs : List Char) (h : c ≠ '_') :
    folded (c :: cs) = c.toLower :: folded cs := by
  simp [folded, h]

theorem folded_of_isWordChar {cs : List Char} (h : ∀ c ∈ cs, isWordChar c = true) :
    folded cs = cs.map Char.toLower := by
  rw [folded, List.filter_eq_self.2 fun c hc => bne_iff_ne.2 (ne_underscore_of_isWordChar (h c hc))]

/-! ## Words -/

/-- **Words miss nothing** but what they are not made of. -/
theorem flatten_words (cs : List Char) : (words cs).flatten = cs.filter isWordChar := by
  induction cs with
  | nil => rfl
  | cons a rest ih =>
    cases ha : isWordChar a with
    | false => rw [words, ha, List.filter_cons_of_neg (by simp [ha])]; exact ih
    | true =>
      rw [List.filter_cons_of_pos ha, ← ih]
      simp only [words, ha, Bool.not_true, Bool.false_eq_true, if_false]
      split
      · rename_i w ws _ hws
        rw [hws, List.flatten_cons, List.flatten_cons, List.cons_append]
      · rw [List.flatten_cons, List.singleton_append]

/-- **The join changes only the case of letters.** -/
def KeepsLetters (join : List (List Char) → List Char) : Prop :=
  ∀ ws, (join ws).map Char.toLower = ws.flatten.map Char.toLower

theorem map_toLower_lower (w : List Char) : (lower w).map Char.toLower = w.map Char.toLower := by
  simp [lower]

theorem map_toLower_capitalize (w : List Char) :
    (capitalize w).map Char.toLower = w.map Char.toLower := by
  cases w with
  | nil => rfl
  | cons c cs => simp [capitalize, map_toLower_lower]

theorem keepsLetters_joinPascal : KeepsLetters joinPascal := by
  intro ws
  simp only [joinPascal, List.map_flatten, List.map_map]
  exact congrArg List.flatten (List.map_congr_left fun w _ => map_toLower_capitalize w)

theorem keepsLetters_joinCamel : KeepsLetters joinCamel := by
  intro ws
  cases ws with
  | nil => rfl
  | cons w ws =>
    rw [joinCamel, List.map_append, map_toLower_lower, ← joinPascal, keepsLetters_joinPascal ws,
      List.flatten_cons, List.map_append]

/-- What is joined is made of letters and digits again. -/
theorem KeepsLetters.isWordChar {join : List (List Char) → List Char} (hjoin : KeepsLetters join)
    {cs : List Char} {c : Char} (h : c ∈ join (words cs)) : isWordChar c = true := by
  have hlower : c.toLower ∈ (words cs).flatten.map Char.toLower :=
    hjoin (words cs) ▸ List.mem_map_of_mem h
  obtain ⟨d, hd, hcase⟩ := List.mem_map.1 hlower
  rw [flatten_words] at hd
  rw [← isWordChar_toLower, ← hcase, isWordChar_toLower]
  exact (List.mem_filter.1 hd).2

/-! ## Converted names -/

section

variable {name : List Char}

theorem not_all_underscores (h : name.any isWordChar = true) : ¬ name.all (· == '_') = true := by
  intro hall
  obtain ⟨c, hc, hword⟩ := List.any_eq_true.1 h
  exact ne_underscore_of_isWordChar hword (by simpa using List.all_eq_true.1 hall c hc)

/-- The parts of a name have its underscores. -/
theorem lead_parts (h : name.any isWordChar = true) : (parts name).lead = leading name := by
  rw [parts_of_not_all (not_all_underscores h), leading]

theorem trail_parts (h : name.any isWordChar = true) : (parts name).trail = trailing name := by
  have hproper := proper_parts (not_all_underscores h)
  have hreverse : name.reverse = (parts name).trail ++
      ((parts name).core.reverse ++ (parts name).lead.reverse) := by
    rw [← reverse_underscores hproper.trail, ← List.reverse_append, ← List.reverse_append,
      ← Parts.name, name_parts]
  have hhead : ∀ c ∈ ((parts name).core.reverse ++ (parts name).lead.reverse).head?, c ≠ '_' := by
    rw [List.head?_append_of_ne_nil _ (by simpa using hproper.core_ne_nil), List.head?_reverse]
    exact hproper.last
  rw [trailing, hreverse, (cut_underscores hproper.trail hhead).1]

/-- A name folds to its core. -/
theorem folded_eq_core (h : name.any isWordChar = true) :
    folded name = folded (parts name).core := by
  have hproper := proper_parts (not_all_underscores h)
  conv_lhs => rw [← name_parts name]
  rw [Parts.name, folded_append, folded_append, folded_underscores hproper.lead,
    folded_underscores hproper.trail, List.nil_append, List.append_nil]

theorem mem_of_mem_core {c : Char} (h : c ∈ (parts name).core) : c ∈ name := by
  rw [← name_parts name, Parts.name]
  exact List.mem_append_left _ (List.mem_append_right _ h)

theorem isNameChar_of_mem_core (hname : isIdentifier name = true) :
    ∀ c ∈ (parts name).core, isNameChar c = true := by
  simp only [isIdentifier, Bool.and_eq_true, List.all_eq_true] at hname
  exact fun c hc => hname.1 c (mem_of_mem_core hc)

/-- The characters of an identifier's core are its underscores and the
characters of its words. -/
theorem folded_core (hname : isIdentifier name = true) :
    folded (parts name).core = (words (parts name).core).flatten.map Char.toLower := by
  rw [flatten_words, folded]
  congr 1
  refine List.filter_congr fun c hc => ?_
  have hchar := isNameChar_of_mem_core hname c hc
  cases hword : isWordChar c with
  | true => exact bne_iff_ne.2 (ne_underscore_of_isWordChar hword)
  | false => simpa [isNameChar, hword] using hchar

/-- A name with a letter or digit folds to something. -/
theorem folded_ne_nil (h : name.any isWordChar = true) : folded name ≠ [] := by
  obtain ⟨c, hc, hword⟩ := List.any_eq_true.1 h
  intro hnil
  rw [folded, List.map_eq_nil_iff, List.filter_eq_nil_iff] at hnil
  exact hnil c hc (bne_iff_ne.2 (ne_underscore_of_isWordChar hword))

/-- A name with a letter or digit has a word, so it stays only if its core is
in capitalised words. -/
theorem isWordChar_of_not_isRewritten (hname : isIdentifier name = true)
    (hword : name.any isWordChar = true) (h : isRewritten name = false) :
    ∀ c ∈ (parts name).core, isWordChar c = true := by
  have hwords : words (parts name).core ≠ [] := by
    intro hnil
    refine folded_ne_nil hword ?_
    rw [folded_eq_core hword, folded_core hname, hnil]
    rfl
  have hcap : isCapitalized (parts name).core = true := by
    simpa [isRewritten, hwords] using h
  simp only [isCapitalized, Bool.and_eq_true, Bool.not_eq_true'] at hcap
  intro c hc
  have hne : c ≠ '_' := by
    rintro rfl
    exact absurd (List.contains_iff_mem.2 hc) (Bool.eq_false_iff.1 hcap.1.2)
  simpa [isNameChar, hne] using isNameChar_of_mem_core hname c hc

/-- **What becomes of an identifier.** Its underscores stay, and what stands
between them has its letters and digits, in one case or another. -/
theorem exists_core {join : List (List Char) → List Char} (hjoin : KeepsLetters join)
    (hname : isIdentifier name = true) (hword : name.any isWordChar = true) :
    ∃ core, (∀ c ∈ core, isWordChar c = true) ∧ core.map Char.toLower = folded name ∧
      (convert join name).name = leading name ++ core ++ trailing name := by
  rw [← lead_parts hword, ← trail_parts hword, folded_eq_core hword]
  cases hrewritten : isRewritten name with
  | true =>
    refine ⟨join (words (parts name).core), fun c hc => hjoin.isWordChar hc, ?_, ?_⟩
    · rw [hjoin, folded_core hname]
    · rw [convert_of_isRewritten hrewritten, Parts.name]
  | false =>
    have hcore := isWordChar_of_not_isRewritten hname hword hrewritten
    refine ⟨(parts name).core, hcore, (folded_of_isWordChar hcore).symm, ?_⟩
    rw [convert_of_not_isRewritten hrewritten, Parts.name]

end

/-! ## Written names -/

/-- Underscores around a core fold to the core. -/
theorem folded_around {core : List Char} (hcore : ∀ c ∈ core, isWordChar c = true)
    {before after : List Char} (hbefore : ∀ c ∈ before, c = '_') (hafter : ∀ c ∈ after, c = '_') :
    folded (before ++ core ++ after) = core.map Char.toLower := by
  rw [folded_append, folded_append, folded_underscores hbefore, folded_underscores hafter,
    folded_of_isWordChar hcore, List.nil_append, List.append_nil]

theorem mem_leading {name : List Char} {c : Char} (h : c ∈ leading name) : c = '_' :=
  mem_takeWhile_underscore h

theorem mem_trailing {name : List Char} {c : Char} (h : c ∈ trailing name) : c = '_' :=
  mem_takeWhile_underscore h

/-- Without underscores in front, an identifier starts with a letter. -/
theorem exists_letter_of_leading {name : List Char} (hname : isIdentifier name = true)
    (hlead : leading name = []) :
    ∃ c rest, name = c :: rest ∧ isWordChar c = true ∧ c.isDigit = false := by
  simp only [isIdentifier, Bool.and_eq_true] at hname
  cases name with
  | nil => simp at hname
  | cons c rest =>
    have hne : c ≠ '_' := by
      rintro rfl
      simp [leading] at hlead
    have hchar := List.all_eq_true.1 hname.1 c (List.mem_cons_self ..)
    refine ⟨c, rest, rfl, ?_, ?_⟩
    · simpa [isNameChar, hne] using hchar
    · simpa using hname.2

/-- **A core with the letters of an identifier** makes an identifier behind
its underscores: where there are none, the first letter is in front again. -/
theorem isIdentifier_around {name core after : List Char} (hname : isIdentifier name = true)
    (hcore : ∀ c ∈ core, isWordChar c = true) (hfolded : core.map Char.toLower = folded name)
    (hafter : ∀ c ∈ after, c = '_') (hne : core ≠ []) :
    isIdentifier (leading name ++ core ++ after) = true := by
  have hchars : ∀ c ∈ leading name ++ core ++ after, isNameChar c = true := by
    intro c hc
    rw [List.mem_append, List.mem_append] at hc
    rcases hc with (hc | hc) | hc
    · rw [mem_leading hc]
      decide
    · simp [isNameChar, hcore c hc]
    · rw [hafter c hc]
      decide
  rw [isIdentifier, List.all_eq_true.2 hchars, Bool.true_and]
  obtain ⟨d, core, rfl⟩ := List.exists_cons_of_ne_nil hne
  -- a leading underscore starts the name, or the first letter keeps its place
  cases hlead : leading name with
  | cons u us =>
    obtain rfl : u = '_' := mem_leading (hlead ▸ List.mem_cons_self ..)
    rfl
  | nil =>
    obtain ⟨c, rest, rfl, hc, hdigit⟩ := exists_letter_of_leading hname hlead
    have hcase : d.toLower = c.toLower := by
      rw [folded_cons rest (ne_underscore_of_isWordChar hc)] at hfolded
      exact (List.cons.inj hfolded).1
    have hd : d.isDigit = false := by
      rw [← isDigit_toLower (hcore d (List.mem_cons_self ..)), hcase, isDigit_toLower hc, hdigit]
    simp [hd]

/-- No reserved word has an underscore. -/
theorem underscore_not_mem_reserved : ∀ w ∈ reserved, '_' ∉ w.toList := by
  decide +kernel

/-- **No variable has a reserved name.** -/
theorem camel_not_mem_reserved (name : String) : camel name ∉ reserved := by
  intro hmem
  simp only [camel] at hmem
  split at hmem
  · exact underscore_not_mem_reserved _ hmem (by simp)
  · rename_i hfree
    exact hfree (List.contains_iff_mem.2 hmem)

/-- A reserved word has no underscores around it. -/
theorem reserved_around_iff {before core after : List Char} (hbefore : ∀ c ∈ before, c = '_')
    (hafter : ∀ c ∈ after, c = '_') :
    String.ofList (before ++ core ++ after) ∈ reserved ↔
      before = [] ∧ after = [] ∧ String.ofList core ∈ reserved := by
  constructor
  · intro hmem
    have hfree : '_' ∉ before ++ core ++ after := by
      simpa using underscore_not_mem_reserved _ hmem
    have hnil : ∀ us : List Char, (∀ c ∈ us, c = '_') → us ⊆ before ++ core ++ after → us = [] := by
      intro us hus hsub
      refine List.eq_nil_iff_forall_not_mem.2 fun c hc => hfree ?_
      exact hus c hc ▸ hsub hc
    obtain rfl := hnil before hbefore (by simp)
    obtain rfl := hnil after hafter (by simp)
    exact ⟨rfl, rfl, by simpa using hmem⟩
  · rintro ⟨rfl, rfl, hmem⟩
    simpa using hmem

/-- What stands behind the core of a variable: the underscores behind the
name, and one more where nothing else keeps it from a reserved name. -/
def camelTrail (name core : List Char) : List Char :=
  if leading name = [] ∧ trailing name = [] ∧ String.ofList core ∈ reserved then ['_']
  else trailing name

theorem mem_camelTrail {name core : List Char} {c : Char} (h : c ∈ camelTrail name core) :
    c = '_' := by
  rw [camelTrail] at h
  split at h
  · exact List.mem_singleton.1 h
  · exact mem_trailing h

theorem toList_camel_around {name : String} {core : List Char}
    (h : (convert joinCamel name.toList).name =
      leading name.toList ++ core ++ trailing name.toList) :
    (camel name).toList = leading name.toList ++ core ++ camelTrail name.toList core := by
  have hmem : reserved.contains (property name) = true ↔
      leading name.toList = [] ∧ trailing name.toList = [] ∧ String.ofList core ∈ reserved := by
    rw [List.contains_iff_mem, property, h]
    exact reserved_around_iff (fun _ => mem_leading) (fun _ => mem_trailing)
  have hproperty : (property name).toList =
      leading name.toList ++ core ++ trailing name.toList := by
    rw [property, String.toList_ofList, h]
  simp only [camel, camelTrail]
  split
  · rename_i hreserved
    have hbare := hmem.1 hreserved
    rw [String.toList_append, hproperty, if_pos hbare, hbare.2.1, List.append_nil]
    rfl
  · rename_i hfree
    rw [hproperty, if_neg fun hbare => hfree (hmem.2 hbare)]

example : camel "CLASS" = "class_" ∧ camel "__class" = "__class" := by decide +kernel

/-- The forms in which a name is written: as a variable, as a property and as
a class. -/
def forms (name : String) : List String :=
  [camel name, property name, pascal name]

/-- A name that is not rewritten has one form. -/
theorem eq_of_not_isRewritten {name text : String} (h : isRewritten name.toList = false)
    (htext : text ∈ forms name) : text = name := by
  have hconvert : ∀ join, String.ofList (convert join name.toList).name = name := by
    intro join
    rw [convert_of_not_isRewritten h, name_parts, String.ofList_toList]
  simp only [forms, List.mem_cons, List.not_mem_nil, or_false] at htext
  rcases htext with rfl | rfl | rfl
  · exact camel_of_not_isRewritten h
  · exact hconvert joinCamel
  · exact hconvert joinPascal

/-- A name without a letter or digit stays as it is. -/
theorem eq_of_mem_forms {name text : String} (hword : name.toList.any isWordChar = false)
    (htext : text ∈ forms name) : text = name := by
  have hwords : words (parts name.toList).core = [] := by
    refine words_eq_nil_iff.2 fun c hc => ?_
    exact Bool.eq_false_iff.2 (List.any_eq_false.1 hword c (mem_of_mem_core hc))
  exact eq_of_not_isRewritten (by simp [isRewritten, hwords]) htext

/-- **Every form of an identifier folds to the identifier.** -/
theorem folded_of_mem_forms {name text : String} (hname : isIdentifier name.toList = true)
    (htext : text ∈ forms name) : folded text.toList = folded name.toList := by
  cases hword : name.toList.any isWordChar with
  | false => rw [eq_of_mem_forms hword htext]
  | true =>
    obtain ⟨core, hcore, hfolded, hcamel⟩ := exists_core keepsLetters_joinCamel hname hword
    obtain ⟨core', hcore', hfolded', hpascal⟩ := exists_core keepsLetters_joinPascal hname hword
    have hlead : ∀ c ∈ leading name.toList, c = '_' := fun _ => mem_leading
    have htrail : ∀ c ∈ trailing name.toList, c = '_' := fun _ => mem_trailing
    simp only [forms, List.mem_cons, List.not_mem_nil, or_false] at htext
    rcases htext with rfl | rfl | rfl
    · rw [toList_camel_around hcamel, folded_around hcore hlead fun _ => mem_camelTrail, hfolded]
    · rw [property, String.toList_ofList, hcamel, folded_around hcore hlead htrail, hfolded]
    · rw [pascal, String.toList_ofList, hpascal, folded_around hcore' hlead htrail, hfolded']

/-- **Conversion of an identifier changes only its case and its inner
underscores.** A variable and a class have the underscores of the name at
their ends, and none between them; only a variable that would have a reserved
name gets one more. Both fold to the name, and the variable is an identifier
that is not reserved. So names that share a form fold alike. -/
theorem identifier_recased (name : String) (hname : isIdentifier name.toList = true)
    (hword : name.toList.any isWordChar = true) :
    (∃ core, '_' ∉ core ∧ (camel name).toList =
      leading name.toList ++ core ++ camelTrail name.toList core) ∧
    (∃ core, '_' ∉ core ∧ (pascal name).toList =
      leading name.toList ++ core ++ trailing name.toList) ∧
    folded (camel name).toList = folded name.toList ∧
    folded (pascal name).toList = folded name.toList ∧
    isIdentifier (camel name).toList = true ∧
    camel name ∉ reserved ∧
    ∀ other : String, isIdentifier other.toList = true →
      ∀ text ∈ forms name, text ∈ forms other →
        folded name.toList = folded other.toList := by
  obtain ⟨core, hcore, hfolded, hcamel⟩ := exists_core keepsLetters_joinCamel hname hword
  obtain ⟨core', hcore', -, hpascal⟩ := exists_core keepsLetters_joinPascal hname hword
  have hinner : ∀ {cs : List Char}, (∀ c ∈ cs, isWordChar c = true) → '_' ∉ cs :=
    fun h hmem => ne_underscore_of_isWordChar (h _ hmem) rfl
  refine ⟨⟨core, hinner hcore, toList_camel_around hcamel⟩, ⟨core', hinner hcore', ?_⟩,
    folded_of_mem_forms hname (by simp [forms]), folded_of_mem_forms hname (by simp [forms]), ?_,
    camel_not_mem_reserved name, ?_⟩
  · rw [pascal, String.toList_ofList, hpascal]
  · rw [toList_camel_around hcamel]
    exact isIdentifier_around hname hcore hfolded (fun _ => mem_camelTrail)
      fun hnil => folded_ne_nil hword (by rw [← hfolded, hnil]; rfl)
  · intro other hother text htext htext'
    rw [← folded_of_mem_forms hname htext, folded_of_mem_forms hother htext']

/-- Two names of one variable. -/
theorem identifier_recased_body :
    camel "_get_HTTPBody2_" = camel "_get_http_body_2_" ∧
    folded "_get_HTTPBody2_".toList = folded "_get_http_body_2_".toList := by
  have hform : camel "_get_HTTPBody2_" = camel "_get_http_body_2_" := by decide +kernel
  obtain ⟨-, -, -, -, -, -, hfolded⟩ :=
    identifier_recased "_get_HTTPBody2_" (by decide +kernel) (by decide +kernel)
  refine ⟨hform, hfolded "_get_http_body_2_" (by decide +kernel) (camel "_get_HTTPBody2_") ?_ ?_⟩
  · exact List.mem_cons_self ..
  · rw [hform]
    exact List.mem_cons_self ..

end Scribe.Identifier
