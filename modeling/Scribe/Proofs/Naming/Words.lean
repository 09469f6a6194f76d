import Mathlib
import Scribe.Identifier

/-!
# What a converted name shows of its source

A name is cut into the underscores at its ends and a core, and the core
into words. `parts_name_of_proper` says that the first cut can be read
off any text that was put together from such parts, so a converted name
shows the underscores of its source.

Of the words it shows the letters and digits, and which letters start a
word: the `outline`. `joinCamel_eq_iff` says that it shows exactly that.
Two neighbouring words of digits cannot be told from one, and the case
of the source is lost.
-/

namespace Scribe.Identifier

/-! ## Underscores at the ends -/

/-- **Parts that can be told apart**: underscores around a core that
neither starts nor ends with one. -/
structure Parts.Proper (p : Parts) : Prop where
  lead : ∀ c ∈ p.lead, c = '_'
  trail : ∀ c ∈ p.trail, c = '_'
  core_ne_nil : p.core ≠ []
  head : ∀ c ∈ p.core.head?, c ≠ '_'
  last : ∀ c ∈ p.core.getLast?, c ≠ '_'

theorem reverse_underscores {cs : List Char} (h : ∀ c ∈ cs, c = '_') : cs.reverse = cs := by
  rw [List.eq_replicate_iff.2 ⟨rfl, h⟩, List.reverse_replicate]

/-- What stands in front of the underscores at the end of a text. -/
theorem take_length_sub (cs : List Char) :
    cs.take (cs.length - (cs.reverse.takeWhile (· == '_')).length) =
      (cs.reverse.dropWhile (· == '_')).reverse := by
  have hcut := congrArg List.reverse (List.takeWhile_append_dropWhile (p := (· == '_'))
    (l := cs.reverse))
  rw [List.reverse_append, List.reverse_reverse] at hcut
  have htake : ∀ as bs : List Char, (as ++ bs).take ((as ++ bs).length - bs.length) = as := by
    intro as bs
    exact List.take_left' (by simp)
  have hlead := htake (cs.reverse.dropWhile (· == '_')).reverse
    (cs.reverse.takeWhile (· == '_')).reverse
  rwa [hcut, List.length_reverse] at hlead

theorem mem_takeWhile_underscore {cs : List Char} {c : Char}
    (h : c ∈ cs.takeWhile (· == '_')) : c = '_' := by
  simpa using List.mem_takeWhile_imp h

theorem head_dropWhile_underscore {cs : List Char} {c : Char}
    (h : c ∈ (cs.dropWhile (· == '_')).head?) : c ≠ '_' := by
  have hnot := List.head?_dropWhile_not (· == '_') cs
  rw [h] at hnot
  simpa using hnot

/-- Underscores in front of something else can be told from it. -/
theorem cut_underscores {us cs : List Char} (hus : ∀ c ∈ us, c = '_')
    (hcs : ∀ c ∈ cs.head?, c ≠ '_') :
    (us ++ cs).takeWhile (· == '_') = us ∧ (us ++ cs).dropWhile (· == '_') = cs := by
  have hall : ∀ c ∈ us, (c == '_') = true := by simpa using hus
  rw [List.takeWhile_append_of_pos hall, List.dropWhile_append_of_pos hall]
  cases cs with
  | nil => simp
  | cons c cs =>
    have hc : (c == '_') = false := by simpa using hcs c rfl
    simp [hc]

/-- A name of underscores alone is all core. -/
theorem parts_of_all {name : List Char} (h : name.all (· == '_') = true) :
    parts name = ⟨[], name, []⟩ := by
  rw [parts, if_pos h]

/-- The parts of a name with a core, without a cut by length. -/
theorem parts_of_not_all {name : List Char} (h : ¬ name.all (· == '_') = true) :
    parts name = ⟨name.takeWhile (· == '_'),
      ((name.dropWhile (· == '_')).reverse.dropWhile (· == '_')).reverse,
      (name.dropWhile (· == '_')).reverse.takeWhile (· == '_')⟩ := by
  rw [parts, if_neg h]
  simp only [take_length_sub]

/-- The parts make up the name. -/
theorem name_parts (name : List Char) : (parts name).name = name := by
  by_cases h : name.all (· == '_') = true
  · simp [parts_of_all h, Parts.name]
  · have htrail : ∀ c ∈ (name.dropWhile (· == '_')).reverse.takeWhile (· == '_'), c = '_' :=
      fun c hc => mem_takeWhile_underscore hc
    rw [parts_of_not_all h, Parts.name, ← reverse_underscores htrail, List.append_assoc,
      ← List.reverse_append, List.takeWhile_append_dropWhile, List.reverse_reverse,
      List.takeWhile_append_dropWhile]

theorem proper_parts {name : List Char} (h : ¬ name.all (· == '_') = true) :
    (parts name).Proper := by
  rw [parts_of_not_all h]
  generalize hrest : name.dropWhile (· == '_') = rest
  have hhead : ∀ c ∈ rest.head?, c ≠ '_' := fun c hc => head_dropWhile_underscore (hrest ▸ hc)
  have hne : (rest.reverse.dropWhile (· == '_')).reverse ≠ [] := by
    intro hnil
    have hall : ∀ c ∈ rest, c = '_' := by simpa using hnil
    cases rest with
    | nil => exact h (List.all_eq_true.2 (List.dropWhile_eq_nil_iff.1 hrest))
    | cons c rest => exact hhead c rfl (hall c (List.mem_cons_self ..))
  -- the core is what the rest starts with
  have hcut : (rest.reverse.dropWhile (· == '_')).reverse ++
      (rest.reverse.takeWhile (· == '_')).reverse = rest := by
    rw [← List.reverse_append, List.takeWhile_append_dropWhile, List.reverse_reverse]
  refine ⟨fun _ => mem_takeWhile_underscore, fun _ => mem_takeWhile_underscore, hne, ?_, ?_⟩
  · intro c hc
    refine hhead c ?_
    rw [← hcut, List.head?_append_of_ne_nil _ hne]
    exact hc
  · intro c hc
    rw [List.getLast?_reverse] at hc
    exact head_dropWhile_underscore hc

/-- **The parts can be read off the name.** -/
theorem parts_name_of_proper {p : Parts} (h : p.Proper) : parts p.name = p := by
  obtain ⟨lead, core, trail⟩ := p
  obtain ⟨hlead, htrail, hne, hhead, hlast⟩ := h
  have hhead' : ∀ c ∈ (core ++ trail).head?, c ≠ '_' := by
    rwa [List.head?_append_of_ne_nil _ hne]
  have hlast' : ∀ c ∈ core.reverse.head?, c ≠ '_' := by
    rwa [List.head?_reverse]
  have hnot : ¬ (lead ++ (core ++ trail)).all (· == '_') = true := by
    intro hall
    cases core with
    | nil => exact hne rfl
    | cons c core =>
      refine hhead c rfl ?_
      simpa using List.all_eq_true.1 hall c (by simp)
  obtain ⟨htake, hdrop⟩ := cut_underscores hlead hhead'
  obtain ⟨htake', hdrop'⟩ := cut_underscores htrail hlast'
  rw [Parts.name, List.append_assoc, parts_of_not_all hnot, htake, hdrop, List.reverse_append,
    reverse_underscores htrail, htake', hdrop', List.reverse_reverse]

/-! ## Words -/

theorem isWordChar_eq (c : Char) : isWordChar c = (c.isAlpha || c.isDigit) := rfl

/-- The first word starts with the first character that words are made
of. -/
theorem words_cons {c : Char} (cs : List Char) (hc : isWordChar c = true) :
    ∃ w ws, words (c :: cs) = (c :: w) :: ws := by
  simp only [words, hc, Bool.not_true, Bool.false_eq_true, if_false]
  split
  · exact ⟨_, _, rfl⟩
  · exact ⟨_, _, rfl⟩

/-- A text without letters and digits has no words. -/
theorem words_eq_nil_iff {cs : List Char} :
    words cs = [] ↔ ∀ c ∈ cs, isWordChar c = false := by
  induction cs with
  | nil => simp [words]
  | cons c cs ih =>
    cases hc : isWordChar c with
    | true =>
      obtain ⟨w, ws, hw⟩ := words_cons cs hc
      simp [hw, hc]
    | false => simpa [words, hc] using ih

/-- **What a word is**: something, made of letters and digits. -/
theorem word_of_mem_words {cs w : List Char} (h : w ∈ words cs) :
    w ≠ [] ∧ ∀ c ∈ w, isWordChar c = true := by
  induction cs generalizing w with
  | nil => simp [words] at h
  | cons a cs ih =>
    simp only [words] at h
    split at h
    · exact ih h
    · rename_i ha
      have ha' : isWordChar a = true := by simpa using ha
      split at h
      · rename_i v vs _ hwords
        rcases List.mem_cons.1 h with rfl | h
        · have hv := ih (hwords ▸ List.mem_cons_self ..)
          simpa [ha'] using hv.2
        · exact ih (hwords ▸ List.mem_cons_of_mem _ h)
      · rcases List.mem_cons.1 h with rfl | h
        · simp [ha']
        · exact ih h

/-! ## The outline -/

/-- The characters of a word in lower case, each with whether it is a
letter that starts the word. -/
def mark : List Char → List (Char × Bool)
  | [] => []
  | c :: cs => (c.toLower, !c.isDigit) :: cs.map (·.toLower, false)

/-- **The outline of a name**: the letters and digits of its core in
lower case, each with whether it is a letter that starts a word. -/
def outline (name : List Char) : List (Char × Bool) :=
  (words (parts name).core).flatMap mark

/-- The outline of words, read off their camel case. -/
def readCamel : List Char → List (Char × Bool)
  | [] => []
  | c :: cs => (c, !c.isDigit) :: cs.map fun c => (c.toLower, c.isUpper)

/-- The camel case of words, from their outline. -/
def writeCamel : List (Char × Bool) → List Char
  | [] => []
  | (c, _) :: o => c :: o.map fun x => if x.2 then x.1.toUpper else x.1

theorem isDigit_of_isAlpha {c : Char} (h : c.isAlpha = true) : c.isDigit = false := by
  simp only [Char.isAlpha, Char.isUpper, Char.isLower, Bool.or_eq_true, Bool.and_eq_true,
    decide_eq_true_eq, ge_iff_le, UInt32.le_iff_toNat_le] at h
  rw [Bool.eq_false_iff]
  intro hdigit
  simp only [Char.isDigit, Bool.and_eq_true, decide_eq_true_eq, ge_iff_le,
    UInt32.le_iff_toNat_le] at hdigit
  have hA : 'A'.val.toNat = 65 := rfl
  have ha : 'a'.val.toNat = 97 := rfl
  have h9 : '9'.val.toNat = 57 := rfl
  omega

theorem isAlpha_eq_not_isDigit {c : Char} (hc : isWordChar c = true) :
    c.isAlpha = !c.isDigit := by
  rw [isWordChar_eq] at hc
  cases hletter : c.isAlpha with
  | true => rw [isDigit_of_isAlpha hletter, Bool.not_false]
  | false => simpa [hletter] using hc

theorem isWordChar_toLower (c : Char) : isWordChar c.toLower = isWordChar c := by
  by_cases h : c.isUpper = true
  · have hletter : c.isAlpha = true := by simp [Char.isAlpha, h]
    rw [isWordChar_eq, isWordChar_eq, Char.isAlpha_toLower_eq_isAlpha, hletter, Bool.true_or,
      Bool.true_or]
  · rw [Char.toLower_eq_of_not_isUpper h]

theorem isWordChar_toUpper (c : Char) : isWordChar c.toUpper = isWordChar c := by
  by_cases h : c.isLower = true
  · have hletter : c.isAlpha = true := by simp [Char.isAlpha, h]
    rw [isWordChar_eq, isWordChar_eq, Char.isAlpha_toUpper_eq_isAlpha, hletter, Bool.true_or,
      Bool.true_or]
  · rw [Char.toUpper_eq_of_not_isLower h]

theorem isDigit_toLower {c : Char} (hc : isWordChar c = true) :
    c.toLower.isDigit = c.isDigit := by
  have hlower := isAlpha_eq_not_isDigit ((isWordChar_toLower c).trans hc)
  rw [Char.isAlpha_toLower_eq_isAlpha, isAlpha_eq_not_isDigit hc] at hlower
  exact (Bool.not_inj hlower).symm

/-- A word behind the first one shows its outline. -/
theorem map_capitalize {w : List Char} (hw : ∀ c ∈ w, isWordChar c = true) :
    (capitalize w).map (fun c => (c.toLower, c.isUpper)) = mark w := by
  cases w with
  | nil => rfl
  | cons c cs =>
    have hc := isAlpha_eq_not_isDigit (hw c (List.mem_cons_self ..))
    simp [capitalize, lower, mark, hc]

/-- **The outline can be read off the camel case.** -/
theorem readCamel_joinCamel {ws : List (List Char)}
    (h : ∀ w ∈ ws, w ≠ [] ∧ ∀ c ∈ w, isWordChar c = true) :
    readCamel (joinCamel ws) = ws.flatMap mark := by
  cases ws with
  | nil => rfl
  | cons w ws =>
    have hrest : ((ws.map capitalize).flatten).map (fun c => (c.toLower, c.isUpper)) =
        ws.flatMap mark := by
      rw [List.map_flatten, List.map_map, ← List.flatMap_def]
      exact List.flatMap_congr fun v hv => map_capitalize (h v (List.mem_cons_of_mem _ hv)).2
    obtain ⟨hne, hword⟩ := h w (List.mem_cons_self ..)
    cases w with
    | nil => exact absurd rfl hne
    | cons c cs =>
      have hc := isDigit_toLower (hword c (List.mem_cons_self ..))
      simp [joinCamel, lower, readCamel, mark, hc, hrest]

/-- The letters of an outline that start a word, behind the first, are
those in upper case. -/
theorem map_mark {w : List Char} (hw : ∀ c ∈ w, isWordChar c = true) :
    (mark w).map (fun x => if x.2 then x.1.toUpper else x.1) = capitalize w := by
  cases w with
  | nil => rfl
  | cons c cs =>
    have hc := isAlpha_eq_not_isDigit (hw c (List.mem_cons_self ..))
    cases hd : c.isDigit with
    | true =>
      have hletter : c.isAlpha = false := by simp [hc, hd]
      have hl : c.isLower = false ∧ c.isUpper = false := by
        simpa [Char.isAlpha, and_comm] using hletter
      simp [mark, capitalize, lower, hd, Char.toLower_eq_of_not_isUpper,
        Char.toUpper_eq_of_not_isLower, hl]
    | false => simp [mark, capitalize, lower, hd]

/-- **The camel case follows from the outline.** -/
theorem writeCamel_flatMap_mark {ws : List (List Char)}
    (h : ∀ w ∈ ws, w ≠ [] ∧ ∀ c ∈ w, isWordChar c = true) :
    writeCamel (ws.flatMap mark) = joinCamel ws := by
  cases ws with
  | nil => rfl
  | cons w ws =>
    have hrest : (ws.flatMap mark).map (fun x => if x.2 then x.1.toUpper else x.1) =
        (ws.map capitalize).flatten := by
      rw [List.map_flatMap, List.flatMap_def]
      exact congrArg List.flatten
        (List.map_congr_left fun v hv => map_mark (h v (List.mem_cons_of_mem _ hv)).2)
    obtain ⟨hne, -⟩ := h w (List.mem_cons_self ..)
    cases w with
    | nil => exact absurd rfl hne
    | cons c cs => simp [joinCamel, lower, writeCamel, mark, hrest]

/-- **Words are written alike exactly if they have one outline.** -/
theorem joinCamel_eq_iff {ws vs : List (List Char)}
    (hws : ∀ w ∈ ws, w ≠ [] ∧ ∀ c ∈ w, isWordChar c = true)
    (hvs : ∀ v ∈ vs, v ≠ [] ∧ ∀ c ∈ v, isWordChar c = true) :
    joinCamel ws = joinCamel vs ↔ ws.flatMap mark = vs.flatMap mark := by
  constructor
  · intro h
    rw [← readCamel_joinCamel hws, h, readCamel_joinCamel hvs]
  · intro h
    rw [← writeCamel_flatMap_mark hws, h, writeCamel_flatMap_mark hvs]

/-! ## Converted names -/

/-- The conversion writes the core of the name anew: it is not in
capitalised words, and it has a word. -/
def isRewritten (name : List Char) : Bool :=
  !isCapitalized (parts name).core && !(words (parts name).core).isEmpty

variable {join : List (List Char) → List Char} {name : List Char}

/-- A rewritten name keeps its underscores at both ends. -/
theorem convert_of_isRewritten (h : isRewritten name = true) :
    convert join name = { parts name with core := join (words (parts name).core) } := by
  simp only [isRewritten, Bool.and_eq_true, Bool.not_eq_true'] at h
  simp only [convert, h.1, Bool.false_eq_true, if_false]
  split
  · rename_i hnil
    simp [hnil] at h
  · rfl

theorem convert_of_not_isRewritten (h : isRewritten name = false) :
    convert join name = parts name := by
  simp only [isRewritten, Bool.and_eq_false_iff, Bool.not_eq_false'] at h
  simp only [convert]
  split
  · rfl
  · rename_i hcap
    rcases h with h | h
    · exact absurd h hcap
    · rw [List.isEmpty_iff.1 h]

theorem isWordChar_of_mem_lower {w : List Char} (hw : ∀ c ∈ w, isWordChar c = true) {c : Char}
    (h : c ∈ lower w) : isWordChar c = true := by
  obtain ⟨d, hd, rfl⟩ := List.mem_map.1 h
  exact (isWordChar_toLower d).trans (hw d hd)

theorem isWordChar_of_mem_capitalize {w : List Char} (hw : ∀ c ∈ w, isWordChar c = true)
    {c : Char} (h : c ∈ capitalize w) : isWordChar c = true := by
  cases w with
  | nil => cases h
  | cons d ds =>
    rcases List.mem_cons.1 h with rfl | h
    · exact (isWordChar_toUpper d).trans (hw d (List.mem_cons_self ..))
    · exact isWordChar_of_mem_lower (fun e he => hw e (List.mem_cons_of_mem _ he)) h

/-- Words that are joined are made of letters and digits again. -/
theorem isWordChar_of_mem_joinCamel {cs : List Char} {c : Char}
    (h : c ∈ joinCamel (words cs)) : isWordChar c = true := by
  have hwords : ∀ w ∈ words cs, ∀ c ∈ w, isWordChar c = true := fun w hw =>
    (word_of_mem_words hw).2
  revert h hwords
  cases words cs with
  | nil => intro h; cases h
  | cons w ws =>
    intro h hwords
    rcases List.mem_append.1 h with h | h
    · exact isWordChar_of_mem_lower (hwords w (List.mem_cons_self ..)) h
    · obtain ⟨t, ht, hc⟩ := List.mem_flatten.1 h
      obtain ⟨v, hv, rfl⟩ := List.mem_map.1 ht
      exact isWordChar_of_mem_capitalize (hwords v (List.mem_cons_of_mem _ hv)) hc

/-- Joined words start in lower case or with a digit. -/
theorem exists_joinCamel_eq_cons {cs : List Char} (h : words cs ≠ []) :
    ∃ c r, joinCamel (words cs) = c :: r ∧ c.isUpper = false := by
  obtain ⟨w, ws, hws⟩ := List.exists_cons_of_ne_nil h
  obtain ⟨hne, -⟩ := word_of_mem_words (hws ▸ List.mem_cons_self .. : w ∈ words cs)
  obtain ⟨c, r, rfl⟩ := List.exists_cons_of_ne_nil hne
  exact ⟨c.toLower, lower r ++ (ws.map capitalize).flatten, by rw [hws]; rfl,
    Char.isUpper_toLower_eq_false c⟩

theorem words_ne_nil_of_isRewritten (h : isRewritten name = true) :
    words (parts name).core ≠ [] := by
  simp only [isRewritten, Bool.and_eq_true, Bool.not_eq_true', List.isEmpty_eq_false_iff] at h
  exact h.2

/-- The underscores behind a name in the output. -/
def writtenTrail (name : List Char) : List Char :=
  if reserved.contains (property (.ofList name)) then (parts name).trail ++ ['_']
  else (parts name).trail

/-- **What is written for a name that is rewritten**, in parts. -/
def written (name : List Char) : Parts :=
  ⟨(parts name).lead, joinCamel (words (parts name).core), writtenTrail name⟩

theorem toList_camel {name : String} (h : isRewritten name.toList = true) :
    (camel name).toList = (written name.toList).name := by
  have hproperty : (property name).toList =
      (parts name.toList).lead ++ joinCamel (words (parts name.toList).core)
        ++ (parts name.toList).trail := by
    rw [property, convert_of_isRewritten h, String.toList_ofList, Parts.name]
  simp only [camel, written, writtenTrail, Parts.name, String.ofList_toList]
  split
  · rw [String.toList_append, hproperty, List.append_assoc]
    rfl
  · exact hproperty

/-- Every reserved word is written anew. -/
theorem isRewritten_reserved : ∀ w ∈ reserved, isRewritten w.toList = true := by
  decide +kernel

/-- **A name that is not rewritten stays as it is.** -/
theorem camel_of_not_isRewritten {name : String} (h : isRewritten name.toList = false) :
    camel name = name := by
  have hproperty : property name = name := by
    rw [property, convert_of_not_isRewritten h, name_parts, String.ofList_toList]
  have hfree : ¬ reserved.contains name = true := by
    intro hmem
    rw [isRewritten_reserved name (by simpa using hmem)] at h
    cases h
  simp only [camel, hproperty]
  exact if_neg hfree

theorem proper_written (h : isRewritten name = true) : (written name).Proper := by
  have hne := words_ne_nil_of_isRewritten h
  -- words hold no underscore
  have hcore : ∀ c ∈ joinCamel (words (parts name).core), c ≠ '_' := by
    rintro c hc rfl
    exact absurd (isWordChar_of_mem_joinCamel hc) (by decide)
  have hnot : ¬ name.all (· == '_') = true := by
    intro hall
    refine hne (words_eq_nil_iff.2 fun c hc => ?_)
    rw [parts_of_all hall] at hc
    obtain rfl : c = '_' := by simpa using List.all_eq_true.1 hall c hc
    decide
  have hparts := proper_parts hnot
  refine ⟨hparts.lead, ?_, ?_, ?_, ?_⟩
  · intro c hc
    simp only [written, writtenTrail] at hc
    split at hc
    · rcases List.mem_append.1 hc with hc | hc
      · exact hparts.trail c hc
      · exact List.mem_singleton.1 hc
    · exact hparts.trail c hc
  · obtain ⟨c, r, hcons, -⟩ := exists_joinCamel_eq_cons hne
    simp [written, hcons]
  · exact fun c hc => hcore c (List.mem_of_head? hc)
  · exact fun c hc => hcore c (List.mem_of_getLast? hc)

theorem toNat_of_isWordChar {c : Char} (h : isWordChar c = true) : c.toNat < 0x80 := by
  simp only [isWordChar, Char.isUpper, Char.isLower, Char.isDigit, Bool.or_eq_true,
    Bool.and_eq_true, decide_eq_true_eq, ge_iff_le, UInt32.le_iff_toNat_le] at h
  have hZ : 'Z'.val.toNat = 90 := rfl
  have hz : 'z'.val.toNat = 122 := rfl
  have h9 : '9'.val.toNat = 57 := rfl
  unfold Char.toNat
  omega

/-- **What is written anew is written anew again**: it has the form of no
name that stays. -/
theorem isRewritten_written (h : isRewritten name = true) :
    isRewritten (written name).name = true := by
  obtain ⟨c, r, hcons, hupper⟩ := exists_joinCamel_eq_cons (words_ne_nil_of_isRewritten h)
  have hword : isWordChar c = true :=
    isWordChar_of_mem_joinCamel (hcons ▸ List.mem_cons_self ..)
  have hcap : Text.isUpper c = false := by
    rw [Text.isUpper_of_lt (toNat_of_isWordChar hword), hupper]
  obtain ⟨w, ws, hws⟩ := words_cons r hword
  rw [isRewritten, parts_name_of_proper (proper_written h)]
  simp [written, hcons, hws, isCapitalized, hcap]

/-- No name is converted to nothing. -/
theorem eq_empty_of_pascal_eq {name : String} (h : pascal name = "") : name = "" := by
  have hname : (convert joinPascal name.toList).name = [] := by
    rw [pascal] at h
    exact String.ofList_eq_empty_iff.1 h
  rw [← String.toList_eq_nil_iff]
  cases hrewritten : isRewritten name.toList with
  | false =>
    rwa [convert_of_not_isRewritten hrewritten, name_parts] at hname
  | true =>
    -- a name that is rewritten has a word, and its first letter stays
    obtain ⟨w, ws, hws⟩ := List.exists_cons_of_ne_nil (words_ne_nil_of_isRewritten hrewritten)
    have hw : w ≠ [] := (word_of_mem_words (hws ▸ List.mem_cons_self ..)).1
    obtain ⟨c, cs, rfl⟩ := List.exists_cons_of_ne_nil hw
    rw [convert_of_isRewritten hrewritten, hws] at hname
    simp [Parts.name, joinPascal, capitalize] at hname

end Scribe.Identifier
