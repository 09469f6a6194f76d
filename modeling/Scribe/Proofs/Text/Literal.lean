import Scribe.Literal
import Scribe.Proofs.Text.Control

/-!
# What literals are made of

Writing a literal drops characters, escapes some and holds its newlines
back, and a documenting literal becomes a comment. The lemmas follow
these steps and trace every character of the result to the source, but
for the few marks that are put in.
-/

namespace Scribe

open Text

variable {text : String} {cs body : List Char} {c : Char}

/-! ## Ordinary literals -/

/-- Doubling puts in only what is there already. -/
theorem mem_of_mem_doubleBackslashes (h : c ∈ Literal.doubleBackslashes cs) : c ∈ cs := by
  obtain ⟨x, hx, hc⟩ := List.mem_flatMap.1 h
  split at hc
  · rename_i hslash
    have hcx : c = '\\' := by simpa using hc
    rwa [hcx, ← hslash]
  · rwa [List.mem_singleton.1 hc]

theorem mem_of_mem_rawQuoted (h : c ∈ Literal.rawQuoted body) : c ∈ body := by
  unfold Literal.rawQuoted at h
  split at h
  · rename_i first rest last hlast
    rw [List.cons_append, List.mem_cons, List.mem_append, List.mem_singleton] at h
    rcases h with rfl | h | rfl
    · exact List.mem_cons_self ..
    · exact List.mem_cons_of_mem _ (List.dropLast_subset _ (mem_of_mem_doubleBackslashes h))
    · exact List.mem_of_getLast? hlast
  · cases h

/-- Nothing is put into a literal that is not in triple quotes, but for
backslashes beside its own. -/
theorem mem_of_mem_written (htriple : Literal.opensTriple (Literal.unlettered text.toList) = false)
    (h : c ∈ (Literal.written text).toList) : c ∈ text.toList := by
  have hbody : c ∈ Literal.unlettered text.toList := by
    simp only [Literal.written, htriple, Bool.false_eq_true, if_false, String.toList_ofList] at h
    split at h
    · exact mem_of_mem_rawQuoted h
    · exact h
  exact List.mem_of_mem_drop hbody

/-! ## Template literals -/

/-- Escaping puts in backslashes. -/
theorem mem_of_mem_escapeBackquotes (h : c ∈ Literal.escapeBackquotes cs) :
    c = '\\' ∨ c ∈ cs := by
  obtain ⟨x, hx, hc⟩ := List.mem_flatMap.1 h
  split at hc
  · rename_i hquote
    rcases List.mem_cons.1 hc with hc | hc
    · exact .inl hc
    · rw [List.mem_singleton.1 hc, ← hquote]
      exact .inr hx
  · rw [List.mem_singleton.1 hc]
    exact .inr hx

theorem mem_of_mem_escapeSubstitutions (h : c ∈ Literal.escapeSubstitutions cs) :
    c = '\\' ∨ c ∈ cs := by
  induction cs using Literal.escapeSubstitutions.induct with
  | case1 cs ih =>
    simp only [Literal.escapeSubstitutions, List.mem_cons] at h ⊢
    rcases h with h | h | h | h
    · exact .inl h
    · exact .inr (.inl h)
    · exact .inr (.inr (.inl h))
    · exact (ih h).imp_right fun h => .inr (.inr h)
  | case2 x cs hne ih =>
    rw [Literal.escapeSubstitutions] at h
    · rcases List.mem_cons.1 h with rfl | h
      · exact .inr (List.mem_cons_self ..)
      · exact (ih h).imp_right (List.mem_cons_of_mem _)
    · exact hne
  | case3 => cases h

theorem mem_of_mem_tripleBody (h : c ∈ Literal.tripleBody cs) : c ∈ cs :=
  List.mem_of_mem_drop (List.mem_of_mem_drop (List.mem_of_mem_take h))

/-- A template literal has its marks: the backquotes, the backslashes and
what holds newlines back. -/
theorem mem_of_mem_template (h : c ∈ Literal.template cs) :
    c = '\x60' ∨ c = '\\' ∨ c = Literal.heldNewline ∨ c ∈ cs := by
  have hraw : ∀ {x : Char}, x ∈ (if Literal.isRaw cs = true
      then Literal.doubleBackslashes (Literal.tripleBody cs) else Literal.tripleBody cs) →
      x ∈ cs := by
    intro x hx
    split at hx
    · exact mem_of_mem_tripleBody (mem_of_mem_doubleBackslashes hx)
    · exact mem_of_mem_tripleBody hx
  simp only [Literal.template, List.cons_append, List.mem_cons, List.mem_append,
    List.not_mem_nil, or_false] at h
  rcases h with h | h | h
  · exact .inl h
  · obtain ⟨x, hx, rfl⟩ := List.mem_map.1 h
    split
    · exact .inr (.inr (.inl rfl))
    · rcases mem_of_mem_escapeSubstitutions hx with hx | hx
      · exact .inr (.inl hx)
      · rcases mem_of_mem_escapeBackquotes hx with hx | hx
        · exact .inr (.inl hx)
        · exact .inr (.inr (.inr (hraw hx)))
  · exact .inl h

/-- **Every literal** is made of its source and the marks of templates. -/
theorem mem_written_cases (h : c ∈ (Literal.written text).toList) :
    c = '\x60' ∨ c = '\\' ∨ c = Literal.heldNewline ∨ c ∈ text.toList := by
  cases htriple : Literal.opensTriple (Literal.unlettered text.toList) with
  | true =>
    refine mem_of_mem_template ?_
    simpa [Literal.written, htriple] using h
  | false => exact .inr (.inr (.inr (mem_of_mem_written htriple h)))

/-! ## Comments -/

/-- A tab becomes blanks. -/
theorem mem_of_mem_expandTabs {column : Nat} (h : c ∈ expandTabs column cs) :
    c = ' ' ∨ c ∈ cs := by
  induction cs generalizing column with
  | nil => cases h
  | cons x cs ih =>
    rw [expandTabs] at h
    split at h
    · rcases List.mem_append.1 h with h | h
      · exact .inl (List.eq_of_mem_replicate h)
      · exact (ih h).imp_right (List.mem_cons_of_mem _)
    · split at h
      all_goals
        rcases List.mem_cons.1 h with rfl | h
        · exact .inr (List.mem_cons_self ..)
        · exact (ih h).imp_right (List.mem_cons_of_mem _)

/-- Taking the common margin off puts nothing in. -/
theorem mem_of_mem_dedentLines {ls : List (List Char)} {p : List Char} (hp : p ∈ dedentLines ls)
    (hc : c ∈ p) : ∃ q ∈ ls, c ∈ q := by
  cases ls with
  | nil => cases hp
  | cons first later =>
    rw [dedentLines] at hp
    have hp := List.mem_reverse.1 ((List.dropWhile_suffix _).subset
      (List.mem_reverse.1 ((List.dropWhile_suffix _).subset hp)))
    rcases List.mem_cons.1 hp with rfl | hp
    · exact ⟨first, List.mem_cons_self .., (List.dropWhile_suffix _).subset hc⟩
    · obtain ⟨q, hq, rfl⟩ := List.mem_map.1 hp
      exact ⟨q, List.mem_cons_of_mem _ hq, List.mem_of_mem_drop hc⟩

theorem mem_of_mem_dedent (h : c ∈ (dedent text).toList) :
    c = '\n' ∨ c = ' ' ∨ c ∈ text.toList := by
  rcases mem_of_mem_intercalate h with h | ⟨t, ht, hc⟩
  · exact .inl (by simpa using h)
  · obtain ⟨p, hp, rfl⟩ := List.mem_map.1 ht
    rw [String.toList_ofList] at hc
    obtain ⟨q, hq, hcq⟩ := mem_of_mem_dedentLines hp hc
    exact .inr (mem_of_mem_expandTabs (TypeName.mem_of_mem_splitOn hq hcq))

theorem mem_of_mem_guardClose (h : c ∈ Literal.guardClose cs) : c = '\\' ∨ c ∈ cs := by
  induction cs using Literal.guardClose.induct with
  | case1 cs ih =>
    simp only [Literal.guardClose, List.mem_cons] at h ⊢
    rcases h with h | h | h | h
    · exact .inr (.inl h)
    · exact .inl h
    · exact .inr (.inr (.inl h))
    · exact (ih h).imp_right fun h => .inr (.inr h)
  | case2 x cs hne ih =>
    rw [Literal.guardClose] at h
    · rcases List.mem_cons.1 h with rfl | h
      · exact .inr (List.mem_cons_self ..)
      · exact (ih h).imp_right (List.mem_cons_of_mem _)
    · exact hne
  | case3 => cases h

/-- **A comment** is made of its source and the marks of comments. -/
theorem mem_of_mem_commentLines {l : String} (hl : l ∈ Literal.commentLines text)
    (hc : c ∈ l.toList) : c ∈ ['/', '*', ' ', '\\', '\n'] ∨ c ∈ text.toList := by
  have hmarks : ∀ t ∈ ["/**", " * ", " */"], t.toList ⊆ ['/', '*', ' ', '\\', '\n'] := by
    decide
  simp only [Literal.commentLines, List.cons_append, List.mem_cons, List.mem_append, List.mem_map,
    List.not_mem_nil, or_false] at hl
  rcases hl with rfl | ⟨k, hk, rfl⟩ | rfl
  · exact .inl (hmarks "/**" (by decide) hc)
  · -- a line of the guarded text behind its mark
    rw [stripEnd, String.toList_ofList, trimEnd, List.mem_reverse] at hc
    have hline := List.mem_reverse.1 ((List.dropWhile_suffix _).subset hc)
    rw [String.toList_append, List.mem_append] at hline
    rcases hline with hmark | hline
    · exact .inl (hmarks " * " (by decide) hmark)
    · obtain ⟨p, hp, rfl⟩ := List.mem_map.1 hk
      rw [String.toList_ofList] at hline hp
      rcases mem_of_mem_guardClose (TypeName.mem_of_mem_splitOn hp hline) with rfl | hbody
      · exact .inl (by decide)
      · rcases mem_of_mem_dedent hbody with rfl | rfl | hbody
        · exact .inl (by decide)
        · exact .inl (by decide)
        · rw [String.toList_ofList] at hbody
          exact .inr (mem_of_mem_tripleBody hbody)
  · exact .inl (hmarks " */" (by decide) hc)

end Scribe
