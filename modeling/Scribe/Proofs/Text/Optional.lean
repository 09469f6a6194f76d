import Scribe.TypeName

/-!
# Which spellings denote a type

The only spelling that denotes no type is `Optional` with nothing between
its brackets. Such a piece stands in a spelling as it was written
(`BareOptional`): cutting at separators and trimming leave every piece of
a spelling in one stretch of it (`infix_of_mem_pieces`). A spelling that
holds no such piece denotes a type, whatever else it is
(`exists_typeName`).
-/

namespace Scribe

namespace TypeName

open Scribe.Text

variable {cs p : List Char}

/-- **`Optional` with only blanks between its brackets** stands somewhere
in the text. -/
def BareOptional (cs : List Char) : Prop :=
  ∃ blanks, (∀ c ∈ blanks, isBlank c = true) ∧
    "Optional[".toList ++ blanks ++ "]".toList <:+: cs

theorem BareOptional.of_isInfix (h : BareOptional p) (hp : p <:+: cs) : BareOptional cs := by
  obtain ⟨blanks, hblanks, hin⟩ := h
  exact ⟨blanks, hblanks, hin.trans hp⟩

/-! ## Pieces in one stretch -/

theorem isInfix_trim (q : Char → Bool) (cs : List Char) : trim q cs <:+: cs := by
  have hend : trimEnd q (trimStart q cs) <+: trimStart q cs := by
    rw [trimEnd, ← List.reverse_suffix, List.reverse_reverse]
    exact List.dropWhile_suffix q
  exact hend.isInfix.trans (List.dropWhile_suffix q).isInfix

/-- Trimming keeps what it does not look for. -/
theorem mem_trim {q : Char → Bool} {c : Char} (hc : c ∈ cs) (h : q c = false) :
    c ∈ trim q cs := by
  have hdrop : ∀ l : List Char, c ∈ l → c ∈ l.dropWhile q := by
    intro l hl
    induction l with
    | nil => cases hl
    | cons a l ih =>
      rw [List.dropWhile_cons]
      split
      · rename_i ha
        rcases List.mem_cons.1 hl with rfl | hl
        · exact absurd ha (by simp [h])
        · exact ih hl
      · exact hl
  rw [trim, trimEnd, List.mem_reverse]
  exact hdrop _ (List.mem_reverse.2 (hdrop cs hc))

/-- A text that trims to nothing is blank. -/
theorem forall_of_trim_eq_nil {q : Char → Bool} (h : trim q cs = []) : ∀ c ∈ cs, q c = true := by
  intro c hc
  cases hq : q c with
  | true => rfl
  | false =>
    have hmem := mem_trim hc hq
    rw [h] at hmem
    cases hmem

/-- The first piece starts the text, and the others stand in it. -/
theorem infix_of_cutTop_eq {sep : Char} {depth : Int} {ps : List (List Char)}
    (h : cutTop sep depth cs = p :: ps) : p <+: cs ∧ ∀ q ∈ ps, q <:+: cs := by
  induction cs generalizing depth p ps with
  | nil =>
    obtain ⟨rfl, rfl⟩ := List.cons.inj h
    exact ⟨List.prefix_rfl, nofun⟩
  | cons c cs ih =>
    obtain ⟨q, qs, hcut⟩ := List.exists_cons_of_ne_nil (cutTop_ne_nil sep (depth + depthStep c) cs)
    obtain ⟨hq, hqs⟩ := ih hcut
    rw [cutTop, hcut] at h
    split at h
    · obtain ⟨rfl, rfl⟩ := List.cons.inj h
      refine ⟨List.nil_prefix, fun x hx => List.infix_cons ?_⟩
      rcases List.mem_cons.1 hx with rfl | hx
      · exact hq.isInfix
      · exact hqs x hx
    · obtain ⟨rfl, rfl⟩ := List.cons.inj h
      exact ⟨List.cons_prefix_cons.2 ⟨rfl, hq⟩, fun x hx => List.infix_cons (hqs x hx)⟩

theorem infix_of_mem_cutTop {sep : Char} {depth : Int} (h : p ∈ cutTop sep depth cs) :
    p <:+: cs := by
  obtain ⟨q, qs, hcut⟩ := List.exists_cons_of_ne_nil (cutTop_ne_nil sep depth cs)
  obtain ⟨hq, hqs⟩ := infix_of_cutTop_eq hcut
  rw [hcut] at h
  rcases List.mem_cons.1 h with rfl | h
  · exact hq.isInfix
  · exact hqs p h

/-- A single piece is the whole text. -/
theorem eq_of_cutTop_eq_singleton {sep : Char} {depth : Int} (h : cutTop sep depth cs = [p]) :
    p = cs := by
  have hlength := length_cutTop sep depth cs
  rw [h] at hlength
  refine (infix_of_cutTop_eq h).1.eq_of_length ?_
  simpa using hlength

theorem infix_of_mem_members (h : p ∈ members cs) : p <:+: cs := by
  obtain ⟨q, hq, rfl⟩ := List.mem_map.1 h
  exact (isInfix_trim _ _).trans (infix_of_mem_cutTop hq)

theorem infix_of_mem_arguments (h : p ∈ arguments cs) : p <:+: cs := by
  have h' : p ∈ (cutTop ',' 0 cs).map (trim isBlank) := by
    simp only [arguments] at h
    split at h
    · exact (List.dropLast_sublist _).subset h
    · exact h
  obtain ⟨q, hq, rfl⟩ := List.mem_map.1 h'
  exact (isInfix_trim _ _).trans (infix_of_mem_cutTop hq)

/-- Without arguments there are only blanks. -/
theorem forall_of_arguments_eq_nil (h : arguments cs = []) : ∀ c ∈ cs, isBlank c = true := by
  obtain ⟨q, qs, hcut⟩ := List.exists_cons_of_ne_nil (cutTop_ne_nil ',' 0 cs)
  simp only [arguments, hcut, List.map_cons] at h
  split at h
  · rename_i hlast
    cases qs with
    | nil =>
      obtain rfl := eq_of_cutTop_eq_singleton hcut
      exact forall_of_trim_eq_nil (by simpa using hlast)
    | cons r rs => simp at h
  · cases h

/-- What is in brackets stands between them, behind the name. -/
theorem prefix_of_subscript? {name inner : List Char} (h : subscript? cs = some (name, inner)) :
    name ++ '[' :: inner ++ [']'] <+: cs := by
  unfold subscript? at h
  split at h
  · rename_i rest hrest
    split at h
    · cases h
    · obtain ⟨closed, hclosed, heq⟩ := Option.map_eq_some_iff.1 h
      obtain ⟨rfl, rfl⟩ := Prod.mk.inj heq
      -- one newline may follow the bracket, so this is a prefix only
      have hinner : closed ++ [']'] <+: rest := by
        unfold beforeClose? at hclosed
        split at hclosed
        · rename_i tail htail
          obtain rfl := Option.some.inj hclosed
          rw [← List.reverse_reverse rest, htail]
          simp
        · rename_i tail htail
          obtain rfl := Option.some.inj hclosed
          rw [← List.reverse_reverse rest, htail]
          simp
        · cases hclosed
      have hcs : cs.takeWhile isNameChar ++ '[' :: rest = cs := by
        rw [← hrest, List.takeWhile_append_dropWhile]
      obtain ⟨after, rfl⟩ := hinner
      exact ⟨after, by simpa using hcs⟩
  · cases h

/-- The last part of a dotted name ends it. -/
theorem lastPart_suffix (name : List Char) : lastPart name <:+ name := by
  have hlast : ∀ p, (name.splitOn '.').getLast? = some p → p <:+ name := by
    induction name with
    | nil => simp
    | cons c cs ih =>
      intro p hp
      obtain ⟨q, qs, hsplit⟩ := List.exists_cons_of_ne_nil (List.splitOn_ne_nil '.' cs)
      rw [hsplit] at ih
      rw [List.splitOn_cons_eq_if_modifyHead, hsplit] at hp
      split at hp
      · exact (ih p (by simpa using hp)).trans (List.suffix_cons c cs)
      · rw [List.modifyHead_cons] at hp
        cases qs with
        | nil =>
          -- without a dot the name is its only part
          obtain rfl : q = cs := by simpa using congrArg (['.'].intercalate ·) hsplit.symm
          obtain rfl : c :: q = p := by simpa using hp
          exact List.suffix_rfl
        | cons r rs => exact (ih p (by simpa using hp)).trans (List.suffix_cons c cs)
  unfold lastPart
  cases h : (name.splitOn '.').getLast? with
  | none => exact List.nil_suffix
  | some p => exact hlast p h

theorem infix_of_mem_pieces (h : p ∈ (shape cs).pieces) : p <:+: cs := by
  unfold shape at h
  split at h
  · cases h
  · split at h
    · exact infix_of_mem_members h
    · split at h
      · rename_i name inner hsub
        refine (infix_of_mem_arguments h).trans ?_
        refine List.IsInfix.trans ?_ (prefix_of_subscript? hsub).isInfix
        exact ⟨name ++ ['['], [']'], by simp⟩
      · cases h

/-- **`Optional` without an argument** was written with empty
brackets. -/
theorem bareOptional_of_shape (h : shape cs = .generic "Optional" []) : BareOptional cs := by
  unfold shape at h
  split at h
  · cases h
  · split at h
    · cases h
    · split at h
      · rename_i name inner hsub
        obtain ⟨houter, hargs⟩ := Shape.generic.inj h
        have hlast : lastPart name = "Optional".toList := by
          rw [← houter, String.toList_ofList]
        obtain ⟨path, hpath⟩ := lastPart_suffix name
        refine ⟨inner, forall_of_arguments_eq_nil hargs, ?_⟩
        refine List.IsInfix.trans ?_ (prefix_of_subscript? hsub).isInfix
        refine ⟨path, [], ?_⟩
        rw [← hpath, hlast]
        simp
      · cases h

/-! ## The type -/

theorem exists_mapM {α β : Type} {f : α → Result β} {l : List α}
    (h : ∀ a ∈ l, ∃ b, f a = .ok b) : ∃ bs, l.mapM f = .ok bs := by
  induction l with
  | nil => exact ⟨[], rfl⟩
  | cons a l ih =>
    obtain ⟨b, hb⟩ := h a (List.mem_cons_self ..)
    obtain ⟨bs, hbs⟩ := ih fun a ha => h a (List.mem_cons_of_mem _ ha)
    exact ⟨b :: bs, by rw [List.mapM_cons, hb, hbs]; rfl⟩

/-- **Every spelling denotes a type**, unless it holds an `Optional`
without an argument. -/
theorem exists_ofChars (cs : List Char) (h : ¬ BareOptional cs) :
    ∃ type, ofChars cs = .ok type := by
  have hclean : clean cs <:+: cs := (isInfix_trim _ _).trans (isInfix_trim _ _)
  -- the pieces are shorter than the spelling
  have ih : ∀ p ∈ (shape (clean cs)).pieces, ∃ type, ofChars p = .ok type := fun p hp =>
    exists_ofChars p fun hbare => h (hbare.of_isInfix ((infix_of_mem_pieces hp).trans hclean))
  have hmember : ∀ p ∈ (shape (clean cs)).pieces, ∃ type,
      (if p = "None".toList then .ok "null" else ofChars p : Result String) = .ok type := by
    intro p hp
    split
    · exact ⟨_, rfl⟩
    · exact ih p hp
  rw [ofChars]
  split
  · exact ⟨_, rfl⟩
  · exact ⟨_, rfl⟩
  · rename_i ms hshape
    obtain ⟨types, htypes⟩ := exists_mapM (l := ms.attach) (f := fun m =>
      if m.1 = "None".toList then .ok "null" else ofChars m.1) fun m _ =>
      hmember m.1 (hshape ▸ m.2)
    exact ⟨_, by rw [htypes]; rfl⟩
  · rename_i args hshape
    split
    · rename_i hargs
      have hnil : args = [] := List.attach_eq_nil_iff.1 hargs
      exact absurd ((bareOptional_of_shape (hnil ▸ hshape)).of_isInfix hclean) h
    · rename_i a ha rest hargs
      obtain ⟨type, htype⟩ := ih a (hshape ▸ ha)
      exact ⟨_, by rw [htype]; rfl⟩
  · rename_i args hshape
    obtain ⟨types, htypes⟩ := exists_mapM (l := args.attach) (f := fun m =>
      if m.1 = "None".toList then .ok "null" else ofChars m.1) fun m _ =>
      hmember m.1 (hshape ▸ m.2)
    exact ⟨_, by rw [htypes]; rfl⟩
  · rename_i outer args _ _ hshape
    split
    · obtain ⟨types, htypes⟩ := exists_mapM (l := args.attach.filter (·.1 ≠ "...".toList))
        (f := fun a => ofChars a.1) fun a _ => ih a.1 (hshape ▸ a.2)
      exact ⟨_, by rw [htypes]; rfl⟩
    · obtain ⟨types, htypes⟩ := exists_mapM (l := args.attach) (f := fun a => ofChars a.1)
        fun a _ => ih a.1 (hshape ▸ a.2)
      exact ⟨_, by rw [htypes]; rfl⟩
termination_by cs.length
decreasing_by exact length_lt_of_shape_eq rfl hp

end TypeName

/-- **Every spelling denotes a type**, unless it holds an `Optional`
without an argument. -/
theorem exists_typeName {spelling : String} (h : ¬ TypeName.BareOptional spelling.toList) :
    ∃ type, typeName spelling = .ok type :=
  TypeName.exists_ofChars _ h

end Scribe
