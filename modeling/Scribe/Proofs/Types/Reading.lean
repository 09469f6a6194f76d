import Scribe.Proofs.Text.TypeBrackets
import Scribe.Proofs.Types.Syntax

/-!
# Types are read as they are written

`typeName` works on raw text: it cuts at bars and commas that it takes to
be outside brackets, splits a name off a bracket, and trims again and
again. This file proves that it finds the structure of every open type,
however it is nested and wherever blanks stand, and so denotes what the
type denotes (`OpenType.typeName_text`). Type expressions are read through
their embedding (`types_parsed`).

A type is a spelling in the sense of `Scribe.Proofs.Text.TypeBrackets`, so
nothing in it is cut inside a bracket. What is left is that the cuts fall
on its own members and arguments (`OpenType.members_padded`,
`OpenArgs.cutTop_chars`), that trimming removes the blanks around these and
no more (`Tight.trim_padded`), and that the shape is the one of the grammar.
-/

namespace Scribe

open Scribe.Text Scribe.TypeName

/-! ## Names -/

theorem Word.isNameChar (w : Word) : ∀ c ∈ w.chars, isNameChar c = true := by
  intro c hc
  rw [TypeName.isNameChar, w.isWord c hc, Bool.true_or]

theorem Word.dot_not_mem (w : Word) : '.' ∉ w.chars := by
  intro h
  have hdot := w.isWord _ h
  revert hdot
  decide +kernel

namespace DottedName

variable {w : Word} {path : List Word} {last : Word}

theorem chars_cons : chars ⟨w :: path, last⟩ = w.chars ++ '.' :: chars ⟨path, last⟩ := by
  simp [chars]

theorem chars_under (n p : DottedName) : (n.under p).chars = p.chars ++ '.' :: n.chars := by
  simp [chars, under]

theorem isNameChar (n : DottedName) : ∀ c ∈ n.chars, isNameChar c = true := by
  obtain ⟨path, last⟩ := n
  induction path with
  | nil => exact last.isNameChar
  | cons w path ih =>
    rw [chars_cons, List.forall_mem_append, List.forall_mem_cons]
    exact ⟨w.isNameChar, by decide +kernel, ih⟩

/-- A name starts with a character of a word. -/
theorem exists_cons (n : DottedName) : ∃ c cs, n.chars = c :: cs ∧ Text.isWord c = true := by
  have hfirst : ∀ (w : Word) rest, ∃ c cs, w.chars ++ rest = c :: cs ∧ Text.isWord c = true := by
    intro w rest
    obtain ⟨c, cs, hw⟩ := List.exists_cons_of_ne_nil w.ne_nil
    exact ⟨c, cs ++ rest, by rw [hw, List.cons_append], w.isWord c (by simp [hw])⟩
  obtain ⟨_ | ⟨w, path⟩, last⟩ := n
  · simpa [chars] using hfirst last []
  · rw [chars_cons]
    exact hfirst w _

theorem ne_nil (n : DottedName) : n.chars ≠ [] := by
  obtain ⟨c, cs, h, -⟩ := n.exists_cons
  simp [h]

/-- **The last part of a dotted name** is its last word. -/
theorem lastPart_chars (n : DottedName) : lastPart n.chars = n.last.chars := by
  have hword : ∀ w : Word, w.chars.splitOn '.' = [w.chars] := by
    intro w
    have hsplit : (['.'].intercalate [w.chars]).splitOn '.' = [w.chars] :=
      List.splitOn_intercalate '.' (by simp [w.dot_not_mem]) (by simp)
    simpa using hsplit
  obtain ⟨path, last⟩ := n
  induction path with
  | nil => simp [lastPart, chars, hword]
  | cons w path ih =>
    rw [lastPart] at ih ⊢
    have hne : (chars ⟨path, last⟩).splitOn '.' ≠ [] := List.splitOn_ne_nil _ _
    rw [chars_cons, List.splitOn_append_cons_self, List.getLast?_append,
      Option.or_of_isSome (List.getLast?_isSome.2 hne)]
    exact ih

end DottedName

/-! ## Spelling -/

/-- A name between blanks has no brackets, bars or commas. -/
theorem DottedName.isPlain_padded (n : DottedName) (before after : Blanks) :
    ∀ c ∈ before.chars ++ n.chars ++ after.chars, isPlain c = true := by
  simp only [List.forall_mem_append]
  exact ⟨⟨fun c hc => (margin_char (.inl (before.isBlank c hc))).2,
    fun c hc => isPlain_of_isNameChar (n.isNameChar c hc)⟩,
    fun c hc => (margin_char (.inl (after.isBlank c hc))).2⟩

/-- Blanks around a spelling belong to it. -/
theorem TypeName.SpelledWith.pad {cs : List Char} (h : Spelling cs) (before after : Blanks) :
    Spelling (before.chars ++ cs ++ after.chars) := by
  have hplain : ∀ (b : Blanks), ∀ c ∈ b.chars, isPlain c = true :=
    fun b c hc => (margin_char (.inl (b.isBlank c hc))).2
  induction h generalizing before after with
  | name hcs =>
    refine .name ?_
    simp only [List.forall_mem_append]
    exact ⟨⟨hplain before, hcs⟩, hplain after⟩
  | @generic b name a args hb hne hname hargs ha ih =>
    have hsplit : before.chars ++ (b ++ name ++ '[' :: [','].intercalate args ++ ']' :: a)
        ++ after.chars =
        (before.chars ++ b) ++ name ++ '[' :: [','].intercalate args
          ++ ']' :: (a ++ after.chars) := by
      simp
    rw [hsplit]
    exact .generic (List.forall_mem_append.2 ⟨before.isBlank, hb⟩) hne hname hargs
      (List.forall_mem_append.2 ⟨ha, after.isBlank⟩)
  | @union a b ha hb iha ihb =>
    have hsplit : before.chars ++ (a ++ '|' :: b) ++ after.chars =
        (before.chars ++ a ++ Blanks.none.chars) ++ '|' ::
          (Blanks.none.chars ++ b ++ after.chars) := by
      simp [Blanks.none]
    rw [hsplit]
    exact .union (iha before .none) (ihb .none after)

namespace OpenArgs

/-- The arguments as a list. -/
def items : OpenArgs → List OpenArg
  | .last _ arg _ => [arg]
  | .cons _ arg _ rest => arg :: rest.items

/-- What stands between the commas. -/
def pieces : OpenArgs → List (List Char)
  | .last before arg after => [before.chars ++ arg.chars ++ after.chars]
  | .cons before arg after rest => (before.chars ++ arg.chars ++ after.chars) :: rest.pieces

theorem items_ne_nil (args : OpenArgs) : args.items ≠ [] := by
  cases args <;> simp [items]

theorem pieces_ne_nil (args : OpenArgs) : args.pieces ≠ [] := by
  cases args <;> simp [pieces]

theorem chars_eq_intercalate : ∀ args : OpenArgs, args.chars = [','].intercalate args.pieces
  | .last before arg after => by simp [chars, pieces]
  | .cons before arg after rest => by
    obtain ⟨p, ps, hps⟩ := List.exists_cons_of_ne_nil rest.pieces_ne_nil
    rw [chars, rest.chars_eq_intercalate, pieces, hps, List.intercalate_cons_cons]
    simp

end OpenArgs

mutual

/-- **Open types are spelled** as types are, brackets and all. -/
theorem OpenType.spelling : ∀ t : OpenType, Spelling t.chars
  | .name n => .name fun c hc => isPlain_of_isNameChar (n.isNameChar c hc)
  | .generic n args => by
    have hargs : Spelling ([] ++ n.chars ++ '[' :: [','].intercalate args.pieces ++ [']']) :=
      .generic nofun n.ne_nil n.isNameChar args.spelling nofun
    rwa [OpenType.chars, args.chars_eq_intercalate]
  | .union left after before right => by
    have hunion := SpelledWith.union (left.spelling.pad .none after)
      (right.spelling.pad before .none)
    simpa [OpenType.chars, Blanks.none] using hunion

theorem OpenArg.spelling : ∀ arg : OpenArg, Spelling arg.chars
  | .dots => .name (List.all_eq_true.1 (by rw [OpenArg.chars]; decide))
  | .type t => t.spelling

theorem OpenArgs.spelling : ∀ args : OpenArgs, ∀ p ∈ args.pieces, Spelling p
  | .last before arg after => List.forall_mem_singleton.2 (arg.spelling.pad before after)
  | .cons before arg after rest =>
    List.forall_mem_cons.2 ⟨arg.spelling.pad before after, rest.spelling⟩

end

/-! ## Blanks -/

/-- Neither a blank nor a quote. -/
def Solid (c : Char) : Prop :=
  isBlank c = false ∧ isQuote c = false

/-- Neither a blank nor a quote stands at an end of the text. -/
structure Tight (cs : List Char) : Prop where
  first : ∃ c rest, cs = c :: rest ∧ Solid c
  last : ∃ init c, cs = init ++ [c] ∧ Solid c

theorem Solid.not_margin {p : Char → Bool} {c : Char} (hp : IsMargin p) (h : Solid c) :
    p c = false := by
  refine Bool.eq_false_iff.2 fun hpc => ?_
  rcases hp c hpc with hc | hc
  · simp [Solid, hc] at h
  · simp [Solid, hc] at h

theorem solid_of_isNameChar {c : Char} (h : isNameChar c = true) : Solid c :=
  ⟨isMargin_isBlank.of_isNameChar h, isMargin_isQuote.of_isNameChar h⟩

theorem solid_of_isWord {c : Char} (h : isWord c = true) : Solid c :=
  solid_of_isNameChar (by rw [isNameChar, h, Bool.true_or])

namespace Tight

variable {p : Char → Bool} {cs before after : List Char}

/-- **Trimming** a tight text between blanks leaves the text. -/
theorem trim_padded (h : Tight cs) (hp : IsMargin p) (hbefore : ∀ c ∈ before, p c = true)
    (hafter : ∀ c ∈ after, p c = true) : trim p (before ++ cs ++ after) = cs := by
  have hstart : trimStart p (before ++ cs ++ after) = cs ++ after := by
    obtain ⟨c, rest, rfl, hc⟩ := h.first
    rw [List.append_assoc, List.cons_append, trimStart_append_cons (hc.not_margin hp),
      trimStart_eq_nil hbefore, List.nil_append]
  have hend : trimEnd p (cs ++ after) = cs := by
    obtain ⟨init, c, rfl, hc⟩ := h.last
    rw [List.append_assoc, List.singleton_append, trimEnd_append_cons (hc.not_margin hp),
      trimEnd_eq_nil hafter]
  rw [trim, hstart, hend]

/-- Cleaning takes the blanks and finds no quotes to take. -/
theorem clean_padded (h : Tight cs) (hbefore : ∀ c ∈ before, isBlank c = true)
    (hafter : ∀ c ∈ after, isBlank c = true) : clean (before ++ cs ++ after) = cs := by
  have hquotes : trim isQuote cs = cs := by
    simpa using h.trim_padded isMargin_isQuote (List.forall_mem_nil _) (List.forall_mem_nil _)
  rw [clean, h.trim_padded isMargin_isBlank hbefore hafter, hquotes]

theorem clean_eq (h : Tight cs) : clean cs = cs := by
  simpa using h.clean_padded (List.forall_mem_nil _) (List.forall_mem_nil _)

end Tight

/-- A name has no blanks and no quotes at its ends. -/
theorem DottedName.tight (n : DottedName) : Tight n.chars := by
  constructor
  · obtain ⟨c, rest, h, hc⟩ := n.exists_cons
    exact ⟨c, rest, h, solid_of_isWord hc⟩
  · obtain ⟨init, c, h⟩ := (List.eq_nil_or_concat _).resolve_left n.ne_nil
    rw [List.concat_eq_append] at h
    exact ⟨init, c, h, solid_of_isNameChar (n.isNameChar c (by simp [h]))⟩

/-- A type starts with a character of a word. -/
theorem OpenType.exists_cons : ∀ t : OpenType, ∃ c cs, t.chars = c :: cs ∧ isWord c = true
  | .name n => n.exists_cons
  | .generic n args => by
    obtain ⟨c, cs, h, hc⟩ := n.exists_cons
    exact ⟨c, _, by rw [chars, h]; rfl, hc⟩
  | .union left after before right => by
    obtain ⟨c, cs, h, hc⟩ := left.exists_cons
    exact ⟨c, _, by rw [chars, h]; rfl, hc⟩

/-- A type has no blanks and no quotes at its ends. -/
theorem OpenType.tight : ∀ t : OpenType, Tight t.chars
  | .name n => n.tight
  | .generic n args => by
    obtain ⟨c, cs, h, hc⟩ := (generic n args).exists_cons
    exact ⟨⟨c, cs, h, solid_of_isWord hc⟩, ⟨_, ']', rfl, by decide, by decide⟩⟩
  | .union left after before right => by
    obtain ⟨c, cs, h, hc⟩ := (union left after before right).exists_cons
    obtain ⟨init, d, hright, hd⟩ := right.tight.last
    exact ⟨⟨c, cs, h, solid_of_isWord hc⟩,
      ⟨left.chars ++ after.chars ++ '|' :: (before.chars ++ init), d, by simp [chars, hright], hd⟩⟩

theorem OpenArg.tight (arg : OpenArg) : Tight arg.chars := by
  cases arg with
  | dots =>
    have hdot : Solid '.' := solid_of_isNameChar (by decide +kernel)
    exact ⟨⟨'.', ['.', '.'], rfl, hdot⟩, ⟨['.', '.'], '.', rfl, hdot⟩⟩
  | type t => exact t.tight

/-- No type is written as an ellipsis: it starts with a word. -/
theorem OpenType.chars_ne_dots (t : OpenType) : t.chars ≠ "...".toList := by
  intro h
  obtain ⟨c, cs, hcons, hword⟩ := t.exists_cons
  rw [h] at hcons
  obtain ⟨rfl, -⟩ := List.cons.inj hcons
  revert hword
  decide +kernel

/-! ## Cuts -/

/-- The members of a type between bars. -/
def OpenType.terms : OpenType → List OpenType
  | .union left _ _ right => left.terms ++ right.terms
  | t => [t]

theorem OpenType.terms_ne_nil : ∀ t : OpenType, t.terms ≠ []
  | .name _ => by simp [terms]
  | .generic .. => by simp [terms]
  | .union left _ _ right => by simp [terms, left.terms_ne_nil]

/-- **Cutting at bars** finds the members, with blanks around them or
without. -/
theorem OpenType.members_padded : ∀ (t : OpenType) (before after : Blanks),
    members (before.chars ++ t.chars ++ after.chars) = t.terms.map chars
  | .name n, before, after => by
    have huncut : Uncut '|' 0 (before.chars ++ (name n).chars ++ after.chars) :=
      (uncut_of_isPlain (.inr rfl) (n.isPlain_padded before after)).2 0
    rw [members, huncut, List.map_singleton,
      (name n).tight.trim_padded isMargin_isBlank before.isBlank after.isBlank]
    rfl
  | .generic n args, before, after => by
    have huncut : Uncut '|' 0 (before.chars ++ (generic n args).chars ++ after.chars) := by
      have hargs := SpelledWith.uncut_of_args (.inr rfl) before.isBlank n.isNameChar args.spelling
        after.isBlank
      simpa [chars, args.chars_eq_intercalate] using hargs
    rw [members, huncut, List.map_singleton,
      (generic n args).tight.trim_padded isMargin_isBlank before.isBlank after.isBlank]
    rfl
  | .union left inner outer right, before, after => by
    -- the bar is outside all brackets, and each side has its own blanks
    have hsplit : before.chars ++ (union left inner outer right).chars ++ after.chars =
        (before.chars ++ left.chars ++ inner.chars) ++ '|' ::
          (outer.chars ++ right.chars ++ after.chars) := by
      simp [chars]
    have hdepth : 0 + depth (before.chars ++ left.chars ++ inner.chars) = 0 := by
      rw [(left.spelling.pad before inner).depth_eq_zero, Int.add_zero]
    have hleft := left.members_padded before inner
    have hright := right.members_padded outer after
    rw [members] at hleft hright ⊢
    rw [hsplit, cutTop_append_cons rfl hdepth, List.map_append, hleft, hright, terms,
      List.map_append]

theorem OpenType.members_chars (t : OpenType) : members t.chars = t.terms.map chars := by
  simpa [Blanks.none] using t.members_padded .none .none

namespace OpenArgs

/-- **Cutting at commas** finds the arguments. -/
theorem cutTop_chars : ∀ args : OpenArgs, cutTop ',' 0 args.chars = args.pieces
  | .last before arg after => (arg.spelling.pad before after).uncut_comma
  | .cons before arg after rest => by
    -- bars and brackets of the first argument are inside it, so the comma is at depth zero
    have hpiece := arg.spelling.pad before after
    have hdepth : 0 + depth (before.chars ++ arg.chars ++ after.chars) = 0 := by
      rw [hpiece.depth_eq_zero, Int.add_zero]
    rw [chars, cutTop_append_cons rfl hdepth, hpiece.uncut_comma, rest.cutTop_chars]
    rfl

theorem trim_pieces : ∀ args : OpenArgs,
    args.pieces.map (trim isBlank) = args.items.map OpenArg.chars
  | .last before arg after => congrArg ([·])
    (arg.tight.trim_padded isMargin_isBlank before.isBlank after.isBlank)
  | .cons before arg after rest => congrArg₂ List.cons
    (arg.tight.trim_padded isMargin_isBlank before.isBlank after.isBlank) rest.trim_pieces

/-- **What stands between brackets** are the arguments, none of them
blank. -/
theorem arguments_chars (args : OpenArgs) :
    arguments args.chars = args.items.map OpenArg.chars := by
  have hlast : (args.items.map OpenArg.chars).getLast?.any List.isEmpty = false := by
    rw [List.getLast?_map, List.getLast?_eq_some_getLast args.items_ne_nil, Option.map_some,
      Option.any_some]
    obtain ⟨c, rest, h, -⟩ := (args.items.getLast args.items_ne_nil).tight.first
    rw [h]
    rfl
  rw [arguments, args.cutTop_chars, args.trim_pieces, hlast]
  rfl

end OpenArgs

/-! ## Shapes -/

/-- Nothing but words is looked up with success in a list whose keys are
words. -/
theorem lookup_eq_none_of_not_isWord {entries : List (String × String)} {cs : List Char} {c : Char}
    (hentries : ∀ e ∈ entries, ∀ c ∈ e.1.toList, isWord c = true) (hc : c ∈ cs)
    (h : isWord c = false) : entries.lookup (.ofList cs) = none := by
  cases hlook : entries.lookup (.ofList cs) with
  | none => rfl
  | some type =>
    have hword := hentries _ (mem_of_lookup hlook) c (by rwa [String.toList_ofList])
    rw [h] at hword
    cases hword

theorem isWord_of_all {entries : List (String × String)}
    (h : entries.all (fun e => e.1.toList.all isWord) = true) :
    ∀ e ∈ entries, ∀ c ∈ e.1.toList, isWord c = true :=
  fun e he => List.all_eq_true.1 (List.all_eq_true.1 h e he)

theorem isWord_table : ∀ e ∈ table, ∀ c ∈ e.1.toList, isWord c = true :=
  isWord_of_all (by decide +kernel)

theorem shape_of_lookup_eq_none {cs : List Char} (h : table.lookup (.ofList cs) = none) :
    shape cs = if 1 < (members cs).length then .union (members cs)
      else match subscript? cs with
        | some (name, inner) => .generic (.ofList (lastPart name)) (arguments inner)
        | none => .bare cs := by
  cases hsub : subscript? cs with
  | none => simp only [shape, h, hsub]
  | some inside => simp only [shape, h, hsub]

/-- A text that is cut at its bars is the union of its members. -/
theorem shape_of_bar {cs : List Char} (hbar : '|' ∈ cs) (hlen : 1 < (members cs).length) :
    shape cs = .union (members cs) := by
  have hlook := lookup_eq_none_of_not_isWord isWord_table hbar (by decide +kernel)
  rw [shape_of_lookup_eq_none hlook, if_pos hlen]

/-- A name in front of brackets is the one of a generic type. -/
theorem DottedName.shape_bracket (n : DottedName) {inner : List Char}
    (hlen : (members (n.chars ++ '[' :: inner ++ [']'])).length = 1) :
    shape (n.chars ++ '[' :: inner ++ [']']) = .generic n.last.text (arguments inner) := by
  have hopen : '[' ∈ n.chars ++ '[' :: inner ++ [']'] := by simp
  have hlook := lookup_eq_none_of_not_isWord isWord_table hopen (by decide +kernel)
  have hsub := subscript?_generic n.ne_nil n.isNameChar inner
  rw [shape_of_lookup_eq_none hlook, hlen, if_neg (by decide), hsub]
  simp only [n.lastPart_chars, Word.text]

/-- Brackets behind a name are those of its arguments. -/
theorem OpenType.shape_generic (n : DottedName) (args : OpenArgs) :
    shape (generic n args).chars = .generic n.last.text (args.items.map OpenArg.chars) := by
  have hlen : (members (generic n args).chars).length = 1 := by
    rw [members_chars, terms, List.map_singleton, List.length_singleton]
    nofun
  rw [← args.arguments_chars]
  exact n.shape_bracket hlen

/-- Two sides of a bar are a union of at least two members. -/
theorem OpenType.shape_union (left : OpenType) (after before : Blanks) (right : OpenType) :
    shape (union left after before right).chars =
      .union ((union left after before right).terms.map chars) := by
  have hlen : 1 < ((union left after before right).terms.map chars).length := by
    have hleft := List.length_pos_iff.2 left.terms_ne_nil
    have hright := List.length_pos_iff.2 right.terms_ne_nil
    rw [List.length_map, terms, List.length_append]
    omega
  rw [shape_of_bar (by simp [chars]) (by rwa [members_chars]), members_chars]

/-- A name alone is looked up, or stands for itself. -/
theorem DottedName.shape_chars (n : DottedName) : shape n.chars =
    match table.lookup n.text with
    | some type => .known type
    | none => .bare n.chars := by
  cases hlook : table.lookup n.text with
  | some type => rw [shape, ← text, hlook]
  | none =>
    have hplain := fun c hc => isPlain_of_isNameChar (n.isNameChar c hc)
    have hlen := length_members ((uncut_of_isPlain (.inr rfl) hplain).2 0)
    have hsub : subscript? n.chars = none := by
      refine Option.eq_none_iff_forall_not_mem.2 fun ⟨name, inner⟩ hsub => ?_
      have hopen := bracketless_of_isPlain hplain _ (open_mem_of_subscript? hsub)
      cases hopen
    rw [shape_of_lookup_eq_none hlook, hlen, if_neg (by decide), hsub]

/-! ## Reading a shape -/

/-- A member of a union as it is read: the null value, or a type. -/
def readMember (m : List Char) : Result String :=
  if m = "None".toList then .ok "null" else ofChars m

theorem mapM_attach (f : List Char → Result String) (l : List (List Char)) :
    (l.attach.mapM fun x => f x.1) = l.mapM f := by
  rw [List.mapM_subtype (g := f) (fun _ _ => rfl), List.unattach_attach]

theorem mapM_attach_filter (f : List Char → Result String) (p : List Char → Bool)
    (l : List (List Char)) :
    ((l.attach.filter fun x => p x.1).mapM fun x => f x.1) = (l.filter p).mapM f := by
  rw [List.mapM_subtype (g := f) (fun _ _ => rfl), List.unattach_filter (g := p),
    List.unattach_attach]
  exact fun _ _ => rfl

/-- A list is read if each of its entries is. -/
theorem mapM_map_eq_ok {α : Type} {text : α → List Char} {f : List Char → Result String}
    {type : α → String} : ∀ {l : List α}, (∀ a ∈ l, f (text a) = .ok (type a)) →
      (l.map text).mapM f = .ok (l.map type)
  | [], _ => rfl
  | a :: l, h => by
    obtain ⟨ha, hl⟩ := List.forall_mem_cons.1 h
    rw [List.map_cons, List.mapM_cons, ha, mapM_map_eq_ok hl]
    rfl

section

variable {cs : List Char} {ms args : List (List Char)} {types : List String}

theorem ofChars_known {type : String} (h : shape (clean cs) = .known type) :
    ofChars cs = .ok type := by
  rw [ofChars]
  split <;> simp_all

theorem ofChars_bare {name : List Char} (h : shape (clean cs) = .bare name) :
    ofChars cs = .ok (bareText name) := by
  rw [ofChars]
  split <;> simp_all

theorem ofChars_union (h : shape (clean cs) = .union ms)
    (htypes : ms.mapM readMember = .ok types) : ofChars cs = .ok (" | ".intercalate types) := by
  have hread : (ms.attach.mapM fun m => readMember m.1) = .ok types := by
    rwa [mapM_attach]
  rw [ofChars]
  split <;> simp_all only [reduceCtorEq, Shape.union.injEq]
  case _ ms' hshape =>
    subst h
    exact Result.bind_eq_ok.2 ⟨types, hread, rfl⟩

/-- **A name with arguments** is read as what it is applied to. A tuple
drops the ellipses among them. -/
theorem ofChars_applied {outer first : String} {arg : List Char} {kept members : List String}
    (h : shape (clean cs) = .generic outer (arg :: args)) (hfirst : ofChars arg = .ok first)
    (htypes : (arg :: args).mapM ofChars = .ok types)
    (hkept : ((arg :: args).filter (· ≠ "...".toList)).mapM ofChars = .ok kept)
    (hmembers : (arg :: args).mapM readMember = .ok members) :
    ofChars cs = .ok (appliedType outer first
      (if outer = "tuple" ∨ outer = "Tuple" then kept else types) members) := by
  have htypes' : ((arg :: args).attach.mapM fun a => ofChars a.1) = .ok types := by
    rwa [mapM_attach]
  have hmembers' : ((arg :: args).attach.mapM fun a => readMember a.1) = .ok members := by
    rwa [mapM_attach]
  have hkept' : (((arg :: args).attach.filter (·.1 ≠ "...".toList)).mapM fun a => ofChars a.1)
      = .ok kept := by
    rwa [mapM_attach_filter ofChars (· ≠ "...".toList)]
  rw [ofChars]
  split
  · rename_i hshape
    cases h.symm.trans hshape
  · rename_i hshape
    cases h.symm.trans hshape
  · rename_i hshape
    cases h.symm.trans hshape
  · -- the first argument, or null
    rename_i hshape
    obtain ⟨rfl, rfl⟩ := Shape.generic.inj (h.symm.trans hshape)
    rw [appliedType, if_pos rfl]
    exact Result.bind_eq_ok.2 ⟨first, hfirst, rfl⟩
  · -- the arguments as members
    rename_i hshape
    obtain ⟨rfl, rfl⟩ := Shape.generic.inj (h.symm.trans hshape)
    rw [appliedType, if_neg (by decide), if_pos rfl]
    exact Result.bind_eq_ok.2 ⟨members, hmembers', rfl⟩
  · rename_i hoptional hunion hshape
    obtain ⟨rfl, rfl⟩ := Shape.generic.inj (h.symm.trans hshape)
    rw [appliedType, if_neg hoptional, if_neg hunion]
    by_cases htuple : outer = "tuple" ∨ outer = "Tuple"
    · rw [if_pos (by simpa using htuple), if_pos htuple, if_pos htuple]
      exact Result.bind_eq_ok.2 ⟨kept, hkept', rfl⟩
    · rw [if_neg (by simpa using htuple), if_neg htuple, if_neg htuple]
      exact Result.bind_eq_ok.2 ⟨types, htypes', rfl⟩

end

/-! ## Names and members -/

/-- A name that is not in the table is a container of anything, or a type
of the program. -/
theorem DottedName.bareText_chars {n : DottedName} (h : table.lookup n.text = none) :
    bareText n.chars = n.type := by
  rw [bareText, n.lastPart_chars, ← text, type, h, Word.text]
  split
  · rename_i hgeneric
    simp only [hgeneric, if_true]
  · rename_i generic hrecord hgeneric
    simp only [hgeneric, if_neg hrecord]
  · rename_i hgeneric
    simp only [hgeneric]

/-- **A name alone** is read as it is known. -/
theorem DottedName.ofChars_chars (n : DottedName) : ofChars n.chars = .ok n.type := by
  have hclean : clean n.chars = n.chars := n.tight.clean_eq
  have hshape : shape (clean n.chars) = _ := hclean.symm ▸ n.shape_chars
  cases htable : table.lookup n.text with
  | some type =>
    rw [htable] at hshape
    rw [ofChars_known hshape, DottedName.type, htable]
  | none =>
    rw [htable] at hshape
    rw [ofChars_bare hshape, hclean, bareText_chars htable]

/-- A type is the null value if it is written so. -/
theorem OpenType.chars_eq_none_iff (t : OpenType) : t.chars = "None".toList ↔ t.isNone = true := by
  cases t with
  | name n =>
    rw [chars, isNone, DottedName.isNone, beq_iff_eq, DottedName.text, ← String.toList_inj,
      String.toList_ofList (l := n.chars)]
  | generic n args =>
    refine iff_of_false (fun h => ?_) (by simp [isNone])
    have hopen : '[' ∈ "None".toList := h ▸ by simp [chars]
    revert hopen
    decide
  | union left after before right =>
    refine iff_of_false (fun h => ?_) (by simp [isNone])
    have hbar : '|' ∈ "None".toList := h ▸ by simp [chars]
    revert hbar
    decide

theorem OpenArg.chars_eq_none_iff (arg : OpenArg) :
    arg.chars = "None".toList ↔ arg.isNone = true := by
  cases arg with
  | dots => exact iff_of_false (by decide) (by decide)
  | type t => exact t.chars_eq_none_iff

/-- A member that reads as a type is the null value exactly if it is written
so. -/
theorem readMember_eq {cs : List Char} {isNone : Bool} {type : String}
    (hnone : cs = "None".toList ↔ isNone = true) (h : ofChars cs = .ok type) :
    readMember cs = .ok (memberType isNone type) := by
  rw [readMember, memberType]
  split
  · rename_i hcs
    rw [if_pos (hnone.1 hcs)]
  · rename_i hcs
    rw [if_neg (mt hnone.2 hcs), h]

/-- The text decides only through what `clean` leaves of it. -/
theorem ofChars_congr {a b : List Char} (h : clean a = clean b) : ofChars a = ofChars b := by
  rw [ofChars, ofChars, h]

/-! ## Open types -/

/-- The members of a union denote what they denote one by one. -/
theorem OpenType.memberTypes_eq : ∀ t : OpenType,
    t.memberTypes = t.terms.map fun m => memberType m.isNone m.type
  | .name _ => rfl
  | .generic _ _ => rfl
  | .union left _ _ right => by
    rw [memberTypes, left.memberTypes_eq, right.memberTypes_eq, terms, List.map_append]

theorem OpenArg.keptTypes_eq (arg : OpenArg) :
    arg.keptTypes = ([arg].filter (·.chars ≠ "...".toList)).map denoted := by
  cases arg with
  | dots => simp [keptTypes, chars]
  | type t =>
    have hkeep : (type t).chars ≠ "...".toList := t.chars_ne_dots
    rw [keptTypes, List.filter_cons_of_pos (by simpa using hkeep), List.filter_nil,
      List.map_singleton, denoted]

namespace OpenArgs

theorem types_eq : ∀ args : OpenArgs, args.types = args.items.map OpenArg.denoted
  | .last .. => by rw [types, items, List.map_singleton]
  | .cons _ arg _ rest => by rw [types, items, List.map_cons, rest.types_eq]

theorem memberTypes_eq : ∀ args : OpenArgs,
    args.memberTypes = args.items.map fun a => memberType a.isNone a.denoted
  | .last .. => by rw [memberTypes, items, List.map_singleton]
  | .cons _ arg _ rest => by rw [memberTypes, items, List.map_cons, rest.memberTypes_eq]

/-- **What a tuple keeps** are the arguments that are not written as
ellipses. -/
theorem keptTypes_eq : ∀ args : OpenArgs,
    args.keptTypes = (args.items.filter (·.chars ≠ "...".toList)).map OpenArg.denoted
  | .last _ arg _ => by rw [keptTypes, items, arg.keptTypes_eq]
  | .cons _ arg _ rest => by
    rw [keptTypes, items, arg.keptTypes_eq, rest.keptTypes_eq, ← List.map_append,
      ← List.filter_append, List.singleton_append]

end OpenArgs

/-- **A type is read through its members.** -/
theorem OpenType.ofChars_of_terms {t : OpenType}
    (h : ∀ m ∈ t.terms, ofChars m.chars = .ok m.type) : ofChars t.chars = .ok t.type := by
  cases t with
  | name n => exact h _ (by simp [terms])
  | generic n args => exact h _ (by simp [terms])
  | union left after before right =>
    have hshape := shape_union left after before right
    rw [← (union left after before right).tight.clean_eq] at hshape
    have hread := mapM_map_eq_ok fun m hm => readMember_eq m.chars_eq_none_iff (h m hm)
    rw [ofChars_union hshape hread, ← memberTypes_eq, type, memberTypes]

/-- **A name with arguments is read through these.** -/
theorem OpenType.ofChars_of_items {n : DottedName} {args : OpenArgs}
    (h : ∀ a ∈ args.items, ofChars a.chars = .ok a.denoted) :
    ofChars (generic n args).chars = .ok (generic n args).type := by
  have hshape := shape_generic n args
  rw [← (generic n args).tight.clean_eq] at hshape
  have htypes := mapM_map_eq_ok h
  have hmembers := mapM_map_eq_ok fun a ha => readMember_eq a.chars_eq_none_iff (h a ha)
  have hkept := mapM_map_eq_ok fun a (ha : a ∈ args.items.filter (·.chars ≠ "...".toList)) =>
    h a (List.mem_filter.1 ha).1
  have hdots : (args.items.map OpenArg.chars).filter (· ≠ "...".toList) =
      (args.items.filter (·.chars ≠ "...".toList)).map OpenArg.chars := List.filter_map ..
  rw [← hdots, ← args.keptTypes_eq] at hkept
  rw [type, filledType, args.types_eq, args.memberTypes_eq]
  obtain ⟨a, rest, hitems⟩ := List.exists_cons_of_ne_nil args.items_ne_nil
  have hfirst := h a (by simp [hitems])
  rw [hitems] at hshape htypes hmembers hkept ⊢
  exact ofChars_applied hshape hfirst htypes hkept hmembers

mutual

theorem OpenType.ofChars_terms : ∀ t : OpenType, ∀ m ∈ t.terms, ofChars m.chars = .ok m.type
  | .name n => List.forall_mem_singleton.2 n.ofChars_chars
  | .generic _ args => List.forall_mem_singleton.2 (OpenType.ofChars_of_items args.ofChars_items)
  | .union left _ _ right => List.forall_mem_append.2 ⟨left.ofChars_terms, right.ofChars_terms⟩

theorem OpenArg.ofChars_chars : ∀ arg : OpenArg, ofChars arg.chars = .ok arg.denoted
  | .dots => by decide +kernel
  | .type t => OpenType.ofChars_of_terms t.ofChars_terms

theorem OpenArgs.ofChars_items : ∀ args : OpenArgs, ∀ a ∈ args.items,
    ofChars a.chars = .ok a.denoted
  | .last _ arg _ => List.forall_mem_singleton.2 arg.ofChars_chars
  | .cons _ arg _ rest => List.forall_mem_cons.2 ⟨arg.ofChars_chars, rest.ofChars_items⟩

end

/-- **Open types are read as they are written**, with any blanks at the
ends. -/
theorem OpenType.typeName_text (before : Blanks) (t : OpenType) (after : Blanks) :
    typeName (t.text before after) = .ok t.type := by
  have hclean : clean (before.chars ++ t.chars ++ after.chars) = clean t.chars := by
    rw [t.tight.clean_padded before.isBlank after.isBlank, t.tight.clean_eq]
  rw [typeName, text, String.toList_ofList, ofChars_congr hclean, ofChars_of_terms t.ofChars_terms]

/-! ## Type expressions -/

theorem TypeTerm.typeName_text (t : TypeTerm) : typeName t.text = .ok t.type := by
  have htext : t.text = t.toOpen.text .none .none := by
    simp [TypeTerm.text, OpenType.text, Blanks.none, t.chars_toOpen]
  rw [htext, t.toOpen.typeName_text, t.type_toOpen]

/-- **Types are read as they are written.** The text of a type expression,
with any blanks around its bars and commas and inside its brackets, denotes
what the expression denotes. -/
theorem types_parsed (t : TypeExpr) : typeName t.text = .ok t.type := by
  have htext : t.text = t.toOpen.text t.before t.after := by
    rw [TypeExpr.text, OpenType.text, t.chars_toOpen]
  rw [htext, t.toOpen.typeName_text, t.type_toOpen]

end Scribe
