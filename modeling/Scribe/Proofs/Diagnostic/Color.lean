import Mathlib.Data.List.Forall2
import Scribe.Diagnostic
import Scribe.Proofs.Emit.Layout

/-!
# Colour in diagnostics

A terminal code is the escape character, an opening bracket, digits and
semicolons, and an `m`. `withoutCodes` removes every code from a text, from
left to right. `color_only_decorates` says that a coloured diagnostic is the
plain one with codes in it, if neither the message nor the file's name nor
the source holds the escape character.

Codes are removed piece by piece: `Decorates s t` says that `s` without its
codes is `t` whatever text follows, so that it can be put together along the
pieces and lines of a diagnostic.
-/

namespace Scribe

/-! ## Terminal codes -/

namespace Terminal

variable {cs rest : List Char} {c : Char} {s t s' t' sep : String}

/-- The character that opens a code. -/
def escape : Char := '\x1b'

/-- What may stand between the bracket and the `m` of a code. -/
def isParameter (c : Char) : Bool :=
  c.isDigit || c == ';'

/-- What follows the letter that closes a code. -/
def afterClose? : List Char → Option (List Char)
  | 'm' :: rest => some rest
  | _ => none

/-- What follows the code at the start of a text, if there is one. -/
def afterCode? : List Char → Option (List Char)
  | '\x1b' :: '[' :: cs => afterClose? (cs.dropWhile isParameter)
  | _ => none

theorem length_afterClose? (h : afterClose? cs = some rest) : rest.length < cs.length := by
  unfold afterClose? at h
  split at h
  · obtain rfl := Option.some.inj h
    exact Nat.lt_succ_self _
  · cases h

/-- A code is not empty, so taking codes out comes to an end. -/
theorem length_afterCode? (h : afterCode? cs = some rest) : rest.length < cs.length := by
  unfold afterCode? at h
  split at h
  · rename_i cs
    have hrest := length_afterClose? h
    have hdrop := (List.dropWhile_suffix isParameter (l := cs)).length_le
    simp only [List.length_cons]
    omega
  · cases h

/-- The text without its codes. -/
def removeCodes (cs : List Char) : List Char :=
  match h : afterCode? cs with
  | some rest =>
    have := length_afterCode? h
    removeCodes rest
  | none =>
    match cs with
    | [] => []
    | c :: cs => c :: removeCodes cs
termination_by cs.length

/-- **The text without its codes.** -/
def withoutCodes (s : String) : String :=
  .ofList (removeCodes s.toList)

/-- A code at the start is taken out. -/
theorem removeCodes_of_code (h : afterCode? cs = some rest) :
    removeCodes cs = removeCodes rest := by
  rw [removeCodes]
  split
  · rename_i heq
    rw [Option.some.inj (h.symm.trans heq)]
  · rename_i heq
    exact nomatch h.symm.trans heq

theorem removeCodes_nil : removeCodes [] = [] := by
  rw [removeCodes]
  rfl

/-- A character that opens no code stays. -/
theorem removeCodes_cons (h : c ≠ escape) (cs : List Char) :
    removeCodes (c :: cs) = c :: removeCodes cs := by
  have hnone : afterCode? (c :: cs) = none := by
    unfold afterCode?
    split
    · rename_i heq
      exact absurd (List.cons.inj heq).1 h
    · rfl
  rw [removeCodes]
  split
  · rename_i heq
    exact nomatch hnone.symm.trans heq
  · rfl

/-! ## Texts with codes in them -/

/-- **The text holds no escape character**, so that it starts no code. -/
def EscapeFree (s : String) : Prop :=
  escape ∉ s.toList

instance (s : String) : Decidable (EscapeFree s) :=
  inferInstanceAs (Decidable (escape ∉ s.toList))

/-- A text holds no escape character if its halves hold none. -/
@[simp] theorem escapeFree_append : EscapeFree (s ++ t) ↔ EscapeFree s ∧ EscapeFree t := by
  simp [EscapeFree]

/-- **The text is one code.** -/
def IsCode (s : String) : Prop :=
  ∃ ps, s.toList = escape :: '[' :: (ps ++ ['m']) ∧ ∀ c ∈ ps, isParameter c = true

theorem IsCode.afterCode?_append (h : IsCode s) (cs : List Char) :
    afterCode? (s.toList ++ cs) = some cs := by
  obtain ⟨ps, hs, hps⟩ := h
  have hdrop : (ps ++ 'm' :: cs).dropWhile isParameter = 'm' :: cs :=
    List.dropWhile_append_of_pos hps
  rw [hs, List.cons_append, List.cons_append, List.append_assoc, List.singleton_append]
  show afterClose? ((ps ++ 'm' :: cs).dropWhile isParameter) = some cs
  rw [hdrop]
  rfl

/-- **The first text is the second with codes in it**: without its codes it
is the second, whatever text follows. -/
def Decorates (s t : String) : Prop :=
  ∀ cs, removeCodes (s.toList ++ cs) = t.toList ++ removeCodes cs

namespace Decorates

theorem refl (h : EscapeFree s) : Decorates s s := by
  intro cs
  unfold EscapeFree at h
  generalize s.toList = xs at h
  induction xs with
  | nil => rfl
  | cons c xs ih =>
    obtain ⟨hc, hxs⟩ : escape ≠ c ∧ escape ∉ xs := by simpa using h
    rw [List.cons_append, removeCodes_cons hc.symm, ih hxs, List.cons_append]

/-- A code decorates nothing at all. -/
theorem of_isCode (h : IsCode s) : Decorates s "" :=
  fun cs => removeCodes_of_code (h.afterCode?_append cs)

/-- Texts that are decorated stay so when they are put together. -/
theorem append (h : Decorates s t) (h' : Decorates s' t') : Decorates (s ++ s') (t ++ t') := by
  intro cs
  rw [String.toList_append, List.append_assoc, h, h', String.toList_append, List.append_assoc]

/-- Texts are decorated one by one. -/
theorem intercalate {ss ts : List String} (hsep : EscapeFree sep)
    (h : List.Forall₂ Decorates ss ts) :
    Decorates (sep.intercalate ss) (sep.intercalate ts) := by
  induction h with
  | nil =>
    rw [String.intercalate_nil]
    exact refl (by decide)
  | cons hs hss ih =>
    cases hss with
    | nil => simpa only [String.intercalate_singleton] using hs
    | cons hs' hss =>
      rw [String.intercalate_cons_cons, String.intercalate_cons_cons]
      exact (hs.append (refl hsep)).append ih

/-- Texts that are made of the same things in two ways. -/
theorem intercalate_map {α : Type} {as : List α} {f g : α → String} (hsep : EscapeFree sep)
    (h : ∀ a ∈ as, Decorates (f a) (g a)) :
    Decorates (sep.intercalate (as.map f)) (sep.intercalate (as.map g)) := by
  refine intercalate hsep ?_
  rw [List.forall₂_map_left_iff, List.forall₂_map_right_iff, List.forall₂_same]
  exact h

/-- **A decorated text** without its codes is the text. -/
theorem withoutCodes_eq (h : Decorates s t) : withoutCodes s = t := by
  have hs := h []
  rw [List.append_nil, removeCodes_nil, List.append_nil] at hs
  rw [withoutCodes, hs, String.ofList_toList]

end Decorates

end Terminal

open Terminal

/-! ## Pieces -/

/-- Every style is switched on by one code. -/
theorem Style.isCode_code (s : Style) : IsCode s.code := by
  cases s with
  | bold => exact ⟨['1'], by decide, List.all_eq_true.1 (by decide)⟩
  | red => exact ⟨['3', '1'], by decide, List.all_eq_true.1 (by decide)⟩
  | blue => exact ⟨['3', '4'], by decide, List.all_eq_true.1 (by decide)⟩

theorem Style.isCode_reset : IsCode Style.reset :=
  ⟨['0'], by decide, List.all_eq_true.1 (by decide)⟩

/-- Several codes decorate nothing either. -/
theorem decorates_codes (styles : List Style) :
    Decorates ("".intercalate (styles.map Style.code)) "" := by
  induction styles with
  | nil => exact .refl (by decide)
  | cons s styles ih =>
    cases styles with
    | nil => exact .of_isCode s.isCode_code
    | cons s' styles =>
      rw [List.map_cons, List.map_cons, String.intercalate_cons_cons]
      exact ((Decorates.of_isCode s.isCode_code).append (.refl (by decide))).append ih

/-- **A piece in colour** has codes around its text. -/
theorem Piece.decorates {p : Piece} (h : EscapeFree p.text) :
    Decorates (p.render true) (p.render false) := by
  have htext := Decorates.refl h
  unfold Piece.render
  cases p.styles.isEmpty with
  | true => exact htext
  | false =>
    have hreset := Decorates.of_isCode Style.isCode_reset
    simpa using ((decorates_codes p.styles).append htext).append hreset

/-! ## The pieces of a diagnostic -/

namespace Diagnostic

theorem escapeFree_repr (n : Int) : EscapeFree n.repr := by
  have hdigits (m : Nat) : EscapeFree m.repr := by
    intro h
    rw [Nat.repr, String.toList_ofList] at h
    exact absurd (Nat.isDigit_of_mem_toDigits (by decide) (by decide) h) (by decide)
  cases n with
  | ofNat m => exact hdigits m
  | negSucc m => exact escapeFree_append.2 ⟨by decide, hdigits (m + 1)⟩

theorem escapeFree_sourceLine {source : String} (h : EscapeFree source) (n : Int) :
    EscapeFree (sourceLine source n) := by
  unfold sourceLine
  split
  · rw [List.getD_eq_getElem?_getD]
    cases hline : (Text.lines source)[(n - 1).toNat]? with
    | none => exact (by decide : EscapeFree "")
    | some line =>
      have hoccurs := Text.occurs_unlines (Text.Occurs.refl line) (List.mem_of_getElem? hline)
      rw [Text.unlines_lines] at hoccurs
      exact fun hmem => h (hoccurs.subset hmem)
  · decide

theorem escapeFree_replicate {c : Char} (h : c ≠ escape) (n : Nat) :
    EscapeFree (.ofList (List.replicate n c)) := by
  simp [EscapeFree, h.symm]

/-- Carets are blanks and signs. -/
theorem escapeFree_carets (l : Location) (line : String) : EscapeFree (carets l line) := by
  simp +decide [EscapeFree, carets]

theorem escapeFree_gutter (width : Nat) : EscapeFree (gutter width).text := by
  simp +decide [EscapeFree, gutter]

theorem escapeFree_text {l : Location} (h : EscapeFree l.file) : EscapeFree l.text := by
  simp +decide [Location.text, h, escapeFree_repr]

theorem escapeFree_excerpt {source : String} (h : EscapeFree source) (l : Location) :
    ∀ line ∈ excerpt l source, ∀ p ∈ line, EscapeFree p.text := by
  simp +decide [excerpt, Piece.plain, escapeFree_gutter, escapeFree_repr, escapeFree_carets,
    escapeFree_sourceLine h]

/-- **The texts of the pieces** hold the escape character only if the
message, the file's name or the source does. -/
theorem escapeFree_pieces {f : Fault} {source : Option String} (hmessage : EscapeFree f.message)
    (hfile : ∀ l ∈ f.location, EscapeFree l.file) (hsource : ∀ s ∈ source, EscapeFree s) :
    ∀ line ∈ pieces f source, ∀ p ∈ line, EscapeFree p.text := by
  unfold pieces
  cases hloc : f.location with
  | none =>
    simp +decide [Piece.plain, hmessage]
  | some l =>
    have hplace := escapeFree_text (hfile l hloc)
    have hindent := escapeFree_replicate (c := ' ') (by decide) l.line.repr.length
    refine List.forall_mem_append.2 ⟨?_, ?_⟩
    · simp +decide [Piece.plain, hmessage, hindent, hplace]
    · cases source with
      | none => nofun
      | some s => exact escapeFree_excerpt (hsource s rfl) l

/-- **Colour only decorates.** If neither the message nor the file's name nor
the source holds the escape character, a coloured diagnostic without its
codes is the plain one. -/
theorem color_only_decorates (f : Fault) (source : Option String)
    (hmessage : EscapeFree f.message) (hfile : ∀ l ∈ f.location, EscapeFree l.file)
    (hsource : ∀ s ∈ source, EscapeFree s) :
    withoutCodes (render true f source) = render false f source := by
  have hpieces := escapeFree_pieces hmessage hfile hsource
  refine Decorates.withoutCodes_eq (.intercalate_map (by decide) fun line hline => ?_)
  exact .intercalate_map (by decide) fun p hp => Piece.decorates (hpieces line hline p hp)

/-- A fault whose texts hold all of a code but its first character. -/
def bracketFault : Fault :=
  ⟨.general "cannot close [0m", some ⟨"[1m.py", 2, 1, 6, 10, 2, 5⟩⟩

/-- What only looks like a code is kept, and the codes are not. -/
theorem color_only_decorates_brackets :
    EscapeFree bracketFault.message ∧ (∀ l ∈ bracketFault.location, EscapeFree l.file) ∧
    (∀ s ∈ some "a = 1\n[31m", EscapeFree s) ∧
    withoutCodes (render true bracketFault (some "a = 1\n[31m")) =
      render false bracketFault (some "a = 1\n[31m") ∧
    render true bracketFault (some "a = 1\n[31m") ≠
      render false bracketFault (some "a = 1\n[31m") := by
  have hmessage : EscapeFree bracketFault.message := by decide
  have hfile : ∀ l ∈ bracketFault.location, EscapeFree l.file := by
    rintro l ⟨⟩
    decide
  have hsource : ∀ s ∈ some "a = 1\n[31m", EscapeFree s := by
    rintro s ⟨⟩
    decide
  exact ⟨hmessage, hfile, hsource,
    color_only_decorates bracketFault (some "a = 1\n[31m") hmessage hfile hsource,
    by decide +kernel⟩

end Diagnostic

end Scribe
