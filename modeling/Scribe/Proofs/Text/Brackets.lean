import Scribe.Proofs.Emit.Layout
import Scribe.Proofs.Text.Control

/-!
# Brackets

A text is read from left to right with a stack of the brackets that are
still to be closed. `Turns due t due'` says that the text takes one
stack to another, whatever lies below; a text that takes the empty stack
to the empty stack is well nested.

Newlines and blanks do not count, so layout does not change what a text
does: a list of lines acts like its lines one after another, wherever it
is cut, indented or put together.
-/

namespace Scribe

namespace Text

/-- The bracket that closes an opening one. -/
def closing? : Char → Option Char
  | '(' => some ')'
  | '[' => some ']'
  | '\x7b' => some '\x7d'
  | _ => none

/-- A bracket that closes. -/
def isClosing (c : Char) : Bool :=
  c == ')' || c == ']' || c == '\x7d'

/-- A bracket of one of the three kinds. -/
def isBracket (c : Char) : Bool :=
  (closing? c).isSome || isClosing c

/-- The brackets to close after a character, the innermost first; none
if the character closes another bracket than the innermost. -/
def bracketStep (due : List Char) (c : Char) : Option (List Char) :=
  match closing? c with
  | some d => some (d :: due)
  | none =>
    if isClosing c then
      match due with
      | [] => none
      | d :: rest => if d = c then some rest else none
    else some due

/-- The brackets to close after a text. -/
def pending (due : List Char) (t : String) : Option (List Char) :=
  t.toList.foldlM bracketStep due

/-- **A text is well nested** if every bracket in it is closed by one of
its kind, the innermost first. -/
def WellNested (t : String) : Prop :=
  pending [] t = some []

instance (t : String) : Decidable (WellNested t) :=
  inferInstanceAs (Decidable (_ = _))

/-- A text without brackets. -/
def Bracketless (t : String) : Prop :=
  ∀ c ∈ t.toList, isBracket c = false

-- the characters of the text are gone through, not all characters
instance (t : String) : Decidable (Bracketless t) :=
  List.decidableBAll _ t.toList

/-- The text closes the brackets `due` and leaves `due'` to close. -/
def Turns (due : List Char) (t : String) (due' : List Char) : Prop :=
  ∀ below, pending (due ++ below) t = some (due' ++ below)

variable {a b c : List Char} {t u : String} {ts ls ms : List String}

/-! ## One text after another -/

/-- The second text goes on with what the first leaves to close. -/
theorem pending_append (due : List Char) (t u : String) :
    pending due (t ++ u) = (pending due t).bind fun due' => pending due' u := by
  rw [pending, String.toList_append, List.foldlM_append]
  rfl

theorem Turns.append (ht : Turns a t b) (hu : Turns b u c) : Turns a (t ++ u) c := by
  intro below
  rw [pending_append, ht below]
  exact hu below

/-- What lies below the brackets of a text does not matter. -/
theorem Turns.under (ht : Turns a t b) (due : List Char) : Turns (a ++ due) t (b ++ due) := by
  intro below
  rw [List.append_assoc, List.append_assoc]
  exact ht (due ++ below)

theorem bracketStep_append {due due' : List Char} {x : Char} (below : List Char)
    (h : bracketStep due x = some due') :
    bracketStep (due ++ below) x = some (due' ++ below) := by
  unfold bracketStep at h ⊢
  cases hx : closing? x with
  | some d =>
    rw [hx] at h
    obtain rfl := Option.some.inj h
    rfl
  | none =>
    rw [hx] at h
    cases hclose : isClosing x with
    | false =>
      rw [hclose] at h
      obtain rfl := Option.some.inj h
      rfl
    | true =>
      rw [hclose] at h
      cases due with
      | nil => cases h
      | cons d rest =>
        simp only [if_true, Option.ite_none_right_eq_some, Option.some.injEq] at h
        obtain ⟨rfl, rfl⟩ := h
        simp

/-- A text that closes its brackets does not look at what lies below. -/
theorem foldlM_bracketStep_append {cs due due' : List Char} (below : List Char)
    (h : cs.foldlM bracketStep due = some due') :
    cs.foldlM bracketStep (due ++ below) = some (due' ++ below) := by
  induction cs generalizing due with
  | nil =>
    obtain rfl := Option.some.inj h
    rfl
  | cons x cs ih =>
    rw [List.foldlM_cons] at h ⊢
    obtain ⟨mid, hmid, hrest⟩ := Option.bind_eq_some_iff.1 h
    exact Option.bind_eq_some_iff.2 ⟨mid ++ below, bracketStep_append below hmid, ih hrest⟩

/-- A well nested text leaves nothing to close. -/
theorem wellNested_iff : WellNested t ↔ Turns [] t [] :=
  ⟨fun h below => foldlM_bracketStep_append below h, fun h => h []⟩

theorem WellNested.turns (h : WellNested t) (due : List Char) : Turns due t due :=
  (wellNested_iff.1 h).under due

/-- Well nested texts are so one behind the other. -/
theorem WellNested.append (ht : WellNested t) (hu : WellNested u) : WellNested (t ++ u) :=
  wellNested_iff.2 ((ht.turns []).append (hu.turns []))

/-- What opens a bracket still does so behind a well nested text. -/
theorem WellNested.opens (ht : WellNested t) (hu : Turns [] u b) : Turns [] (t ++ u) b :=
  (ht.turns []).append hu

/-- **A text between brackets.** -/
theorem WellNested.between {o k : String} (ht : WellNested t) (ho : Turns [] o b)
    (hk : Turns b k []) : WellNested (o ++ t ++ k) :=
  wellNested_iff.2 ((ho.append (ht.turns b)).append hk)

theorem foldlM_bracketStep_of_bracketless {cs : List Char} (h : ∀ x ∈ cs, isBracket x = false)
    (due : List Char) : cs.foldlM bracketStep due = some due := by
  induction cs with
  | nil => rfl
  | cons x cs ih =>
    have hx := h x (List.mem_cons_self ..)
    simp only [isBracket, Bool.or_eq_false_iff, Option.isSome_eq_false_iff,
      Option.isNone_iff_eq_none] at hx
    have hstep : bracketStep due x = some due := by
      simp [bracketStep, hx.1, hx.2]
    rw [List.foldlM_cons, hstep]
    exact ih fun y hy => h y (List.mem_cons_of_mem _ hy)

/-- Where there is no bracket, none is out of place. -/
theorem Bracketless.wellNested (h : Bracketless t) : WellNested t :=
  foldlM_bracketStep_of_bracketless h []

theorem Bracketless.append (ht : Bracketless t) (hu : Bracketless u) : Bracketless (t ++ u) := by
  intro x hx
  rw [String.toList_append] at hx
  exact (List.mem_append.1 hx).elim (ht x) (hu x)

/-! ## Converted names -/

/-- No conversion of a name makes a bracket. -/
theorem isForeign_of_isBracket {x : Char} (h : isBracket x = true) : IsForeign x := by
  unfold isBracket closing? at h
  split at h
  · decide
  · decide
  · decide
  · simp only [Option.isSome_none, Bool.false_or, isClosing, Bool.or_eq_true, beq_iff_eq] at h
    rcases h with (rfl | rfl) | rfl
    all_goals decide

/-- A text that takes its brackets from another one has none if the
other has none. -/
theorem Bracketless.of_mem (h : Bracketless t)
    (hu : ∀ x ∈ u.toList, isBracket x = true → x ∈ t.toList) : Bracketless u := by
  intro x hx
  refine Bool.eq_false_iff.2 fun hbracket => ?_
  have hmem := hu x hx hbracket
  rw [h x hmem] at hbracket
  cases hbracket

theorem Bracketless.camel (h : Bracketless t) : Bracketless (Identifier.camel t) :=
  h.of_mem fun _ hmem hx => Identifier.mem_of_mem_camel (isForeign_of_isBracket hx) hmem

theorem Bracketless.property (h : Bracketless t) : Bracketless (Identifier.property t) :=
  h.of_mem fun _ hmem hx => Identifier.mem_of_mem_property (isForeign_of_isBracket hx) hmem

theorem Bracketless.pascal (h : Bracketless t) : Bracketless (Identifier.pascal t) :=
  h.of_mem fun _ hmem hx => Identifier.mem_of_mem_pascal (isForeign_of_isBracket hx) hmem

/-! ## Texts in a row -/

/-- Texts joined without brackets act one after another. -/
theorem pending_intercalate {sep : String} (hsep : Bracketless sep) (due : List Char) :
    pending due (sep.intercalate ts) = ts.foldlM pending due := by
  have hskip : ∀ due, pending due sep = some due := foldlM_bracketStep_of_bracketless hsep
  induction ts generalizing due with
  | nil => rfl
  | cons t ts ih =>
    cases ts with
    | nil =>
      rw [String.intercalate_singleton, List.foldlM_cons]
      exact (Option.bind_fun_some (pending due t)).symm
    | cons u ts =>
      rw [String.intercalate_cons_cons, pending_append, pending_append, List.foldlM_cons,
        Option.bind_assoc]
      refine congrArg (Option.bind _) (funext fun mid => ?_)
      rw [hskip]
      exact ih mid

theorem WellNested.intercalate {sep : String} (hsep : Bracketless sep)
    (h : ∀ t ∈ ts, WellNested t) : WellNested (sep.intercalate ts) := by
  rw [WellNested, pending_intercalate hsep]
  induction ts with
  | nil => rfl
  | cons t ts ih =>
    rw [List.foldlM_cons, h t (List.mem_cons_self ..)]
    exact ih fun u hu => h u (List.mem_cons_of_mem _ hu)

/-- Lines act one after another. -/
theorem pending_unlines (due : List Char) (ls : List String) :
    pending due (unlines ls) = ls.foldlM pending due :=
  pending_intercalate (by decide) due

theorem Turns.unlines_append (hl : Turns a (unlines ls) b) (hm : Turns b (unlines ms) c) :
    Turns a (unlines (ls ++ ms)) c := by
  intro below
  have hfirst := hl below
  have hlast := hm below
  rw [pending_unlines] at hfirst hlast ⊢
  rw [List.foldlM_append, hfirst]
  exact hlast

theorem Turns.unlines_cons (ht : Turns a t b) (hl : Turns b (unlines ls) c) :
    Turns a (unlines (t :: ls)) c := by
  have hline : Turns a (unlines [t]) b := by rwa [unlines_singleton]
  exact hline.unlines_append hl

theorem WellNested.unlines_append (hl : WellNested (unlines ls)) (hm : WellNested (unlines ms)) :
    WellNested (unlines (ls ++ ms)) :=
  wellNested_iff.2 ((hl.turns []).unlines_append (hm.turns []))

/-- Lines that are each well nested are so together. -/
theorem WellNested.of_lines (h : ∀ l ∈ ls, WellNested l) : WellNested (unlines ls) :=
  WellNested.intercalate (by decide) h

end Text

open Text

variable {a b : List Char} {t : String} {ls : List String}

/-! ## Layout -/

/-- Lines that are changed without changing what they do. -/
theorem pending_unlines_map {g : String → String} (hg : ∀ due l, pending due (g l) = pending due l)
    (due : List Char) (ls : List String) :
    pending due (unlines (ls.map g)) = pending due (unlines ls) := by
  rw [pending_unlines, pending_unlines, List.foldlM_map]
  exact congrArg (fun f => ls.foldlM f due) (funext fun d => funext fun l => hg d l)

theorem pending_indentLine (d : Nat) (due : List Char) (l : String) :
    pending due (indentLine d l) = pending due l := by
  unfold indentLine
  split
  · rfl
  · have hblanks : pending due (.ofList (List.replicate (2 * d) ' ')) = some due := by
      refine foldlM_bracketStep_of_bracketless (fun x hx => ?_) due
      rw [String.toList_ofList] at hx
      obtain rfl := List.eq_of_mem_replicate hx
      decide
    rw [pending_append, hblanks, Option.bind_some]

/-- **Indentation changes no nesting.** -/
theorem pending_indent (d : Nat) (due : List Char) (ls : List String) :
    pending due (unlines (indent d ls)) = pending due (unlines ls) := by
  have hmap : indent d ls = (ls.flatMap lines).map (indentLine d) := List.map_flatMap.symm
  rw [hmap, pending_unlines_map (pending_indentLine d), unlines_flatMap_lines]

theorem Text.Turns.indent (h : Turns a (unlines ls) b) (d : Nat) :
    Turns a (unlines (indent d ls)) b := by
  intro below
  rw [pending_indent]
  exact h below

/-- Lines that are well nested stay so at any depth. -/
theorem Text.WellNested.indent (h : WellNested (unlines ls)) (d : Nat) :
    WellNested (unlines (indent d ls)) :=
  wellNested_iff.2 ((h.turns []).indent d)

/-- Lines between braces, behind an opening line. -/
theorem wellNested_braced {opening : String} {body : List String} (ho : Turns [] opening ['\x7d'])
    (hbody : WellNested (unlines body)) : WellNested (unlines (braced opening body)) := by
  have hclose : Turns ['\x7d'] (unlines ["\x7d"]) [] := fun _ => rfl
  exact wellNested_iff.2 ((ho.unlines_cons ((hbody.indent 1).turns _)).unlines_append hclose)

/-- A held newline is no bracket, and neither is the newline it becomes. -/
theorem pending_releaseNewlines (due : List Char) (t : String) :
    pending due (Literal.releaseNewlines t) = pending due t := by
  rw [Literal.releaseNewlines, pending, pending, String.toList_ofList, List.foldlM_map]
  congr 1
  funext d x
  split
  · rename_i hheld
    subst hheld
    rfl
  · rfl

/-- **A block is as well nested as its lines.** -/
theorem wellNested_assemble (h : WellNested (unlines ls)) : WellNested (assemble ls) := by
  rw [assemble, WellNested, pending_releaseNewlines]
  exact h

theorem wellNested_statementLines (h : WellNested t) :
    WellNested (unlines (statementLines t)) := by
  have hsemicolon : WellNested ";" := rfl
  rw [statementLines, unlines_lines]
  split
  · exact hsemicolon.append h
  · exact hsemicolon.append h
  · exact h

end Scribe
