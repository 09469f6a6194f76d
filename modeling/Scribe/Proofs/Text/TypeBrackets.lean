import Mathlib.Data.List.TakeWhile
import Scribe.Proofs.Text.Brackets

/-!
# Brackets in types

`TypeName.Spelling` is the grammar of type spellings: names, names with
arguments in brackets, and alternatives between bars. A type that is
spelled so is well nested (`wellNested_typeName`).

The spelling is taken apart by hand-written scans, so the proof is about
these: at depth zero a spelling is cut at its own bars and commas only,
trimming keeps it a spelling, and its shape holds spellings again.

A name in front of a bracket has to be made of the characters the scan
knows. Behind another one the bracket is not seen, and the spelling is
taken for a single name.
-/

namespace Scribe

namespace TypeName

open Text

/-- A character that stands for itself in a spelling. -/
def isPlain (c : Char) : Bool :=
  !isBracket c && c != ',' && c != '|'

/-- **A spelling of a type**: a name; a name with arguments in brackets,
between blanks; or two spellings with a bar between them. A name in front
of a bracket is made of the characters `isHead`. -/
inductive SpelledWith (isHead : Char → Bool) : List Char → Prop
  | name {cs : List Char} : (∀ c ∈ cs, isPlain c = true) → SpelledWith isHead cs
  | generic {before name after : List Char} {args : List (List Char)} :
    (∀ c ∈ before, isBlank c = true) → name ≠ [] → (∀ c ∈ name, isHead c = true) →
    (∀ a ∈ args, SpelledWith isHead a) → (∀ c ∈ after, isBlank c = true) →
    SpelledWith isHead (before ++ name ++ '[' :: [','].intercalate args ++ ']' :: after)
  | union {a b : List Char} : SpelledWith isHead a → SpelledWith isHead b →
    SpelledWith isHead (a ++ '|' :: b)

/-- A spelling whose names in front of brackets are dotted names. -/
abbrev Spelling : List Char → Prop :=
  SpelledWith isNameChar

variable {sep : Char} {d : Int} {a b cs before name after : List Char} {args : List (List Char)}

/-! ## Characters -/

/-- Brackets, commas and bars are the characters that are not plain. -/
theorem isPlain_eq_false {c : Char} (h : isPlain c = false) :
    c ∈ ['(', ')', '[', ']', '\x7b', '\x7d', ',', '|'] := by
  unfold isPlain isBracket closing? at h
  split at h
  · decide
  · decide
  · decide
  · simp only [Option.isSome_none, Bool.false_or, isClosing, Bool.and_eq_false_iff,
      Bool.not_eq_false', Bool.or_eq_true, beq_iff_eq, bne_eq_false_iff_eq] at h
    rcases h with (((rfl | rfl) | rfl) | rfl) | rfl
    all_goals decide

/-- The characters of dotted names are plain. -/
theorem isPlain_of_isNameChar {c : Char} (h : isNameChar c = true) : isPlain c = true := by
  cases hplain : isPlain c with
  | true => rfl
  | false =>
    have hnone : ['(', ')', '[', ']', '\x7b', '\x7d', ',', '|'].all (!isNameChar ·) = true := by
      decide +kernel
    have hc := List.all_eq_true.1 hnone c (isPlain_eq_false hplain)
    rw [h] at hc
    cases hc

/-- The blanks, by their numbers. -/
def blankCodes : List Nat :=
  List.range' 0x09 5 ++ List.range' 0x1c 5 ++ List.range' 0x2000 11
    ++ [0x85, 0xa0, 0x1680, 0x2028, 0x2029, 0x202f, 0x205f, 0x3000]

theorem mem_blankCodes {c : Char} (h : isBlank c = true) : c.toNat ∈ blankCodes := by
  simp only [isBlank, Bool.or_eq_true, Bool.and_eq_true, decide_eq_true_eq, beq_iff_eq] at h
  simp only [blankCodes, List.mem_append, List.mem_range'_1, List.mem_cons, List.not_mem_nil,
    or_false]
  omega

/-- No blank and no quote stands in a dotted name, and all are plain. -/
theorem margin_char {c : Char} (h : isBlank c = true ∨ isQuote c = true) :
    isNameChar c = false ∧ isPlain c = true := by
  rcases h with h | h
  · have hall : blankCodes.all (fun n => !isNameChar (.ofNat n) && isPlain (.ofNat n)) = true := by
      decide +kernel
    have hc := List.all_eq_true.1 hall c.toNat (mem_blankCodes h)
    simpa [Char.ofNat_toNat] using hc
  · simp only [isQuote, Bool.or_eq_true, beq_iff_eq] at h
    rcases h with rfl | rfl
    all_goals decide +kernel

theorem depthStep_of_isPlain {c : Char} (h : isPlain c = true) : depthStep c = 0 := by
  have hopen : c ≠ '[' := by
    rintro rfl
    revert h
    decide
  have hclose : c ≠ ']' := by
    rintro rfl
    revert h
    decide
  rw [depthStep, if_neg hopen, if_neg hclose]

/-! ## Cutting -/

/-- The depth behind a text that starts at depth zero. -/
def depth : List Char → Int
  | [] => 0
  | c :: cs => depthStep c + depth cs

@[simp] theorem depth_append (a b : List Char) : depth (a ++ b) = depth a + depth b := by
  induction a with
  | nil => rw [List.nil_append, depth, Int.zero_add]
  | cons c a ih => rw [List.cons_append, depth, depth, ih, Int.add_assoc]

/-- No separator stands at depth zero. -/
def Uncut (sep : Char) (d : Int) (cs : List Char) : Prop :=
  cutTop sep d cs = [cs]

theorem uncut_cons {c : Char} : Uncut sep d (c :: cs) ↔
    ¬ (c = sep ∧ d + depthStep c = 0) ∧ Uncut sep (d + depthStep c) cs := by
  rw [Uncut, cutTop]
  split
  · rename_i hsep
    exact ⟨fun h => absurd (List.cons.inj h).1.symm (List.cons_ne_nil _ _),
      fun h => absurd hsep h.1⟩
  · rename_i hsep
    obtain ⟨p, ps, hcut⟩ := List.exists_cons_of_ne_nil (cutTop_ne_nil sep (d + depthStep c) cs)
    simp [hsep, Uncut, hcut]

theorem Uncut.append (ha : Uncut sep d a) (hb : Uncut sep (d + depth a) b) :
    Uncut sep d (a ++ b) := by
  induction a generalizing d with
  | nil => simpa [depth] using hb
  | cons c a ih =>
    obtain ⟨hc, ha⟩ := uncut_cons.1 ha
    refine uncut_cons.2 ⟨hc, ih ha ?_⟩
    rwa [depth, ← Int.add_assoc] at hb

/-- **A separator at depth zero cuts**, and only there. -/
theorem cutTop_append_cons (hsep : depthStep sep = 0) (hd : d + depth a = 0) (b : List Char) :
    cutTop sep d (a ++ sep :: b) = cutTop sep d a ++ cutTop sep 0 b := by
  induction a generalizing d with
  | nil =>
    obtain rfl : d = 0 := by simpa [depth] using hd
    simp [cutTop, hsep]
  | cons c a ih =>
    rw [depth, ← Int.add_assoc] at hd
    rw [List.cons_append, cutTop, ih hd, cutTop]
    split
    · rfl
    · obtain ⟨p, ps, hcut⟩ := List.exists_cons_of_ne_nil (cutTop_ne_nil sep (d + depthStep c) a)
      rw [hcut]
      rfl

/-- A character that separates the parts of spellings. -/
def IsSeparator (sep : Char) : Prop :=
  sep = ',' ∨ sep = '|'

/-- Plain characters do not change the depth and separate nothing. -/
theorem uncut_of_isPlain (hsep : IsSeparator sep) (h : ∀ c ∈ cs, isPlain c = true) :
    depth cs = 0 ∧ ∀ d, Uncut sep d cs := by
  induction cs with
  | nil => exact ⟨rfl, fun _ => rfl⟩
  | cons c cs ih =>
    obtain ⟨hdepth, hcut⟩ := ih fun x hx => h x (List.mem_cons_of_mem _ hx)
    have hplain := h c (List.mem_cons_self ..)
    have hc : c ≠ sep := by
      rintro rfl
      rcases hsep with rfl | rfl
      all_goals exact absurd hplain (by decide)
    exact ⟨by rw [depth, depthStep_of_isPlain hplain, hdepth]; rfl,
      fun d => uncut_cons.2 ⟨fun hsplit => hc hsplit.1, hcut _⟩⟩

theorem depth_intercalate (h : ∀ a ∈ args, depth a = 0) : depth ([','].intercalate args) = 0 := by
  induction args with
  | nil => rfl
  | cons a args ih =>
    have ha := h a (List.mem_cons_self ..)
    cases args with
    | nil => simpa using ha
    | cons a' args =>
      rw [List.intercalate_cons_cons, depth_append, depth_append, ha,
        ih fun x hx => h x (List.mem_cons_of_mem _ hx)]
      rfl

/-- Below depth zero even the commas between arguments do not cut. -/
theorem uncut_intercalate (hd : 0 < d) (h : ∀ a ∈ args, Uncut sep d a ∧ depth a = 0) :
    Uncut sep d ([','].intercalate args) := by
  induction args with
  | nil => rfl
  | cons a args ih =>
    obtain ⟨ha, hdepth⟩ := h a (List.mem_cons_self ..)
    cases args with
    | nil => simpa using ha
    | cons a' args =>
      have hcomma : depthStep ',' = 0 := rfl
      have hrest := ih fun x hx => h x (List.mem_cons_of_mem _ hx)
      rw [List.intercalate_cons_cons, List.append_assoc, List.singleton_append]
      refine ha.append (uncut_cons.2 ⟨fun hsplit => ?_, ?_⟩)
      · omega
      · rwa [hdepth, hcomma, Int.add_zero, Int.add_zero]

/-- The brackets of a generic type lift its arguments above depth
zero. -/
theorem uncut_generic (hsep : IsSeparator sep) (hd : 0 ≤ d)
    (hbefore : ∀ c ∈ before, isBlank c = true) (hname : ∀ c ∈ name, isNameChar c = true)
    (hargs : ∀ a ∈ args, Uncut sep (d + 1) a ∧ depth a = 0)
    (hafter : ∀ c ∈ after, isBlank c = true) :
    Uncut sep d (before ++ name ++ '[' :: [','].intercalate args ++ ']' :: after) := by
  have hfirst := uncut_of_isPlain hsep fun c hc => (margin_char (.inl (hbefore c hc))).2
  have hsecond := uncut_of_isPlain hsep fun c hc => isPlain_of_isNameChar (hname c hc)
  have hlast := uncut_of_isPlain hsep fun c hc => (margin_char (.inl (hafter c hc))).2
  have hopen : depthStep '[' = 1 := rfl
  have hclose : depthStep ']' = -1 := rfl
  have hinner := uncut_intercalate (by omega) hargs
  have hdepth := depth_intercalate fun a ha => (hargs a ha).2
  have hne : sep ≠ '[' ∧ sep ≠ ']' := by
    rcases hsep with rfl | rfl
    all_goals decide
  refine .append (.append (.append (hfirst.2 d) (hsecond.2 _)) ?_) ?_
  · refine uncut_cons.2 ⟨fun hsplit => hne.1 hsplit.1.symm, ?_⟩
    rwa [depth_append, hfirst.1, hsecond.1, hopen, Int.add_zero, Int.add_zero]
  · exact uncut_cons.2 ⟨fun hsplit => hne.2 hsplit.1.symm, hlast.2 _⟩

namespace SpelledWith

/-- A spelling closes what it opens. -/
theorem depth_eq_zero (h : Spelling cs) : depth cs = 0 := by
  induction h with
  | name hplain => exact (uncut_of_isPlain (.inl rfl) hplain).1
  | generic hbefore _ hname _ hafter ih =>
    have hopen : depthStep '[' = 1 := rfl
    have hclose : depthStep ']' = -1 := rfl
    have hfirst :=
      uncut_of_isPlain (.inl rfl) fun c hc => (margin_char (.inl (hbefore c hc))).2
    have hsecond := uncut_of_isPlain (.inl rfl) fun c hc => isPlain_of_isNameChar (hname c hc)
    have hlast := uncut_of_isPlain (.inl rfl) fun c hc => (margin_char (.inl (hafter c hc))).2
    rw [depth_append, depth_append, depth_append, depth, depth, hfirst.1, hsecond.1,
      hlast.1, hopen, hclose, depth_intercalate ih]
    rfl
  | union _ _ iha ihb =>
    have hbar : depthStep '|' = 0 := rfl
    rw [depth_append, depth, iha, ihb, hbar]
    rfl

/-- Inside brackets a spelling is not cut. -/
theorem uncut_of_pos (h : Spelling cs) (hsep : IsSeparator sep) (hd : 0 < d) :
    Uncut sep d cs := by
  induction h generalizing d with
  | name hplain => exact (uncut_of_isPlain hsep hplain).2 d
  | generic hbefore _ hname hargs hafter ih =>
    exact uncut_generic hsep (by omega) hbefore hname
      (fun a ha => ⟨ih a ha (by omega), (hargs a ha).depth_eq_zero⟩) hafter
  | union ha _ iha ihb =>
    have hbar : TypeName.depthStep '|' = 0 := rfl
    have hdepth := ha.depth_eq_zero
    exact (iha hd).append (uncut_cons.2 ⟨by omega, ihb (by omega)⟩)

/-- The arguments of a generic type are spelled inside its brackets. -/
theorem uncut_of_args (hsep : IsSeparator sep) (hbefore : ∀ c ∈ before, isBlank c = true)
    (hname : ∀ c ∈ name, isNameChar c = true) (hargs : ∀ a ∈ args, Spelling a)
    (hafter : ∀ c ∈ after, isBlank c = true) :
    Uncut sep 0 (before ++ name ++ '[' :: [','].intercalate args ++ ']' :: after) :=
  uncut_generic hsep (Int.le_refl 0) hbefore hname
    (fun a ha => ⟨(hargs a ha).uncut_of_pos hsep (by decide), (hargs a ha).depth_eq_zero⟩) hafter

/-- **Commas separate arguments only.** -/
theorem uncut_comma (h : Spelling cs) : Uncut ',' 0 cs := by
  induction h with
  | name hplain => exact (uncut_of_isPlain (.inl rfl) hplain).2 0
  | generic hbefore _ hname hargs hafter _ =>
    exact uncut_of_args (.inl rfl) hbefore hname hargs hafter
  | union ha _ iha ihb =>
    have hbar : TypeName.depthStep '|' = 0 := rfl
    have hdepth := ha.depth_eq_zero
    refine iha.append (uncut_cons.2 ⟨fun hsplit => absurd hsplit.1 (by decide), ?_⟩)
    rwa [hdepth, hbar]

/-- **The pieces between bars are spellings.** -/
theorem of_mem_cutTop (h : Spelling cs) : ∀ p ∈ cutTop '|' 0 cs, Spelling p := by
  induction h with
  | name hplain =>
    intro p hp
    rw [(uncut_of_isPlain (.inr rfl) hplain).2 0, List.mem_singleton] at hp
    exact hp ▸ .name hplain
  | generic hbefore hne hname hargs hafter _ =>
    intro p hp
    rw [uncut_of_args (.inr rfl) hbefore hname hargs hafter, List.mem_singleton] at hp
    exact hp ▸ .generic hbefore hne hname hargs hafter
  | union ha _ iha ihb =>
    intro p hp
    rw [cutTop_append_cons rfl (by rw [ha.depth_eq_zero]; rfl), List.mem_append] at hp
    exact hp.elim (iha p) (ihb p)

/-- **The pieces between commas are the arguments.** -/
theorem of_mem_intercalate (hargs : ∀ a ∈ args, Spelling a) :
    ∀ p ∈ cutTop ',' 0 ([','].intercalate args), Spelling p := by
  induction args with
  | nil =>
    intro p hp
    obtain rfl := List.mem_singleton.1 hp
    exact .name nofun
  | cons a args ih =>
    have ha := hargs a (List.mem_cons_self ..)
    intro p hp
    cases args with
    | nil =>
      rw [List.intercalate_singleton, ha.uncut_comma, List.mem_singleton] at hp
      exact hp ▸ ha
    | cons a' args =>
      rw [List.intercalate_cons_cons, List.append_assoc, List.singleton_append,
        cutTop_append_cons rfl (by rw [ha.depth_eq_zero]; rfl), ha.uncut_comma,
        List.mem_append, List.mem_singleton] at hp
      rcases hp with rfl | hp
      · exact ha
      · exact ih (fun x hx => hargs x (List.mem_cons_of_mem _ hx)) p hp

end SpelledWith

/-! ## Trimming -/

variable {p : Char → Bool} {x y : Char}

/-- Trimming stops at the first character that stays. -/
theorem trimStart_append_cons (hx : p x = false) (a b : List Char) :
    trimStart p (a ++ x :: b) = trimStart p a ++ x :: b := by
  induction a with
  | nil => simp [trimStart, hx]
  | cons c a ih =>
    simp only [trimStart] at ih ⊢
    by_cases hc : p c = true
    · simp [hc, ih]
    · simp [hc]

theorem trimEnd_append_cons (hx : p x = false) (a b : List Char) :
    trimEnd p (a ++ x :: b) = a ++ x :: trimEnd p b := by
  have hrev : (a ++ x :: b).reverse = b.reverse ++ x :: a.reverse := by simp
  have hcut := trimStart_append_cons hx b.reverse a.reverse
  rw [trimStart, trimStart] at hcut
  rw [trimEnd, hrev, hcut, trimEnd]
  simp

/-- Trimming stops at both ends. -/
theorem trim_between (hx : p x = false) (hy : p y = false) (a m b : List Char) :
    trim p (a ++ x :: m ++ y :: b) = trimStart p a ++ x :: m ++ y :: trimEnd p b := by
  rw [trim, List.append_assoc, List.cons_append, trimStart_append_cons hx, ← List.cons_append,
    ← List.append_assoc, trimEnd_append_cons hy]

/-- The blanks and the quotes at the ends of a spelling are what is
trimmed. -/
def IsMargin (p : Char → Bool) : Prop :=
  ∀ c, p c = true → isBlank c = true ∨ isQuote c = true

/-- No character of a name is trimmed. -/
theorem IsMargin.of_isNameChar (hp : IsMargin p) {c : Char} (h : isNameChar c = true) :
    p c = false := by
  refine Bool.eq_false_iff.2 fun hc => ?_
  rw [(margin_char (hp c hc)).1] at h
  cases h

theorem IsMargin.of_not_isPlain (hp : IsMargin p) {c : Char} (h : isPlain c = false) :
    p c = false := by
  refine Bool.eq_false_iff.2 fun hc => ?_
  rw [(margin_char (hp c hc)).2] at h
  cases h

theorem isMargin_isBlank : IsMargin isBlank := fun _ => .inl

theorem isMargin_isQuote : IsMargin isQuote := fun _ => .inr

namespace SpelledWith

theorem trimStart (hp : IsMargin p) (h : Spelling cs) : Spelling (trimStart p cs) := by
  induction h with
  | name hplain => exact .name fun c hc => hplain c ((List.dropWhile_suffix p).subset hc)
  | @generic before name after args hbefore hne hname hargs hafter _ =>
    obtain ⟨n, rest, rfl⟩ := List.exists_cons_of_ne_nil hne
    have hn := hp.of_isNameChar (hname n (List.mem_cons_self ..))
    rw [List.append_assoc, List.append_assoc, List.cons_append, trimStart_append_cons hn,
      ← List.cons_append, ← List.append_assoc, ← List.append_assoc]
    exact .generic (fun c hc => hbefore c ((List.dropWhile_suffix p).subset hc)) hne hname hargs
      hafter
  | union _ hb iha _ =>
    rw [trimStart_append_cons (hp.of_not_isPlain (by decide))]
    exact .union iha hb

theorem trimEnd (hp : IsMargin p) (h : Spelling cs) : Spelling (trimEnd p cs) := by
  have hsub : ∀ {c : Char} {a : List Char}, c ∈ Text.trimEnd p a → c ∈ a := by
    intro c a hc
    exact List.mem_reverse.1 ((List.dropWhile_suffix p).subset (List.mem_reverse.1 hc))
  induction h with
  | name hplain => exact .name fun c hc => hplain c (hsub hc)
  | generic hbefore hne hname hargs hafter _ =>
    rw [trimEnd_append_cons (hp.of_not_isPlain (by decide))]
    exact .generic hbefore hne hname hargs fun c hc => hafter c (hsub hc)
  | union ha _ _ ihb =>
    rw [trimEnd_append_cons (hp.of_not_isPlain (by decide))]
    exact .union ha ihb

theorem trim (hp : IsMargin p) (h : Spelling cs) : Spelling (trim p cs) :=
  (h.trimStart hp).trimEnd hp

end SpelledWith

theorem trimStart_eq_nil (h : ∀ c ∈ a, p c = true) : trimStart p a = [] :=
  List.dropWhile_eq_nil_iff.2 h

theorem trimEnd_eq_nil (h : ∀ c ∈ a, p c = true) : trimEnd p a = [] := by
  rw [trimEnd, List.dropWhile_eq_nil_iff.2 fun c hc => h c (List.mem_reverse.1 hc)]
  rfl

/-- A generic type is cleaned of the blanks around it, and of nothing
else. -/
theorem clean_generic (hbefore : ∀ c ∈ before, isBlank c = true) (hne : name ≠ [])
    (hname : ∀ c ∈ name, isNameChar c = true) (inner : List Char)
    (hafter : ∀ c ∈ after, isBlank c = true) :
    clean (before ++ name ++ '[' :: inner ++ ']' :: after) = name ++ '[' :: inner ++ [']'] := by
  obtain ⟨n, rest, rfl⟩ := List.exists_cons_of_ne_nil hne
  have hn := hname n (List.mem_cons_self ..)
  have htrim : ∀ {p : Char → Bool}, IsMargin p → ∀ a b : List Char,
      trim p (a ++ n :: rest ++ '[' :: inner ++ ']' :: b) =
        trimStart p a ++ n :: rest ++ '[' :: inner ++ ']' :: trimEnd p b := by
    intro p hp a b
    have hsplit := trim_between (hp.of_isNameChar hn)
      (hp.of_not_isPlain (c := ']') (by decide)) a (rest ++ '[' :: inner) b
    simpa using hsplit
  have hfirst := htrim isMargin_isBlank before after
  have hsecond := htrim isMargin_isQuote [] []
  rw [trimStart_eq_nil hbefore, trimEnd_eq_nil hafter, List.nil_append] at hfirst
  rw [clean, hfirst]
  exact hsecond

/-- **What a cleaned spelling looks like.** -/
theorem SpelledWith.clean_cases (h : Spelling cs) :
    (∀ c ∈ clean cs, isPlain c = true) ∨
    (∃ name args, name ≠ [] ∧ (∀ c ∈ name, isNameChar c = true) ∧ (∀ a ∈ args, Spelling a) ∧
      clean cs = name ++ '[' :: [','].intercalate args ++ [']']) ∨
    ∃ a b, Spelling a ∧ Spelling b ∧ clean cs = a ++ '|' :: b := by
  cases h with
  | name hplain => exact .inl fun c hc => hplain c (mem_of_mem_trim (mem_of_mem_trim hc))
  | generic hbefore hne hname hargs hafter =>
    exact .inr (.inl ⟨_, _, hne, hname, hargs, clean_generic hbefore hne hname _ hafter⟩)
  | @union a b ha hb =>
    have htrim : ∀ {p : Char → Bool}, IsMargin p → ∀ a b : List Char,
        Text.trim p (a ++ '|' :: b) = Text.trimStart p a ++ '|' :: Text.trimEnd p b := by
      intro p hp a b
      have hbar := hp.of_not_isPlain (c := '|') (by decide)
      rw [Text.trim, trimStart_append_cons hbar, trimEnd_append_cons hbar]
    refine .inr (.inr ⟨_, _, (ha.trimStart isMargin_isBlank).trimStart isMargin_isQuote,
      (hb.trimEnd isMargin_isBlank).trimEnd isMargin_isQuote, ?_⟩)
    rw [clean, htrim isMargin_isBlank, htrim isMargin_isQuote]

/-! ## Shapes -/

/-- **The shape of a spelling** holds spellings, and no bracket stands
beside them. -/
def Shape.IsSpelled : Shape → Prop
  | .known type => Bracketless type
  | .union ms => ∀ m ∈ ms, Spelling m
  | .generic outer args => Bracketless outer ∧ ∀ a ∈ args, Spelling a
  | .bare name => ∀ c ∈ name, isBracket c = false

/-- The spellings inside a shape are spellings. -/
theorem Shape.IsSpelled.pieces {s : Shape} (h : s.IsSpelled) : ∀ p ∈ s.pieces, Spelling p := by
  cases s with
  | known type => nofun
  | union ms => exact h
  | generic outer args => exact h.2
  | bare name => nofun

/-- What the shape of a text can be. -/
theorem shape_cases (cs : List Char) :
    (∃ type, table.lookup (.ofList cs) = some type ∧ shape cs = .known type) ∨
    (1 < (members cs).length ∧ shape cs = .union (members cs)) ∨
    (∃ name inner, ¬ 1 < (members cs).length ∧ subscript? cs = some (name, inner) ∧
      shape cs = .generic (.ofList (lastPart name)) (arguments inner)) ∨
    (¬ 1 < (members cs).length ∧ subscript? cs = none ∧ shape cs = .bare cs) := by
  unfold shape
  split
  · rename_i type hlook
    exact .inl ⟨type, hlook, rfl⟩
  · split
    · rename_i hlen
      exact .inr (.inl ⟨hlen, rfl⟩)
    · rename_i hlen
      split
      · rename_i name inner hsub
        exact .inr (.inr (.inl ⟨name, inner, hlen, hsub, rfl⟩))
      · rename_i hsub
        exact .inr (.inr (.inr ⟨hlen, hsub, rfl⟩))

theorem bracketless_of_isPlain (h : ∀ c ∈ cs, isPlain c = true) :
    ∀ c ∈ cs, isBracket c = false := by
  intro c hc
  have hplain := h c hc
  simp only [isPlain, Bool.and_eq_true, Bool.not_eq_true'] at hplain
  exact hplain.1.1

theorem bracketless_of_lookup {entries : List (String × String)} {key type : String}
    (hentries : ∀ e ∈ entries, Bracketless e.2) (h : entries.lookup key = some type) :
    Bracketless type :=
  hentries _ (mem_of_lookup h)

theorem bracketless_table : ∀ e ∈ table, Bracketless e.2 := by
  decide +kernel

theorem bracketless_generics : ∀ e ∈ generics, Bracketless e.2 := by
  decide +kernel

/-- A name in front of a bracket is read off with what the bracket
holds. -/
theorem subscript?_generic (hne : name ≠ []) (hname : ∀ c ∈ name, isNameChar c = true)
    (inner : List Char) : subscript? (name ++ '[' :: inner ++ [']']) = some (name, inner) := by
  have hstop : isNameChar '[' = false := by decide +kernel
  have hassoc : name ++ '[' :: inner ++ [']'] = name ++ '[' :: (inner ++ [']']) := by simp
  have htake : (name ++ '[' :: (inner ++ [']'])).takeWhile isNameChar = name := by
    rw [List.takeWhile_append_of_pos hname, List.takeWhile_cons_of_neg (by simp [hstop]),
      List.append_nil]
  have hdrop : (name ++ '[' :: (inner ++ [']'])).dropWhile isNameChar
      = '[' :: (inner ++ [']']) := by
    rw [List.dropWhile_append_of_pos hname, List.dropWhile_cons_of_neg (by simp [hstop])]
  have hclose : beforeClose? (inner ++ [']']) = some inner := by
    simp [beforeClose?]
  rw [hassoc, subscript?, hdrop, htake]
  simp [hne, hclose]

theorem open_mem_of_subscript? {inner : List Char} (h : subscript? cs = some (name, inner)) :
    '[' ∈ cs := by
  unfold subscript? at h
  split at h
  · rename_i rest hrest
    refine (List.dropWhile_suffix isNameChar).subset ?_
    rw [hrest]
    exact List.mem_cons_self ..
  · cases h

/-- A text of one piece has one member. -/
theorem length_members (h : Uncut '|' 0 cs) : (members cs).length = 1 := by
  rw [members, h]
  rfl

namespace SpelledWith

/-- **The shape of a spelling is spelled.** -/
theorem shape {s : Shape} (h : Spelling cs) (hs : shape (clean cs) = s) : s.IsSpelled := by
  have hknown : ∀ {type}, table.lookup (.ofList (clean cs)) = some type → Bracketless type :=
    bracketless_of_lookup bracketless_table
  rcases h.clean_cases with hplain | ⟨name, args, hne, hname, hargs, hclean⟩ |
      ⟨a, b, ha, hb, hclean⟩
  · -- a name: one member, and nothing in it opens a bracket
    have hlen := length_members ((uncut_of_isPlain (.inr rfl) hplain).2 0)
    have hfree := bracketless_of_isPlain hplain
    rcases shape_cases (clean cs) with ⟨type, hlook, hshape⟩ | ⟨hlen', -⟩ |
        ⟨name, inner, -, hsub, -⟩ | ⟨-, -, hshape⟩
    · rw [← hs, hshape]
      exact hknown hlook
    · omega
    · have hopen : '[' ∈ clean cs := open_mem_of_subscript? hsub
      exact absurd (hfree _ hopen) (by decide)
    · rw [← hs, hshape]
      exact hfree
  · -- a generic type: one member, with a name in front of the bracket
    have huncut : Uncut '|' 0 ([] ++ name ++ '[' :: [','].intercalate args ++ [']']) :=
      uncut_of_args (.inr rfl) nofun hname hargs nofun
    have hsub := subscript?_generic hne hname ([','].intercalate args)
    rw [List.nil_append, ← hclean] at huncut
    rw [← hclean] at hsub
    have hlen := length_members huncut
    rcases shape_cases (clean cs) with ⟨type, hlook, hshape⟩ | ⟨hlen', -⟩ |
        ⟨name', inner, -, hsub', hshape⟩ | ⟨-, hsub', -⟩
    · rw [← hs, hshape]
      exact hknown hlook
    · omega
    · rw [hsub] at hsub'
      obtain ⟨rfl, rfl⟩ := Prod.mk.inj (Option.some.inj hsub')
      rw [← hs, hshape]
      refine ⟨fun c hc => ?_, fun a ha => ?_⟩
      · rw [String.toList_ofList] at hc
        exact bracketless_of_isPlain (fun x hx => isPlain_of_isNameChar (hname x hx)) c
          (mem_of_mem_lastPart hc)
      · obtain ⟨p, hp, rfl⟩ := exists_of_mem_arguments ha
        exact (of_mem_intercalate hargs p hp).trim isMargin_isBlank
    · rw [hsub] at hsub'
      cases hsub'
  · -- alternatives: there are two members at least
    have hcut : cutTop '|' 0 (clean cs) = cutTop '|' 0 a ++ cutTop '|' 0 b := by
      rw [hclean, cutTop_append_cons rfl (by rw [ha.depth_eq_zero]; rfl)]
    have hlen : 1 < (members (clean cs)).length := by
      have hposa := List.length_pos_iff.2 (cutTop_ne_nil '|' 0 a)
      have hposb := List.length_pos_iff.2 (cutTop_ne_nil '|' 0 b)
      rw [members, List.length_map, hcut, List.length_append]
      omega
    rcases shape_cases (clean cs) with ⟨type, hlook, hshape⟩ | ⟨-, hshape⟩ |
        ⟨-, -, hlen', -⟩ | ⟨hlen', -⟩
    · rw [← hs, hshape]
      exact hknown hlook
    · rw [← hs, hshape]
      intro m hm
      obtain ⟨p, hp, rfl⟩ := List.mem_map.1 hm
      rw [hcut, List.mem_append] at hp
      exact (hp.elim (ha.of_mem_cutTop p) (hb.of_mem_cutTop p)).trim isMargin_isBlank
    · exact absurd hlen hlen'
    · exact absurd hlen hlen'

end SpelledWith

/-! ## Types -/

theorem wellNested_bareText {name : List Char} (h : ∀ c ∈ name, isBracket c = false) :
    WellNested (bareText name) := by
  unfold bareText
  split
  · decide +kernel
  · rename_i generic _ hlook
    exact ((bracketless_of_lookup bracketless_generics hlook).append (by decide)).wellNested
  · have hlast : Bracketless (.ofList (lastPart name)) := by
      intro c hc
      rw [String.toList_ofList] at hc
      exact h c (mem_of_mem_lastPart hc)
    exact hlast.pascal.wellNested

theorem wellNested_genericText {outer : String} {args : List String} (houter : Bracketless outer)
    (hargs : ∀ a ∈ args, WellNested a) : WellNested (genericText outer args) := by
  have hname : Bracketless ((generics.lookup outer).getD (Identifier.pascal outer)) := by
    cases hlook : generics.lookup outer with
    | none => exact houter.pascal
    | some t => exact bracketless_of_lookup bracketless_generics hlook
  have hsep : Bracketless ", " := by decide
  exact ((hname.append (by decide)).wellNested.append (.intercalate hsep hargs)).append rfl

/-- Types that are each well nested are so in a row. -/
theorem wellNested_joined {α : Type} {g : α → Result String} {as : List α} {ts : List String}
    {sep : String} (hsep : Bracketless sep) (h : as.mapM g = .ok ts)
    (hg : ∀ a t, g a = .ok t → WellNested t) : WellNested (sep.intercalate ts) := by
  refine .intercalate hsep fun t ht => ?_
  obtain ⟨a, -, hat⟩ := mem_of_mem_mapM h ht
  exact hg a t hat

/-- **A spelled type is well nested.** -/
theorem wellNested_ofChars (cs : List Char) (h : Spelling cs) {t : String}
    (ht : ofChars cs = .ok t) : WellNested t := by
  have hbar : Bracketless " | " := by decide
  have hcomma : Bracketless ", " := by decide
  have hspelled := h.shape rfl
  -- the pieces are shorter than the spelling
  have ih : ∀ p ∈ (TypeName.shape (clean cs)).pieces, ∀ {u}, ofChars p = .ok u →
      WellNested u :=
    fun p hp u hu => wellNested_ofChars p (hspelled.pieces p hp) hu
  -- a member of a union: the null value, or a type of its own
  have hmember : ∀ p ∈ (TypeName.shape (clean cs)).pieces, ∀ {u},
      (if p = "None".toList then .ok "null" else ofChars p : Result String) = .ok u →
      WellNested u := by
    intro p hp u hu
    split at hu
    · obtain rfl := Except.ok.inj hu
      rfl
    · exact ih p hp hu
  rw [ofChars] at ht
  split at ht
  · rename_i type hshape
    rw [hshape] at hspelled
    obtain rfl := Except.ok.inj ht
    exact Bracketless.wellNested hspelled
  · rename_i name hshape
    rw [hshape] at hspelled
    obtain rfl := Except.ok.inj ht
    exact wellNested_bareText hspelled
  · rename_i ms hshape
    simp only [Result.bind_eq_ok, Result.pure_eq_ok] at ht
    obtain ⟨types, htypes, rfl⟩ := ht
    exact wellNested_joined hbar htypes fun m u hu => hmember m.1 (hshape ▸ m.2) hu
  · rename_i args hshape
    split at ht
    · cases ht
    · rename_i a ha rest hargs
      simp only [Result.bind_eq_ok, Result.pure_eq_ok] at ht
      obtain ⟨type, htype, rfl⟩ := ht
      exact (ih a (hshape ▸ ha) htype).append rfl
  · rename_i args hshape
    simp only [Result.bind_eq_ok, Result.pure_eq_ok] at ht
    obtain ⟨types, htypes, rfl⟩ := ht
    exact wellNested_joined hbar htypes fun m u hu => hmember m.1 (hshape ▸ m.2) hu
  · rename_i outer args _ _ hshape
    split at ht
    · simp only [Result.bind_eq_ok, Result.pure_eq_ok] at ht
      obtain ⟨types, htypes, rfl⟩ := ht
      have hitems := wellNested_joined hcomma htypes fun m u hu => ih m.1 (hshape ▸ m.2) hu
      exact hitems.between (b := [']']) (fun _ => rfl) fun _ => rfl
    · simp only [Result.bind_eq_ok, Result.pure_eq_ok] at ht
      obtain ⟨types, htypes, rfl⟩ := ht
      rw [hshape] at hspelled
      refine wellNested_genericText hspelled.1 fun u hu => ?_
      obtain ⟨⟨m, hm⟩, -, hmu⟩ := mem_of_mem_mapM htypes hu
      exact ih m (hshape ▸ hm) hmu
termination_by cs.length
decreasing_by exact length_lt_of_shape_eq rfl hp

end TypeName

/-- The same of the texts. -/
theorem wellNested_typeName {spelling t : String} (h : TypeName.Spelling spelling.toList)
    (ht : typeName spelling = .ok t) : Text.WellNested t :=
  TypeName.wellNested_ofChars _ h ht

end Scribe
