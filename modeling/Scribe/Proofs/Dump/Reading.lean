import Scribe.SExpr

/-!
# Reading S-expressions

A written S-expression can be read again. `scan` cuts a text into tokens:
brackets, symbols and quoted texts. It skips the gaps between them, so
where lines are broken does not matter, and it keeps what stands between
quotes as it is, newlines included.

`reads_pretty` and `reads_compact` say that the tokens of a written
expression are those of the expression (`SExpr.tokens`), and
`tokens_append_inj` that tokens can be put together in one way only. So
each writing determines what it writes, as far as it tells truth values
from symbols and lists: `pretty_eq_iff` and `compact_eq_iff`.

Only texts may hold anything. A symbol has to be plain, since not every
writing protects it.
-/

namespace Scribe.SExpr

/-! ## Expressions -/

/-- **Induction over S-expressions.** An item comes as a member of its
list. -/
@[elab_as_elim]
theorem induction {motive : SExpr → Prop} (symbol : ∀ name, motive (.symbol name))
    (text : ∀ s, motive (.text s)) (flag : ∀ b, motive (.flag b))
    (list : ∀ items, (∀ e ∈ items, motive e) → motive (.list items)) (e : SExpr) : motive e := by
  refine @SExpr.rec motive (fun es => ∀ e ∈ es, motive e) symbol text flag list ?_ ?_ e
  · simp
  · intro e es he hes
    exact List.forall_mem_cons.2 ⟨he, hes⟩

/-- A symbol that needs no protection: it is not empty, and holds no gap,
bracket, quote or other special character. -/
def isPlainSymbol (name : String) : Bool :=
  !name.toList.isEmpty && name.toList.all fun c => c != '\n' && !isSymbolSpecial c

/-- A symbol is plain if its characters are. -/
theorem isPlainSymbol_ofList {name : List Char} (hne : name.isEmpty = false)
    (h : name.all (fun c => c != '\n' && !isSymbolSpecial c) = true) :
    isPlainSymbol (.ofList name) = true := by
  simp [isPlainSymbol, hne, h]

mutual

/-- All symbols of the expression are plain, and it has no truth
values. -/
def isPlain : SExpr → Bool
  | .symbol name => isPlainSymbol name
  | .text _ => true
  | .flag _ => false
  | .list items => areAllPlain items

/-- All of the expressions are plain. -/
def areAllPlain : List SExpr → Bool
  | [] => true
  | e :: es => e.isPlain && areAllPlain es

end

mutual

/-- The expression with `write b` for a truth value `b`. -/
def unflag (write : Bool → SExpr) : SExpr → SExpr
  | .symbol name => .symbol name
  | .text s => .text s
  | .flag b => write b
  | .list items => .list (unflagAll write items)

/-- The expressions with `write b` for a truth value `b`. -/
def unflagAll (write : Bool → SExpr) : List SExpr → List SExpr
  | [] => []
  | e :: es => e.unflag write :: unflagAll write es

end

theorem areAllPlain_iff {es : List SExpr} : areAllPlain es = true ↔ ∀ e ∈ es, e.isPlain = true := by
  induction es with
  | nil => simp [areAllPlain]
  | cons e es ih => simp [areAllPlain, ih]

theorem unflagAll_eq (write : Bool → SExpr) (es : List SExpr) :
    unflagAll write es = es.map (unflag write) := by
  induction es with
  | nil => rfl
  | cons e es ih => rw [unflagAll, ih, List.map_cons]

theorem prettyAll_eq (level : Nat) (es : List SExpr) :
    prettyAll level es = es.map (pretty level) := by
  induction es with
  | nil => rfl
  | cons e es ih => rw [prettyAll, ih, List.map_cons]

theorem compactAll_eq (es : List SExpr) : compactAll es = es.map compact := by
  induction es with
  | nil => rfl
  | cons e es ih => rw [compactAll, ih, List.map_cons]

/-! ## Tokens -/

/-- A token of a written expression. -/
inductive Token where
  | opening | closing
  | symbol (name : List Char)
  | text (s : List Char)
  deriving DecidableEq, Repr

/-- What the reader is in the middle of. -/
inductive Reading where
  /-- Nothing. -/
  | between
  /-- A symbol. -/
  | symbol (sofar : List Char)
  /-- A text. -/
  | text (sofar : List Char)
  /-- A text, behind a backslash. -/
  | escaped (sofar : List Char)
  deriving DecidableEq, Repr

/-- A character between tokens. -/
def isGap (c : Char) : Bool :=
  c == ' ' || c == '\n'

/-- **The reader.** `unescape` says what a character behind a backslash
stands for. -/
def scan (unescape : Char → Char) : Reading → List Char → List Token
  | .between, [] => []
  | .symbol name, [] => [.symbol name]
  | .text _, [] => []
  | .escaped _, [] => []
  | .between, c :: cs =>
    if isGap c then scan unescape .between cs
    else if c = '(' then .opening :: scan unescape .between cs
    else if c = ')' then .closing :: scan unescape .between cs
    else if c = '"' then scan unescape (.text []) cs
    else scan unescape (.symbol [c]) cs
  | .symbol name, c :: cs =>
    if isGap c then .symbol name :: scan unescape .between cs
    else if c = ')' then .symbol name :: .closing :: scan unescape .between cs
    else scan unescape (.symbol (name ++ [c])) cs
  | .text s, c :: cs =>
    if c = '"' then .text s :: scan unescape .between cs
    else if c = '\\' then scan unescape (.escaped s) cs
    else scan unescape (.text (s ++ [c])) cs
  | .escaped s, c :: cs => scan unescape (.text (s ++ [unescape c])) cs

mutual

/-- The tokens of an expression without truth values. -/
def tokens : SExpr → List Token
  | .symbol name => [.symbol name.toList]
  | .text s => [.text s.toList]
  | .flag _ => []
  | .list items => .opening :: tokensAll items ++ [.closing]

/-- The tokens of expressions. -/
def tokensAll : List SExpr → List Token
  | [] => []
  | e :: es => e.tokens ++ tokensAll es

end

/-! ## Tokens determine the expression -/

/-- A plain expression does not start with a closing bracket. -/
theorem head_tokens {e : SExpr} (he : e.isPlain = true) :
    ∃ t ts, e.tokens = t :: ts ∧ t ≠ .closing := by
  cases e with
  | symbol name => exact ⟨_, _, rfl, nofun⟩
  | text s => exact ⟨_, _, rfl, nofun⟩
  | flag b => cases he
  | list items => exact ⟨_, _, rfl, nofun⟩

/-- Items that are told apart one by one are told apart as a list. -/
theorem tokensAll_append_inj {es fs : List SExpr} {r r' : List Token}
    (ih : ∀ e ∈ es, ∀ f, f.isPlain = true → ∀ r r', e.tokens ++ r = f.tokens ++ r' →
      e = f ∧ r = r')
    (hes : ∀ e ∈ es, e.isPlain = true) (hfs : ∀ f ∈ fs, f.isPlain = true)
    (h : tokensAll es ++ .closing :: r = tokensAll fs ++ .closing :: r') : es = fs ∧ r = r' := by
  induction es generalizing fs with
  | nil =>
    cases fs with
    | nil => exact ⟨rfl, (List.cons.inj h).2⟩
    | cons f fs =>
      -- one list is at its closing bracket, and the other is not
      obtain ⟨t, ts, ht, hne⟩ := head_tokens (hfs f (List.mem_cons_self ..))
      rw [tokensAll, tokensAll, ht] at h
      exact absurd (List.cons.inj h).1.symm hne
  | cons e es ihs =>
    cases fs with
    | nil =>
      obtain ⟨t, ts, ht, hne⟩ := head_tokens (hes e (List.mem_cons_self ..))
      rw [tokensAll, tokensAll, ht] at h
      exact absurd (List.cons.inj h).1 hne
    | cons f fs =>
      rw [tokensAll, tokensAll, List.append_assoc, List.append_assoc] at h
      obtain ⟨rfl, hrest⟩ := ih e (List.mem_cons_self ..) f (hfs f (List.mem_cons_self ..)) _ _ h
      obtain ⟨rfl, hr⟩ := ihs (fun e' he' => ih e' (List.mem_cons_of_mem _ he'))
        (fun e' he' => hes e' (List.mem_cons_of_mem _ he'))
        (fun f' hf' => hfs f' (List.mem_cons_of_mem _ hf')) hrest
      exact ⟨rfl, hr⟩

/-- **Tokens are put together in one way only.** -/
theorem tokens_append_inj {e f : SExpr} (he : e.isPlain = true) (hf : f.isPlain = true)
    {r r' : List Token} (h : e.tokens ++ r = f.tokens ++ r') : e = f ∧ r = r' := by
  induction e using induction generalizing f r r' with
  | symbol name =>
    cases f with
    | symbol name' =>
      obtain ⟨hname, hr⟩ := List.cons.inj h
      exact ⟨congrArg _ (String.toList_inj.1 (Token.symbol.inj hname)), hr⟩
    | text _ => cases (List.cons.inj h).1
    | flag _ => cases hf
    | list _ => cases (List.cons.inj h).1
  | text s =>
    cases f with
    | symbol _ => cases (List.cons.inj h).1
    | text s' =>
      obtain ⟨hs, hr⟩ := List.cons.inj h
      exact ⟨congrArg _ (String.toList_inj.1 (Token.text.inj hs)), hr⟩
    | flag _ => cases hf
    | list _ => cases (List.cons.inj h).1
  -- a truth value is spelled out before anything is read
  | flag b => cases he
  | list items ih =>
    cases f with
    | symbol _ => cases (List.cons.inj h).1
    | text _ => cases (List.cons.inj h).1
    | flag _ => cases hf
    | list items' =>
      rw [isPlain, areAllPlain_iff] at he hf
      have hitems : tokensAll items ++ .closing :: r = tokensAll items' ++ .closing :: r' := by
        simpa [tokens] using h
      obtain ⟨rfl, hr⟩ := tokensAll_append_inj
        (fun e hmem f hf' r r' h' => ih e hmem (he e hmem) hf' h') he hf hitems
      exact ⟨rfl, hr⟩

/-! ## Reading what was written -/

/-- What may follow a symbol: nothing, a gap or a closing bracket. -/
def Ends (r : List Char) : Prop :=
  ∀ c ∈ r.head?, isGap c = true ∨ c = ')'

variable {unescape : Char → Char}

/-- **The text reads as the expression**, whatever follows it. -/
def Reads (unescape : Char → Char) (e : SExpr) (t : String) : Prop :=
  ∀ r, Ends r → scan unescape .between (t.toList ++ r) = e.tokens ++ scan unescape .between r

/-- A writing of texts that `unescape` takes back. -/
structure Undoes (unescape : Char → Char) (escape : Char → Option Char) : Prop where
  escaped : ∀ c x, escape c = some x → unescape x = c
  kept : ∀ c, escape c = none → c ≠ '"' ∧ c ≠ '\\'

/-- A character of a text as it is written. -/
def protect (escape : Char → Option Char) (c : Char) : List Char :=
  match escape c with
  | some x => ['\\', x]
  | none => [c]

theorem toList_quotedBy (escape : Char → Option Char) (s : String) :
    (quotedBy escape s).toList = '"' :: (s.toList.flatMap (protect escape) ++ ['"']) :=
  String.toList_ofList

theorem scan_text {escape : Char → Option Char} (hu : Undoes unescape escape)
    (s sofar r : List Char) :
    scan unescape (.text sofar) (s.flatMap (protect escape) ++ '"' :: r) =
      .text (sofar ++ s) :: scan unescape .between r := by
  induction s generalizing sofar with
  | nil => simp [scan]
  | cons c s ih =>
    rw [List.flatMap_cons, List.append_assoc, protect]
    cases hc : escape c with
    | some x =>
      have hx := hu.escaped c x hc
      simpa [scan, hx] using ih (sofar ++ [c])
    | none =>
      obtain ⟨hquote, hslash⟩ := hu.kept c hc
      simpa [scan, hquote, hslash] using ih (sofar ++ [c])

theorem reads_text {escape : Char → Option Char} (hu : Undoes unescape escape) (s : String) :
    Reads unescape (.text s) (quotedBy escape s) := by
  intro r _
  have h := scan_text hu s.toList [] r
  simpa [toList_quotedBy, scan, isGap, tokens] using h

theorem not_special {c : Char} (hc : (c != '\n' && !isSymbolSpecial c) = true) :
    isGap c = false ∧ c ≠ '(' ∧ c ≠ ')' ∧ c ≠ '"' := by
  simp only [isSymbolSpecial, List.contains_eq_mem, List.mem_cons, Bool.and_eq_true,
    Bool.not_eq_true', bne_iff_ne, decide_eq_false_iff_not, not_or] at hc
  simp [isGap, hc]

theorem scan_symbol {name sofar r : List Char}
    (hname : name.all (fun c => c != '\n' && !isSymbolSpecial c) = true) (hr : Ends r) :
    scan unescape (.symbol sofar) (name ++ r) =
      .symbol (sofar ++ name) :: scan unescape .between r := by
  induction name generalizing sofar with
  | nil =>
    cases r with
    | nil => simp [scan]
    | cons c r =>
      rcases hr c rfl with hc | rfl
      · simp [scan, hc]
      · simp [scan, isGap]
  | cons c name ih =>
    rw [List.all_cons, Bool.and_eq_true] at hname
    obtain ⟨hgap, _, hclose, _⟩ := not_special hname.1
    rw [List.cons_append, scan, hgap, if_neg Bool.false_ne_true, if_neg hclose, ih hname.2]
    simp

theorem reads_symbol {name : String} (h : isPlainSymbol name = true) :
    Reads unescape (.symbol name) name := by
  intro r hr
  rw [isPlainSymbol, Bool.and_eq_true] at h
  cases hl : name.toList with
  | nil => simp [hl] at h
  | cons c cs =>
    rw [hl, List.all_cons, Bool.and_eq_true] at h
    obtain ⟨hgap, hopen, hclose, hquote⟩ := not_special h.2.1
    rw [List.cons_append, scan, hgap, if_neg Bool.false_ne_true, if_neg hopen, if_neg hclose,
      if_neg hquote, scan_symbol h.2.2 hr, tokens, hl]
    rfl

theorem scan_gap {gap : List Char} (hgap : gap.all isGap = true) (r : List Char) :
    scan unescape .between (gap ++ r) = scan unescape .between r := by
  induction gap with
  | nil => rfl
  | cons c gap ih =>
    rw [List.all_cons, Bool.and_eq_true] at hgap
    rw [List.cons_append, scan, if_pos hgap.1, ih hgap.2]

/-- What stands between the items of a list ends a symbol. -/
theorem ends_items {gap last : List Char} (items : List (List Char)) (r : List Char)
    (hgap : gap.all isGap = true) (hne : gap ≠ []) (hlast : last.all isGap = true) :
    Ends (items.flatMap (gap ++ ·) ++ (last ++ ')' :: r)) := by
  intro c hc
  cases items with
  | nil =>
    cases last with
    | nil => exact .inr (Option.some.inj hc).symm
    | cons d last =>
      obtain rfl := Option.some.inj hc
      exact .inl (List.all_eq_true.1 hlast d (List.mem_cons_self ..))
  | cons t items =>
    cases gap with
    | nil => exact absurd rfl hne
    | cons d gap =>
      obtain rfl := Option.some.inj hc
      exact .inl (List.all_eq_true.1 hgap d (List.mem_cons_self ..))

/-- **The rest of a list.** With a gap in front of each item, and a gap or
nothing in front of the bracket, the items are read one after another. -/
theorem scan_items {write : SExpr → String} {es : List SExpr} {gap last : List Char}
    (hes : ∀ e ∈ es, Reads unescape e (write e)) (hgap : gap.all isGap = true) (hne : gap ≠ [])
    (hlast : last.all isGap = true) (r : List Char) :
    scan unescape .between ((es.map fun e => (write e).toList).flatMap (gap ++ ·)
      ++ (last ++ ')' :: r)) = tokensAll es ++ .closing :: scan unescape .between r := by
  induction es with
  | nil =>
    rw [List.map_nil, List.flatMap_nil, List.nil_append, scan_gap hlast]
    simp [scan, isGap, tokensAll]
  | cons e es ih =>
    have he := hes e (List.mem_cons_self ..)
    have hrest := ih fun e' he' => hes e' (List.mem_cons_of_mem _ he')
    rw [List.map_cons, List.flatMap_cons, List.append_assoc, List.append_assoc, scan_gap hgap,
      he _ (ends_items _ r hgap hne hlast), hrest, tokensAll, List.append_assoc]

/-- A list with its items laid out: `gap` in front of each but the first,
and `last` in front of the closing bracket. -/
def laidOut (gap last : List Char) : List (List Char) → List Char
  | [] => ['(', ')']
  | first :: rest => '(' :: (first ++ (rest.flatMap (gap ++ ·) ++ (last ++ [')'])))

/-- The text is a list with the given parts, with gaps between them. -/
def LaidOut (parts : List String) (t : String) : Prop :=
  ∃ gap last, gap.all isGap = true ∧ gap ≠ [] ∧ last.all isGap = true ∧
    t.toList = laidOut gap last (parts.map String.toList)

/-- **A list reads as its items**, whatever the layout. -/
theorem reads_list {write : SExpr → String} {es : List SExpr} {t : String}
    (hes : ∀ e ∈ es, Reads unescape e (write e)) (ht : LaidOut (es.map write) t) :
    Reads unescape (.list es) t := by
  intro r _
  obtain ⟨gap, last, hgap, hne, hlast, htext⟩ := ht
  cases es with
  | nil => simp [htext, laidOut, scan, isGap, tokens, tokensAll]
  | cons e es =>
    have he := hes e (List.mem_cons_self ..)
    have hrest := scan_items (fun e' he' => hes e' (List.mem_cons_of_mem _ he')) hgap hne hlast r
    have hends := ends_items (es.map fun e => (write e).toList) r hgap hne hlast
    -- the text behind the first item, in the shape of `scan_items`
    have hshape : t.toList ++ r = '(' :: ((write e).toList ++
        ((es.map fun e => (write e).toList).flatMap (gap ++ ·) ++ (last ++ ')' :: r))) := by
      simp [htext, laidOut, Function.comp_def]
    rw [hshape, scan, if_neg (by decide), if_pos rfl, he _ hends, hrest, tokens, tokensAll]
    simp

/-! ## The two writings -/

theorem toList_intercalate_cons (sep t : String) (ts : List String) :
    (sep.intercalate (t :: ts)).toList =
      t.toList ++ (ts.map String.toList).flatMap (sep.toList ++ ·) := by
  induction ts generalizing t with
  | nil => simp
  | cons u ts ih =>
    rw [String.intercalate_cons_cons, String.toList_append, String.toList_append, ih]
    simp

/-- Items that are joined by a blank. -/
theorem laidOut_oneLine (parts : List String) :
    LaidOut parts ("(" ++ " ".intercalate parts ++ ")") := by
  refine ⟨[' '], [], by decide, by decide, by decide, ?_⟩
  cases parts with
  | nil => rfl
  | cons t ts =>
    rw [String.toList_append, String.toList_append, toList_intercalate_cons]
    simp [laidOut]

/-- Items on lines of their own. -/
theorem laidOut_lines (level : Nat) (first : String) (rest : List String) :
    LaidOut (first :: rest) ("(" ++ first ++ "".intercalate
      (rest.map fun p => "\n" ++ margin (level + 1) ++ p) ++ "\n" ++ margin level ++ ")") := by
  refine ⟨'\n' :: List.replicate (2 * (level + 1)) ' ', '\n' :: List.replicate (2 * level) ' ',
    ?_, by simp, ?_, ?_⟩
  · simp [isGap]
  · simp [isGap]
  · cases rest with
    | nil => simp [laidOut, margin]
    | cons t ts =>
      simp only [String.toList_append, List.map_cons, toList_intercalate_cons]
      simp [laidOut, margin, List.flatMap_map]

/-- **Only the gaps are chosen.** However long its items are, a list is
laid out on one line or on several. -/
theorem laidOut_prettyList (level : Nat) (parts : List String) :
    LaidOut parts (prettyList level parts) := by
  unfold prettyList
  dsimp only
  split
  · exact laidOut_oneLine parts
  · split
    · exact laidOut_oneLine []
    · exact laidOut_lines level _ _

/-- How a pretty text shows a truth value. -/
def prettyFlag (b : Bool) : SExpr :=
  .symbol (if b then "true" else "false")

/-- How a compact text shows a truth value. -/
def compactFlag (b : Bool) : SExpr :=
  if b then .symbol "t" else .list []

theorem undoes_prettyEscape : Undoes id prettyEscape := by
  refine ⟨fun c x h => ?_, fun c h => ?_⟩
  · simp only [prettyEscape] at h
    split at h
    · exact (Option.some.inj h).symm
    · cases h
  · simpa [prettyEscape, and_comm] using h

/-- What a character behind a backslash stands for in a compact text. -/
def compactUnescape (c : Char) : Char :=
  if c = 'b' then '\x08'
  else if c = 'f' then '\x0c'
  else if c = 'n' then '\n'
  else if c = 'r' then '\r'
  else if c = 't' then '\t'
  else c

theorem undoes_compactEscape : Undoes compactUnescape compactEscape := by
  refine ⟨fun c x h => ?_, fun c h => ?_⟩
  · unfold compactEscape at h
    split at h
    · rename_i hc
      obtain rfl := Option.some.inj h
      have hc' : c = '\\' ∨ c = '"' := by simpa using hc
      rcases hc' with rfl | rfl <;> rfl
    · repeat' split at h
      all_goals cases h
      all_goals simp_all [compactUnescape]
  · grind [compactEscape]

/-- **A pretty text reads as its expression.** -/
theorem reads_pretty {e : SExpr} (he : e.isPlain = true) (level : Nat) :
    Reads id e (e.pretty level) := by
  induction e using induction generalizing level with
  | symbol name => exact reads_symbol he
  | text s => exact reads_text undoes_prettyEscape s
  | flag b => cases he
  | list items ih =>
    rw [isPlain, areAllPlain_iff] at he
    rw [pretty, prettyAll_eq]
    exact reads_list (fun e hmem => ih e hmem (he e hmem) (level + 1)) (laidOut_prettyList level _)

theorem compactSymbol_eq {name : String} (h : isPlainSymbol name = true) :
    compactSymbol name = name := by
  have hkept : ∀ cs : List Char, cs.all (fun c => c != '\n' && !isSymbolSpecial c) = true →
      cs.flatMap (fun c => if isSymbolSpecial c then ['\\', c] else [c]) = cs := by
    intro cs hcs
    induction cs with
    | nil => rfl
    | cons c cs ih =>
      simp only [List.all_cons, Bool.and_eq_true, Bool.not_eq_true'] at hcs
      rw [List.flatMap_cons, hcs.1.2, ih (by simpa using hcs.2)]
      rfl
  rw [isPlainSymbol, Bool.and_eq_true] at h
  rw [compactSymbol, hkept _ h.2, String.ofList_toList]

/-- **A compact text reads as its expression.** -/
theorem reads_compact {e : SExpr} (he : e.isPlain = true) : Reads compactUnescape e e.compact := by
  induction e using induction with
  | symbol name =>
    rw [compact, compactSymbol_eq he]
    exact reads_symbol he
  | text s => exact reads_text undoes_compactEscape s
  | flag b => cases he
  | list items ih =>
    rw [isPlain, areAllPlain_iff] at he
    rw [compact, compactAll_eq]
    exact reads_list (fun e hmem => ih e hmem (he e hmem)) (laidOut_oneLine _)

/-- Two plain expressions that one text reads as are the same. -/
theorem eq_of_reads {e f : SExpr} {t : String} (he : e.isPlain = true) (hf : f.isPlain = true)
    (ht : Reads unescape e t) (ht' : Reads unescape f t) : e = f := by
  have h := (ht [] nofun).symm.trans (ht' [] nofun)
  exact (tokens_append_inj he hf h).1

theorem pretty_unflag (e : SExpr) (level : Nat) :
    (e.unflag prettyFlag).pretty level = e.pretty level := by
  induction e using induction generalizing level with
  | symbol name => rfl
  | text s => rfl
  | flag b => cases b <;> rfl
  | list items ih =>
    rw [unflag, pretty, pretty, prettyAll_eq, prettyAll_eq, unflagAll_eq, List.map_map]
    exact congrArg _ (List.map_congr_left fun e he => ih e he (level + 1))

theorem compact_unflag (e : SExpr) : (e.unflag compactFlag).compact = e.compact := by
  induction e using induction with
  | symbol name => rfl
  | text s => rfl
  | flag b => cases b <;> rfl
  | list items ih =>
    have hitems : (items.map (unflag compactFlag)).map compact = items.map compact := by
      rw [List.map_map]
      exact List.map_congr_left ih
    rw [unflag, compact, compact, compactAll_eq, compactAll_eq, unflagAll_eq, hitems]

/-- **A pretty text determines its expression**, as far as it spells
truth values apart from symbols. -/
theorem pretty_eq_iff {e f : SExpr} (he : (e.unflag prettyFlag).isPlain = true)
    (hf : (f.unflag prettyFlag).isPlain = true) (level : Nat) :
    e.pretty level = f.pretty level ↔ e.unflag prettyFlag = f.unflag prettyFlag := by
  rw [← pretty_unflag e, ← pretty_unflag f]
  constructor
  · intro h
    exact eq_of_reads he hf (reads_pretty he level) (h ▸ reads_pretty hf level)
  · exact congrArg _

/-- **A compact text determines its expression**, as far as it spells
truth values apart from symbols and lists. -/
theorem compact_eq_iff {e f : SExpr} (he : (e.unflag compactFlag).isPlain = true)
    (hf : (f.unflag compactFlag).isPlain = true) :
    e.compact = f.compact ↔ e.unflag compactFlag = f.unflag compactFlag := by
  rw [← compact_unflag e, ← compact_unflag f]
  constructor
  · intro h
    exact eq_of_reads he hf (reads_compact he) (h ▸ reads_compact hf)
  · exact congrArg _

end Scribe.SExpr
