import Scribe.Proofs.Build.Sound.Statement
import Scribe.Proofs.Emit.Nesting
import Scribe.Proofs.Syntax.Induction

/-!
# What is hoisted

The emitter collects the names of a scope by a walk of its own and folds
them into a collection. Here the scope is read off the syntax instead:
`Stmt.inScope` lists the statements that share one, `Stmt.records` says
what each of them records, and `Hoists` says which declarations the
records call for, without a fold: which names, in which order, and with
which type each. Names that are `Taken` call for none.

`hoisting_exact` puts the two together for every program that was built
and written: the declarations in front of the module, and those behind
the opening line of every function, are the ones the scope calls for.
-/

namespace Scribe

/-! ## What the syntax records -/

mutual

/-- What is reached from an expression through the items of sequences. -/
def Expr.leaves : Expr → List Expr
  | .sequence _ items _ => Expr.itemLeaves items
  | e => [e]

/-- What is reached from an item, if there is one. -/
def Expr.optionLeaves : Option Expr → List Expr
  | none => []
  | some e => e.leaves

/-- What is reached from the items of a sequence. -/
def Expr.itemLeaves : List (Option Expr) → List Expr
  | [] => []
  | i :: is => Expr.optionLeaves i ++ Expr.itemLeaves is

end

/-- The converted name, if the expression is a name without a star that
does not stand for the receiver. -/
def Expr.assignedName? (receiver : Option String) : Expr → Option String
  | .reference name none _ => if receiver = some name then none else some (Identifier.camel name)
  | _ => none

/-- What an assignment to the expression records: every name reached
from it, without a type. -/
def Expr.assigned (receiver : Option String) (left : Expr) : List Binding :=
  (left.leaves.filterMap (Expr.assignedName? receiver)).map (·, none)

/-- The type that an annotation is mapped to, unless that is empty. -/
def denotedType (type : Option String) : Option String :=
  type.bind fun spelling => (typeName spelling).toOption.filter (· ≠ "")

/-- What an annotation of the expression records: the name with its
type, if the expression is a name and the annotation denotes a type. -/
def Expr.annotated (type : Option String) : Expr → List Binding
  | .reference name _ _ => (denotedType type).toList.map fun t => (Identifier.camel name, some t)
  | _ => []

/-- What a statement itself records. -/
def Stmt.records (receiver : Option String) : Stmt → List Binding
  | .assignment left right _ type _ =>
    left.annotated type ++ if right.isSome then left.assigned receiver else []
  | .forLoop left _ _ _ => left.assigned receiver
  | _ => []

mutual

/-- The statements that share the scope of a statement, in source order:
the statement, and what stands in its bodies if it is a conditional or a
loop. Functions and classes are not entered. -/
def Stmt.inScope : Stmt → List Stmt
  | .conditional choices loc => .conditional choices loc :: Stmt.choicesInScope choices
  | .forLoop left right body loc => .forLoop left right body loc :: Stmt.bodyInScope body
  | .whileLoop test body loc => .whileLoop test body loc :: Stmt.bodyInScope body
  | s => [s]

/-- The statements in the scope of a body. -/
def Stmt.bodyInScope : List Stmt → List Stmt
  | [] => []
  | s :: ss => s.inScope ++ Stmt.bodyInScope ss

/-- The statements in the scope of a chain of choices. -/
def Stmt.choicesInScope : List Choice → List Stmt
  | [] => []
  | c :: cs => c.inScope ++ Stmt.choicesInScope cs

/-- The statements in the scope of a choice. -/
def Choice.inScope : Choice → List Stmt
  | .mk _ body => Stmt.bodyInScope body

end

/-- What the statements in the scope of a body record, in source order. -/
def recorded (receiver : Option String) (body : List Stmt) : List Binding :=
  (Stmt.bodyInScope body).flatMap (Stmt.records receiver)

/-- The type that was recorded last for a name, if any was. -/
def lastType (bs : List Binding) (name : String) : Option String :=
  ((bs.filter (·.1 = name)).filterMap (·.2)).getLast?

/-- The declaration of a name. -/
def letLine (name : String) (type : Option String) : String :=
  match type with
  | some t => "let " ++ name ++ ": " ++ t
  | none => "let " ++ name

/-- **The lines declare what the body calls for**: exactly the recorded
names that are not taken by the parameters and by what the body defines,
each once and in the order of their first record, with the last type
recorded for them. -/
def Hoists (receiver : Option String) (passed : List Expr) (body : List Stmt)
    (lines : List String) : Prop :=
  let bs := recorded receiver body
  ∃ names : List String,
    (∀ n, n ∈ names ↔ n ∈ bs.map (·.1) ∧ ¬ Taken passed body n) ∧
    names.Pairwise (fun a b => (bs.map (·.1)).idxOf a < (bs.map (·.1)).idxOf b) ∧
    lines = names.map fun n => letLine n (lastType bs n)

/-! ## The walk finds what the syntax records -/

/-- **Only sequences pass a target on.** In something that is assigned
to, nothing else that the walk descends into can occur. -/
theorem targets_eq_assigned (receiver : Option String) (e : Expr) (he : e.fits .target = true) :
    e.targets receiver = e.assigned receiver := by
  induction e using Expr.induction with
  | reference name splat loc =>
    cases splat with
    | none =>
      by_cases hr : receiver = some name
      · simp [Expr.targets, Expr.assigned, Expr.leaves, Expr.assignedName?, hr]
      · simp [Expr.targets, Expr.assigned, Expr.leaves, Expr.assignedName?, hr]
    | some _ => rfl
  | member object property loc _ _ => rfl
  | subscript value index loc _ _ => rfl
  | sequence kind items loc ih =>
    have hitems : ∀ e, some e ∈ items → e.fits .target = true := by
      simpa [Expr.fits, Role.takesValue] using he
    -- both go through the items from left to right
    rw [Expr.targets, Expr.assigned, Expr.leaves]
    clear he
    induction items with
    | nil => rfl
    | cons i is ihs =>
      have hrest := ihs (fun e h => ih e (List.mem_cons_of_mem _ h))
        (fun e h => hitems e (List.mem_cons_of_mem _ h))
      rw [Expr.itemTargets, Expr.itemLeaves, List.filterMap_append, List.map_append, hrest]
      cases i with
      | none => rfl
      | some e =>
        have hmem : some e ∈ some e :: is := List.mem_cons_self ..
        rw [Expr.optionTargets, Expr.optionLeaves, ih e hmem (hitems e hmem), Expr.assigned]
  | _ => simp [Expr.fits, Role.takesValue] at he

theorem annotatedType_eq_denotedType (type : Option String) :
    annotatedType type = denotedType type := by
  cases type with
  | none => rfl
  | some spelling =>
    rw [annotatedType.eq_def, denotedType, Option.bind_some]
    by_cases hempty : spelling = ""
    · have hnothing : typeName "" = .ok "" := Result.eq_ok_of_toOption (by decide +kernel)
      rw [hempty, hnothing]
      rfl
    · simp only [String.isEmpty_iff, hempty, if_false]
      cases typeName spelling with
      | error e => rfl
      | ok t => by_cases ht : t = "" <;> simp [Except.toOption, Option.filter, ht]

/-- The emitter records an annotated name with the type that is denoted. -/
theorem annotationBinding_eq (left : Expr) (type : Option String) :
    annotationBinding left type = left.annotated type := by
  cases left with
  | reference name splat loc =>
    rw [annotationBinding.eq_def, Expr.annotated, annotatedType_eq_denotedType]
    cases denotedType type <;> rfl
  | _ => rfl

theorem bodyBindings_eq {receiver : Option String} {body : List Stmt}
    (h : ∀ s ∈ body, s.bindings receiver = s.inScope.flatMap (Stmt.records receiver)) :
    Stmt.bodyBindings receiver body = recorded receiver body := by
  induction body with
  | nil => rfl
  | cons s body ih =>
    have hs := h s (List.mem_cons_self ..)
    have hbody := ih fun s' hs' => h s' (List.mem_cons_of_mem _ hs')
    rw [Stmt.bodyBindings, hs, hbody, recorded, recorded, Stmt.bodyInScope, List.flatMap_append]

theorem choiceBindings_eq {receiver : Option String} {choices : List Choice}
    (h : ∀ test body, Choice.mk test body ∈ choices →
      Stmt.bodyBindings receiver body = recorded receiver body) :
    Stmt.choiceBindings receiver choices =
      (Stmt.choicesInScope choices).flatMap (Stmt.records receiver) := by
  induction choices with
  | nil => rfl
  | cons c cs ih =>
    obtain ⟨test, body⟩ := c
    have hc := h test body (List.mem_cons_self ..)
    have hcs := ih fun t b hb => h t b (List.mem_cons_of_mem _ hb)
    rw [Stmt.choiceBindings, Choice.bindings, hc, hcs, recorded, Stmt.choicesInScope,
      Choice.inScope, List.flatMap_append]

/-- A well formed statement binds what the statements in its scope
record. -/
theorem bindings_eq (receiver : Option String) (s : Stmt) (hs : s.fits = true) :
    s.bindings receiver = s.inScope.flatMap (Stmt.records receiver) := by
  induction s using Stmt.induction with
  | assignment left right operator type loc =>
    simp only [Stmt.fits, Bool.and_eq_true] at hs
    have hleft := targets_eq_assigned receiver left hs.1.1
    cases right with
    -- an annotation alone records no assignment
    | none => simp [Stmt.bindings, Stmt.inScope, Stmt.records, annotationBinding_eq]
    | some e => simp [Stmt.bindings, Stmt.inScope, Stmt.records, annotationBinding_eq, hleft]
  | conditional choices loc ih =>
    simp only [Stmt.fits, Bool.and_eq_true, Choice.allFit_iff] at hs
    rw [Stmt.bindings, Stmt.inScope, List.flatMap_cons, Stmt.records, List.nil_append]
    · refine choiceBindings_eq fun test body hc => bodyBindings_eq fun s hmem => ?_
      have hbody := hs.2 _ hc
      simp only [Choice.fits, Bool.and_eq_true, Stmt.allFit_iff] at hbody
      exact ih test body hc s hmem (hbody.2 s hmem)
    all_goals simp
  | forLoop left right body loc ih =>
    simp only [Stmt.fits, Bool.and_eq_true, Stmt.allFit_iff] at hs
    have hbody : Stmt.bodyBindings receiver body = recorded receiver body :=
      bodyBindings_eq fun s hmem => ih s hmem (hs.2 s hmem)
    rw [Stmt.bindings, targets_eq_assigned receiver left hs.1.1, hbody]
    rfl
  | whileLoop test body loc ih =>
    simp only [Stmt.fits, Bool.and_eq_true, Stmt.allFit_iff] at hs
    rw [Stmt.bindings, bodyBindings_eq fun s hmem => ih s hmem (hs.2 s hmem)]
    rfl
  | _ => rfl

/-! ## The fold keeps the first place and the last type -/

/-- The last record of a name that has a type decides. -/
theorem lastType_append (bs : List Binding) (b : Binding) (name : String) :
    lastType (bs ++ [b]) name =
      if b.1 = name then b.2.or (lastType bs name) else lastType bs name := by
  by_cases hb : b.1 = name
  · cases hty : b.2 with
    | none => simp [lastType, hb, hty]
    | some t => simp [lastType, hb, hty]
  · simp [lastType, hb]

theorem lastType_eq_none {bs : List Binding} {name : String} (h : name ∉ bs.map (·.1)) :
    lastType bs name = none := by
  have hnone : bs.filter (·.1 = name) = [] := by
    refine List.filter_eq_nil_iff.2 fun b hb hbn => h ?_
    exact List.mem_map.2 ⟨b, hb, by simpa using hbn⟩
  rw [lastType, hnone]
  rfl

/-- **A collection reflects what was recorded**: the names are those
recorded, in the order of their first record, with their last types. -/
structure Hoisted.Reflects (h : Hoisted) (bs : List Binding) : Prop where
  names : ∀ n, n ∈ h.map (·.1) ↔ n ∈ bs.map (·.1)
  order : (h.map (·.1)).Pairwise fun a b =>
    (bs.map (·.1)).idxOf a < (bs.map (·.1)).idxOf b
  types : ∀ e ∈ h, e.2 = lastType bs e.1

namespace Hoisted

variable {h : Hoisted} {bs : List Binding}

theorem has_iff {name : String} : h.has name = true ↔ name ∈ h.map (·.1) := by
  simp [has]

@[simp] theorem map_retype (name : String) (type : Option String) :
    (h.retype name type).map (·.1) = h.map (·.1) := by
  induction h with
  | nil => rfl
  | cons e h ih =>
    rw [retype, List.map_cons, List.map_cons, List.map_cons, ← retype, ih]
    by_cases he : e.1 = name
    · simp [he]
    · simp [he]

/-- A name that is known keeps its place, and a new one comes last. -/
theorem map_record (b : Binding) : (h.record b.1 b.2).map (·.1) =
    if b.1 ∈ h.map (·.1) then h.map (·.1) else h.map (·.1) ++ [b.1] := by
  by_cases hb : b.1 ∈ h.map (·.1)
  · rw [if_pos hb, record, if_neg (by simp [has_iff.2 hb])]
    split
    · exact map_retype ..
    · rfl
  · have hhas : h.has b.1 = false := by simpa [← has_iff] using hb
    rw [if_neg hb, record, if_pos (by simp [hhas])]
    simp

/-- A record changes the type of its own name only, and only if it
brings one. -/
theorem of_mem_record {b e : Binding} (he : e ∈ h.record b.1 b.2) :
    (e ∈ h ∧ (e.1 = b.1 → b.2 = none)) ∨
      (e = b ∧ (b.2 = none → b.1 ∉ h.map (·.1))) := by
  by_cases hb : h.has b.1 = true
  · rw [record, if_neg (by simp [hb])] at he
    split at he
    · rename_i htype
      obtain ⟨e', he', rfl⟩ := List.mem_map.1 he
      by_cases heb : e'.1 = b.1
      · rw [if_pos heb]
        exact .inr ⟨rfl, fun hnone => by simp [hnone] at htype⟩
      · rw [if_neg heb]
        exact .inl ⟨he', fun h => absurd h heb⟩
    · rename_i htype
      exact .inl ⟨he, fun _ => by simpa using htype⟩
  · rw [record, if_pos (by simpa using hb), List.mem_append, List.mem_singleton] at he
    have hnew : b.1 ∉ h.map (·.1) := fun hmem => hb (has_iff.2 hmem)
    rcases he with he | rfl
    · exact .inl ⟨he, fun heb => absurd (heb ▸ List.mem_map_of_mem he) hnew⟩
    · exact .inr ⟨rfl, fun _ => hnew⟩

/-- **One record.** -/
theorem Reflects.record (hr : h.Reflects bs) (b : Binding) :
    (h.record b.1 b.2).Reflects (bs ++ [b]) := by
  have hidx : ∀ n ∈ bs.map (·.1),
      ((bs ++ [b]).map (·.1)).idxOf n = (bs.map (·.1)).idxOf n := by
    intro n hn
    rw [List.map_append, List.idxOf_append, if_pos hn]
  have hold : (h.map (·.1)).Pairwise fun a c =>
      ((bs ++ [b]).map (·.1)).idxOf a < ((bs ++ [b]).map (·.1)).idxOf c := by
    refine hr.order.imp_of_mem fun ha hc hac => ?_
    rw [hidx _ ((hr.names _).1 ha), hidx _ ((hr.names _).1 hc)]
    exact hac
  refine ⟨fun n => ?_, ?_, fun e he => ?_⟩
  · rw [map_record, List.map_append, List.mem_append]
    split
    · rename_i hb
      rw [hr.names] at hb ⊢
      constructor
      · exact .inl
      · rintro (hn | hn)
        · exact hn
        · rw [List.mem_singleton.1 hn]
          exact hb
    · rw [List.mem_append, hr.names]
      rfl
  · rw [map_record]
    split
    · exact hold
    · rename_i hb
      -- a new name stands behind all that were recorded before
      have hb' : b.1 ∉ bs.map (·.1) := fun hmem => hb ((hr.names _).2 hmem)
      refine List.pairwise_append.2 ⟨hold, List.pairwise_singleton _ _, fun a ha c hc => ?_⟩
      have ha' := (hr.names a).1 ha
      have hlt := List.idxOf_lt_length_of_mem ha'
      rw [List.mem_singleton.1 hc, hidx a ha', List.map_append, List.idxOf_append, if_neg hb']
      omega
  · rw [lastType_append]
    rcases of_mem_record he with ⟨hmem, hnone⟩ | ⟨rfl, hnew⟩
    · split
      · rename_i hbe
        rw [hnone hbe.symm, hr.types e hmem, Option.none_or]
      · exact hr.types e hmem
    · rw [if_pos rfl]
      cases hty : e.2 with
      | some t => rfl
      | none =>
        -- a name that is new and has no type has none recorded either
        have hnot : e.1 ∉ bs.map (·.1) := fun hmem => hnew hty ((hr.names _).2 hmem)
        rw [lastType_eq_none hnot, Option.none_or]

/-- **All records.** -/
theorem Reflects.foldl (hr : h.Reflects bs) (cs : List Binding) :
    (cs.foldl (fun h b => h.record b.1 b.2) h).Reflects (bs ++ cs) := by
  induction cs generalizing h bs with
  | nil => simpa using hr
  | cons c cs ih =>
    have hstep := ih (hr.record c)
    rwa [List.append_assoc] at hstep

theorem reflects_ofBindings (bs : List Binding) : (ofBindings bs).Reflects bs := by
  have hnil : Reflects [] [] := ⟨fun _ => Iff.rfl, List.Pairwise.nil, fun _ he => nomatch he⟩
  exact hnil.foldl bs

end Hoisted

/-! ## The declarations of a body -/

/-- What an annotation denotes is the type of a spelling, and not
empty. -/
theorem denotedType_eq_some {type : Option String} {t : String}
    (h : denotedType type = some t) :
    t ≠ "" ∧ ∃ spelling, type = some spelling ∧ typeName spelling = .ok t := by
  obtain ⟨spelling, htype, hmapped⟩ := Option.bind_eq_some_iff.1 h
  obtain ⟨hok, hne⟩ := Option.filter_eq_some_iff.1 hmapped
  refine ⟨by simpa using hne, spelling, htype, ?_⟩
  cases hresult : typeName spelling with
  | ok u =>
    rw [hresult] at hok
    exact congrArg Except.ok (Option.some.inj hok)
  | error e =>
    rw [hresult] at hok
    cases hok

/-- A type that is remembered was recorded. -/
theorem exists_of_lastType {bs : List Binding} {name t : String}
    (h : lastType bs name = some t) : ∃ b ∈ bs, b.2 = some t := by
  obtain ⟨b, hb, hbt⟩ := List.mem_filterMap.1 (List.mem_of_getLast? h)
  exact ⟨b, (List.mem_filter.1 hb).1, hbt⟩

/-- What a statement assigns to. -/
def Stmt.left? : Stmt → Option Expr
  | .assignment left .. => some left
  | .forLoop left .. => some left
  | _ => none

/-- The annotation of an assignment. -/
def Stmt.annotation? : Stmt → Option String
  | .assignment _ _ _ type _ => type
  | _ => none

theorem Stmt.left?_eq_some {st : Stmt} {left : Expr} (h : st.left? = some left) :
    (∃ right operator type loc, st = .assignment left right operator type loc) ∨
      ∃ right body loc, st = .forLoop left right body loc := by
  cases st with
  | assignment left' right operator type loc =>
    obtain rfl := Option.some.inj h
    exact .inl ⟨_, _, _, _, rfl⟩
  | forLoop left' right body loc =>
    obtain rfl := Option.some.inj h
    exact .inr ⟨_, _, _, rfl⟩
  | _ => cases h

theorem Stmt.annotation?_eq_some {st : Stmt} {spelling : String}
    (h : st.annotation? = some spelling) :
    ∃ left right operator loc, st = .assignment left right operator (some spelling) loc := by
  cases st with
  | assignment left right operator type loc =>
    obtain rfl : type = some spelling := h
    exact ⟨_, _, _, _, rfl⟩
  | _ => cases h

/-- **What a record consists of**: the converted name of something that
is assigned to, and no type or that of the annotation. -/
theorem mem_records {receiver : Option String} {st : Stmt} {b : Binding}
    (h : b ∈ st.records receiver) :
    ∃ left name splat loc, st.left? = some left ∧ .reference name splat loc ∈ left.leaves ∧
      b.1 = Identifier.camel name ∧ ∀ t ∈ b.2, denotedType st.annotation? = some t := by
  have hassigned : ∀ {left : Expr}, b ∈ left.assigned receiver → ∃ name splat loc,
      .reference name splat loc ∈ left.leaves ∧ b.1 = Identifier.camel name ∧ b.2 = none := by
    intro left hmem
    obtain ⟨n, hn, rfl⟩ := List.mem_map.1 hmem
    obtain ⟨e, he, hen⟩ := List.mem_filterMap.1 hn
    unfold Expr.assignedName? at hen
    split at hen
    · split at hen
      · cases hen
      · exact ⟨_, _, _, he, (Option.some.inj hen).symm, rfl⟩
    · cases hen
  cases st with
  | assignment left right operator type loc =>
    rw [Stmt.records, List.mem_append] at h
    -- the record of the annotation, or that of an assigned name
    rcases h with h | h
    · cases left with
      | reference name splat loc' =>
        obtain ⟨t, ht, rfl⟩ := List.mem_map.1 h
        refine ⟨_, name, splat, loc', rfl, List.mem_singleton_self _, rfl, fun u hu => ?_⟩
        obtain rfl := Option.some.inj hu
        exact Option.mem_toList.1 ht
      | _ => cases h
    · split at h
      · obtain ⟨name, splat, loc', hleaf, hname, hnone⟩ := hassigned h
        exact ⟨left, name, splat, loc', rfl, hleaf, hname, by simp [hnone]⟩
      · cases h
  | forLoop left right body loc =>
    obtain ⟨name, splat, loc', hleaf, hname, hnone⟩ := hassigned h
    exact ⟨left, name, splat, loc', rfl, hleaf, hname, by simp [hnone]⟩
  | _ => cases h

/-- A recorded type is not empty, so a declaration always shows it. -/
theorem ne_empty_of_lastType {receiver : Option String} {body : List Stmt} {name t : String}
    (h : lastType (recorded receiver body) name = some t) : t ≠ "" := by
  obtain ⟨b, hb, hbt⟩ := exists_of_lastType h
  obtain ⟨st, _, hst⟩ := List.mem_flatMap.1 hb
  obtain ⟨_, _, _, _, -, -, -, htype⟩ := mem_records hst
  exact (denotedType_eq_some (htype t hbt)).1

theorem declaration_eq_letLine {b : Binding} (h : b.2 ≠ some "") :
    declaration b = letLine b.1 b.2 := by
  obtain ⟨name, type⟩ := b
  cases type with
  | none => rfl
  | some t =>
    have hne : t.isEmpty = false := by
      rw [Bool.eq_false_iff, Ne, String.isEmpty_iff]
      exact fun hempty => h (congrArg some hempty)
    simp only [declaration, letLine, hne, Bool.false_eq_true, if_false]

/-- **The declarations of a body are those it calls for.** -/
theorem hoists_declarations (receiver : Option String) (passed : List Expr) {body : List Stmt}
    (h : ∀ s ∈ body, s.fits = true) :
    Hoists receiver passed body
      (declarations receiver (boundNames passed ++ declaredNames body) body) := by
  have hbs : Stmt.bodyBindings receiver body = recorded receiver body :=
    bodyBindings_eq fun s hs => bindings_eq receiver s (h s hs)
  have hr := Hoisted.reflects_ofBindings (recorded receiver body)
  have htaken : ∀ n, Taken passed body n ↔ n ∈ boundNames passed ++ declaredNames body :=
    fun _ => taken_iff
  -- from here on the emitter's list counts only by what is in it
  generalize boundNames passed ++ declaredNames body = exclude at htaken ⊢
  refine ⟨((Hoisted.ofBindings (recorded receiver body)).filter
    (!exclude.contains ·.1)).map (·.1), fun n => ?_, ?_, ?_⟩
  · rw [← hr.names, htaken]
    constructor
    · intro hn
      obtain ⟨e, he, rfl⟩ := List.mem_map.1 hn
      obtain ⟨hmem, hex⟩ := List.mem_filter.1 he
      exact ⟨List.mem_map_of_mem hmem, by simpa using hex⟩
    · rintro ⟨hn, hex⟩
      obtain ⟨e, he, rfl⟩ := List.mem_map.1 hn
      exact List.mem_map_of_mem (List.mem_filter.2 ⟨he, by simpa using hex⟩)
  · exact hr.order.sublist (List.filter_sublist.map _)
  · rw [declarations, hbs, List.map_map]
    refine List.map_congr_left fun e he => ?_
    have htype := hr.types e (List.mem_filter.1 he).1
    rw [declaration_eq_letLine, htype]
    · rfl
    · intro hempty
      exact ne_empty_of_lastType (htype ▸ hempty) rfl

/-- The same for a module, which has no parameters. -/
theorem hoists_declarations_module {body : List Stmt} (h : ∀ s ∈ body, s.fits = true) :
    Hoists none [] body (declarations none (declaredNames body) body) :=
  hoists_declarations none [] h

/-- **The blocks declare what the scopes of the program call for.** A
scope does not declare the functions and classes that it defines itself,
nor the parameters that are passed to a function. -/
structure Program.DeclaredIn (p : Program) (blocks : List String) : Prop where
  /-- The declarations of the top level stand in front, in a block of
  their own. -/
  top : ∃ lets rest, Hoists none [] p.body lets ∧ statementBlocks p.body = .ok rest ∧
    blocks = (if lets = [] then [] else [Text.unlines lets]) ++ rest
  /-- A function at any depth is written in one piece: its opening line,
  the declarations of its body, and the lines of its body. -/
  function : ∀ st ∈ p.body, ∀ (d : Nat) (s : Scope) (name : String) (parameters : List Expr)
    (body : List Stmt) (returnType : Option String) (decorators : List String)
    (loc : Option Location),
    st.Holds .top d s (.function name parameters body returnType decorators loc) →
    ∃ (f b : Fragment) (lets texts before after : List String) (returns : String),
      Hoists (s.receiverInside decorators parameters) (s.passed decorators parameters) body lets ∧
      Stmt.emitBody (s.enterFunction (s.receiverInside decorators parameters)) body = .ok b ∧
      st.emit .top = .ok f ∧ assemble f.lines ∈ blocks ∧
      indent 0 f.lines = before ++ indent d (decoratorLines decorators)
        ++ indent d [s.functionHeader name decorators texts returns]
        ++ indent (d + 1) lets ++ indent (d + 1) b.lines ++ indent d ["\x7d"] ++ after

/-- **Hoisting is exact.** Whatever was built and written declares what
its scopes call for, at the top of the module and in every function. -/
theorem hoisting_exact {file : String} {tree : Cst} {p : Program} {blocks : List String}
    (hp : (tree.build file).result = .ok p) (hblocks : p.blocks = .ok blocks) :
    p.DeclaredIn blocks := by
  obtain ⟨rest, hrest, rfl⟩ := blocks_eq_ok.1 hblocks
  have hfits := Cst.fits_of_build hp
  refine ⟨⟨_, rest, hoists_declarations_module hfits, hrest, ?_⟩, ?_⟩
  · rw [declarationBlock.eq_def]
    split
    · rename_i hnil
      rw [hnil, if_pos rfl]
    · rename_i hne
      rw [if_neg hne]
  · intro st hst d s name parameters body returnType decorators loc hholds
    -- the lines of the function stand in one piece among those of its top-level statement
    obtain ⟨f, hf, hin⟩ := statementBlocks_mem hrest hst
    obtain ⟨g, hg, before, after, hlines⟩ := hholds.infix_lines hf
    obtain ⟨slots, texts, definition, b, returns, _, _, hb, _, rfl⟩ := emit_function hg
    have hbody := hholds.fits (hfits st hst)
    simp only [Stmt.fits, Bool.and_eq_true, Stmt.allFit_iff] at hbody
    refine ⟨f, b, _, texts, before, after, returns, hoists_declarations _ _ hbody.2, hb, hf,
      List.mem_append_right _ (hin.subset (assemble_mem_blocks ?_)), ?_⟩
    · intro hnil
      simp [hnil, indent_braced] at hlines
    · rw [← hlines]
      simp [indent_braced]

/-- A module that assigns to its function and to its class, and a method
whose body annotates a name, loops over a container, and assigns to a
parameter and to a function of its own. That function assigns to the
receiver. -/
def membersTree : Cst :=
  let name (n : String) : Cst := .leaf .identifier n none
  let token (t : String) : Cst := .leaf (.token t) t none
  let assign (left right : Cst) : Cst :=
    .tree .expressionStatement [.tree .assignment [left, token "=", right] none] none
  let pair (a b : String) : Cst := .tree .patternList [name a, token ",", name b] none
  let define (n : String) (parameters : List String) (body : List Cst) : Cst :=
    .tree .functionDefinition [name n, .tree .parameters (parameters.map name) none,
      .tree .block body none] none
  .tree .moduleRoot [
    define "run" [] [.tree .passStatement [] none],
    .tree .classDefinition [name "Box", .tree .block [define "f" ["self", "xs"] [
      .tree .expressionStatement [.tree .assignment [name "n", token ":",
        .leaf .type "int" none, token "=", .leaf .integer "0" none] none] none,
      .tree .forStatement [pair "a_b" "n", token "in", name "xs",
        .tree .block [assign (name "xs") (name "a_b")] none] none,
      define "go" [] [assign (pair "self" "k") (name "xs")],
      assign (name "go") (name "n")]] none] none,
    assign (name "run") (name "m"),
    assign (name "m") (name "Box"),
    assign (name "Box") (name "m")] none

/-- The program of the tree. -/
def membersProgram : Program :=
  let name (n : String) : Expr := .reference n none none
  let assign (left right : Expr) : Stmt := .assignment left (some right) "=" none none
  let pair (a b : String) : Expr := .sequence .pattern [some (name a), some (name b)] none
  ⟨[.function "run" [] [.simple .pass none] none [] none,
    .classDefinition "Box" [.function "f" [name "self", name "xs"]
      [.assignment (name "n") (some (.number .integer "0" none)) "=" (some "int") none,
        .forLoop (pair "a_b" "n") (name "xs") [assign (name "xs") (name "a_b")] none,
        .function "go" [] [assign (pair "self" "k") (name "xs")] none [] none,
        assign (name "go") (name "n")]
      none [] none] none [] none,
    assign (name "run") (name "m"),
    assign (name "m") (name "Box"),
    assign (name "Box") (name "m")], none⟩

/-- The blocks of the program. -/
def membersBlocks : List String :=
  ["let m", "function run() \x7b\n\x7d",
    "class Box \x7b\n  f(xs) \x7b\n    let n: number\n    let aB\n    n = 0\n"
      ++ "    for ([aB, n] of xs) \x7b\n      xs = aB\n    \x7d\n"
      ++ "    function go() \x7b\n      let k\n      ;[this, k] = xs\n    \x7d\n"
      ++ "    go = n\n  \x7d\n\x7d",
    "run = m", "m = Box", "Box = m"]

/-- In the method above the annotated name comes first, with its type.
The parameter is not declared again, nor are the functions and the class
that are assigned to, and the receiver is not declared in the function
inside the method. -/
theorem hoisting_exact_members : (membersTree.build "m").result = .ok membersProgram ∧
    membersProgram.blocks = .ok membersBlocks ∧ membersProgram.DeclaredIn membersBlocks := by
  have hp : (membersTree.build "m").result = .ok membersProgram := rfl
  have hblocks : membersProgram.blocks = .ok membersBlocks :=
    Result.eq_ok_of_toOption (by decide +kernel)
  exact ⟨hp, hblocks, hoisting_exact hp hblocks⟩

end Scribe
