import Scribe.Proofs.Emit.Nesting

/-!
# Signatures

A signature is filled slot by slot. `Signature.ofSlots_eq` says what it
holds in the end, and `exists_slot` and `exists_parameter` say what
becomes of one parameter: where its text stands in the parameter list.
`passed_cases` says which parameters are passed at all.
-/

namespace Scribe

open Text

/-! ## How parameters are passed -/

namespace Expr

/-- A parameter with a type and a default. -/
def isTypedDefault : Expr → Bool
  | .typedDefaultParameter .. => true
  | _ => false

/-- A parameter with a default. -/
def isDefaulted : Expr → Bool
  | .defaultParameter .. => true
  | .typedDefaultParameter .. => true
  | _ => false

/-- A parameter with neither a default nor a star. -/
def isSingle : Expr → Bool
  | .reference _ none _ => true
  | .typedParameter _ _ none _ => true
  | _ => false

/-- A parameter that collects positional arguments. -/
def isRest : Expr → Bool
  | .reference _ (some .list) _ => true
  | .typedParameter _ _ (some .list) _ => true
  | _ => false

/-- A parameter that collects named arguments. -/
def isCollector : Expr → Bool
  | .reference _ (some .dictionary) _ => true
  | .typedParameter _ _ (some .dictionary) _ => true
  | _ => false

/-- A parameter without default and star is of no other kind. -/
theorem other_of_isSingle {e : Expr} (h : e.isSingle = true) :
    e.isTypedDefault = false ∧ e.isDefaulted = false ∧ e.isCollector = false := by
  unfold Expr.isSingle at h
  split at h
  · exact ⟨rfl, rfl, rfl⟩
  · exact ⟨rfl, rfl, rfl⟩
  · cases h

/-- A parameter with a default has no star. -/
theorem not_isCollector_of_isDefaulted {e : Expr} (h : e.isDefaulted = true) :
    e.isCollector = false := by
  unfold Expr.isDefaulted at h
  split at h
  · rfl
  · rfl
  · cases h

/-- Only a parameter with neither a default nor a star can be a
receiver. -/
theorem isSingle_of_singleName? {e : Expr} {name : String} (h : e.singleName? = some name) :
    e.isSingle = true := by
  unfold Expr.singleName? at h
  split at h
  · rfl
  · rfl
  · cases h

end Expr

section Passed

variable {s : Scope} {decorators : List String} {parameters : List Expr} {p : Expr}

/-- **The parameters are those that are passed**, perhaps behind a
receiver, which has neither a default nor a star. -/
theorem passed_cases (s : Scope) (decorators : List String) (parameters : List Expr) :
    s.passed decorators parameters = parameters ∨
      ∃ receiver, parameters = receiver :: s.passed decorators parameters ∧
        receiver.isSingle = true := by
  unfold Scope.passed methodPassed
  split
  · split
    · rename_i hsome
      obtain ⟨name, hname⟩ := Option.isSome_iff_exists.1 hsome
      obtain ⟨receiver, rest, rfl, hsingle⟩ := exists_of_methodReceiver hname
      exact .inr ⟨receiver, rfl, Expr.isSingle_of_singleName? hsingle⟩
    · exact .inl rfl
  · exact .inl rfl

theorem mem_of_mem_passed (h : p ∈ s.passed decorators parameters) :
    p ∈ parameters := by
  rcases passed_cases s decorators parameters with hsame | ⟨receiver, hcons, -⟩
  · exact hsame ▸ h
  · rw [hcons]
    exact List.mem_cons_of_mem _ h

/-- A parameter that is not passed is a receiver. -/
theorem mem_passed (h : p ∈ parameters) (hp : p.isSingle = false) :
    p ∈ s.passed decorators parameters := by
  rcases passed_cases s decorators parameters with hsame | ⟨receiver, hcons, hreceiver⟩
  · rwa [hsame]
  · rw [hcons] at h
    rcases List.mem_cons.1 h with rfl | h
    · rw [hreceiver] at hp
      cases hp
    · exact h

end Passed

/-! ## Slots -/

namespace Slot

/-- The text of a parameter that is passed by position. -/
def positional? : Slot → Option String
  | positional text => some text
  | _ => none

/-- A parameter that is passed by name. -/
def option? : Slot → Option OptionSlot
  | option o => some o
  | _ => none

/-- The text of a collector of positional arguments. -/
def rest? : Slot → Option String
  | rest text => some text
  | _ => none

/-- A collector of named arguments. -/
def keywords? : Slot → Option (String × Option String)
  | keywords name type => some (name, type)
  | _ => none

/-- A parameter has a slot if the type of its member is accepted. -/
theorem exists_ofParameter {p : Expr} (h : p.parameterName?.isSome = true)
    (htype : ∀ name type value loc, p = .typedDefaultParameter name type value loc →
      ∃ mapped, typeName type = .ok mapped) (t : String) :
    ∃ slot, ofParameter t p = .ok slot := by
  cases p with
  | reference name splat loc => rcases splat with _ | _ | _ <;> exact ⟨_, rfl⟩
  | typedParameter name type splat loc => rcases splat with _ | _ | _ <;> exact ⟨_, rfl⟩
  | defaultParameter name value loc => exact ⟨_, rfl⟩
  | typedDefaultParameter name type value loc =>
    obtain ⟨mapped, hmapped⟩ := htype _ _ _ _ rfl
    exact ⟨_, by rw [ofParameter, hmapped]; rfl⟩
  | _ => cases h

end Slot

/-- **One slot after another.** -/
theorem Signature.foldl_add (slots : List Slot) (sig : Signature) :
    slots.foldl Signature.add sig =
      ⟨sig.positional ++ slots.filterMap Slot.positional?,
        sig.options ++ slots.filterMap Slot.option?,
        sig.rest ++ slots.filterMap Slot.rest?,
        (slots.filterMap Slot.keywords?).getLast?.or sig.keywords⟩ := by
  induction slots generalizing sig with
  | nil => simp
  | cons slot slots ih =>
    rw [List.foldl_cons, ih]
    cases slot <;> simp [Signature.add, List.filterMap_cons, List.getLast?_cons, Slot.positional?,
      Slot.option?, Slot.rest?, Slot.keywords?]

/-- **A signature sorts its slots**; of the collectors of named arguments
it keeps the last. -/
theorem Signature.ofSlots_eq (slots : List Slot) :
    Signature.ofSlots slots =
      ⟨slots.filterMap Slot.positional?, slots.filterMap Slot.option?,
        slots.filterMap Slot.rest?, (slots.filterMap Slot.keywords?).getLast?⟩ := by
  simp [Signature.ofSlots, Signature.foldl_add]

/-- A parameter of a written list has a slot in the signature. -/
theorem exists_slot {s : Scope} {ps : List Expr} {slots : List Slot} {p : Expr}
    (h : Expr.emitSlots s ps = .ok slots) (hp : p ∈ ps) :
    ∃ t, p.emit s = .ok t ∧ ∃ slot ∈ slots, Slot.ofParameter t p = .ok slot := by
  induction ps generalizing slots with
  | nil => cases hp
  | cons q ps ih =>
    simp only [Expr.emitSlots, Result.bind_eq_ok, Result.pure_eq_ok] at h
    obtain ⟨t, ht, slot, hslot, slots, hslots, rfl⟩ := h
    rcases List.mem_cons.1 hp with rfl | hp
    · exact ⟨t, ht, slot, List.mem_cons_self .., hslot⟩
    · obtain ⟨u, hu, slot', hmem, hslot'⟩ := ih hslots hp
      exact ⟨u, hu, slot', List.mem_cons_of_mem _ hmem, hslot'⟩

/-- A slot is that of one of the parameters. -/
theorem exists_of_mem_slots {s : Scope} {ps : List Expr} {slots : List Slot} {slot : Slot}
    (h : Expr.emitSlots s ps = .ok slots) (hslot : slot ∈ slots) :
    ∃ p ∈ ps, ∃ t, p.emit s = .ok t ∧ Slot.ofParameter t p = .ok slot := by
  induction ps generalizing slots with
  | nil =>
    obtain rfl := Except.ok.inj h
    cases hslot
  | cons q ps ih =>
    simp only [Expr.emitSlots, Result.bind_eq_ok, Result.pure_eq_ok] at h
    obtain ⟨t, ht, slot', hslot', slots, hslots, rfl⟩ := h
    rcases List.mem_cons.1 hslot with rfl | hslot
    · exact ⟨q, List.mem_cons_self .., t, ht, hslot'⟩
    · obtain ⟨p, hp, hfound⟩ := ih hslots hslot
      exact ⟨p, List.mem_cons_of_mem _ hp, hfound⟩

/-- The texts show the slot. A collector of named arguments has no text
of its own. -/
def Slot.ShownIn (texts : List String) : Slot → Prop
  | .positional t => t ∈ texts
  | .rest t => t ∈ texts
  | .option o => ∃ u ∈ texts, Occurs o.text u
  | .keywords .. => True

/-- **Where a parameter is written.** Every slot is shown in the
parameter list. -/
theorem exists_parameter {slots : List Slot} {slot : Slot} {name definition : Option String}
    {texts : List String}
    (h : (Signature.ofSlots slots).parameters name = .ok (texts, definition))
    (hslot : slot ∈ slots) : slot.ShownIn texts := by
  simp only [Signature.parameters, Result.bind_eq_ok, Result.pure_eq_ok, Prod.mk.injEq] at h
  obtain ⟨_, -, rfl, -⟩ := h
  cases slot with
  | positional t =>
    refine List.mem_append_left _ (List.mem_append_left _ ?_)
    rw [Signature.ofSlots_eq]
    exact List.mem_filterMap.2 ⟨_, hslot, rfl⟩
  | rest t =>
    refine List.mem_append_right _ ?_
    rw [Signature.ofSlots_eq]
    exact List.mem_filterMap.2 ⟨_, hslot, rfl⟩
  | keywords _ _ => trivial
  | option o =>
    have ho : o ∈ (Signature.ofSlots slots).options := by
      rw [Signature.ofSlots_eq]
      exact List.mem_filterMap.2 ⟨_, hslot, rfl⟩
    -- an option makes a pattern necessary, and stands among its entries
    have hobject : (Signature.ofSlots slots).hasObject = true := by
      rw [Signature.hasObject, Bool.or_eq_true]
      exact .inl (by simpa using List.ne_nil_of_mem ho)
    rw [hobject, if_pos rfl]
    refine ⟨_, List.mem_append_left _ (List.mem_append_right _ (List.mem_singleton_self _)), ?_⟩
    have hentry : Occurs o.text o.entry := by
      unfold OptionSlot.entry
      split
      · exact Occurs.refl _
      · exact (Occurs.refl _).append_left _
    simp only [Signature.pattern]
    refine .append_right (.append_right (.append_right (.append_left ?_ _) _) _) _
    exact hentry.intercalate (List.mem_append_left _ (List.mem_map_of_mem ho)) ", "

end Scribe
