import Scribe.Emit.Hoist

/-!
# Steps that record names

The emitter writes a body first and collects its names by a walk of its
own. Here the two are one: a `Recording` is a step of a pass that is
given the collections of all scopes and changes them as it goes, and a
`Frame` names the one that is recorded into, if there is one.

`Recording.Writes` compares such a step with a plain result. Whatever
was recorded before it, it has the same value or the same failure, and
what it leaves behind is known: some bindings more in the collection of
its frame, no other collection changed, new ones behind the old.
-/

namespace Scribe

variable {α β : Type}

/-- A step that is given the collections of all scopes and returns them
with what it recorded. -/
abbrev Recording (α : Type) := StateT (List Hoisted) Result α

/-! ## Frames -/

namespace Frame

/-- The frame of what is assigned to. -/
def assigning (f : Frame) : Frame := { f with scope := f.scope.assigning }

/-- The frame of what is read. -/
def reading (f : Frame) : Frame := { f with scope := f.scope.reading }

/-- The frame of a class body. -/
def enterClass (f : Frame) (name : String) : Frame := ⟨f.scope.enterClass name, none⟩

/-- Records a name in the frame. -/
def record (f : Frame) (name : String) (type : Option String) : Recording Unit := fun cs =>
  .ok ((), ((Frames.mk [f] cs).record name type).collections)

/-- Enters a function: its frame has a new collection. -/
def enterFunction (f : Frame) (receiver : Option String) : Recording Frame := fun cs =>
  let inner := (Frames.mk [f] cs).enterFunction receiver
  .ok (inner.innermost, inner.collections)

/-- What was recorded in the frame. -/
def hoisted (f : Frame) : Recording Hoisted := fun cs =>
  .ok ((Frames.mk [f] cs).hoisted.getD [], cs)

/-- Writes the body of a function in a frame of its own. Returns what
was recorded there beside what was written. -/
def inFunction (f : Frame) (receiver : Option String) (body : Frame → Recording α) :
    Recording (α × Hoisted) := do
  let inner ← f.enterFunction receiver
  let written ← body inner
  let names ← inner.hoisted
  return (written, names)

end Frame

theorem Recording.bind_apply (m : Recording α) (k : α → Recording β) (cs : List Hoisted) :
    (m >>= k) cs = m cs >>= fun p => k p.1 p.2 := rfl

/-- The body of a function starts with an empty collection, behind all
others, and that is what is read in the end. -/
theorem Frame.inFunction_apply (f : Frame) (receiver : Option String)
    (body : Frame → Recording α) (cs : List Hoisted) :
    f.inFunction receiver body cs =
      body ⟨f.scope.enterFunction receiver, some cs.length⟩ (cs ++ [[]]) >>= fun p =>
        .ok ((p.1, p.2.getD cs.length []), p.2) := rfl

/-! ## What a step records -/

/-- The collection with bindings recorded in it, one after another. -/
def Hoisted.recordAll (h : Hoisted) (bs : List Binding) : Hoisted :=
  bs.foldl (fun h b => h.record b.1 b.2) h

/-- The collections with bindings recorded in the one of this number. -/
def recordIn (names : Option Nat) (bs : List Binding) (cs : List Hoisted) : List Hoisted :=
  match names with
  | none => cs
  | some i => cs.modify i (·.recordAll bs)

variable {names : Option Nat} {bs bs' : List Binding} {cs made : List Hoisted}

theorem recordIn_nil : recordIn names [] cs = cs := by
  cases names with
  | none => rfl
  | some i => exact List.modify_id i cs

theorem length_recordIn : (recordIn names bs cs).length = cs.length := by
  cases names with
  | none => rfl
  | some i => exact List.length_modify ..

theorem recordIn_recordIn :
    recordIn names bs' (recordIn names bs cs) = recordIn names (bs ++ bs') cs := by
  cases names with
  | none => rfl
  | some i =>
    rw [recordIn, recordIn, recordIn, List.modify_modify_eq]
    congr 1
    funext h
    exact List.foldl_append.symm

/-- **The number stands for one of the collections**, if there is a
number. -/
def Live (names : Option Nat) (cs : List Hoisted) : Prop :=
  ∀ i ∈ names, i < cs.length

theorem Live.append (h : Live names cs) (made : List Hoisted) : Live names (cs ++ made) := by
  intro i hi
  rw [List.length_append]
  exact Nat.lt_add_right _ (h i hi)

theorem Live.recordIn (h : Live names cs) (bs : List Binding) :
    Live names (recordIn names bs cs) := by
  intro i hi
  rw [length_recordIn]
  exact h i hi

/-- New collections stand behind the old ones and are not recorded
into. -/
theorem recordIn_append (h : Live names cs) :
    recordIn names bs (cs ++ made) = recordIn names bs cs ++ made := by
  cases names with
  | none => rfl
  | some i =>
    have hi : i < cs.length := h i rfl
    rw [recordIn, recordIn, List.modify_eq_take_drop, List.modify_eq_take_drop,
      List.take_append_of_le_length (Nat.le_of_lt hi),
      List.drop_append_of_le_length (Nat.le_of_lt hi), List.append_assoc]
    congr 1
    rw [List.drop_eq_getElem_cons hi]
    rfl

/-- The last of the collections is recorded into. -/
theorem recordIn_length (h : Hoisted) :
    recordIn (some cs.length) bs (cs ++ [h]) = cs ++ [h.recordAll bs] := by
  rw [recordIn, List.modify_eq_take_drop, List.take_left, List.drop_left]
  rfl

/-- **The step does what the result says.** From any collections in which
the number stands for one it has the value of the result, or its failure;
after it, the bindings are recorded there, and there may be collections
more. -/
def Recording.Writes (names : Option Nat) (m : Recording α) (x : Result α)
    (bs : List Binding) : Prop :=
  ∀ cs : List Hoisted, Live names cs →
    ∃ made, m cs = x.map fun a => (a, recordIn names bs cs ++ made)

namespace Recording.Writes

variable {m : Recording α} {k : α → Recording β} {x : Result α} {g : α → Result β}

/-- A step that does not look at the collections. -/
theorem lift (x : Result α) : Writes names (liftM x) x [] := by
  intro cs _
  refine ⟨[], ?_⟩
  rw [recordIn_nil, List.append_nil]
  cases x <;> rfl

theorem pure (a : α) : Writes names (Pure.pure a) (.ok a) [] :=
  lift (.ok a)

/-- A step that fails. -/
theorem refused {e : Failure} (h : ∀ cs, m cs = .error e) : Writes names m (.error e) bs :=
  fun cs _ => ⟨[], h cs⟩

/-- **Two steps.** Both record in the same place. -/
theorem bind (hm : Writes names m x bs) (hk : ∀ a, x = .ok a → Writes names (k a) (g a) bs') :
    Writes names (m >>= k) (x >>= g) (bs ++ bs') := by
  intro cs hcs
  obtain ⟨made, hrun⟩ := hm cs hcs
  cases x with
  | error e =>
    refine ⟨[], ?_⟩
    rw [Recording.bind_apply, hrun]
    rfl
  | ok a =>
    have hlive : Live names (recordIn names bs cs) := hcs.recordIn bs
    obtain ⟨made', hrun'⟩ := hk a rfl _ (hlive.append made)
    refine ⟨made ++ made', ?_⟩
    rw [recordIn_append hlive, recordIn_recordIn, List.append_assoc] at hrun'
    rw [Recording.bind_apply, hrun]
    exact hrun'

/-- A first step that records nothing. -/
theorem silent (hm : Writes names m x []) (hk : ∀ a, x = .ok a → Writes names (k a) (g a) bs) :
    Writes names (m >>= k) (x >>= g) bs :=
  hm.bind hk

/-- A first step after which nothing is recorded. -/
theorem last (hm : Writes names m x bs) (hk : ∀ a, x = .ok a → Writes names (k a) (g a) []) :
    Writes names (m >>= k) (x >>= g) bs := by
  have h := hm.bind hk
  rwa [List.append_nil] at h

/-- A last step that only shapes the value. -/
theorem shaped (hm : Writes names m x bs) (shape : α → β) :
    Writes names (m >>= fun a => Pure.pure (shape a)) (x >>= fun a => Pure.pure (shape a)) bs :=
  hm.last fun a _ => pure (shape a)

theorem map (hm : Writes names m x bs) (shape : α → β) :
    Writes names (m >>= fun a => Pure.pure (shape a)) (x.map shape) bs := by
  have h := hm.shaped shape
  cases x <;> exact h

/-- A first step that only records. -/
theorem after {a : α} {y : Result β} (hm : Writes names m (.ok a) bs)
    (hk : Writes names (k a) y bs') : Writes names (m >>= k) y (bs ++ bs') := by
  refine hm.bind (g := fun _ => y) fun b hb => ?_
  obtain rfl := Except.ok.inj hb
  exact hk

/-- A step that has nothing to record into leaves the collections of
other frames alone. -/
theorem of_none (h : Writes none m x bs) : Writes names m x [] := by
  intro cs _
  obtain ⟨made, hrun⟩ := h cs nofun
  exact ⟨made, by rw [recordIn_nil]; exact hrun⟩

theorem record (f : Frame) (name : String) (type : Option String) :
    Writes f.names (f.record name type) (.ok ()) [(name, type)] := by
  intro cs _
  refine ⟨[], ?_⟩
  obtain ⟨scope, names⟩ := f
  rw [List.append_nil]
  cases names <;> rfl

/-- **A function.** What its body records goes into a collection of its
own, so nothing is recorded around it; the names that come out are those
of the body, whatever the collections held before. -/
theorem inFunction {f : Frame} {receiver : Option String} {body : Frame → Recording α}
    {k : α × Hoisted → Recording β}
    (hbody : ∀ i, Writes (some i) (body ⟨f.scope.enterFunction receiver, some i⟩) x bs)
    (hk : ∀ a, x = .ok a → Writes names (k (a, Hoisted.ofBindings bs)) (g a) bs') :
    Writes names (f.inFunction receiver body >>= k) (x >>= g) bs' := by
  intro cs hcs
  have hlive : Live (some cs.length) (cs ++ [[]]) := by simp [Live]
  obtain ⟨made, hrun⟩ := hbody cs.length (cs ++ [[]]) hlive
  rw [recordIn_length, List.append_assoc] at hrun
  cases x with
  | error e =>
    refine ⟨[], ?_⟩
    rw [Recording.bind_apply, Frame.inFunction_apply, hrun]
    rfl
  | ok a =>
    -- the collection of the body is read where it was made
    have hread : (cs ++ ([Hoisted.ofBindings bs] ++ made)).getD cs.length [] =
        Hoisted.ofBindings bs := by
      simp
    obtain ⟨made', hrun'⟩ := hk a rfl _ (hcs.append ([Hoisted.ofBindings bs] ++ made))
    rw [recordIn_append hcs, List.append_assoc] at hrun'
    refine ⟨_, Eq.trans ?_ hrun'⟩
    rw [Recording.bind_apply, Frame.inFunction_apply, hrun]
    exact congrArg (fun names => k (a, names) _) hread

end Recording.Writes

end Scribe
