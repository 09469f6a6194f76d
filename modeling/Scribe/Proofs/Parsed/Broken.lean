import Scribe.Proofs.Parsed.Tree

/-!
# The first broken place

A text that does not parse has a tree all the same, in which the broken places
are nodes and every node that holds one is marked. `ParsedTree.firstBroken?`
goes by the marks: it leaves out what is not marked and looks below no broken
place.

Neither loses anything. A mark speaks for the whole subtree
(`Marked.hasError_iff`), so the search finds what a look at every node in
order finds first (`firstBroken?_eq_find?`), and `read_refuses_first` says
that a text is refused exactly if its tree has a broken place, and where.
-/

namespace Scribe.ParsedTree

/-! ## The nodes in order -/

mutual

/-- The nodes of a tree, each in front of the nodes below it. -/
def nodes : ParsedTree → List ParsedTree
  | node k sb eb s e cs err m => node k sb eb s e cs err m :: nodesOf cs

/-- The nodes of trees, one tree after another. -/
def nodesOf : List ParsedTree → List ParsedTree
  | [] => []
  | c :: cs => c.nodes ++ nodesOf cs

end

theorem nodesOf_eq_flatMap (cs : List ParsedTree) : nodesOf cs = cs.flatMap nodes := by
  induction cs with
  | nil => rfl
  | cons c cs ih => rw [nodesOf, ih, List.flatMap_cons]

theorem nodes_eq (t : ParsedTree) : t.nodes = t :: t.children.flatMap nodes := by
  obtain ⟨k, sb, eb, s, e, cs, err, m⟩ := t
  rw [nodes, nodesOf_eq_flatMap]
  rfl

/-- **A tree is marked right**: a node is marked exactly if it is a broken
place or a child of it is marked. -/
def Marked (t : ParsedTree) : Prop :=
  ∀ x ∈ t.nodes, x.hasError = true ↔ x.isBroken = true ∨ ∃ c ∈ x.children, c.hasError = true

variable {t c x : ParsedTree} {source : List UInt8}

namespace Marked

theorem root (h : t.Marked) :
    t.hasError = true ↔ t.isBroken = true ∨ ∃ c ∈ t.children, c.hasError = true :=
  h t (nodes_eq t ▸ List.mem_cons_self ..)

/-- A tree that is marked right has children that are. -/
theorem child (h : t.Marked) (hc : c ∈ t.children) : c.Marked := by
  intro x hx
  refine h x ?_
  rw [nodes_eq]
  exact List.mem_cons_of_mem _ (List.mem_flatMap.2 ⟨c, hc, hx⟩)

/-- **A mark speaks for the whole tree**: it says that there is a broken
place at some depth. -/
theorem hasError_iff (h : t.Marked) :
    t.hasError = true ↔ ∃ x ∈ t.nodes, x.isBroken = true := by
  induction t using ParsedTree.induction with
  | step t ih =>
  rw [h.root, nodes_eq]
  constructor
  · rintro (hbroken | ⟨c, hc, herror⟩)
    · exact ⟨t, List.mem_cons_self .., hbroken⟩
    · obtain ⟨x, hx, hbroken⟩ := (ih c hc (h.child hc)).1 herror
      exact ⟨x, List.mem_cons_of_mem _ (List.mem_flatMap.2 ⟨c, hc, hx⟩), hbroken⟩
  · rintro ⟨x, hx, hbroken⟩
    rcases List.mem_cons.1 hx with rfl | hx
    · exact .inl hbroken
    · obtain ⟨c, hc, hx⟩ := List.mem_flatMap.1 hx
      exact .inr ⟨c, hc, (ih c hc (h.child hc)).2 ⟨x, hx, hbroken⟩⟩

/-- A tree that is not marked has no broken place. -/
theorem find?_eq_none (h : t.Marked) (herror : t.hasError = false) :
    t.nodes.find? isBroken = none := by
  rw [List.find?_eq_none]
  intro x hx hbroken
  rw [h.hasError_iff.2 ⟨x, hx, hbroken⟩] at herror
  cases herror

/-- Its root was not put in: that would be a broken place. -/
theorem isMissing_eq_false (h : t.Marked) (herror : t.hasError = false) :
    t.isMissing = false := by
  have hroot := List.find?_eq_none.1 (h.find?_eq_none herror) t
    (nodes_eq t ▸ List.mem_cons_self ..)
  exact (Bool.or_eq_false_iff.1 (Bool.eq_false_iff.2 hroot)).2

end Marked

/-! ## The search -/

theorem firstBroken?_of_isBroken (h : t.isBroken = true) : t.firstBroken? = some t := by
  obtain ⟨k, sb, eb, s, e, cs, err, m⟩ := t
  rw [firstBroken?]
  exact if_pos h

theorem firstBroken?_of_not_isBroken (h : t.isBroken = false) :
    t.firstBroken? = firstBrokenOf? t.children := by
  obtain ⟨k, sb, eb, s, e, cs, err, m⟩ := t
  rw [firstBroken?]
  exact if_neg (Bool.eq_false_iff.1 h)

/-- Among trees, what is not looked into holds no broken place. -/
theorem firstBrokenOf?_eq_find? {cs : List ParsedTree} (hcs : ∀ c ∈ cs, c.Marked)
    (ih : ∀ c ∈ cs, c.firstBroken? = c.nodes.find? isBroken) :
    firstBrokenOf? cs = (cs.flatMap nodes).find? isBroken := by
  induction cs with
  | nil => rfl
  | cons c cs ih' =>
    have hrest := ih' (fun c hc => hcs c (List.mem_cons_of_mem _ hc))
      fun c hc => ih c (List.mem_cons_of_mem _ hc)
    have hmarked := hcs c (List.mem_cons_self ..)
    rw [firstBrokenOf?, List.flatMap_cons, List.find?_append, ← hrest]
    cases herror : c.hasError with
    | true =>
      rw [Bool.true_or, if_pos rfl, ih c (List.mem_cons_self ..)]
      cases c.nodes.find? isBroken <;> rfl
    | false =>
      rw [hmarked.isMissing_eq_false herror, hmarked.find?_eq_none herror]
      rfl

/-- **The search agrees with a look at every node**: what is left out holds
no broken place, and below a broken place none is the first. -/
theorem firstBroken?_eq_find? (h : t.Marked) : t.firstBroken? = t.nodes.find? isBroken := by
  induction t using ParsedTree.induction with
  | step t ih =>
  rw [nodes_eq]
  cases hbroken : t.isBroken with
  | true => rw [firstBroken?_of_isBroken hbroken, List.find?_cons_of_pos hbroken]
  | false =>
    rw [firstBroken?_of_not_isBroken hbroken, List.find?_cons_of_neg (by simp [hbroken])]
    exact firstBrokenOf?_eq_find? (fun c hc => h.child hc) fun c hc => ih c hc (h.child hc)

/-! ## Texts that are refused -/

/-- Leaves break the reading off, and do not refuse the text. -/
theorem leafText_error {start stop : Nat} {e : Failure}
    (h : leafText source start stop = .error e) : ∃ d, e = .defect d := by
  unfold leafText at h
  split at h
  · cases h
  · exact ⟨_, (Except.error.inj h).symm⟩

theorem toCsts_error {ts : List ParsedTree} {e : Failure}
    (hts : ∀ t ∈ ts, ∀ e, t.toCst source = .error e → ∃ d, e = .defect d)
    (h : toCsts source ts = .error e) : ∃ d, e = .defect d := by
  induction ts with
  | nil => cases h
  | cons t ts ih =>
    rw [toCsts] at h
    cases ht : t.toCst source with
    | error e' =>
      rw [ht] at h
      obtain rfl : e' = e := Except.error.inj h
      exact hts t (List.mem_cons_self ..) e' ht
    | ok c =>
      cases hrest : toCsts source ts with
      | error e' =>
        rw [ht, hrest] at h
        obtain rfl : e' = e := Except.error.inj h
        exact ih (fun t ht => hts t (List.mem_cons_of_mem _ ht)) hrest
      | ok cs =>
        rw [ht, hrest] at h
        cases h

theorem toCst_error {e : Failure} (h : t.toCst source = .error e) : ∃ d, e = .defect d := by
  induction t using ParsedTree.induction generalizing e with
  | step t ih =>
  obtain ⟨k, sb, eb, start, stop, cs, err, m⟩ := t
  rw [toCst] at h
  split at h
  · cases htext : leafText source sb eb with
    | error e' =>
      rw [htext] at h
      obtain rfl : e' = e := Except.error.inj h
      exact leafText_error htext
    | ok text =>
      rw [htext] at h
      cases h
  · cases hcs : toCsts source cs with
    | error e' =>
      rw [hcs] at h
      obtain rfl : e' = e := Except.error.inj h
      exact toCsts_error (fun c hc _ he => ih c hc he) hcs
    | ok trees =>
      rw [hcs] at h
      cases h

/-- **The text does not parse**: reading its tree ends with such a fault. -/
def Refused (outcome : Result Cst) : Prop :=
  ∃ message location, outcome = .error (.fault ⟨.parse message, location⟩)

/-- **The first broken place of a tree**: no node in front of it is one. -/
structure IsFirstBroken (t x : ParsedTree) : Prop where
  broken : x.isBroken = true
  first : ∃ before after, t.nodes = before ++ x :: after ∧ ∀ y ∈ before, y.isBroken = false

theorem isFirstBroken_iff : t.IsFirstBroken x ↔ t.nodes.find? isBroken = some x := by
  rw [List.find?_eq_some_iff_append]
  simp only [Bool.not_eq_true']
  exact ⟨fun h => ⟨h.broken, h.first⟩, fun h => ⟨h.1, h.2⟩⟩

theorem read_of_isFirstBroken (file source : String) (h : t.Marked) (hx : t.IsFirstBroken x) :
    t.read file source = .error (.fault (brokenFault file x)) := by
  have hfind := isFirstBroken_iff.1 hx
  have herror : t.hasError = true :=
    h.hasError_iff.2 ⟨x, List.mem_of_find?_eq_some hfind, hx.broken⟩
  rw [read, if_pos herror, firstBroken?_eq_find? h, hfind]
  rfl

/-- A text is refused exactly if its root is marked. -/
theorem refused_read_iff (file source : String) :
    Refused (t.read file source) ↔ t.hasError = true := by
  constructor
  · rintro ⟨message, location, hread⟩
    rw [read] at hread
    split at hread
    · assumption
    · obtain ⟨d, hd⟩ := toCst_error hread
      cases hd
  · intro herror
    rw [read, if_pos herror]
    exact ⟨_, _, rfl⟩

/-- **A text is refused at its first broken place.** In a tree that is marked
right, the search finds what a look at every node in order finds first. The
text is refused exactly if there is a broken place at any depth, and the
fault names the kind and the place of the first one. -/
theorem read_refuses_first (file source : String) (t : ParsedTree) (h : t.Marked) :
    t.firstBroken? = t.nodes.find? isBroken ∧
    (Refused (t.read file source) ↔ ∃ x ∈ t.nodes, x.isBroken = true) ∧
    ∀ x, t.IsFirstBroken x → t.read file source = .error (.fault
      ⟨.parse ("Parse error: invalid syntax near " ++ Text.quoted x.kind),
        some (x.span.location file)⟩) := by
  refine ⟨firstBroken?_eq_find? h, ?_, fun x hx => read_of_isFirstBroken file source h hx⟩
  rw [refused_read_iff, h.hasError_iff]

/-- The tree of `a; f(=`, with an argument that is no expression and without
the bracket that closes the call. -/
def unclosedCall : ParsedTree :=
  .node "module" 0 6 ⟨0, 0⟩ ⟨0, 6⟩ [onFirstLine "identifier" 0 1 [], onFirstLine ";" 1 2 [],
    .node "call" 3 6 ⟨0, 3⟩ ⟨0, 6⟩ [onFirstLine "identifier" 3 4 [],
      .node "argument_list" 4 6 ⟨0, 4⟩ ⟨0, 6⟩ [onFirstLine "(" 4 5 [],
        .node "ERROR" 5 6 ⟨0, 5⟩ ⟨0, 6⟩ [onFirstLine "=" 5 6 []] true false,
        .node ")" 6 6 ⟨0, 6⟩ ⟨0, 6⟩ [] true true] true false] true false] true false

/-- Above, the argument is named, which stands in front of the bracket. -/
theorem read_refuses_first_unclosed :
    unclosedCall.Marked ∧ unclosedCall.read "m" "a; f(=" = .error (.fault
      ⟨.parse "Parse error: invalid syntax near 'ERROR'", some ⟨"m", 1, 6, 5, 6, 1, 7⟩⟩) := by
  have hmarked : unclosedCall.Marked := by
    unfold Marked
    decide
  exact ⟨hmarked, (read_refuses_first "m" "a; f(=" unclosedCall hmarked).2.2
    (.node "ERROR" 5 6 ⟨0, 5⟩ ⟨0, 6⟩ [onFirstLine "=" 5 6 []] true false)
    (isFirstBroken_iff.2 rfl)⟩

end Scribe.ParsedTree
