import Scribe.Fault
import Scribe.Identifier
import Scribe.Text.Blank
import Scribe.Text.Word

/-!
# Type names

Annotations are spelled as text. `typeName` maps a spelling to the type it denotes in the output:

```text
int                 ⟶   number
Optional[str]       ⟶   string | null
dict[str, list]     ⟶   Record<string, Array<any>>
a.b.user_id | None  ⟶   UserId | null
```

Bars and commas separate only outside square brackets. A name that no table knows is a type of the
program and is written in Pascal case, without its module path.

The recursion goes to pieces of the text. A piece between bars or commas is no longer than the
text (`length_le_of_mem_cutTop`), and shorter if there are several (`length_lt_of_mem_cutTop`).
-/

namespace Scribe

namespace TypeName

open Scribe.Text

/-- The types with a name of their own in the output. -/
def table : List (String × String) :=
  [("int", "number"), ("float", "number"), ("complex", "number"), ("number", "number"),
    ("bool", "boolean"), ("boolean", "boolean"), ("str", "string"), ("string", "string"),
    ("bytes", "Uint8Array"), ("None", "void"), ("void", "void"), ("Any", "any"), ("any", "any"),
    ("object", "unknown")]

/-- The generic containers. -/
def generics : List (String × String) :=
  [("list", "Array"), ("List", "Array"), ("Sequence", "Array"), ("Iterable", "Iterable"),
    ("set", "Set"), ("Set", "Set"), ("dict", "Record"), ("Dict", "Record"), ("Mapping", "Record")]

/-! ## Cutting at separators outside brackets -/

/-- The change of the bracket depth at a character. -/
def depthStep (c : Char) : Int :=
  if c = '[' then 1 else if c = ']' then -1 else 0

/-- The pieces of a text between the separators at depth zero; at least one. The first character
stands at `depth`. -/
def cutTop (sep : Char) (depth : Int) : List Char → List (List Char)
  | [] => [[]]
  | c :: cs =>
    if c = sep ∧ depth + depthStep c = 0 then [] :: cutTop sep (depth + depthStep c) cs
    else match cutTop sep (depth + depthStep c) cs with
      | p :: ps => (c :: p) :: ps
      | [] => [[c]]

/-- There is always a piece, if only an empty one. -/
theorem cutTop_ne_nil (sep : Char) (depth : Int) (cs : List Char) : cutTop sep depth cs ≠ [] := by
  cases cs with
  | nil => simp [cutTop]
  | cons c cs =>
    rw [cutTop]
    split
    · simp
    · split <;> simp

/-- The pieces and the separators between them are as long as the text. -/
theorem length_cutTop (sep : Char) (depth : Int) (cs : List Char) :
    (cutTop sep depth cs).flatten.length + (cutTop sep depth cs).length = cs.length + 1 := by
  induction cs generalizing depth with
  | nil => simp [cutTop]
  | cons c cs ih =>
    rw [cutTop]
    split
    · have := ih (depth + depthStep c)
      simp only [List.flatten_cons, List.nil_append, List.length_cons]
      omega
    · have := ih (depth + depthStep c)
      split
      · rename_i p ps h
        rw [h] at this
        simp only [List.flatten_cons, List.length_append, List.length_cons] at this ⊢
        omega
      · rename_i h
        exact absurd h (cutTop_ne_nil _ _ _)

/-- A piece is no longer than the text. -/
theorem length_le_of_mem_cutTop {sep : Char} {depth : Int} {cs p : List Char}
    (h : p ∈ cutTop sep depth cs) : p.length ≤ cs.length := by
  have h₁ := length_cutTop sep depth cs
  have h₂ := (List.sublist_flatten_of_mem h).length_le
  have h₃ : 0 < (cutTop sep depth cs).length := List.length_pos_of_mem h
  omega

/-- One of several pieces is shorter than the text. -/
theorem length_lt_of_mem_cutTop {sep : Char} {depth : Int} {cs p : List Char}
    (h : p ∈ cutTop sep depth cs) (hs : 1 < (cutTop sep depth cs).length) :
    p.length < cs.length := by
  have h₁ := length_cutTop sep depth cs
  have h₂ := (List.sublist_flatten_of_mem h).length_le
  omega

theorem length_trim_le (p : Char → Bool) (cs : List Char) : (trim p cs).length ≤ cs.length := by
  have hd : ∀ l : List Char, (l.dropWhile p).length ≤ l.length := fun l =>
    (List.dropWhile_suffix p).length_le
  simp only [trim, trimEnd, trimStart, List.length_reverse]
  refine Nat.le_trans (hd _) ?_
  simpa using hd cs

/-! ## The parts of a spelling -/

/-- A quote around a type that is named before it is defined. -/
def isQuote (c : Char) : Bool :=
  c == '\'' || c == '"'

/-- The spelling without blanks and then without quotes at its ends. -/
def clean (cs : List Char) : List Char :=
  trim isQuote (trim isBlank cs)

/-- The members of a union; a single one if there is no bar outside brackets. -/
def members (cs : List Char) : List (List Char) :=
  (cutTop '|' 0 cs).map (trim isBlank)

/-- The arguments between brackets; a blank one at the end is dropped. -/
def arguments (cs : List Char) : List (List Char) :=
  let ps := (cutTop ',' 0 cs).map (trim isBlank)
  if ps.getLast?.any List.isEmpty then ps.dropLast else ps

/-- A character of a dotted name. -/
def isNameChar (c : Char) : Bool :=
  isWord c || c == '.'

/-- The text up to a closing bracket at its end, after which one newline may follow. -/
def beforeClose? (cs : List Char) : Option (List Char) :=
  match cs.reverse with
  | ']' :: rest => some rest.reverse
  | '\n' :: ']' :: rest => some rest.reverse
  | _ => none

/-- A dotted name and what stands in brackets after it. -/
def subscript? (cs : List Char) : Option (List Char × List Char) :=
  match cs.dropWhile isNameChar with
  | '[' :: rest =>
    if (cs.takeWhile isNameChar).isEmpty then none
    else (beforeClose? rest).map (cs.takeWhile isNameChar, ·)
  | _ => none

/-- The last part of a dotted name. -/
def lastPart (name : List Char) : List Char :=
  (name.splitOn '.').getLast?.getD []

theorem length_clean_le (cs : List Char) : (clean cs).length ≤ cs.length :=
  Nat.le_trans (length_trim_le _ _) (length_trim_le _ _)

/-- One of several members is shorter than the union. -/
theorem length_lt_of_mem_members {cs m : List Char} (h : m ∈ members cs)
    (hs : 1 < (members cs).length) : m.length < cs.length := by
  obtain ⟨p, hp, rfl⟩ := List.mem_map.1 h
  rw [members, List.length_map] at hs
  exact Nat.lt_of_le_of_lt (length_trim_le _ _) (length_lt_of_mem_cutTop hp hs)

theorem length_le_of_mem_arguments {cs a : List Char} (h : a ∈ arguments cs) :
    a.length ≤ cs.length := by
  have h' : a ∈ (cutTop ',' 0 cs).map (trim isBlank) := by
    simp only [arguments] at h
    split at h
    · exact (List.dropLast_sublist _).subset h
    · exact h
  obtain ⟨p, hp, rfl⟩ := List.mem_map.1 h'
  exact Nat.le_trans (length_trim_le _ _) (length_le_of_mem_cutTop hp)

theorem length_lt_of_beforeClose? {cs inner : List Char} (h : beforeClose? cs = some inner) :
    inner.length < cs.length := by
  have hr : cs.reverse.length = cs.length := List.length_reverse
  unfold beforeClose? at h
  split at h
  · rename_i rest hc
    rw [hc] at hr
    simp only [List.length_cons, Option.some.injEq] at hr h
    rw [← h, List.length_reverse]
    omega
  · rename_i rest hc
    rw [hc] at hr
    simp only [List.length_cons, Option.some.injEq] at hr h
    rw [← h, List.length_reverse]
    omega
  · simp at h

/-- What stands in brackets is shorter than the whole. -/
theorem length_lt_of_subscript? {cs name inner : List Char}
    (h : subscript? cs = some (name, inner)) : inner.length < cs.length := by
  have hd : (cs.dropWhile isNameChar).length ≤ cs.length :=
    (List.dropWhile_suffix isNameChar).length_le
  unfold subscript? at h
  split at h
  · rename_i rest hc
    rw [hc, List.length_cons] at hd
    split at h
    · simp at h
    · simp only [Option.map_eq_some_iff, Prod.mk.injEq] at h
      obtain ⟨x, hx, -, rfl⟩ := h
      have := length_lt_of_beforeClose? hx
      omega
  · simp at h

/-! ## The shape of a spelling -/

/-- What a spelling consists of. -/
inductive Shape where
  /-- A type with a name of its own in the output. -/
  | known (type : String)
  /-- Several members between bars. -/
  | union (members : List (List Char))
  /-- A name with arguments in brackets; its module path is dropped. -/
  | generic (outer : String) (args : List (List Char))
  /-- Anything else: a name. -/
  | bare (name : List Char)
  deriving DecidableEq, Repr

/-- The spellings inside a shape. -/
def Shape.pieces : Shape → List (List Char)
  | .known _ => []
  | .union ms => ms
  | .generic _ args => args
  | .bare _ => []

/-- The shape of a spelling without blanks and quotes at its ends. -/
def shape (spelling : List Char) : Shape :=
  match table.lookup (.ofList spelling) with
  | some type => .known type
  | none =>
    if 1 < (members spelling).length then .union (members spelling)
    else match subscript? spelling with
      | some (name, inner) => .generic (.ofList (lastPart name)) (arguments inner)
      | none => .bare spelling

/-- A spelling inside a shape is shorter than the whole. -/
theorem length_lt_of_mem_pieces {cs p : List Char} (h : p ∈ (shape cs).pieces) :
    p.length < cs.length := by
  unfold shape at h
  split at h
  · simp [Shape.pieces] at h
  · split at h
    · exact length_lt_of_mem_members h (by assumption)
    · split at h
      · rename_i hs
        exact Nat.lt_of_le_of_lt (length_le_of_mem_arguments h) (length_lt_of_subscript? hs)
      · simp [Shape.pieces] at h

theorem length_lt_of_shape_eq {cs p : List Char} {s : Shape} (h : shape (clean cs) = s)
    (hp : p ∈ s.pieces) : p.length < cs.length :=
  Nat.lt_of_lt_of_le (length_lt_of_mem_pieces (h ▸ hp)) (length_clean_le cs)

/-! ## The type -/

/-- The written form of a generic type. -/
def genericText (outer : String) (args : List String) : String :=
  (generics.lookup outer).getD (Identifier.pascal outer) ++ "<" ++ ", ".intercalate args ++ ">"

/-- The written form of a name without arguments. -/
def bareText (name : List Char) : String :=
  match generics.lookup (.ofList name) with
  | some "Record" => "Record<string, any>"
  | some generic => generic ++ "<any>"
  | none => Identifier.pascal (.ofList (lastPart name))

/-- The type that a spelling denotes. The member `None` of a union is the value `null`; an ellipsis
in a tuple is dropped; `Optional` without an argument denotes no type. -/
def ofChars (cs : List Char) : Result String :=
  match _h : shape (clean cs) with
  | .known type => .ok type
  | .bare name => .ok (bareText name)
  | .union ms => do
    let types ← ms.attach.mapM fun ⟨m, _⟩ =>
      if m = "None".toList then .ok "null" else ofChars m
    return " | ".intercalate types
  | .generic "Optional" args =>
    match args.attach with
    | [] => .error (.defect .missingPart)
    | ⟨a, _⟩ :: _ => do
      let type ← ofChars a
      return type ++ " | null"
  | .generic "Union" args => do
    let types ← args.attach.mapM fun ⟨a, _⟩ =>
      if a = "None".toList then .ok "null" else ofChars a
    return " | ".intercalate types
  | .generic outer args => do
    if outer = "tuple" || outer = "Tuple" then
      let types ← (args.attach.filter (·.1 ≠ "...".toList)).mapM fun ⟨a, _⟩ => ofChars a
      return "[" ++ ", ".intercalate types ++ "]"
    else
      let types ← args.attach.mapM fun ⟨a, _⟩ => ofChars a
      return genericText outer types
termination_by cs.length
decreasing_by all_goals exact length_lt_of_shape_eq _h (by simp only [Shape.pieces]; assumption)

end TypeName

/-- The type of the output that a spelling denotes. -/
def typeName (spelling : String) : Result String :=
  TypeName.ofChars spelling.toList

end Scribe
