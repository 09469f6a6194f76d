import Scribe.TypeName

/-!
# Control characters in names and types

Names and types are converted, but no conversion makes a control
character: what is below the blank in the result stood in the source. The
lemmas follow the definitions, from the case of a character up to a whole
type (`mem_of_mem_typeName`).
-/

namespace Scribe

/-- **A control character**: one below the blank. -/
def IsControl (x : Char) : Prop :=
  x.toNat < 32

instance (x : Char) : Decidable (IsControl x) :=
  inferInstanceAs (Decidable (_ < _))

/-- A character that no conversion of a name makes: no letter, and not
the underscore. -/
def IsForeign (x : Char) : Prop :=
  x.isAlpha = false ∧ x ≠ '_'

instance (x : Char) : Decidable (IsForeign x) :=
  inferInstanceAs (Decidable (_ ∧ _))

variable {x : Char}

/-! ## Characters -/

/-- A text above the blank holds no control character. -/
theorem not_mem_of_all (hx : IsControl x) {t : String}
    (ht : t.toList.all (!IsControl ·) = true) : x ∉ t.toList := by
  intro hmem
  have hfree := List.all_eq_true.1 ht x hmem
  simp [hx] at hfree

/-- A letter, by its number. -/
theorem isAlpha_iff : x.isAlpha = true ↔
    65 ≤ x.val.toNat ∧ x.val.toNat ≤ 90 ∨ 97 ≤ x.val.toNat ∧ x.val.toNat ≤ 122 := by
  delta Char.isAlpha Char.isUpper Char.isLower
  simp only [Bool.or_eq_true, Bool.and_eq_true, decide_eq_true_eq]
  rfl

/-- A control character is no letter. -/
theorem IsControl.isForeign (hx : IsControl x) : IsForeign x := by
  have hlt : x.val.toNat < 32 := hx
  constructor
  · rw [Bool.eq_false_iff]
    intro hletter
    have hnum := isAlpha_iff.1 hletter
    omega
  · rintro rfl
    exact absurd hx (by decide)

/-- Lowering a letter makes a letter. -/
theorem eq_of_toLower_eq (hx : IsForeign x) {c : Char} (h : c.toLower = x) : c = x := by
  unfold Char.toLower at h
  split at h
  · rename_i hupper
    exfalso
    have hval := congrArg (fun d : Char => d.val.toNat) h
    have hge : 65 ≤ c.val.toNat := hupper.1
    have hle : c.val.toNat ≤ 90 := hupper.2
    have hstep : ('a'.val - 'A'.val : UInt32).toNat = 32 := rfl
    simp only [UInt32.toNat_add, hstep] at hval
    have hletter : x.isAlpha = true := isAlpha_iff.2 (by omega)
    rw [hx.1] at hletter
    cases hletter
  · exact h

/-- So does raising one. -/
theorem eq_of_toUpper_eq (hx : IsForeign x) {c : Char} (h : c.toUpper = x) : c = x := by
  unfold Char.toUpper at h
  split at h
  · rename_i hlower
    exfalso
    have hval := congrArg (fun d : Char => d.val.toNat) h
    have hge : 97 ≤ c.val.toNat := hlower.1
    have hle : c.val.toNat ≤ 122 := hlower.2
    have hstep : ('A'.val - 'a'.val : UInt32).toNat = 2 ^ 32 - 32 := rfl
    simp only [UInt32.toNat_add, hstep] at hval
    have hletter : x.isAlpha = true := isAlpha_iff.2 (by omega)
    rw [hx.1] at hletter
    cases hletter
  · exact h

/-- A character of joined texts stands in the separator or in one of
them. -/
theorem mem_of_mem_intercalate {c : Char} {sep : String} {ts : List String}
    (h : c ∈ (sep.intercalate ts).toList) : c ∈ sep.toList ∨ ∃ t ∈ ts, c ∈ t.toList := by
  induction ts with
  | nil => simp at h
  | cons t ts ih =>
    cases ts with
    | nil => exact .inr ⟨t, List.mem_cons_self .., by simpa using h⟩
    | cons u ts =>
      rw [String.intercalate_cons_cons] at h
      simp only [String.toList_append, List.mem_append] at h
      rcases h with (h | h) | h
      · exact .inr ⟨t, List.mem_cons_self .., h⟩
      · exact .inl h
      · refine (ih h).imp_right fun ⟨v, hv, hcv⟩ => ?_
        exact ⟨v, List.mem_cons_of_mem _ hv, hcv⟩

/-! ## Identifiers -/

namespace Identifier

theorem mem_of_mem_lower (hx : IsForeign x) {w : List Char} (h : x ∈ lower w) : x ∈ w := by
  obtain ⟨c, hc, hcx⟩ := List.mem_map.1 h
  exact eq_of_toLower_eq hx hcx ▸ hc

theorem mem_of_mem_capitalize (hx : IsForeign x) {w : List Char} (h : x ∈ capitalize w) :
    x ∈ w := by
  cases w with
  | nil => cases h
  | cons c cs =>
    rcases List.mem_cons.1 h with h | h
    · exact eq_of_toUpper_eq hx h.symm ▸ List.mem_cons_self ..
    · exact List.mem_cons_of_mem _ (mem_of_mem_lower hx h)

/-- Cutting a name into words puts nothing in. -/
theorem mem_of_mem_words {cs w : List Char} {c : Char} (hw : w ∈ words cs) (hc : c ∈ w) :
    c ∈ cs := by
  induction cs generalizing w with
  | nil => cases hw
  | cons a rest ih =>
    rw [words] at hw
    split at hw
    · exact List.mem_cons_of_mem _ (ih hw hc)
    · split at hw
      · rename_i v vs _ hwords
        rcases List.mem_cons.1 hw with rfl | hw
        · rcases List.mem_cons.1 hc with rfl | hc
          · exact List.mem_cons_self ..
          · exact List.mem_cons_of_mem _ (ih (hwords ▸ List.mem_cons_self ..) hc)
        · exact List.mem_cons_of_mem _ (ih (hwords ▸ List.mem_cons_of_mem _ hw) hc)
      · rcases List.mem_cons.1 hw with rfl | hw
        · obtain rfl := List.mem_singleton.1 hc
          exact List.mem_cons_self ..
        · exact List.mem_cons_of_mem _ (ih hw hc)

/-- A way to join words that does not make the character. -/
def KeepsForeign (x : Char) (join : List (List Char) → List Char) : Prop :=
  ∀ ws, x ∈ join ws → ∃ w ∈ ws, x ∈ w

theorem keepsForeign_joinPascal (hx : IsForeign x) : KeepsForeign x joinPascal := by
  intro ws h
  obtain ⟨w, hw, hxw⟩ := List.mem_flatten.1 h
  obtain ⟨v, hv, rfl⟩ := List.mem_map.1 hw
  exact ⟨v, hv, mem_of_mem_capitalize hx hxw⟩

theorem keepsForeign_joinCamel (hx : IsForeign x) : KeepsForeign x joinCamel := by
  intro ws h
  cases ws with
  | nil => cases h
  | cons w ws =>
    rcases List.mem_append.1 h with h | h
    · exact ⟨w, List.mem_cons_self .., mem_of_mem_lower hx h⟩
    · obtain ⟨v, hv, hxv⟩ := keepsForeign_joinPascal hx ws h
      exact ⟨v, List.mem_cons_of_mem _ hv, hxv⟩

/-- The parts of a name are made of its characters. -/
theorem mem_of_mem_parts {name : List Char} {c : Char} (h : c ∈ (parts name).name) :
    c ∈ name := by
  have hdrop : ∀ {d : Char}, d ∈ name.dropWhile (· == '_') → d ∈ name :=
    fun hd => (List.dropWhile_suffix _).subset hd
  unfold parts at h
  split at h
  · simpa [Parts.name] using h
  · simp only [Parts.name, List.mem_append] at h
    rcases h with (h | h) | h
    · exact (List.takeWhile_prefix _).subset h
    · exact hdrop (List.mem_of_mem_take h)
    · exact hdrop (List.mem_reverse.1 ((List.takeWhile_prefix _).subset h))

/-- **A converted name** has the foreign characters of the name only. -/
theorem mem_of_mem_convert {join : List (List Char) → List Char} (hjoin : KeepsForeign x join)
    {name : List Char} (h : x ∈ (convert join name).name) : x ∈ name := by
  have hpart : ∀ {c : Char}, c ∈ (parts name).core → c ∈ name := by
    intro c hc
    refine mem_of_mem_parts ?_
    rw [Parts.name]
    exact List.mem_append_left _ (List.mem_append_right _ hc)
  simp only [convert] at h
  split at h
  · exact mem_of_mem_parts h
  · split at h
    · exact mem_of_mem_parts h
    · simp only [Parts.name, List.mem_append] at h
      rcases h with (h | h) | h
      · refine mem_of_mem_parts ?_
        rw [Parts.name]
        exact List.mem_append_left _ (List.mem_append_left _ h)
      · obtain ⟨w, hw, hxw⟩ := hjoin _ h
        exact hpart (mem_of_mem_words hw hxw)
      · refine mem_of_mem_parts ?_
        rw [Parts.name]
        exact List.mem_append_right _ h

theorem mem_of_mem_property (hx : IsForeign x) {name : String}
    (h : x ∈ (property name).toList) : x ∈ name.toList := by
  rw [property, String.toList_ofList] at h
  exact mem_of_mem_convert (keepsForeign_joinCamel hx) h

/-- Names in Pascal case have the foreign characters of the name only. -/
theorem mem_of_mem_pascal (hx : IsForeign x) {name : String} (h : x ∈ (pascal name).toList) :
    x ∈ name.toList := by
  rw [pascal, String.toList_ofList] at h
  exact mem_of_mem_convert (keepsForeign_joinPascal hx) h

theorem mem_of_mem_camel (hx : IsForeign x) {name : String} (h : x ∈ (camel name).toList) :
    x ∈ name.toList := by
  simp only [camel] at h
  split at h
  · rw [String.toList_append, List.mem_append] at h
    rcases h with h | h
    · exact mem_of_mem_property hx h
    · exact absurd (by simpa using h) hx.2
  · exact mem_of_mem_property hx h

end Identifier

/-! ## Types -/

namespace TypeName

open Text

theorem mem_of_mem_trim {p : Char → Bool} {cs : List Char} {c : Char} (h : c ∈ trim p cs) :
    c ∈ cs := by
  simp only [trim, trimEnd, trimStart, List.mem_reverse] at h
  have hstart := List.mem_reverse.1 ((List.dropWhile_suffix p).subset h)
  exact (List.dropWhile_suffix p).subset hstart

/-- A piece between separators is made of characters of the text. -/
theorem mem_of_mem_cutTop {sep : Char} {depth : Int} {cs p : List Char} {c : Char}
    (hp : p ∈ cutTop sep depth cs) (hc : c ∈ p) : c ∈ cs := by
  induction cs generalizing depth p with
  | nil =>
    obtain rfl := List.mem_singleton.1 hp
    cases hc
  | cons a cs ih =>
    rw [cutTop] at hp
    split at hp
    · rcases List.mem_cons.1 hp with rfl | hp
      · cases hc
      · exact List.mem_cons_of_mem _ (ih hp hc)
    · split at hp
      · rename_i q qs hcut
        rcases List.mem_cons.1 hp with rfl | hp
        · rcases List.mem_cons.1 hc with rfl | hc
          · exact List.mem_cons_self ..
          · exact List.mem_cons_of_mem _ (ih (hcut ▸ List.mem_cons_self ..) hc)
        · exact List.mem_cons_of_mem _ (ih (hcut ▸ List.mem_cons_of_mem _ hp) hc)
      · obtain rfl := List.mem_singleton.1 hp
        obtain rfl := List.mem_singleton.1 hc
        exact List.mem_cons_self ..

theorem mem_of_mem_members {cs m : List Char} {c : Char} (hm : m ∈ members cs) (hc : c ∈ m) :
    c ∈ cs := by
  obtain ⟨p, hp, rfl⟩ := List.mem_map.1 hm
  exact mem_of_mem_cutTop hp (mem_of_mem_trim hc)

/-- An argument is a piece between commas, without the blanks around
it. -/
theorem exists_of_mem_arguments {cs a : List Char} (ha : a ∈ arguments cs) :
    ∃ p ∈ cutTop ',' 0 cs, trim isBlank p = a := by
  refine List.mem_map.1 ?_
  simp only [arguments] at ha
  split at ha
  · exact (List.dropLast_sublist _).subset ha
  · exact ha

theorem mem_of_mem_arguments {cs a : List Char} {c : Char} (ha : a ∈ arguments cs) (hc : c ∈ a) :
    c ∈ cs := by
  obtain ⟨p, hp, rfl⟩ := exists_of_mem_arguments ha
  exact mem_of_mem_cutTop hp (mem_of_mem_trim hc)

theorem mem_of_mem_beforeClose? {cs inner : List Char} {c : Char}
    (h : beforeClose? cs = some inner) (hc : c ∈ inner) : c ∈ cs := by
  unfold beforeClose? at h
  rw [← List.mem_reverse]
  split at h
  · rename_i rest hcs
    obtain rfl := Option.some.inj h
    rw [hcs]
    exact List.mem_cons_of_mem _ (List.mem_reverse.1 hc)
  · rename_i rest hcs
    obtain rfl := Option.some.inj h
    rw [hcs]
    exact List.mem_cons_of_mem _ (List.mem_cons_of_mem _ (List.mem_reverse.1 hc))
  · cases h

/-- The name and what stands in brackets are pieces of the spelling. -/
theorem mem_of_mem_subscript? {cs name inner : List Char} {c : Char}
    (h : subscript? cs = some (name, inner)) (hc : c ∈ name ∨ c ∈ inner) : c ∈ cs := by
  unfold subscript? at h
  split at h
  · rename_i rest hrest
    split at h
    · cases h
    · obtain ⟨closed, hclosed, heq⟩ := Option.map_eq_some_iff.1 h
      obtain ⟨rfl, rfl⟩ := Prod.mk.inj heq
      rcases hc with hc | hc
      · exact (List.takeWhile_prefix _).subset hc
      · have hmem := List.mem_cons_of_mem '[' (mem_of_mem_beforeClose? hclosed hc)
        rw [← hrest] at hmem
        exact (List.dropWhile_suffix _).subset hmem
  · cases h

theorem mem_of_mem_splitOn {cs p : List Char} {sep c : Char} (hp : p ∈ cs.splitOn sep)
    (hc : c ∈ p) : c ∈ cs := by
  induction cs generalizing p with
  | nil =>
    obtain rfl : p = [] := by simpa using hp
    cases hc
  | cons a cs ih =>
    obtain ⟨q, qs, hsplit⟩ := List.exists_cons_of_ne_nil (List.splitOn_ne_nil sep cs)
    rw [hsplit] at ih
    rw [List.splitOn_cons_eq_if_modifyHead, hsplit] at hp
    split at hp
    · rcases List.mem_cons.1 hp with rfl | hp
      · cases hc
      · exact List.mem_cons_of_mem _ (ih hp hc)
    · rw [List.modifyHead_cons] at hp
      rcases List.mem_cons.1 hp with rfl | hp
      · rcases List.mem_cons.1 hc with rfl | hc
        · exact List.mem_cons_self ..
        · exact List.mem_cons_of_mem _ (ih (List.mem_cons_self ..) hc)
      · exact List.mem_cons_of_mem _ (ih (List.mem_cons_of_mem _ hp) hc)

theorem mem_of_mem_lastPart {name : List Char} {c : Char} (h : c ∈ lastPart name) :
    c ∈ name := by
  rw [lastPart] at h
  cases hlast : (name.splitOn '.').getLast? with
  | none =>
    rw [hlast] at h
    cases h
  | some p =>
    rw [hlast] at h
    exact mem_of_mem_splitOn (List.mem_of_getLast? hlast) h

/-- The spellings inside a shape are made of the characters of the
whole. -/
theorem mem_of_mem_pieces {cs p : List Char} {c : Char} (hp : p ∈ (shape cs).pieces)
    (hc : c ∈ p) : c ∈ cs := by
  unfold shape at hp
  split at hp
  · cases hp
  · split at hp
    · exact mem_of_mem_members hp hc
    · split at hp
      · rename_i name inner hsub
        exact mem_of_mem_subscript? hsub (.inr (mem_of_mem_arguments hp hc))
      · cases hp

theorem mem_of_lookup {entries : List (String × String)} {name t : String}
    (h : entries.lookup name = some t) : (name, t) ∈ entries := by
  obtain ⟨before, after, rfl, _⟩ := List.lookup_eq_some_iff.1 h
  exact List.mem_append_right _ (List.mem_cons_self ..)

/-- The entries of the tables hold no control character. -/
theorem not_mem_of_lookup (hx : IsControl x) {entries : List (String × String)} {name t : String}
    (hentries : entries.all (·.2.toList.all (!IsControl ·)) = true)
    (h : entries.lookup name = some t) : x ∉ t.toList := by
  have hfree := List.all_eq_true.1 hentries (name, t) (mem_of_lookup h)
  exact not_mem_of_all hx hfree

theorem mem_of_mem_mapM {α : Type} {g : α → Result String} {as : List α} {ts : List String}
    {t : String} (h : as.mapM g = .ok ts) (ht : t ∈ ts) : ∃ a ∈ as, g a = .ok t := by
  induction as generalizing ts with
  | nil =>
    rw [List.mapM_nil] at h
    obtain rfl := Except.ok.inj h
    cases ht
  | cons a as ih =>
    rw [List.mapM_cons] at h
    simp only [Result.bind_eq_ok, Result.pure_eq_ok] at h
    obtain ⟨u, hu, us, hus, rfl⟩ := h
    rcases List.mem_cons.1 ht with rfl | ht
    · exact ⟨a, List.mem_cons_self .., hu⟩
    · obtain ⟨b, hb, hbt⟩ := ih hus ht
      exact ⟨b, List.mem_cons_of_mem _ hb, hbt⟩

/-- A control character of joined types is one of a single type. -/
theorem exists_of_mem_joined (hx : IsControl x) {α : Type} {g : α → Result String} {as : List α}
    {ts : List String} {sep : String} (hsep : sep.toList.all (!IsControl ·) = true)
    (h : as.mapM g = .ok ts) (hmem : x ∈ (sep.intercalate ts).toList) :
    ∃ a ∈ as, ∃ t, g a = .ok t ∧ x ∈ t.toList := by
  obtain ⟨t, ht, hxt⟩ := (mem_of_mem_intercalate hmem).resolve_left (not_mem_of_all hx hsep)
  obtain ⟨a, ha, hat⟩ := mem_of_mem_mapM h ht
  exact ⟨a, ha, t, hat, hxt⟩

/-- A generic type is written with its arguments and signs above the blank. -/
theorem mem_of_mem_genericText (hx : IsControl x) {outer : String} {args : List String}
    (h : x ∈ (genericText outer args).toList) : x ∈ outer.toList ∨ ∃ t ∈ args, x ∈ t.toList := by
  simp only [genericText, String.toList_append, List.mem_append] at h
  rcases h with ((h | h) | h) | h
  · refine .inl (Identifier.mem_of_mem_pascal hx.isForeign ?_)
    cases hlook : generics.lookup outer with
    | none => rwa [hlook] at h
    | some t =>
      rw [hlook] at h
      exact absurd h (not_mem_of_lookup hx (by decide) hlook)
  · exact absurd h (not_mem_of_all hx (by decide))
  · exact .inr ((mem_of_mem_intercalate h).resolve_left (not_mem_of_all hx (by decide)))
  · exact absurd h (not_mem_of_all hx (by decide))

theorem mem_of_mem_bareText (hx : IsControl x) {name : List Char}
    (h : x ∈ (bareText name).toList) : x ∈ name := by
  unfold bareText at h
  split at h
  · exact absurd h (not_mem_of_all hx (by decide))
  · rename_i generic _ hlook
    rw [String.toList_append, List.mem_append] at h
    rcases h with h | h
    · exact absurd h (not_mem_of_lookup hx (by decide) hlook)
    · exact absurd h (not_mem_of_all hx (by decide))
  · have hlast := Identifier.mem_of_mem_pascal hx.isForeign h
    rw [String.toList_ofList] at hlast
    exact mem_of_mem_lastPart hlast

/-- What stands outside the pieces of a shape. -/
def Shape.own : Shape → List Char
  | .known type => type.toList
  | .bare name => name
  | .generic outer _ => outer.toList
  | .union _ => []

theorem mem_of_mem_own (hx : IsControl x) {cs : List Char} (h : x ∈ (shape cs).own) :
    x ∈ cs := by
  unfold shape at h
  split at h
  · rename_i type hlook
    exact absurd h (not_mem_of_lookup hx (by decide) hlook)
  · split at h
    · cases h
    · split at h
      · rename_i name inner hsub
        rw [Shape.own, String.toList_ofList] at h
        exact mem_of_mem_subscript? hsub (.inl (mem_of_mem_lastPart h))
      · exact h

/-- **A type** has the control characters of its spelling only. -/
theorem mem_of_mem_ofChars (hx : IsControl x) (cs : List Char) {t : String}
    (h : ofChars cs = .ok t) (hmem : x ∈ t.toList) : x ∈ cs := by
  have hclean : ∀ {c : Char}, c ∈ clean cs → c ∈ cs :=
    fun hc => mem_of_mem_trim (mem_of_mem_trim hc)
  -- the pieces are shorter than the spelling
  have ih : ∀ p ∈ (shape (clean cs)).pieces, ∀ {u}, ofChars p = .ok u → x ∈ u.toList →
      x ∈ cs := by
    intro p hp u hu hxu
    exact hclean (mem_of_mem_pieces hp (mem_of_mem_ofChars hx p hu hxu))
  -- a member of a union: the null value, or a type of its own
  have hmember : ∀ p ∈ (shape (clean cs)).pieces, ∀ {u},
      (if p = "None".toList then .ok "null" else ofChars p : Result String) = .ok u →
      x ∈ u.toList → x ∈ cs := by
    intro p hp u hu hxu
    split at hu
    · obtain rfl := Except.ok.inj hu
      exact absurd hxu (not_mem_of_all hx (by decide))
    · exact ih p hp hu hxu
  rw [ofChars] at h
  split at h
  · rename_i type hshape
    obtain rfl := Except.ok.inj h
    exact hclean (mem_of_mem_own hx (hshape ▸ hmem))
  · rename_i name hshape
    obtain rfl := Except.ok.inj h
    exact hclean (mem_of_mem_own hx (hshape ▸ mem_of_mem_bareText hx hmem))
  · rename_i ms hshape
    simp only [Result.bind_eq_ok, Result.pure_eq_ok] at h
    obtain ⟨types, htypes, rfl⟩ := h
    obtain ⟨⟨m, hm⟩, -, u, hmu, hxu⟩ := exists_of_mem_joined hx (by decide) htypes hmem
    exact hmember m (hshape ▸ hm) hmu hxu
  · rename_i args hshape
    split at h
    · cases h
    · rename_i a ha rest hargs
      simp only [Result.bind_eq_ok, Result.pure_eq_ok] at h
      obtain ⟨type, htype, rfl⟩ := h
      rw [String.toList_append, List.mem_append] at hmem
      rcases hmem with hmem | hmem
      · exact ih a (hshape ▸ ha) htype hmem
      · exact absurd hmem (not_mem_of_all hx (by decide))
  · rename_i args hshape
    simp only [Result.bind_eq_ok, Result.pure_eq_ok] at h
    obtain ⟨types, htypes, rfl⟩ := h
    obtain ⟨⟨m, hm⟩, -, u, hmu, hxu⟩ := exists_of_mem_joined hx (by decide) htypes hmem
    exact hmember m (hshape ▸ hm) hmu hxu
  · rename_i outer args _ _ hshape
    split at h
    · simp only [Result.bind_eq_ok, Result.pure_eq_ok] at h
      obtain ⟨types, htypes, rfl⟩ := h
      simp only [String.toList_append, List.mem_append] at hmem
      rcases hmem with (hmem | hmem) | hmem
      · exact absurd hmem (not_mem_of_all hx (by decide))
      · obtain ⟨⟨m, hm⟩, -, u, hmu, hxu⟩ := exists_of_mem_joined hx (by decide) htypes hmem
        exact ih m (hshape ▸ hm) hmu hxu
      · exact absurd hmem (not_mem_of_all hx (by decide))
    · simp only [Result.bind_eq_ok, Result.pure_eq_ok] at h
      obtain ⟨types, htypes, rfl⟩ := h
      rcases mem_of_mem_genericText hx hmem with hmem | ⟨u, hu, hxu⟩
      · exact hclean (mem_of_mem_own hx (hshape ▸ hmem))
      · obtain ⟨⟨m, hm⟩, -, hmu⟩ := mem_of_mem_mapM htypes hu
        exact ih m (hshape ▸ hm) hmu hxu
termination_by cs.length
decreasing_by exact length_lt_of_shape_eq rfl hp

end TypeName

/-- The same of the texts. -/
theorem mem_of_mem_typeName (hx : IsControl x) {spelling t : String}
    (h : typeName spelling = .ok t) (hmem : x ∈ t.toList) : x ∈ spelling.toList :=
  TypeName.mem_of_mem_ofChars hx _ h hmem

end Scribe
