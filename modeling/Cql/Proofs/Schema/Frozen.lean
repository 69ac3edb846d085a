import Cql.Proofs.Schema.Reported

/-!
Whether a column is frozen is told from the first characters of its type text, apart from the
reading of the text. For a text that is read as a type, both agree on whether its outermost keyword
is that for frozen types, unless this keyword is in double quotes.
-/

namespace Cql

namespace Ty

/-- The keyword with types after it that reading of the text begins with, if it begins with one. -/
def outermost? (input : String) : Option Builder :=
  match nameReader input.toList with
  | .ok (name, _) => Builder.ofName? name
  | .error _ => none

def startsQuoted (input : String) : Bool := (trimStart input.toList).head? == some '"'

section Names

variable {name : String} {s rest : List Char} {input : String} {resolve : Resolver} {t : Ty}

theorem isAlphanum_of_toLower {c : Char} (h : c.toLower.isAlphanum) : c.isAlphanum := by
  unfold Char.toLower at h
  split at h
  · rename_i upper
    have capital : c.isUpper := decide_eq_true upper
    have letter : c.isAlpha := Bool.or_eq_true_iff.mpr (.inl capital)
    exact Bool.or_eq_true_iff.mpr (.inl letter)
  · exact h

theorem sameName_frozen_iff :
    sameName name "frozen" ↔ name.toList.map Char.toLower = "frozen".toList := by
  rw [sameName_iff, foldCase, foldCase, ← String.toList_inj, String.toList_ofList,
    String.toList_ofList]
  rfl

theorem bareName_of_frozen (same : sameName name "frozen") : BareName name := by
  have letters := sameName_frozen_iff.mp same
  constructor
  · intro nil
    rw [nil] at letters
    contradiction
  · intro c member
    have lower : c.toLower ∈ "frozen".toList := letters ▸ List.mem_map_of_mem member
    have all : "frozen".toList.all Char.isAlphanum := by decide
    simp [isNameChar, isAlphanum_of_toLower (List.all_eq_true.mp all _ lower)]

theorem isFrozenText_iff_exists :
    isFrozenText input ↔
      ∃ (name : String) (rest : List Char), trimStart input.toList = name.toList ++ rest ∧
        sameName name "frozen" ∧ (trimStart rest).head? = some '<' := by
  unfold isFrozenText
  simp only [List.splitAt_eq, Bool.and_eq_true, beq_iff_eq, sameName_frozen_iff]
  constructor
  · rintro ⟨word, opening⟩
    refine ⟨String.ofList ((trimStart input.toList).take 6), _, ?_, ?_, opening⟩
    · rw [String.toList_ofList, List.take_append_drop]
    · rw [String.toList_ofList, word]
  · rintro ⟨name, rest, split, letters, opening⟩
    have length : name.toList.length = 6 := by
      simpa using congrArg List.length letters
    rw [split, List.take_left' length, List.drop_left' length]
    exact ⟨letters, opening⟩

theorem split_of_nameReader (bare : startsQuoted input = false)
    (first : nameReader input.toList = .ok (name, rest)) :
    trimStart input.toList = name.toList ++ rest := by
  unfold nameReader at first
  split at first
  · rename_i quoted
    simp [startsQuoted, quoted] at bare
  · split at first
    · contradiction
    · obtain ⟨rfl, rfl⟩ := by simpa using first
      rw [String.toList_ofList, List.takeWhile_append_dropWhile]

theorem nameReader_of_split (bare : BareName name)
    (split : trimStart input.toList = name.toList ++ rest)
    (stop : ∀ c ∈ rest.head?, isNameChar c = false) :
    nameReader input.toList = .ok (name, rest) ∧ startsQuoted input = false := by
  obtain ⟨blanks, blank, whole⟩ := exists_blank_append_trimStart input.toList
  obtain ⟨c, u, text⟩ := List.exists_cons_of_ne_nil bare.1
  have part : isNameChar c := bare.2 c (by simp [text])
  constructor
  · rw [whole, nameReader_blank blank, split]
    exact nameReader_of_bare bare stop
  · have other : c ≠ '"' := by
      rintro rfl
      contradiction
    simp [startsQuoted, split, text, other]

/-- What the first characters tell is true of every text. -/
theorem outermost?_of_isFrozenText (frozen : isFrozenText input) :
    outermost? input = some .frozen ∧ startsQuoted input = false := by
  obtain ⟨name, rest, split, same, opening⟩ := isFrozenText_iff_exists.mp frozen
  have stop : ∀ c ∈ rest.head?, isNameChar c = false := by
    apply head_of_trimStart
    · intro c blank
      by_contra part
      rw [isBlank_of_isNameChar (by simpa using part)] at blank
      contradiction
    · rw [opening]
      rintro c ⟨⟩
      rfl
  obtain ⟨read, bare⟩ := nameReader_of_split (bareName_of_frozen same) split stop
  refine ⟨?_, bare⟩
  unfold outermost?
  rw [read]
  exact builder_ofName?_eq_some_iff.mpr same

theorem exists_opening {depth : Nat} {b : Builder}
    (follows : Follows resolve depth name s t rest) (known : Builder.ofName? name = some b) :
    ∃ u, trimStart s = '<' :: u := by
  have expected {u : List Char} (opening : Reader.expect '<' s = .ok u) :
      ∃ u, trimStart s = '<' :: u := by
    obtain ⟨mark, rfl, marked⟩ := Phrase.exists_mark_of_expect opening
    exact ⟨u, Phrase.trimStart_mark rfl marked⟩
  cases follows with
  | around _ _ opening _ _ => exact expected opening
  | map _ opening _ _ _ _ => exact expected opening
  | tuple _ opening _ => exact expected opening
  | anonymous unknown _ _ _ => exact absurd (unknown.symm.trans known) (by simp)
  | scalar unknown _ _ => exact absurd (unknown.symm.trans known) (by simp)
  | named free _ _ _ => exact absurd ((unreserved_iff.mp free).2.symm.trans known) (by simp)
  | qualified free _ _ _ _ => exact absurd ((unreserved_iff.mp free).2.symm.trans known) (by simp)

/-- Of a text that is read as a type, the first characters tell what is true, unless the keyword is
in quotes. -/
theorem isFrozenText_of_outermost? (h : parseWith resolve input = .ok t)
    (outermost : outermost? input = some .frozen) (bare : startsQuoted input = false) :
    isFrozenText input := by
  obtain ⟨left, read, -⟩ := Phrase.whole_eq_ok_iff.mp h
  obtain ⟨name, rest, first, follows⟩ := exists_follows read
  unfold outermost? at outermost
  rw [first] at outermost
  obtain ⟨u, opening⟩ := exists_opening follows outermost
  refine isFrozenText_iff_exists.mpr ⟨name, rest, split_of_nameReader bare first, ?_, ?_⟩
  · exact builder_ofName?_eq_some_iff.mp outermost
  · rw [opening]
    rfl

end Names

end Ty

namespace Table

theorem frozen_of_columnOf {d : TableDecl} {r : Registry} {places : List Nat} {decl : ColumnDecl}
    {i : Nat} {c : Column} (h : columnOf d r places decl i = .ok c) :
    (∃ t, r.parse decl.type = .ok t) ∧ c.frozen = isFrozenText decl.type := by
  obtain ⟨t, parsed, rfl⟩ := exists_of_columnOf h
  exact ⟨⟨t, parsed⟩, rfl⟩

/-- Of every text that is read as a type, the first characters tell that it is frozen exactly if its
outermost keyword is that for frozen types and is not in double quotes. The same holds of the
columns of every table that is declared with such texts. -/
theorem isFrozenText_iff (r : Registry) :
    (∀ input t, r.parse input = .ok t →
      (isFrozenText input ↔
        Ty.outermost? input = some .frozen ∧ Ty.startsQuoted input = false)) ∧
      ∀ d t, ofDecl d r = .ok t → List.Forall₂ (fun (decl : ColumnDecl) (c : Column) =>
        c.frozen ↔ Ty.outermost? decl.type = some .frozen ∧ Ty.startsQuoted decl.type = false)
        d.columns t.columns := by
  have agree (input : String) (t : Ty) (read : r.parse input = .ok t) :
      isFrozenText input ↔
        Ty.outermost? input = some .frozen ∧ Ty.startsQuoted input = false := by
    have parsed := Registry.parse_eq_ok_iff.mp read
    exact ⟨Ty.outermost?_of_isFrozenText, fun h => Ty.isFrozenText_of_outermost? parsed h.1 h.2⟩
  refine ⟨agree, fun d t built => ?_⟩
  have made := made_of_ofDecl built
  refine List.forall₂_iff_get.mpr ⟨made.length_columns.symm, fun i bound bound' => ?_⟩
  have column := made.columnOf_eq (List.getElem?_eq_getElem bound) (List.getElem?_eq_getElem bound')
  obtain ⟨⟨u, read⟩, same⟩ := frozen_of_columnOf column
  simp only [List.get_eq_getElem, same]
  exact agree _ u read

theorem isFrozenText_iff_columns :
    let texts := ["\u3000FROZEN\u00a0<list<int>>", "frozen_address", "list<frozen<set<int>>>"]
    let r := ((Registry.forKeyspace "shop").register "shop" "frozen_address" []).2
    let d : TableDecl :=
      { name := "t", columns := texts.map (⟨"c", ·, false, none⟩), partitionKey := ["c"]
        clusteringKey := [], options := none }
    ∃ t, ofDecl d r = .ok t ∧ t.columns.map (·.frozen) = [true, false, false] := by
  intro texts r d
  have built : ∃ t, ofDecl d r = .ok t := by
    subst texts r d
    exact ⟨_, rfl⟩
  obtain ⟨t, built⟩ := built
  have flags : (d.columns.map fun decl => decide (Ty.outermost? decl.type = some .frozen ∧
      Ty.startsQuoted decl.type = false)) = t.columns.map (·.frozen) := by
    rw [← List.forall₂_eq_eq_eq, List.forall₂_map_left_iff, List.forall₂_map_right_iff]
    refine ((isFrozenText_iff r).2 d t built).imp fun decl c flag => ?_
    rw [← Bool.coe_iff_coe, flag, decide_eq_true_iff]
  exact ⟨t, built, flags.symm.trans (by decide)⟩

/-- The keyword may be in double quotes where it is read, and the column is not frozen. -/
theorem isFrozenText_quoted :
    let input := "\"frozen\"<list<int>>"
    let d : TableDecl :=
      { name := "t", columns := [⟨"a", input, false, none⟩], partitionKey := ["a"]
        clusteringKey := [], options := none }
    Registry.empty.parse input = .ok (.list (.scalar .int)) ∧
      Ty.outermost? input = some .frozen ∧ isFrozenText input = false ∧
      ∃ t, ofDecl d .empty = .ok t ∧ t.columns.map (·.frozen) = [false] := by
  intro input d
  subst input d
  exact ⟨rfl, rfl, rfl, _, rfl, rfl⟩

end Table

end Cql
