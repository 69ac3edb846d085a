import Cql.Proofs.Value.Order
import Cql.Typing
import Cql.Value.Hash
import Cql.Value.Json
import Cql.Value.Text

namespace Cql

namespace Double

def canonical (d : Double) : Double := if d.isNaN then nan false else d

theorem canonical_of_isNaN {d : Double} (h : d.isNaN) : d.canonical = nan false := if_pos h

theorem canonical_of_number {d : Double} (h : d.isNaN = false) : d.canonical = d :=
  if_neg (by simp [h])

@[simp] theorem isNaN_canonical (d : Double) : d.canonical.isNaN = d.isNaN := by
  cases h : d.isNaN
  · rw [canonical_of_number h, h]
  · rw [canonical_of_isNaN h]
    decide

@[simp] theorem canonicalBits_canonical (d : Double) :
    d.canonical.canonicalBits = d.canonicalBits := by
  cases h : d.isNaN
  · rw [canonical_of_number h]
  · rw [canonicalBits_of_isNaN h, canonicalBits_of_isNaN (by rw [isNaN_canonical, h])]

@[simp] theorem place_canonical (d : Double) : d.canonical.place = d.place := by
  cases h : d.isNaN
  · rw [canonical_of_number h]
  · rw [place_of_isNaN h, place_of_isNaN (by rw [isNaN_canonical, h])]

theorem canonical_canonical (d : Double) : d.canonical.canonical = d.canonical := by
  cases h : d.isNaN
  · rw [canonical_of_number h, canonical_of_number h]
  · rw [canonical_of_isNaN h]
    rfl

theorem eq_of_canonicalBits_eq {a b : Double} (ha : a.isNaN = false) (hb : b.isNaN = false)
    (same : a.canonicalBits = b.canonicalBits) : a = b := by
  have smallA := a.magnitude_lt
  have smallB := b.magnitude_lt
  rw [canonicalBits_of_number ha, canonicalBits_of_number hb] at same
  cases signA : a.negative <;> cases signB : b.negative <;> simp [signA, signB] at same
  · exact ext_of_magnitude (by rw [signA, signB]) same
  · omega
  · omega
  · exact ext_of_magnitude (by rw [signA, signB]) (by omega)

theorem cmp_eq_iff {a b : Double} : a.cmp b = .eq ↔ a.canonical = b.canonical := by
  rw [cmp_eq_then, Ordering.then_eq_eq, Std.compare_eq_iff_eq, Std.compare_eq_iff_eq]
  constructor
  · rintro ⟨place, bits⟩
    cases ha : a.isNaN <;> cases hb : b.isNaN
    · rw [canonical_of_number ha, canonical_of_number hb, eq_of_canonicalBits_eq ha hb bits]
    · exact absurd place (Int.ne_of_lt (lt_nan ha hb).1)
    · exact absurd place (Int.ne_of_gt (lt_nan hb ha).1)
    · rw [canonical_of_isNaN ha, canonical_of_isNaN hb]
  · intro same
    have place := congrArg Double.place same
    have bits := congrArg canonicalBits same
    exact ⟨by simpa using place, by simpa using bits⟩

theorem text_canonical (d : Double) : d.canonical.text = d.text := by
  cases h : d.isNaN
  · rw [canonical_of_number h]
  · unfold text
    rw [isNaN_canonical, h]
    simp

theorem not_isFinite_of_isNaN {d : Double} (h : d.isNaN) : d.isFinite = false := by
  simp only [isNaN, decide_eq_true_eq] at h
  simp only [isFinite, decide_eq_false_iff_not]
  omega

theorem json_canonical (d : Double) :
    (Value.double d.canonical).toJson = (Value.double d).toJson := by
  cases h : d.isNaN
  · rw [canonical_of_number h]
  · rw [Value.toJson, Value.toJson, not_isFinite_of_isNaN h,
      not_isFinite_of_isNaN (by rw [isNaN_canonical, h])]
    rfl

end Double

namespace Value

mutual

/-- The value with one pattern for every NaN in it. -/
def canonical : Value → Value
  | .null => .null
  | .bool b => .bool b
  | .long n => .long n
  | .double d => .double d.canonical
  | .text s => .text s
  | .blob bytes => .blob bytes
  | .fixed w n => .fixed w n
  | .type t => .type t
  | .list t xs => .list t (canonicalAll xs)
  | .set t xs => .set t (canonicalAll xs)
  | .map k v es => .map k v (canonicalEntries es)
  | .tuple ts xs => .tuple ts (canonicalAll xs)
  | .user u xs => .user u (canonicalAll xs)

def canonicalAll : List Value → List Value
  | [] => []
  | x :: xs => x.canonical :: canonicalAll xs

def canonicalEntries : List (Value × Value) → List (Value × Value)
  | [] => []
  | (k, v) :: es => (k.canonical, v.canonical) :: canonicalEntries es

end

theorem canonicalAll_eq_map (xs : List Value) : canonicalAll xs = xs.map canonical := by
  induction xs with
  | nil => rfl
  | cons x xs ih => rw [canonicalAll, ih, List.map_cons]

theorem canonicalEntries_eq_map (es : List (Value × Value)) :
    canonicalEntries es = es.map fun e => (e.1.canonical, e.2.canonical) := by
  induction es with
  | nil => rfl
  | cons e es ih => rw [canonicalEntries, ih, List.map_cons]

mutual

theorem canonical_canonical : ∀ a : Value, a.canonical.canonical = a.canonical
  | .null | .bool _ | .long _ | .text _ | .blob _ | .fixed _ _ | .type _ => rfl
  | .double d => congrArg Value.double d.canonical_canonical
  | .list t xs => congrArg (Value.list t) (canonicalAll_canonicalAll xs)
  | .set t xs => congrArg (Value.set t) (canonicalAll_canonicalAll xs)
  | .map k v es => congrArg (Value.map k v) (canonicalEntries_canonicalEntries es)
  | .tuple ts xs => congrArg (Value.tuple ts) (canonicalAll_canonicalAll xs)
  | .user u xs => congrArg (Value.user u) (canonicalAll_canonicalAll xs)

theorem canonicalAll_canonicalAll : ∀ xs : List Value,
    canonicalAll (canonicalAll xs) = canonicalAll xs
  | [] => rfl
  | x :: xs => congrArg₂ List.cons (canonical_canonical x) (canonicalAll_canonicalAll xs)

theorem canonicalEntries_canonicalEntries : ∀ es : List (Value × Value),
    canonicalEntries (canonicalEntries es) = canonicalEntries es
  | [] => rfl
  | (k, v) :: es =>
    congrArg₂ List.cons (congrArg₂ Prod.mk (canonical_canonical k) (canonical_canonical v))
      (canonicalEntries_canonicalEntries es)

end

theorem alike_canonical (a : Value) : Alike a.canonical a := by
  cases a <;> constructor

theorem alike_of_cmp_eq {a b : Value} (same : a.cmp b = .eq) : Alike a b := by
  by_contra other
  rw [cmp_of_not_alike other] at same
  exact other (alike_of_kind_eq (Kind.rank_injective (Std.LawfulEqOrd.eq_of_compare same)))

theorem alike_of_canonical_eq {a b : Value} (same : a.canonical = b.canonical) : Alike a b := by
  have ha := alike_canonical a
  have hb := alike_canonical b
  rw [same] at ha
  generalize b.canonical = c at ha hb
  cases hb <;> cases ha <;> constructor

theorem fixed_eq_iff {w v : Width} {a : Fixed w} {b : Fixed v} :
    fixed w a = fixed v b ↔ (Kind.ofWidth w).rank = (Kind.ofWidth v).rank ∧ a.val = b.val := by
  constructor
  · intro same
    cases same
    exact ⟨rfl, rfl⟩
  · rintro ⟨rank, val⟩
    have width : w = v := by cases w <;> cases v <;> first | rfl | contradiction
    subst width
    rw [Fixed.ext val]

mutual

theorem cmp_eq_iff (a b : Value) : a.cmp b = .eq ↔ a.canonical = b.canonical := by
  by_cases alike : Alike a b
  · match a, b, alike with
    | _, _, .null => exact ⟨fun _ => rfl, fun _ => rfl⟩
    | _, _, .bool _ _ => simp [cmp, canonical]
    | _, _, .long _ _ => simp [cmp, canonical, Fixed.ext_iff]
    | _, _, .double _ _ => simp [cmp, canonical, Double.cmp_eq_iff]
    | _, _, .text _ _ => simp [cmp, canonical]
    | _, _, .blob _ _ => simp [cmp, canonical]
    | _, _, .fixed _ _ =>
      rw [cmp, Ordering.then_eq_eq, Std.compare_eq_iff_eq, Std.compare_eq_iff_eq, canonical,
        canonical, fixed_eq_iff]
    | _, _, .type _ _ => simp [cmp, canonical, Ty.cmp_eq_iff]
    | .list _ xs, .list _ ys, .list .. => simp [cmp, canonical, Ty.cmp_eq_iff, cmpAll_eq_iff xs ys]
    | .set _ xs, .set _ ys, .set .. => simp [cmp, canonical, Ty.cmp_eq_iff, cmpAll_eq_iff xs ys]
    | .map _ _ es, .map _ _ fs, .map .. =>
      simp [cmp, canonical, Ty.cmp_eq_iff, cmpEntries_eq_iff es fs, and_assoc]
    | .tuple _ xs, .tuple _ ys, .tuple .. =>
      simp [cmp, canonical, Ty.cmpAll_eq_iff, cmpAll_eq_iff xs ys]
    | .user _ xs, .user _ ys, .user .. =>
      simp [cmp, canonical, UserType.cmp_eq_iff, cmpAll_eq_iff xs ys]
  · exact ⟨fun same => absurd (alike_of_cmp_eq same) alike,
      fun same => absurd (alike_of_canonical_eq same) alike⟩

theorem cmpAll_eq_iff : ∀ xs ys : List Value,
    cmpAll xs ys = .eq ↔ canonicalAll xs = canonicalAll ys
  | [], [] => by simp [cmpAll, canonicalAll]
  | [], _ :: _ => by simp [cmpAll, canonicalAll]
  | _ :: _, [] => by simp [cmpAll, canonicalAll]
  | x :: xs, y :: ys => by simp [cmpAll, canonicalAll, cmp_eq_iff x y, cmpAll_eq_iff xs ys]

theorem cmpEntries_eq_iff : ∀ es fs : List (Value × Value),
    cmpEntries es fs = .eq ↔ canonicalEntries es = canonicalEntries fs
  | [], [] => by simp [cmpEntries, canonicalEntries]
  | [], _ :: _ => by simp [cmpEntries, canonicalEntries]
  | _ :: _, [] => by simp [cmpEntries, canonicalEntries]
  | (k, v) :: es, (l, u) :: fs => by
    simp [cmpEntries, canonicalEntries, cmp_eq_iff k l, cmp_eq_iff v u, cmpEntries_eq_iff es fs]

end

theorem cmp_canonical (a b : Value) : a.canonical.cmp b.canonical = a.cmp b := by
  have left : a.canonical.cmp a = .eq := (cmp_eq_iff _ _).mpr (canonical_canonical a)
  have right : b.canonical.cmp b = .eq := (cmp_eq_iff _ _).mpr (canonical_canonical b)
  rw [Std.TransCmp.congr_left left, Std.TransCmp.congr_right right]

mutual

theorem hash_canonical : ∀ a : Value, a.canonical.hash = a.hash
  | .null | .bool _ | .long _ | .text _ | .blob _ | .fixed _ _ | .type _ => rfl
  | .double d => congrArg Hash.ofLong d.canonicalBits_canonical
  | .list _ xs | .set _ xs | .tuple _ xs | .user _ xs => hashAll_canonical xs _
  | .map _ _ es => hashEntries_canonical es _

theorem hashAll_canonical : ∀ (xs : List Value) (h : UInt32),
    hashAll h (canonicalAll xs) = hashAll h xs
  | [], _ => rfl
  | x :: xs, h => by rw [canonicalAll, hashAll, hashAll, hash_canonical x, hashAll_canonical xs]

theorem hashEntries_canonical : ∀ (es : List (Value × Value)) (h : UInt32),
    hashEntries h (canonicalEntries es) = hashEntries h es
  | [], _ => rfl
  | (k, v) :: es, h => by
    rw [canonicalEntries, hashEntries, hashEntries, hash_canonical k, hash_canonical v,
      hashEntries_canonical es]

end

mutual

theorem toText_canonical : ∀ a : Value, a.canonical.toText = a.toText
  | .null | .bool _ | .long _ | .text _ | .blob _ | .fixed _ _ | .type _ => rfl
  | .double d => d.text_canonical
  | .list _ xs | .set _ xs | .tuple _ xs => by
    simp only [canonical, toText, texts_canonical xs]
  | .map _ _ es => by simp only [canonical, toText, entryTexts_canonical es]
  | .user _ xs => by simp only [canonical, toText, slotTexts_canonical xs]

theorem texts_canonical : ∀ xs : List Value, texts (canonicalAll xs) = texts xs
  | [] => rfl
  | x :: xs => by rw [canonicalAll, texts, texts, toText_canonical x, texts_canonical xs]

theorem entryTexts_canonical : ∀ es : List (Value × Value),
    entryTexts (canonicalEntries es) = entryTexts es
  | [] => rfl
  | (k, v) :: es => by
    rw [canonicalEntries, entryTexts, entryTexts, toText_canonical k, toText_canonical v,
      entryTexts_canonical es]

theorem slotTexts_canonical : ∀ (xs : List Value) (fields : List (String × Ty)),
    slotTexts fields (canonicalAll xs) = slotTexts fields xs
  | [], fields => rfl
  | _ :: _, [] => rfl
  | x :: xs, (_, _) :: fields => by
    rw [canonicalAll, slotTexts, slotTexts, toText_canonical x, slotTexts_canonical xs]

end

mutual

theorem toJson_canonical : ∀ a : Value, a.canonical.toJson = a.toJson
  | .null | .bool _ | .long _ | .text _ | .blob _ | .fixed _ _ | .type _ => rfl
  | .double d => d.json_canonical
  | .list _ xs | .set _ xs | .tuple _ xs => by
    simp only [canonical, toJson, jsons_canonical xs]
  | .map _ _ es => by simp only [canonical, toJson, entryJsons_canonical es]
  | .user _ xs => by simp only [canonical, toJson, slotJsons_canonical xs]

theorem jsons_canonical : ∀ xs : List Value, jsons (canonicalAll xs) = jsons xs
  | [] => rfl
  | x :: xs => by rw [canonicalAll, jsons, jsons, toJson_canonical x, jsons_canonical xs]

theorem entryJsons_canonical : ∀ es : List (Value × Value),
    entryJsons (canonicalEntries es) = entryJsons es
  | [] => rfl
  | (k, v) :: es => by
    rw [canonicalEntries, entryJsons, entryJsons, toJson_canonical k, toJson_canonical v,
      entryJsons_canonical es]

theorem slotJsons_canonical : ∀ (xs : List Value) (fields : List (String × Ty)),
    slotJsons fields (canonicalAll xs) = slotJsons fields xs
  | [], fields => rfl
  | _ :: _, [] => rfl
  | x :: xs, (_, _) :: fields => by
    rw [canonicalAll, slotJsons, slotJsons, toJson_canonical x, slotJsons_canonical xs]

end

theorem scalar_accepts_canonical (s : Scalar) (a : Value) :
    s.accepts a.canonical = s.accepts a := by
  cases a with
  | null | bool | long | text | blob | fixed | type => rfl
  | _ => cases s <;> rfl

theorem accepts_scalar (s : Scalar) (a : Value) :
    (Ty.scalar s).accepts a = (a.isNull || s.accepts a) := by
  cases a <;> rfl

theorem accepts_canonical (t : Ty) (a : Value) : t.accepts a.canonical = t.accepts a := by
  cases t with
  | scalar s =>
    have null : a.canonical.isNull = a.isNull := by cases a <;> rfl
    rw [accepts_scalar, accepts_scalar, scalar_accepts_canonical, null]
  | _ => cases a <;> rfl

/-- Values compare equal exactly if they are the same value but for the patterns of NaN in them.
Then they have one hash, one text and one form in JSON, and the same types take them. -/
theorem cmp_eq_characterised (a b : Value) :
    (a.cmp b = .eq ↔ a.canonical = b.canonical) ∧
    (a.cmp b = .eq → a.hash = b.hash ∧ a.toText = b.toText ∧ a.toJson = b.toJson ∧
      ∀ t : Ty, t.accepts a = t.accepts b) := by
  refine ⟨cmp_eq_iff a b, ?_⟩
  intro equal
  have same := (cmp_eq_iff a b).mp equal
  refine ⟨?_, ?_, ?_, ?_⟩
  · rw [← hash_canonical a, same, hash_canonical]
  · rw [← toText_canonical a, same, toText_canonical]
  · rw [← toJson_canonical a, same, toJson_canonical]
  · intro t
    rw [← accepts_canonical t a, same, accepts_canonical]

theorem cmp_eq_characterised_nested :
    let value (d : Double) : Value :=
      .tuple [.map (.scalar .double) (.scalar .text)]
        [.map (.scalar .double) (.scalar .text) [(.double d, .text "x")]]
    (value (.nan false)).cmp (value (.nan true)) = .eq ∧
      (value (.nan false)).hash = (value (.nan true)).hash := by
  intro value
  have equal : (value (.nan false)).cmp (value (.nan true)) = .eq :=
    (cmp_eq_characterised _ _).1.mpr rfl
  exact ⟨equal, ((cmp_eq_characterised _ _).2 equal).1⟩

end Value

end Cql
