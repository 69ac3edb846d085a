import Cql.Proofs.Literal.Text

namespace Cql

namespace Token

variable {k : Scalar} {v : Value}

def Denotes (k : Scalar) (text : List Char) (v : Value) : Prop :=
  ∃ token, Reader.Reads isDelimiter reader text token ∧ token.toValue k = .ok v

theorem denotes_bare {s : List Char} (bare : Bare s)
    (value : toValue k ⟨String.ofList s, false⟩ = .ok v) : Denotes k s v :=
  ⟨_, reads_bare bare, value⟩

theorem denotes_bool (b : Bool) : Denotes .boolean (Value.bool b).toText.toList (.bool b) := by
  have word {s : List Char} (nonempty : s ≠ []) (letters : s.all Char.isAlphanum) : Bare s :=
    bare_of_parts nonempty fun c h => .inl (List.all_eq_true.mp letters c h)
  cases b
  · exact denotes_bare (s := "false".toList) (word (by decide) rfl) rfl
  · exact denotes_bare (s := "true".toList) (word (by decide) rfl) rfl

theorem toLong_text (n : Long) : toLong ⟨n.text, false⟩ = .ok (.long n) := by
  have read : Numeral.read Width.bigint.lo Width.bigint.hi n.text = .ok n.val :=
    Numeral.read_toString (by decide) (by decide) n.lo_le n.le_hi
  have made : Fixed.ofInt .bigint n.val = .ok n := Fixed.checked_eq_ok_iff.mpr rfl
  unfold toLong
  simp only [read, made]
  rfl

theorem denotes_long {n : Long} (accepted : k.accepts (.long n))
    (stored : (Ty.scalar k).coerce (.long n) = .ok (.long n)) :
    Denotes k n.text.toList (.long n) := by
  apply denotes_bare (bare_toString n.val)
  rw [String.ofList_toList]
  rcases Ty.coerce_long stored with ⟨m, -, -, same⟩ | ⟨-, same⟩ | ⟨int, bigint, counter, -⟩
  · contradiction
  · contradiction
  · cases k with
    | timestamp | date | time => exact toLong_text n
    | int => exact absurd rfl int
    | bigint => exact absurd rfl bigint
    | counter => exact absurd rfl counter
    | _ => contradiction

theorem denotes_double {d : Double} (accepted : k.accepts (.double d)) :
    Denotes k d.text.toList (.double d.canonical) := by
  apply denotes_bare (bare_text d)
  rw [String.ofList_toList]
  cases k with
  | double | float =>
    simp only [toValue, Double.read?_text d]
  | _ => contradiction

theorem denotes_text {s : String} (accepted : k.accepts (.text s)) :
    Denotes k (quoteText '\'' s).toList (.text s) := by
  refine ⟨⟨s, true⟩, ?_, ?_⟩
  · have reads := reads_quoted s.toList
    rw [String.ofList_toList] at reads
    rw [toList_quoteText]
    exact reads
  · cases k <;> first | rfl | contradiction

theorem bare_hex (bytes : List UInt8) : Bare ('0' :: 'x' :: Hex.encode bytes) := by
  apply bare_of_parts (List.cons_ne_nil _ _)
  intro c h
  rcases List.mem_cons.mp h with rfl | h
  · exact .inl rfl
  · rcases List.mem_cons.mp h with rfl | h
    · exact .inl rfl
    · exact .inl (Hex.isAlphanum_of_mem_encode h)

theorem denotes_blob {bytes : List UInt8} (accepted : k.accepts (.blob bytes)) :
    Denotes k (Value.blob bytes).toText.toList (.blob bytes) := by
  rw [Value.toList_blob]
  apply denotes_bare (bare_hex bytes)
  cases k with
  | blob =>
    unfold toValue toBlob
    simp [Hex.decode?_encode]
  | _ => contradiction

theorem denotes_fixed {w : Width} {n : Fixed w} (accepted : k.accepts (.fixed w n)) :
    Denotes k n.text.toList (.fixed w n) := by
  apply denotes_bare (bare_toString n.val)
  rw [String.ofList_toList]
  have made : (Fixed.ofText w n.text).map (Value.fixed w) = .ok (Value.fixed w n) := by
    rw [Fixed.ofText_text]
    rfl
  cases w <;> cases k <;> first | exact made | contradiction

/-- Every value but null that a scalar stores is read back. -/
theorem denotes_toText (present : v.isNull = false) (stored : (Ty.scalar k).coerce v = .ok v) :
    Denotes k v.toText.toList v.canonical := by
  have accepted : k.accepts v := by
    have either := Ty.accepts_of_coerce stored
    rw [Value.accepts_scalar, present] at either
    exact either
  cases v with
  | null => contradiction
  | bool b =>
    cases k with
    | boolean => exact denotes_bool b
    | _ => contradiction
  | long n => exact denotes_long accepted stored
  | double d => exact denotes_double accepted
  | text s => exact denotes_text accepted
  | blob bytes => exact denotes_blob accepted
  | fixed w n => exact denotes_fixed accepted
  | _ => cases k <;> contradiction

end Token

end Cql
