import StudentStatus.Json.Encode
import Mathlib.Data.Int.Lemmas

/-!
# Struct codecs

`encoding/json` on a struct type, from the list of its tagged fields. `marshal` writes the fields in
order. `unmarshal` starts from the zero value and stores every member whose name matches a field,
exactly or up to case, in the order of the text, so that the last of several members wins. Unknown
members are skipped, `null` leaves its field unchanged, and a value of another kind, or an integer
that does not fit, is a type error of the whole call.

`unmarshal_marshal_as` gives the result of decoding one struct's text as another struct. Two cases
follow: a struct whose own fields are found under their names is read back unchanged
(`unmarshal_marshal`), and its text determines it (`marshal_injective`).
-/

set_option autoImplicit false
set_option relaxedAutoImplicit false

namespace StudentStatus.Json

/-! ### Integers -/

/-- The number that decimal digits denote. -/
def digitsValue (ds : List Char) : ℕ := ds.foldl (fun n c ↦ n * 10 + (c.toNat - 48)) 0

/-- The 64-bit integer of that value, if there is one. -/
def toInt64? (i : ℤ) : Option Int64 :=
  if -2 ^ 63 ≤ i ∧ i < 2 ^ 63 then some (Int64.ofInt i) else none

/-- `strconv.ParseInt` on a number literal: no fraction, no exponent, in range. -/
def parseInt64 : List Char → Option Int64
  | '-' :: ds => if ds ≠ [] ∧ ds.all Char.isDigit then toInt64? (-digitsValue ds) else none
  | ds => if ds ≠ [] ∧ ds.all Char.isDigit then toInt64? (digitsValue ds) else none

theorem digitsValue_toDigits (n : ℕ) : digitsValue (Nat.toDigits 10 n) = n := by
  have hdigit : ∀ d < 10, (Nat.digitChar d).toNat - 48 = d := by decide
  induction n using Nat.strongRecOn with
  | _ n ih =>
    by_cases hn : n < 10
    · rw [Nat.toDigits_of_lt_base hn]
      simpa [digitsValue] using hdigit n hn
    · have hquot := ih (n / 10) (by omega)
      unfold digitsValue at hquot ⊢
      rw [Nat.toDigits_of_base_le (by decide) (by omega), List.foldl_append, hquot]
      simp only [List.foldl_cons, List.foldl_nil, hdigit (n % 10) (Nat.mod_lt _ (by decide))]
      omega

theorem toInt64?_toInt (i : Int64) : toInt64? i.toInt = some i := by
  rw [toInt64?, if_pos ⟨i.le_toInt, i.toInt_lt⟩, Int64.ofInt_toInt]

/-- The decoder reads back an encoded integer. -/
theorem parseInt64_formatInt (i : Int64) : parseInt64 (formatInt i.toInt) = some i := by
  have hall (n : ℕ) : Nat.toDigits 10 n ≠ [] ∧ (Nat.toDigits 10 n).all Char.isDigit :=
    ⟨Nat.toDigits_ne_nil, List.all_eq_true.mpr (isDigit_of_mem_toDigits n)⟩
  have hi := toInt64?_toInt i
  cases h : i.toInt with
  | negSucc n =>
    rw [h] at hi
    rw [formatInt, parseInt64, if_pos (hall (n + 1)), digitsValue_toDigits]
    exact hi
  | ofNat n =>
    rw [h] at hi
    obtain ⟨c, cs, hcons, hne⟩ := formatInt_eq_cons (.ofNat n)
    have hdigits := hall n
    have hvalue := digitsValue_toDigits n
    rw [formatInt] at hcons ⊢
    rw [hcons] at hdigits hvalue ⊢
    unfold parseInt64
    split
    · next heq =>
      have hminus := (List.cons.inj heq).1 ▸ hdigits.2
      exact absurd hminus (by simp [List.all_cons])
    · rw [if_pos hdigits, hvalue]
      exact hi

/-! ### Fields -/

/-- A tagged struct field of one of the kinds the encoder writes as a scalar. -/
inductive Field (σ : Type) : Type
  | string (name : String) (get : σ → String) (set : String → σ → σ)
  | int (name : String) (get : σ → Int64) (set : Int64 → σ → σ)
  | bool (name : String) (get : σ → Bool) (set : Bool → σ → σ)

namespace Field

variable {σ : Type}

/-- The name of the tag. -/
def name : Field σ → String
  | .string name _ _ | .int name _ _ | .bool name _ _ => name

/-- The value of the field in a struct. -/
def load : Field σ → σ → Scalar
  | .string _ get _, s => .string (get s)
  | .int _ get _, s => .int (get s)
  | .bool _ get _, s => .bool (get s)

/-- The struct with the field set from a JSON value; `none` is a type error. -/
def store : Field σ → Value → σ → Option σ
  | _, .null, s => some s
  | .string _ _ set, .string text, s => some (set text s)
  | .int _ _ set, .number literal, s => (parseInt64 literal).map fun i ↦ set i s
  | .bool _ _ set, .bool b, s => some (set b s)
  | _, _, _ => none

/-- The struct with the field set from a scalar of its own kind; `none` for another kind. -/
def assign : Field σ → Scalar → σ → Option σ
  | .string _ _ set, .string text, s => some (set text s)
  | .int _ _ set, .int i, s => some (set i s)
  | .bool _ _ set, .bool b, s => some (set b s)
  | _, _, _ => none

theorem store_toValue (field : Field σ) (scalar : Scalar) (s : σ) :
    field.store scalar.toValue s = field.assign scalar s := by
  cases field <;> cases scalar <;>
    simp only [Scalar.toValue, store, assign, parseInt64_formatInt, Option.map_some]

end Field

/-- A letter as name matching sees it: upper case, with the two characters outside ASCII that fold
to an ASCII letter. -/
def foldChar (c : Char) : Char :=
  if 'a' ≤ c ∧ c ≤ 'z' then Char.ofNat (c.toNat - 32)
  else if c = '\u017F' then 'S'
  else if c = '\u212A' then 'K'
  else c

/-- A field or member name up to case. -/
def foldName (name : String) : List Char := name.toList.map foldChar

/-- A struct type: its fields in order and its zero value. -/
class Struct (σ : Type) where
  fields : List (Field σ)
  zero : σ

/-- Why a text could not be decoded: it is not JSON, or a value does not fit its field. -/
inductive DecodeError : Type
  | syntaxError
  | unmarshalTypeError
  deriving DecidableEq

section Codec

variable {σ τ : Type} [Struct σ] [Struct τ]

/-- The field that a member is stored to: the one of exactly that name, else one of that name up to
case. -/
def findField (key : String) : Option (Field τ) :=
  ((Struct.fields : List (Field τ)).find? fun field ↦ field.name = key).or
    (Struct.fields.find? fun field ↦ foldName field.name = foldName key)

/-- Store one member. -/
def storeMember (s : τ) (member : String × Value) : Option τ :=
  match findField member.1 with
  | some field => field.store member.2 s
  | none => some s

/-- `json.Unmarshal` into a zero value. -/
def unmarshal (text : String) : Except DecodeError τ :=
  match parse text with
  | none => .error .syntaxError
  | some .null => .ok Struct.zero
  | some (.object members) =>
    match members.foldlM storeMember Struct.zero with
    | some s => .ok s
    | none => .error .unmarshalTypeError
  | some _ => .error .unmarshalTypeError

/-- The members that the encoder writes. -/
def encodedMembers (s : σ) : List (String × Scalar) :=
  Struct.fields.map fun field ↦ (field.name, field.load s)

/-- `json.Marshal`. -/
def marshal (s : σ) : String := String.ofList (encodeObject (encodedMembers s))

theorem parse_marshal (s : σ) : parse (marshal s) =
    some (.object ((encodedMembers s).map fun member ↦ (member.1, member.2.toValue))) :=
  parse_encodeObject _

/-- Take the value of a field of one struct over into the field of the same name of another. -/
def transfer (s : σ) (t : τ) (field : Field σ) : Option τ :=
  match findField field.name with
  | some target => target.assign (field.load s) t
  | none => some t

/-- Decoding the text of one struct as another takes over the fields that match. -/
theorem unmarshal_marshal_as (s : σ) {t : τ}
    (h : (Struct.fields : List (Field σ)).foldlM (transfer s) (Struct.zero : τ) = some t) :
    unmarshal (marshal s) = .ok t := by
  have hstore (t : τ) (field : Field σ) :
      storeMember t (field.name, (field.load s).toValue) = transfer s t field := by
    unfold storeMember transfer
    cases findField (τ := τ) field.name with
    | none => rfl
    | some target => exact target.store_toValue _ _
  unfold unmarshal
  rw [parse_marshal]
  simp only [encodedMembers, List.map_map, List.foldlM_map, Function.comp_apply, hstore, h]

variable (σ) in
/-- Taking every field over from a struct to the zero value gives that struct: no field shadows
another, and the fields are all there is. -/
class LawfulStruct : Prop where
  transfer_all : ∀ s : σ, Struct.fields.foldlM (transfer s) (Struct.zero : σ) = some s

variable [LawfulStruct σ]

/-- The decoder reads back what the encoder wrote. -/
theorem unmarshal_marshal (s : σ) : unmarshal (marshal s) = .ok s :=
  unmarshal_marshal_as s (LawfulStruct.transfer_all s)

theorem marshal_injective : Function.Injective (marshal : σ → String) := by
  intro s s' h
  have hdecode := unmarshal_marshal s
  rw [h, unmarshal_marshal] at hdecode
  exact (Except.ok.inj hdecode).symm

end Codec

/-- Two structs whose field names differ have no text in common. -/
theorem marshal_ne_marshal {σ τ : Type} [Struct σ] [Struct τ]
    (h : (Struct.fields : List (Field σ)).map Field.name ≠
      (Struct.fields : List (Field τ)).map Field.name) (s : σ) (t : τ) : marshal s ≠ marshal t := by
  intro heq
  have hparse := congrArg parse heq
  rw [parse_marshal, parse_marshal, Option.some.injEq, Value.object.injEq] at hparse
  have hnames := congrArg (List.map Prod.fst) hparse
  simp only [encodedMembers, List.map_map] at hnames
  exact h hnames

/-! ### Structs of one shape -/

section Shape

variable {σ τ : Type} {h : τ → σ}

/-- A field of one struct behaves like a field of another, seen through a map of the structs. -/
def Field.Matches (h : τ → σ) (field : Field σ) (field' : Field τ) : Prop :=
  field.name = field'.name ∧ ∀ v t, field.store v (h t) = (field'.store v t).map h

theorem Field.matches_string (name : String) {get : σ → String}
    {set : String → σ → σ} {get' : τ → String} {set' : String → τ → τ}
    (hset : ∀ v t, set v (h t) = h (set' v t)) :
    (Field.string name get set).Matches h (.string name get' set') := by
  refine ⟨rfl, fun v t ↦ ?_⟩
  cases v with
  | string text => exact congrArg some (hset text t)
  | _ => rfl

theorem Field.matches_int (name : String) {get : σ → Int64} {set : Int64 → σ → σ}
    {get' : τ → Int64} {set' : Int64 → τ → τ} (hset : ∀ v t, set v (h t) = h (set' v t)) :
    (Field.int name get set).Matches h (.int name get' set') := by
  refine ⟨rfl, fun v t ↦ ?_⟩
  cases v with
  | number literal =>
    change (parseInt64 literal).map _ = ((parseInt64 literal).map _).map _
    cases parseInt64 literal with
    | none => rfl
    | some i => exact congrArg some (hset i t)
  | _ => rfl

theorem Field.matches_bool (name : String) {get : σ → Bool} {set : Bool → σ → σ}
    {get' : τ → Bool} {set' : Bool → τ → τ} (hset : ∀ v t, set v (h t) = h (set' v t)) :
    (Field.bool name get set).Matches h (.bool name get' set') := by
  refine ⟨rfl, fun v t ↦ ?_⟩
  cases v with
  | bool b => exact congrArg some (hset b t)
  | _ => rfl

theorem find?_of_forall₂ {α β : Type} {r : α → β → Prop} {p : α → Bool} {q : β → Bool}
    (hpq : ∀ a b, r a b → p a = q b) {as : List α} {bs : List β} (h : List.Forall₂ r as bs) :
    (as.find? p = none ∧ bs.find? q = none) ∨
      ∃ a b, as.find? p = some a ∧ bs.find? q = some b ∧ r a b := by
  induction h with
  | nil => exact Or.inl ⟨rfl, rfl⟩
  | @cons a b as bs hab _ ih =>
    rw [List.find?_cons, List.find?_cons, ← hpq a b hab]
    cases p a with
    | true => exact Or.inr ⟨a, b, rfl, rfl, hab⟩
    | false => exact ih

variable [Struct σ] [Struct τ]

/-- A name finds matching fields in structs of one shape. -/
theorem findField_of_matches
    (hfields : List.Forall₂ (Field.Matches h) (Struct.fields : List (Field σ)) Struct.fields)
    (key : String) :
    (findField key = (none : Option (Field σ)) ∧ findField key = (none : Option (Field τ))) ∨
      ∃ (field : Field σ) (field' : Field τ),
        findField key = some field ∧ findField key = some field' ∧ field.Matches h field' := by
  unfold findField
  have hname (field : Field σ) (field' : Field τ) (hmatch : field.Matches h field') :
      decide (field.name = key) = decide (field'.name = key) := by rw [hmatch.1]
  have hfold (field : Field σ) (field' : Field τ) (hmatch : field.Matches h field') :
      decide (foldName field.name = foldName key) =
        decide (foldName field'.name = foldName key) := by rw [hmatch.1]
  rcases find?_of_forall₂ hname hfields with ⟨hnone, hnone'⟩ | ⟨field, field', hsome, hsome', hm⟩
  · rw [hnone, hnone', Option.none_or, Option.none_or]
    exact find?_of_forall₂ hfold hfields
  · exact Or.inr ⟨field, field', by rw [hsome, Option.some_or], by rw [hsome', Option.some_or], hm⟩

/-- Decoding into a struct is decoding into one of the same shape, seen through the map. -/
theorem unmarshal_map (hzero : h Struct.zero = Struct.zero)
    (hfields : List.Forall₂ (Field.Matches h) (Struct.fields : List (Field σ)) Struct.fields)
    (text : String) :
    (unmarshal text : Except DecodeError σ) = (unmarshal text).map h := by
  have hstore (t : τ) (member : String × Value) :
      storeMember (h t) member = (storeMember t member).map h := by
    unfold storeMember
    rcases findField_of_matches hfields member.1 with
      ⟨hnone, hnone'⟩ | ⟨field, field', hfield, hfield', hmatch⟩
    · rw [hnone, hnone']
      rfl
    · rw [hfield, hfield']
      exact hmatch.2 member.2 t
  have hfold (members : List (String × Value)) (t : τ) :
      members.foldlM storeMember (h t) = (members.foldlM storeMember t).map h := by
    induction members generalizing t with
    | nil => rfl
    | cons member members ih =>
      rw [List.foldlM_cons, List.foldlM_cons, hstore]
      cases storeMember t member with
      | none => rfl
      | some next => exact ih next
  unfold unmarshal
  cases parse text with
  | none => rfl
  | some v =>
    cases v with
    | null => exact congrArg Except.ok hzero.symm
    | object members =>
      simp only [← hzero, hfold]
      cases members.foldlM storeMember (Struct.zero : τ) <;> rfl
    | _ => rfl

end Shape

end StudentStatus.Json
