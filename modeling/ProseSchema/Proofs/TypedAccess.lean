import ProseSchema.Json.Access
import ProseSchema.Json.Lemmas
import ProseSchema.Proofs.PathDialects
import ProseSchema.Proofs.TakenText

/-!
# Types and typed access

The types of a value decide how it may be read. Paths start with `$`, timestamps with a digit and URIs with a
letter, so no text is of two of these kinds, and a value has one of eleven sets of types. A reading of it as some
type fails just where the type is not in the set, also where the reading goes by way of others.
-/

namespace ProseSchema

namespace Json

/-- The sets of types that values have, each in the order of all types. -/
def typeSets : List (List JsonType) :=
  [[], [.object], [.array], [.boolean], [.float, .numeric], [.integer, .float, .numeric], [.string],
    [.string, .jsonPath], [.string, .jsonPath, .referencePath], [.string, .timestamp], [.string, .uri]]

/-- The types of values, and the readings of values as a type. -/
@[ext] structure Access (Instant : Type) where
  types : Json → List JsonType
  string : Json → Except Misuse String
  binary64 : Json → Except Misuse Binary64
  int64 : Json → Except Misuse Int
  bool : Json → Except Misuse Bool
  instant : Json → Except Misuse Instant
  keys : Json → Except Misuse (List String)
  members : Json → Except Misuse (List (String × Json))
  elements : Json → Except Misuse (List Json)

namespace Access

/-- The reading succeeds on the values of a type, and is a mistake on all others. -/
def Licenses {Instant α : Type} (access : Access Instant) (type : JsonType) (reading : Json → Except Misuse α) :
    Prop :=
  ∀ value, if type ∈ access.types value then ∃ a, reading value = .ok a
    else reading value = .error (.wrongType (access.types value) type)

/-- Each value has one of the sets of types, and each reading is licensed by its type. -/
structure IsLicensed {Instant : Type} (access : Access Instant) : Prop where
  types_mem : ∀ value, access.types value ∈ typeSets
  string : access.Licenses .string access.string
  binary64 : access.Licenses .numeric access.binary64
  int64 : access.Licenses .integer access.int64
  bool : access.Licenses .boolean access.bool
  instant : access.Licenses .timestamp access.instant
  keys : access.Licenses .object access.keys
  members : access.Licenses .object access.members
  elements : access.Licenses .array access.elements

end Access

/-- The types and the readings of this library. -/
def access : Access Timestamp where
  types := types
  string := asString
  binary64 := asBinary64
  int64 := asInt64
  bool := asBool
  instant := asTimestamp
  keys := keys
  members := asMembers
  elements := asElements

/-- The integer that a number is written as, if it is within 64 bits. -/
def int64? : Json → Option Int
  | .number (.integer i) => if Number.leastInt64 ≤ i && i ≤ Number.greatestInt64 then some i else none
  | _ => none

/-- A number as an integer of 64 bits, whether it is whole or not. -/
def truncated? : Json → Option Int
  | .number n => some n.toInt64
  | _ => none

def bool? : Json → Option Bool
  | .bool b => some b
  | _ => none

section

variable {Instant : Type} (instant? : String → Option Instant)

/-! Values as they are typed and read where `instant?` reads the timestamps. -/

/-- The type of a value, where the timestamps are the texts from which an instant is read. -/
def hasTypeBy (type : JsonType) (value : Json) : Bool :=
  match type, value with
  | .timestamp, .string text => (instant? text).isSome
  | _, _ => value.hasType type

def typesBy (value : Json) : List JsonType :=
  JsonType.all.filter fun type => value.hasTypeBy instant? type

/-- The value has the type, or it is a mistake to read it so. -/
def requireBy (type : JsonType) (value : Json) : Except Misuse Unit :=
  if value.hasTypeBy instant? type then .ok () else .error (.wrongType (value.typesBy instant?) type)

/-- What is found in a value that has the type. To find nothing is a mistake as well. -/
def expect {α : Type} (type : JsonType) : Option α → Except Misuse α
  | some a => .ok a
  | none => .error (.nothingRead type)

/-- The readings with all their inner readings, each of which asks for a type of its own. -/
def accessBy : Access Instant where
  types := typesBy instant?
  string := readString
  binary64 := readBinary64
  int64 value := do
    requireBy instant? .integer value
    inInt64 value
  bool value := do
    requireBy instant? .boolean value
    expect .boolean value.bool?
  instant value := do
    requireBy instant? .timestamp value
    let text ← readString value
    expect .timestamp (instant? text)
  keys value := do
    requireBy instant? .object value
    let members ← expect .object value.object?
    pure (members.map Prod.fst)
  members value := do
    requireBy instant? .object value
    expect .object value.object?
  elements value := do
    requireBy instant? .array value
    expect .array value.array?
where
  readString (value : Json) : Except Misuse String := do
    requireBy instant? .string value
    expect .string value.string?
  readBinary64 (value : Json) : Except Misuse Binary64 := do
    requireBy instant? .numeric value
    expect .numeric value.number?
  inInt64 (value : Json) : Except Misuse Int := do
    match value.int64? with
    | some i => pure i
    | none => do
      let x ← readBinary64 value
      pure (Number.toInt64.clamp x.truncate)

/-- Timestamps start with a digit. -/
def StartsWithDigit : Prop :=
  ∀ text, (instant? text).isSome = true → ∃ c ∈ text.toList.head?, c.isDigit = true

variable {instant?}

lemma mem_typesBy_iff {type : JsonType} {value : Json} :
    type ∈ value.typesBy instant? ↔ value.hasTypeBy instant? type = true := by
  have hall : type ∈ JsonType.all := by cases type <;> decide
  simp [typesBy, hall]

/-! What the readings ask for. -/

lemma licenses_requireBy {α : Type} {type : JsonType} {rest : Json → Except Misuse α}
    (h : ∀ value, value.hasTypeBy instant? type = true → ∃ a, rest value = .ok a) :
    (accessBy instant?).Licenses type fun value => requireBy instant? type value >>= fun _ => rest value := by
  intro value
  change if type ∈ value.typesBy instant? then _ else _
  simp only [mem_typesBy_iff, requireBy]
  split
  · next ht => exact h value ht
  · rfl

lemma readString_string (text : String) : accessBy.readString instant? (.string text) = .ok text :=
  rfl

lemma readBinary64_number (n : Number) : accessBy.readBinary64 instant? (.number n) = .ok n.toBinary64 :=
  rfl

lemma inInt64_number (n : Number) : accessBy.inInt64 instant? (.number n) = .ok n.toInt64 := by
  cases n with
  | integer i =>
    simp only [accessBy.inInt64, int64?, Number.toInt64]
    split_ifs with hi
    · rfl
    · rw [readBinary64_number, Number.toBinary64]
      rfl
  | float x => rfl

lemma hasType_numeric_iff {value : Json} : value.hasType .numeric = true ↔ ∃ n, value = .number n := by
  cases value <;> simp [hasType]

lemma hasType_boolean_iff {value : Json} : value.hasType .boolean = true ↔ ∃ b, value = .bool b := by
  cases value <;> simp [hasType]

lemma hasTypeBy_timestamp_iff {value : Json} : value.hasTypeBy instant? .timestamp = true ↔
    ∃ text, value = .string text ∧ (instant? text).isSome = true := by
  cases value <;> simp [hasTypeBy, hasType]

lemma hasTypeBy_integer_iff {value : Json} : value.hasTypeBy instant? .integer = true ↔
    ∃ n : Number, value = .number n ∧ n.isWhole = true := by
  cases value <;> simp [hasTypeBy, hasType]

/-! The kinds of texts. -/

lemma head?_of_isPath {text : String} (h : isPath text = true) : text.toList.head? = some '$' := by
  obtain ⟨us, -, ht⟩ := (Path.isPath_iff text).mp h
  rw [ht, List.head?_cons]

lemma head?_of_hasScheme {text : String} (h : hasScheme text = true) : ∃ c ∈ text.toList.head?, 'A' ≤ c := by
  unfold hasScheme at h
  split at h
  · exact absurd h Bool.false_ne_true
  · next c rest ht =>
    simp only [Bool.and_eq_true, Bool.or_eq_true, decide_eq_true_eq] at h
    refine ⟨c, by rw [ht]; rfl, ?_⟩
    rcases h.1 with hc | hc
    · exact hc.1
    · exact Char.le_trans (by decide) hc.1

/-- Digits come before letters. -/
lemma isDigit_of_le {c : Char} (h : 'A' ≤ c) : c.isDigit = false := by
  rw [Char.le_def, UInt32.le_iff_toNat_le] at h
  simp only [Char.isDigit, ge_iff_le, UInt32.le_iff_toNat_le, Bool.and_eq_false_iff, decide_eq_false_iff_not]
  have hA : 'A'.val.toNat = 65 := rfl
  have h9 : '9'.val.toNat = 57 := rfl
  omega

lemma hasScheme_of_isPath {text : String} (h : isPath text = true) : hasScheme text = false := by
  by_contra hu
  obtain ⟨c, hc, hletter⟩ := head?_of_hasScheme ((Bool.not_eq_false _).mp hu)
  rw [head?_of_isPath h, Option.mem_some_iff] at hc
  subst hc
  exact absurd hletter (by decide)

lemma isPath_of_isSome (h : StartsWithDigit instant?) {text : String} (ht : (instant? text).isSome = true) :
    isPath text = false := by
  by_contra hp
  obtain ⟨c, hc, hdigit⟩ := h text ht
  rw [head?_of_isPath ((Bool.not_eq_false _).mp hp), Option.mem_some_iff] at hc
  subst hc
  exact absurd hdigit (by decide)

lemma hasScheme_of_isSome (h : StartsWithDigit instant?) {text : String} (ht : (instant? text).isSome = true) :
    hasScheme text = false := by
  by_contra hu
  obtain ⟨c, hc, hdigit⟩ := h text ht
  obtain ⟨d, hd, hletter⟩ := head?_of_hasScheme ((Bool.not_eq_false _).mp hu)
  obtain rfl := Option.mem_unique hc hd
  exact absurd hdigit (by simp [isDigit_of_le hletter])

lemma types_string_mem (h : StartsWithDigit instant?) (text : String) :
    (Json.string text).typesBy instant? ∈ typeSets := by
  have hreference : isReferencePath text = true → isPath text = true := Path.isPath_of_isReferencePath
  simp only [typesBy, JsonType.all, hasTypeBy, hasType, List.filter]
  cases ht : (instant? text).isSome with
  | true =>
    have hp := isPath_of_isSome h ht
    have hr : isReferencePath text = false := by simpa [hp] using hreference
    simp [hp, hr, hasScheme_of_isSome h ht, typeSets]
  | false =>
    cases hp : isPath text with
    | true => cases isReferencePath text <;> simp [hasScheme_of_isPath hp, typeSets]
    | false =>
      have hr : isReferencePath text = false := by simpa [hp] using hreference
      cases hasScheme text <;> simp [hr, typeSets]

lemma typesBy_mem (h : StartsWithDigit instant?) (value : Json) : value.typesBy instant? ∈ typeSets := by
  cases value with
  | null => exact (by decide : [] ∈ typeSets)
  | bool b => exact (by decide : [.boolean] ∈ typeSets)
  | number n =>
    simp only [typesBy, JsonType.all, hasTypeBy, hasType, List.filter]
    cases n.isWhole <;> decide
  | string text => exact types_string_mem h text
  | array elements => exact (by decide : [.array] ∈ typeSets)
  | object members => exact (by decide : [.object] ∈ typeSets)

theorem isLicensed_accessBy (h : StartsWithDigit instant?) : (accessBy instant?).IsLicensed where
  types_mem := typesBy_mem h
  string := licenses_requireBy fun value hv => by
    obtain ⟨text, rfl⟩ := (hasType_string_iff value).mp hv
    exact ⟨text, rfl⟩
  binary64 := licenses_requireBy fun value hv => by
    obtain ⟨n, rfl⟩ := hasType_numeric_iff.mp hv
    exact ⟨n.toBinary64, rfl⟩
  int64 := licenses_requireBy fun value hv => by
    -- An integer is numeric too, so that it can be read as a float where it is beyond 64 bits.
    obtain ⟨n, rfl, -⟩ := hasTypeBy_integer_iff.mp hv
    exact ⟨n.toInt64, inInt64_number n⟩
  bool := licenses_requireBy fun value hv => by
    obtain ⟨b, rfl⟩ := hasType_boolean_iff.mp hv
    exact ⟨b, rfl⟩
  instant := licenses_requireBy fun value hv => by
    -- A timestamp is a string too, and the second parse finds what the first one has found.
    obtain ⟨text, rfl, ht⟩ := hasTypeBy_timestamp_iff.mp hv
    obtain ⟨instant, hi⟩ := Option.isSome_iff_exists.mp ht
    exact ⟨instant, by rw [readString_string]; exact congrArg (expect .timestamp) hi⟩
  keys := licenses_requireBy fun value hv => by
    obtain ⟨members, rfl⟩ := (hasType_object_iff value).mp hv
    exact ⟨members.map Prod.fst, rfl⟩
  members := licenses_requireBy fun value hv => by
    obtain ⟨members, rfl⟩ := (hasType_object_iff value).mp hv
    exact ⟨members, rfl⟩
  elements := licenses_requireBy fun value hv => by
    obtain ⟨elements, rfl⟩ := (hasType_array_iff value).mp hv
    exact ⟨elements, rfl⟩

end

/-! The readings of this library. -/

lemma startsWithDigit_parse? : StartsWithDigit Timestamp.parse? := by
  intro text h
  obtain ⟨t, ht⟩ := Option.isSome_iff_exists.mp h
  -- The first of the four digits of the year.
  obtain ⟨year, hyear, -⟩ := Reader.mem_bind.mp (Reader.mem_of_whole? ht)
  obtain ⟨digits, hdigits, -⟩ := Reader.mem_bind.mp hyear
  obtain ⟨first, hfirst, -⟩ := Reader.mem_bind.mp hdigits
  obtain ⟨hdigit, htext⟩ := Reader.mem_char hfirst
  exact ⟨first.1, by rw [htext]; rfl, hdigit⟩

lemma hasTypeBy_parse? (type : JsonType) (value : Json) :
    value.hasTypeBy Timestamp.parse? type = value.hasType type := by
  cases type <;> cases value <;> rfl

lemma typesBy_parse? (value : Json) : value.typesBy Timestamp.parse? = value.types := by
  simp only [typesBy, types, hasTypeBy_parse?]

lemma requireBy_parse?_bind {α : Type} (type : JsonType) (read : Json → Option α) {rest : Json → Except Misuse α}
    (h : ∀ value, value.hasType type = true → rest value = expect type (read value)) (value : Json) :
    (requireBy Timestamp.parse? type value >>= fun _ => rest value) = readAs type read value := by
  rw [requireBy, hasTypeBy_parse?, typesBy_parse?, readAs]
  split
  · next ht =>
    change rest value = _
    rw [h value ht]
    cases read value <;> rfl
  · rfl

lemma accessBy_parse? : accessBy Timestamp.parse? = access := by
  have hint64 : ∀ value : Json, value.hasType .integer = true → accessBy.inInt64 Timestamp.parse? value =
      expect .integer value.truncated? := by
    intro value hv
    obtain ⟨n, rfl, -⟩ := hasTypeBy_integer_iff.mp ((hasTypeBy_parse? .integer value).trans hv)
    exact inInt64_number n
  have hinstant : ∀ value : Json, value.hasType .timestamp = true →
      (accessBy.readString Timestamp.parse? value >>= fun text => expect .timestamp (Timestamp.parse? text)) =
        expect .timestamp (value.string? >>= Timestamp.parse?) := by
    intro value hv
    obtain ⟨text, rfl, -⟩ := hasTypeBy_timestamp_iff.mp ((hasTypeBy_parse? .timestamp value).trans hv)
    rfl
  have hmembers := requireBy_parse?_bind .object object? fun _ _ => rfl
  apply Access.ext <;> funext value
  case types => exact typesBy_parse? value
  case string => exact requireBy_parse?_bind .string string? (fun _ _ => rfl) value
  case binary64 => exact requireBy_parse?_bind .numeric number? (fun _ _ => rfl) value
  case int64 => exact requireBy_parse?_bind .integer truncated? hint64 value
  case bool => exact requireBy_parse?_bind .boolean bool? (fun _ _ => rfl) value
  case instant => exact requireBy_parse?_bind .timestamp _ hinstant value
  case keys =>
    change _ = (·.map Prod.fst) <$> readAs .object object? value
    rw [← hmembers, map_eq_pure_bind, bind_assoc]
    rfl
  case members => exact hmembers value
  case elements => exact requireBy_parse?_bind .array array? (fun _ _ => rfl) value

lemma exists_types_eq : ∀ types ∈ typeSets, ∃ value : Json, value.types = types := by
  have hsamples : ∀ types ∈ typeSets, ∃ value ∈ [null, object [], array [], bool true,
      number (.float (.finite false 1)), number (.integer 3), string "hello", string "$.a[*]", string "$.a.b",
      string "2016-03-14T01:59:00Z", string "arn:aws:lambda"], value.types = types := by
    decide +kernel
  intro types ht
  obtain ⟨value, -, hv⟩ := hsamples types ht
  exact ⟨value, hv⟩

/-- Values have just these sets of types, and each reading succeeds just where its type is in the set and is else
refused for that, whatever is read on the way, if timestamps start with a digit. -/
theorem reading_succeeds_iff_type {Instant : Type} (instant? : String → Option Instant)
    (h : StartsWithDigit instant?) :
    (accessBy instant?).IsLicensed ∧ accessBy Timestamp.parse? = access ∧
      ∀ types, types ∈ typeSets ↔ ∃ value : Json, value.types = types := by
  refine ⟨isLicensed_accessBy h, accessBy_parse?, fun types => ⟨exists_types_eq types, ?_⟩⟩
  rintro ⟨value, rfl⟩
  rw [← typesBy_parse?]
  exact typesBy_mem startsWithDigit_parse? value

/-- The library's own readings of a timestamp. -/
theorem timestamp_readings : StartsWithDigit Timestamp.parse? ∧ access.IsLicensed ∧
    (string "2016-03-14T01:59:00Z").types = [.string, .timestamp] ∧
      (string "2016-03-14T01:59:00Z").asInt64 = .error (.wrongType [.string, .timestamp] .integer) := by
  obtain ⟨hlicensed, heq, -⟩ := reading_succeeds_iff_type Timestamp.parse? startsWithDigit_parse?
  exact ⟨startsWithDigit_parse?, heq ▸ hlicensed, by decide +kernel, by decide +kernel⟩

end Json

end ProseSchema
