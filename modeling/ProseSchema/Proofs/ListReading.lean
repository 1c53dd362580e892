import ProseSchema.Proofs.ReaderOutcome
import ProseSchema.Proofs.SentenceText
import ProseSchema.Proofs.TakenText

/-!
# Reading enumerations

An enumeration is read as the items that it was written from, whatever stands behind it. Where a longer item
can be read in place of one of them, the longer one is tried first, and it counts if the rest of the list and
what comes next can be read behind it.
-/

namespace ProseSchema

/-- The text goes on with neither white space nor a comma. -/
def GoesOn (text : List Char) : Prop :=
  ∀ c ∈ text.head?, isSpace c = false ∧ c ≠ ','

@[simp] lemma goesOn_cons (c : Char) (text : List Char) :
    GoesOn (c :: text) ↔ isSpace c = false ∧ c ≠ ',' := by
  simp [GoesOn]

lemma GoesOn.solid {text : List Char} (h : GoesOn text) : Solid text :=
  fun c hc => (h c hc).1

/-- Something is read, and it is the value just where the condition holds. -/
structure Gives {γ : Type} (read : Option γ) (value : γ) (condition : Prop) : Prop where
  isSome : read.isSome = true
  eq_iff : read = some value ↔ condition

namespace Gives

variable {γ : Type} {read : Option γ} {value : γ} {p q : Prop}

lemma of_eq (h : read = some value) : Gives read value True :=
  ⟨by rw [h]; rfl, iff_true_intro h⟩

lemma or (h : Gives read value p) (other : Option γ) : Gives (read.or other) value p := by
  rwa [Option.or_of_isSome h.isSome]

lemma congr (h : Gives read value p) (hpq : p ↔ q) : Gives read value q :=
  ⟨h.isSome, h.eq_iff.trans hpq⟩

end Gives

namespace Reader

variable {α γ : Type}

lemma exists_way_of_outcome {r : Reader α} {next : α → List Char → Option γ} {text : List Char} {c : γ}
    (h : r.outcome next text = some c) : ∃ way ∈ r text, next way.1 way.2 = some c :=
  List.exists_of_findSome?_eq_some h

/-- Whether anything gets through depends on no more than whether it does behind each way. -/
lemma isSome_outcome_congr {δ : Type} {r : Reader α} {next : α → List Char → Option γ}
    {next' : α → List Char → Option δ} {text : List Char}
    (h : ∀ a rest, (next a rest).isSome = (next' a rest).isSome) :
    (r.outcome next text).isSome = (r.outcome next' text).isSome := by
  simp only [outcome, List.isSome_findSome?, h]

lemma outcome_congr {r : Reader α} {next next' : α → List Char → Option γ} {text : List Char}
    (h : ∀ way ∈ r text, next way.1 way.2 = next' way.1 way.2) : r.outcome next text = r.outcome next' text := by
  revert h
  unfold outcome
  induction r text with
  | nil => exact fun _ => rfl
  | cons way ways ih =>
    intro h
    rw [List.forall_mem_cons] at h
    rw [List.findSome?_cons, List.findSome?_cons, h.1, ih h.2]

section

variable {r : Reader α} (next : List Char → Option γ) (text : List Char)

lemma outcome_many1 :
    (many1 r).outcome (fun _ => next) text = r.outcome (fun _ => (many r).outcome fun _ => next) text := by
  simp only [many1, outcome_bind, outcome_pure]

/-- Several values are read as one of them with the others behind it, or none is. -/
lemma outcome_many (hr : Takes (· ≠ []) r) : (many r).outcome (fun _ => next) text =
    (r.outcome (fun _ => (many r).outcome fun _ => next) text).or (next text) := by
  have hmany {rest : List Char} {count : ℕ} (h : rest.length ≤ count) :
      (many r).outcome (fun _ => next) rest = (upTo r count).outcome (fun _ => next) rest := by
    change (many r rest).findSome? _ = (upTo r count rest).findSome? _
    rw [many, upTo_eq_of_length_le hr le_rfl h]
  rw [hmany (Nat.le_succ text.length), upTo, outcome_orElse, outcome_bind, outcome_pure]
  congr 1
  apply outcome_congr
  intro way hw
  obtain ⟨taken, ht, -⟩ := hr text way hw
  have hlength : way.2.length ≤ text.length := by
    rw [ht, List.length_append]
    omega
  rw [outcome_map, hmany hlength]

end

end Reader

namespace Enumeration

open Reader

variable {ι α γ : Type}

lemma Place.of_false (others : List ι) : Place.of false others = .first :=
  rfl

lemma Place.of_true_nil : Place.of true ([] : List ι) = .last :=
  rfl

lemma Place.of_true_cons (item : ι) (others : List ι) : Place.of true (item :: others) = .inner :=
  rfl

lemma Along.imp {connector : String} {write : ι → List Char} {P Q : Place → ι → List Char → Prop}
    {after after' : List Char} {comma : Bool} {items : List ι}
    (hPQ : ∀ i ∈ items, ∀ place u, P place i (u ++ after) → Q place i (u ++ after'))
    (h : Along connector write P after comma items) : Along connector write Q after' comma items := by
  induction items generalizing comma with
  | nil => trivial
  | cons i items ih =>
    rw [List.forall_mem_cons] at hPQ
    exact ⟨hPQ.1 _ _ h.1, ih hPQ.2 h.2⟩

lemma along_of_forall {connector : String} {write : ι → List Char} {P : Place → ι → List Char → Prop}
    {after : List Char} {items : List ι} (h : ∀ i ∈ items, ∀ place rest, P place i rest) (comma : Bool) :
    Along connector write P after comma items := by
  induction items generalizing comma with
  | nil => trivial
  | cons i items ih =>
    rw [List.forall_mem_cons] at h
    exact ⟨h.1 _ _, ih h.2 true⟩

lemma along_congr {connector : String} {write : ι → List Char} {P Q : Place → ι → List Char → Prop}
    {after : List Char} {comma : Bool} {items : List ι} (h : ∀ place i rest, P place i rest ↔ Q place i rest) :
    Along connector write P after comma items ↔ Along connector write Q after comma items :=
  ⟨Along.imp fun _ _ _ _ => (h _ _ _).mp, Along.imp fun _ _ _ _ => (h _ _ _).mpr⟩

/-! The rest of a list. -/

section

variable {connector : String} {item : Reader α}

lemma outcome_commaItem_of_ne {next : α → List Char → Option γ} {text : List Char}
    (h : ∀ c ∈ text.head?, c ≠ ',') : (commaItem item).outcome next text = none := by
  cases text with
  | nil => rfl
  | cons c text =>
    have hc : ¬ ',' = c := fun he => h c rfl he.symm
    simp [commaItem, hc]

lemma outcome_lastItem_of_ne {next : α → List Char → Option γ} {text : List Char}
    (h : ∀ c ∈ text.head?, c ≠ ',') : (lastItem connector item).outcome next text = none := by
  cases text with
  | nil => rfl
  | cons c text =>
    have hc : ¬ ',' = c := fun he => h c rfl he.symm
    simp [lastItem, hc]

lemma middle_eq : middle item = (do
    let items ← many1 (commaItem item)
    literal [',']
    pure items) :=
  rfl

lemma outcome_middle_of_ne {next : List α → List Char → Option γ} {text : List Char}
    (h : ∀ c ∈ text.head?, c ≠ ',') : (middle item).outcome next text = none := by
  rw [middle_eq, outcome_bind, many1, outcome_bind, outcome_commaItem_of_ne h]

lemma takes_commaItem (h : Takes (fun _ => True) item) : Takes (· ≠ []) (commaItem item) := by
  have hblanks : Takes (fun _ => True) blanks := Takes.blanks fun _ _ => trivial
  have hcomma : Takes (· ≠ []) (literal [',']) := Takes.literal (List.cons_ne_nil _ _)
  apply hcomma.join fun _ => hblanks.bind fun _ => h
  exact fun u v hu _ => List.append_ne_nil_of_left_ne_nil hu v

lemma takes_remainder (h : Takes (fun _ => True) item) (place : Place) :
    Takes (fun _ => True) (remainder connector item place) := by
  have hblanks : Takes (fun _ => True) blanks := Takes.blanks fun _ _ => trivial
  have hword (word : List Char) : Takes (fun _ => True) (literal word) := Takes.literal trivial
  have hcomma : Takes (fun _ => True) (commaItem item) := (hword _).bind fun _ => hblanks.bind fun _ => h
  have hmiddle : Takes (fun _ => True) (middle item) :=
    hcomma.many1.bind fun _ => (hword _).bind fun _ => Takes.pure _
  cases place with
  | first =>
    have htail : Takes (fun _ => True) (tail connector item) :=
      hmiddle.optional.bind fun _ => hblanks.bind fun _ => (hword _).bind fun _ => hblanks.bind fun _ =>
        h.bind fun _ => Takes.pure _
    exact htail.optional.bind fun _ => Takes.pure _
  | inner =>
    have hlast : Takes (fun _ => True) (lastItem connector item) :=
      (hword _).bind fun _ => hblanks.bind fun _ => (hword _).bind fun _ => hblanks.bind fun _ => h
    have hmany : Takes (fun _ => True) (many (commaItem item)) := fun text => hcomma.upTo text.length text
    exact hmany.bind fun _ => hlast.bind fun _ => Takes.pure _
  | last => exact Takes.pure _

variable (connector item) (next : List Char → Option γ)

lemma outcome_remainder_first (text : List Char) : (remainder connector item .first).outcome (fun _ => next) text =
    ((tail connector item).outcome (fun _ => next) text).or (next text) := by
  simp only [remainder, outcome_bind, outcome_optional, outcome_pure]

lemma outcome_remainder_inner : (remainder connector item .inner).outcome (fun _ => next) =
    (many (commaItem item)).outcome fun _ => (lastItem connector item).outcome fun _ => next := by
  funext text
  simp only [remainder, outcome_bind, outcome_pure]

@[simp] lemma outcome_remainder_last : (remainder connector item .last).outcome (fun _ => next) = next := by
  funext text
  simp only [remainder, outcome_pure]

lemma outcome_tail_comma (text : List Char) : (tail connector item).outcome (fun _ => next) (',' :: text) =
    (commaItem item).outcome (fun _ => (remainder connector item .inner).outcome fun _ => next) (',' :: text) := by
  have hb {δ : Type} (next : Unit → List Char → Option δ) : blanks.outcome next (',' :: text) = none :=
    outcome_blanks_of_solid next (by simp)
  have hlast : (lastItem connector item).outcome (fun _ => next) = fun text => (literal [',']).outcome (fun _ rest =>
      blanks.outcome (fun _ rest => (literal (chars connector)).outcome (fun _ rest => blanks.outcome
        (fun _ rest => item.outcome (fun _ => next) rest) rest) rest) rest) text := by
    funext text
    simp only [lastItem, outcome_bind]
  simp only [tail, middle_eq, outcome_bind, outcome_optional, outcome_pure, hb, Option.or_none, outcome_many1,
    outcome_remainder_inner, hlast]

lemma outcome_list (text : List Char) : (list connector item).outcome (fun _ => next) text =
    item.outcome (fun _ => (remainder connector item .first).outcome fun _ => next) text := by
  have hfirst : (remainder connector item .first).outcome (fun _ => next) =
      fun text => ((tail connector item).outcome (fun _ => next) text).or (next text) :=
    funext (outcome_remainder_first connector item next)
  simp only [list, hfirst, outcome_bind, outcome_optional, outcome_pure]

end

/-- No tail of a list is read from the text. -/
def EndsList (connector : String) (text : List Char) : Prop :=
  ∀ (α γ : Type) (item : Reader α) (next : List α → List Char → Option γ),
    (tail connector item).outcome next text = none

lemma endsList_of_goesOn (connector : String) {text : List Char} (h : GoesOn text) :
    EndsList connector text := by
  intro α γ item next
  simp only [tail, outcome_bind, outcome_optional]
  rw [outcome_middle_of_ne fun c hc => (h c hc).2]
  simp only [Option.none_or, outcome_blanks_of_solid _ h.solid]

/-- A list ends where another word than the connector comes next. -/
lemma endsList_blank {connector : String} {rest : List Char} (hs : Solid rest)
    (h : ∀ {γ : Type} (next : Unit → List Char → Option γ),
      (literal (chars connector)).outcome next rest = none) : EndsList connector (' ' :: rest) := by
  intro α γ item next
  simp only [tail, outcome_bind, outcome_optional]
  rw [outcome_middle_of_ne (by simp)]
  simp only [Option.none_or, outcome_blanks_cons _ hs, h]

/-- Nothing of a list is read from a text that goes on otherwise, and what comes next does not get through. -/
lemma outcome_remainder_of_goesOn (connector : String) {item : Reader α} (hitem : Takes (fun _ => True) item)
    {next : List Char → Option γ} {text : List Char} (h : GoesOn text) (hnext : next text = none) (place : Place) :
    (remainder connector item place).outcome (fun _ => next) text = none := by
  have hcomma : ∀ c ∈ text.head?, c ≠ ',' := fun c hc => (h c hc).2
  cases place with
  | first => rw [outcome_remainder_first, endsList_of_goesOn connector h, Option.none_or, hnext]
  | inner =>
    rw [outcome_remainder_inner, outcome_many _ _ (takes_commaItem hitem), outcome_commaItem_of_ne hcomma,
      Option.none_or, outcome_lastItem_of_ne hcomma]
  | last => rw [outcome_remainder_last, hnext]

/-! Lists of items. -/

/-- The items are read from what is written for them. A longer item may be read in place of one of them, and it
leaves over the text behind it. -/
structure ReadsItems (connector : String) (item : Reader α) (write : ι → List Char) (known : ι → Prop)
    (longer : ι → List Char → List Char → Prop) : Prop where
  reads : ∀ {i : ι} {rest : List Char}, known i → ∀ {γ : Type} {next : List Char → Option γ} {c : γ} {p : Prop},
    (∀ behind, longer i rest behind → next behind ≠ some c) → Gives (next rest) c p →
      Gives (item.outcome (fun _ => next) (write i ++ rest)) c
        ((∀ behind, longer i rest behind → next behind = none) ∧ p)
  takes : Takes (fun _ => True) item
  solid : ∀ i rest, Solid (write i ++ rest)
  connector_solid : ∀ rest, Solid (chars connector ++ rest)
  no_connector : ∀ rest {γ : Type} (next : α → List Char → Option γ),
    item.outcome next (chars connector ++ ' ' :: rest) = none

namespace ReadsItems

variable {connector : String} {item : Reader α} {write : ι → List Char} {known : ι → Prop}
  {longer : ι → List Char → List Char → Prop} (h : ReadsItems connector item write known longer)

include h

lemma outcome_commaItem (next : List Char → Option γ) (i : ι) (rest : List Char) :
    (commaItem item).outcome (fun _ => next) (',' :: ' ' :: (write i ++ rest)) =
      item.outcome (fun _ => next) (write i ++ rest) := by
  simp [commaItem, h.solid]

lemma outcome_commaItem_connector (next : List Char → Option γ) (rest : List Char) :
    (commaItem item).outcome (fun _ => next) (',' :: ' ' :: (chars connector ++ ' ' :: rest)) = none := by
  have hs := h.connector_solid (' ' :: rest)
  simp only [commaItem, outcome_bind, outcome_literal_cons_cons, if_true, outcome_literal_nil,
    outcome_blanks_cons _ hs, h.no_connector]

lemma outcome_lastItem (next : List Char → Option γ) (i : ι) (rest : List Char) :
    (lastItem connector item).outcome (fun _ => next)
        (',' :: ' ' :: (chars connector ++ ' ' :: (write i ++ rest))) =
      item.outcome (fun _ => next) (write i ++ rest) := by
  have hs := h.connector_solid (' ' :: (write i ++ rest))
  simp only [lastItem, outcome_bind, outcome_literal_cons_cons, if_true, outcome_literal_nil,
    outcome_blanks_cons _ hs, outcome_literal_append, outcome_blanks_cons _ (h.solid i rest)]

lemma outcome_tail_two (next : List Char → Option γ) (i : ι) (rest : List Char) :
    (tail connector item).outcome (fun _ => next) (' ' :: (chars connector ++ ' ' :: (write i ++ rest))) =
      item.outcome (fun _ => next) (write i ++ rest) := by
  have hs := h.connector_solid (' ' :: (write i ++ rest))
  simp only [tail, outcome_bind, outcome_optional]
  rw [outcome_middle_of_ne (by simp)]
  simp only [Option.none_or, outcome_blanks_cons _ hs, outcome_literal_append, outcome_blanks_cons _ (h.solid i rest),
    outcome_pure]

/-- Behind an item the next one is tried first. -/
lemma exists_outcome_remainder (next : List Char → Option γ) (comma : Bool) (i : ι) (others : List ι)
    (after : List Char) : ∃ other,
      (remainder connector item (.of comma (i :: others))).outcome (fun _ => next)
          (behind connector comma ((i :: others).map write) ++ after) =
        (item.outcome (fun _ => (remainder connector item (.of true others)).outcome fun _ => next)
          (write i ++ (behind connector true (others.map write) ++ after))).or other := by
  have hmany := takes_commaItem h.takes
  cases others with
  | nil =>
    rw [Place.of_true_nil, outcome_remainder_last, List.map_nil, behind, List.nil_append]
    cases comma with
    | false =>
      have ht : behind connector false ([i].map write) ++ after =
          ' ' :: (chars connector ++ ' ' :: (write i ++ after)) := by
        simp [behind]
      rw [ht, Place.of_false, outcome_remainder_first, h.outcome_tail_two]
      exact ⟨_, rfl⟩
    | true =>
      have ht : behind connector true ([i].map write) ++ after =
          ',' :: ' ' :: (chars connector ++ ' ' :: (write i ++ after)) := by
        simp [behind]
      rw [ht, Place.of_true_cons, outcome_remainder_inner, outcome_many _ _ hmany, h.outcome_commaItem_connector,
        h.outcome_lastItem]
      exact ⟨none, by rw [Option.none_or, Option.or_none]⟩
  | cons j others =>
    have ht : behind connector comma ((i :: j :: others).map write) ++ after =
        ',' :: ' ' :: (write i ++ (behind connector true ((j :: others).map write) ++ after)) := by
      simp [behind]
    rw [ht, Place.of_true_cons]
    cases comma with
    | false =>
      rw [Place.of_false, outcome_remainder_first, outcome_tail_comma, h.outcome_commaItem]
      exact ⟨_, rfl⟩
    | true =>
      rw [Place.of_true_cons, outcome_remainder_inner, outcome_many _ _ hmany, h.outcome_commaItem]
      exact ⟨_, rfl⟩

/-- An item is read with the others behind it and with what comes next behind the last of them. -/
lemma gives_items {next : List Char → Option γ} {c : γ} {after : List Char} (ha : EndsList connector after)
    (hn : next after = some c) (comma : Bool) (i : ι) (others : List ι) (hi : ∀ j ∈ i :: others, known j)
    (hne : Along connector write (fun place j rest => ∀ behind, longer j rest behind →
      (remainder connector item place).outcome (fun _ => next) behind ≠ some c) after comma (i :: others)) :
    Gives (item.outcome (fun _ => (remainder connector item (.of comma others)).outcome fun _ => next)
        (write i ++ (behind connector comma (others.map write) ++ after))) c
      (Along connector write (fun place j rest => ∀ behind, longer j rest behind →
        (remainder connector item place).outcome (fun _ => next) behind = none) after comma (i :: others)) := by
  rw [List.forall_mem_cons] at hi
  apply h.reads hi.1 hne.1
  induction others generalizing comma i with
  | nil =>
    apply Gives.of_eq
    rw [List.map_nil, behind, List.nil_append]
    cases comma with
    | false => rw [Place.of_false, outcome_remainder_first, ha, Option.none_or, hn]
    | true => rw [Place.of_true_nil, outcome_remainder_last, hn]
  | cons j others ih =>
    obtain ⟨other, ho⟩ := h.exists_outcome_remainder next comma j others after
    rw [ho]
    apply Gives.or
    rw [List.forall_mem_cons] at hi
    exact h.reads hi.2.1 hne.2.1 (ih true j hi.2 hne.2)

variable {next : List Char → Option γ} {c : γ} {after : List Char} {items : List ι} (hitems : items ≠ [])
  (hknown : ∀ i ∈ items, known i) (ha : EndsList connector after) (hn : next after = some c)

include hitems hknown ha hn

/-- A list is read, and what comes next is read behind it just where nothing gets through behind the longer items
that stand in place of its own. -/
theorem gives_list (hne : Along connector write (fun place i rest => ∀ behind, longer i rest behind →
      (remainder connector item place).outcome (fun _ => next) behind ≠ some c) after false items) :
    Gives ((list connector item).outcome (fun _ => next) (text connector (items.map write) ++ after)) c
      (Along connector write (fun place i rest => ∀ behind, longer i rest behind →
        (remainder connector item place).outcome (fun _ => next) behind = none) after false items) := by
  obtain ⟨i, others, rfl⟩ := List.exists_cons_of_ne_nil hitems
  rw [outcome_list, List.map_cons, text, List.append_assoc]
  exact h.gives_items ha hn false i others hknown hne

theorem outcome_list_of_none (hnone : Along connector write (fun place i rest => ∀ behind, longer i rest behind →
      (remainder connector item place).outcome (fun _ => next) behind = none) after false items) :
    (list connector item).outcome (fun _ => next) (text connector (items.map write) ++ after) = some c := by
  apply (h.gives_list hitems hknown ha hn _).eq_iff.mpr hnone
  apply hnone.imp
  intro i _ place u hu behind hb
  rw [hu behind hb]
  exact (Option.some_ne_none c).symm

end ReadsItems

end Enumeration

end ProseSchema
