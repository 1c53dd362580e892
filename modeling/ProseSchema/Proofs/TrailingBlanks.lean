import ProseSchema.Proofs.QuotelessRoles

/-!
# White space at the end

White space that is added to the end of a text is left over by each way of a reader that leaves anything but
white space. So where a reading comes to something other than white space in the end, such as the full stop of
a sentence, it does not see what white space stands behind that.
-/

namespace ProseSchema

open Reader

lemma isBlank_append (u v : List Char) : isBlank (u ++ v) = (isBlank u && isBlank v) :=
  List.all_append

lemma isBlank_of_suffix {u v : List Char} (h : u <:+ v) (hv : isBlank v = true) : isBlank u = true := by
  obtain ⟨t, rfl⟩ := h
  rw [isBlank_append, Bool.and_eq_true] at hv
  exact hv.2

lemma not_mem_of_isBlank {gap : List Char} (h : isBlank gap = true) {c : Char} (hc : isSpace c = false) : c ∉ gap := by
  intro hm
  have := List.all_eq_true.mp h c hm
  rw [hc] at this
  exact absurd this (by decide)

namespace Reader

variable {α β γ : Type}

/-- The ways that leave more than white space. -/
def goingOn (ways : List (α × List Char)) : List (α × List Char) :=
  ways.filter fun way => !isBlank way.2

/-- White space that is added to the end of a text is left over by the ways that leave more than white space,
and there are no other such ways. -/
structure LeavesGap (r : Reader α) : Prop where
  takes : Takes (fun _ => True) r
  same : ∀ text {gap : List Char}, isBlank gap = true →
    goingOn (r (text ++ gap)) = (goingOn (r text)).map fun way => (way.1, way.2 ++ gap)

lemma goingOn_append (ways others : List (α × List Char)) :
    goingOn (ways ++ others) = goingOn ways ++ goingOn others :=
  List.filter_append ways others

lemma goingOn_map (f : α → β) (ways : List (α × List Char)) :
    goingOn (ways.map fun way => (f way.1, way.2)) = (goingOn ways).map fun way => (f way.1, way.2) := by
  rw [goingOn, List.filter_map]
  rfl

lemma goingOn_of_isBlank {r : Reader α} (hr : Takes (fun _ => True) r) {text : List Char}
    (h : isBlank text = true) : goingOn (r text) = [] := by
  rw [goingOn, List.filter_eq_nil_iff]
  intro way hw
  simp [isBlank_of_suffix (hr.suffix hw) h]

lemma goingOn_bind {r : Reader α} {f : α → Reader β} (hf : ∀ a, Takes (fun _ => True) (f a)) (text : List Char) :
    goingOn ((r >>= f) text) = (goingOn (r text)).flatMap fun way => goingOn (f way.1 way.2) := by
  change ((r text).flatMap fun way => f way.1 way.2).filter _ = _
  rw [goingOn]
  induction r text with
  | nil => rfl
  | cons way ways ih =>
    rw [List.flatMap_cons, List.filter_append, ih, List.filter_cons]
    split
    · rfl
    · next h =>
      have hblank : goingOn (f way.1 way.2) = [] := goingOn_of_isBlank (hf way.1) (by simpa using h)
      change goingOn (f way.1 way.2) ++ _ = _
      rw [hblank, List.nil_append]

namespace LeavesGap

lemma pure (a : α) : LeavesGap (Pure.pure a : Reader α) := by
  refine ⟨Takes.pure a, fun text gap hgap => ?_⟩
  change List.filter _ [(a, text ++ gap)] = (List.filter _ [(a, text)]).map _
  simp only [List.filter_cons, List.filter_nil, isBlank_append, hgap, Bool.and_true]
  split <;> rfl

lemma bind {r : Reader α} {f : α → Reader β} (hr : LeavesGap r) (hf : ∀ a, LeavesGap (f a)) :
    LeavesGap (r >>= f) := by
  refine ⟨hr.takes.bind fun a => (hf a).takes, fun text gap hgap => ?_⟩
  have htakes := fun a => (hf a).takes
  rw [goingOn_bind htakes, goingOn_bind htakes, hr.same text hgap, List.flatMap_map, List.map_flatMap]
  exact List.flatMap_congr fun way _ => (hf way.1).same way.2 hgap

lemma map {r : Reader α} (hr : LeavesGap r) (f : α → β) : LeavesGap (f <$> r) :=
  hr.bind fun a => pure (f a)

lemma orElse {r q : Reader α} (hr : LeavesGap r) (hq : LeavesGap q) : LeavesGap (Reader.orElse r q) := by
  refine ⟨hr.takes.orElse hq.takes, fun text gap hgap => ?_⟩
  change goingOn (r (text ++ gap) ++ q (text ++ gap)) = (goingOn (r text ++ q text)).map _
  rw [goingOn_append, goingOn_append, hr.same text hgap, hq.same text hgap, List.map_append]

lemma optional {r : Reader α} (hr : LeavesGap r) : LeavesGap (Reader.optional r) :=
  (hr.map some).orElse (pure none)

lemma firstOf {rs : List (Reader α)} (h : ∀ r ∈ rs, LeavesGap r) : LeavesGap (Reader.firstOf rs) := by
  induction rs with
  | nil => exact ⟨Takes.firstOf (List.forall_mem_nil _), fun _ _ _ => rfl⟩
  | cons r rs ih =>
    rw [List.forall_mem_cons] at h
    exact h.1.orElse (ih h.2)

lemma char (p : Char → Bool) : LeavesGap (Reader.char p) := by
  have htakes : Takes (fun _ => True) (Reader.char p) := Takes.char fun _ _ => trivial
  refine ⟨htakes, fun text gap hgap => ?_⟩
  cases text with
  | nil => rw [List.nil_append, goingOn_of_isBlank htakes hgap, goingOn_of_isBlank htakes rfl, List.map_nil]
  | cons c text =>
    rw [List.cons_append, Reader.char, Reader.char]
    split
    · exact (pure c).same text hgap
    · rfl

lemma literal (word : List Char) : LeavesGap (Reader.literal word) := by
  induction word with
  | nil => exact pure ()
  | cons c word ih =>
    have heq : Reader.literal (c :: word) = Reader.char (c == ·) >>= fun _ => Reader.literal word := by
      funext text
      cases text with
      | nil => rfl
      | cons d text =>
        change _ = (Reader.char (c == ·) (d :: text)).flatMap _
        cases hd : c == d <;> simp [Reader.literal, Reader.char, List.isPrefixOf, hd]
    rw [heq]
    exact (char _).bind fun _ => ih

lemma keyword (word : String) (a : α) : LeavesGap (Reader.keyword word a) :=
  (literal _).bind fun _ => pure a

lemma run (p : Char → Bool) : LeavesGap (Reader.run p) := by
  have htakes : Takes (fun _ => True) (Reader.run p) := Takes.run fun _ _ => trivial
  refine ⟨htakes, fun text gap hgap => ?_⟩
  induction text with
  | nil => rw [List.nil_append, goingOn_of_isBlank htakes hgap, goingOn_of_isBlank htakes rfl, List.map_nil]
  | cons c text ih =>
    have hstop := (pure ([] : List Char)).same (c :: text) hgap
    rw [List.cons_append, Reader.run, Reader.run]
    split
    · rw [goingOn_append, goingOn_append, goingOn_map, goingOn_map, ih, List.map_append, List.map_map, List.map_map]
      exact congrArg _ hstop
    · exact hstop

lemma span (p : Char → Bool) : LeavesGap (Reader.span p) := by
  have htakes : Takes (fun _ => True) (Reader.span p) := Takes.span fun _ _ => trivial
  refine ⟨htakes, fun text gap hgap => ?_⟩
  induction text with
  | nil => rw [List.nil_append, goingOn_of_isBlank htakes hgap, goingOn_of_isBlank htakes rfl, List.map_nil]
  | cons c text ih =>
    have hcons (rest : List Char) : Reader.span p (c :: rest) =
        if p c then (Reader.span p rest).map fun way => (c :: way.1, way.2) else [([], c :: rest)] := by
      simp only [Reader.span, List.takeWhile_cons, List.dropWhile_cons]
      split <;> rfl
    rw [List.cons_append, hcons, hcons]
    split
    · rw [goingOn_map, goingOn_map, ih, List.map_map, List.map_map]
      rfl
    · exact (pure ([] : List Char)).same (c :: text) hgap

lemma withText {r : Reader α} (hr : LeavesGap r) : LeavesGap (Reader.withText r) := by
  refine ⟨hr.takes.withText, fun text gap hgap => ?_⟩
  have hfilter (ways : List (α × List Char)) (f : α × List Char → (α × List Char) × List Char)
      (hf : ∀ way, (f way).2 = way.2) : goingOn (ways.map f) = (goingOn ways).map f := by
    rw [goingOn, List.filter_map]
    congr 1
    apply List.filter_congr
    simp [hf]
  rw [Reader.withText, Reader.withText, hfilter _ _ fun _ => rfl, hfilter _ _ fun _ => rfl, hr.same text hgap,
    List.map_map, List.map_map]
  apply List.map_congr_left
  intro way hw
  have hlen : text.length + gap.length - (way.2.length + gap.length) = text.length - way.2.length := by omega
  simp only [Function.comp_apply, List.length_append, hlen]
  rw [List.take_append_of_le_length (Nat.sub_le _ _)]

lemma upTo {r : Reader α} (hr : LeavesGap r) (count : Nat) : LeavesGap (Reader.upTo r count) := by
  induction count with
  | zero => exact pure []
  | succ count ih => exact (hr.bind fun a => ih.map (a :: ·)).orElse (pure [])

lemma many1 {r : Reader α} (hr : LeavesGap r) (hne : Takes (· ≠ []) r) : LeavesGap (Reader.many1 r) := by
  have hmany : LeavesGap (Reader.many r) := by
    refine ⟨fun text => hr.takes.upTo text.length text, fun text gap hgap => ?_⟩
    have hcount : Reader.many r text = Reader.upTo r (text ++ gap).length text :=
      upTo_eq_of_length_le hne le_rfl (by simp)
    rw [hcount]
    exact (hr.upTo _).same text hgap
  exact hr.bind fun _ => hmany.bind fun _ => pure _

lemma span1 (p : Char → Bool) : LeavesGap (Reader.span1 p) :=
  (char p).bind fun _ => (span p).bind fun _ => pure _

lemma run1 (p : Char → Bool) : LeavesGap (Reader.run1 p) :=
  (char p).bind fun _ => (run p).bind fun _ => pure _

lemma blanks : LeavesGap Reader.blanks :=
  (run1 _).map _

lemma phrase (words : List String) : LeavesGap (Reader.phrase words) := by
  induction words with
  | nil => exact pure ()
  | cons word words ih =>
    cases words with
    | nil => exact literal _
    | cons other words => exact (literal _).bind fun _ => blanks.bind fun _ => ih

lemma quoted : LeavesGap Reader.quoted :=
  (literal _).bind fun _ => (span _).bind fun _ => (literal _).bind fun _ => pure _

lemma quotedNonempty : LeavesGap Reader.quotedNonempty :=
  (literal _).bind fun _ => (span1 _).bind fun _ => (literal _).bind fun _ => pure _

lemma article : LeavesGap Enumeration.article :=
  (literal _).bind fun _ => (literal _).optional.bind fun _ => blanks

lemma oneOf (names : List String) : LeavesGap (Enumeration.oneOf names) := by
  apply firstOf
  intro r hr
  obtain ⟨name, -, rfl⟩ := List.mem_map.mp hr
  exact keyword name name

lemma tail (connector : String) {item : Reader α} (h : LeavesGap item) :
    LeavesGap (Enumeration.tail connector item) := by
  have hcomma : LeavesGap (Enumeration.commaItem item) := (literal _).bind fun _ => blanks.bind fun _ => h
  have hne : Takes (· ≠ []) (Enumeration.commaItem item) :=
    (Takes.literal (q := (· ≠ [])) (List.cons_ne_nil _ _)).join (fun _ => (blanks.bind fun _ => h).takes)
      fun _ _ hu _ => List.append_ne_nil_of_left_ne_nil hu _
  have hmiddle : LeavesGap (Enumeration.middle item) :=
    (hcomma.many1 hne).bind fun _ => (literal _).bind fun _ => pure _
  exact hmiddle.optional.bind fun _ => blanks.bind fun _ => (literal _).bind fun _ => blanks.bind fun _ =>
    h.bind fun _ => pure _

lemma list (connector : String) {item : Reader α} (h : LeavesGap item) :
    LeavesGap (Enumeration.list connector item) :=
  h.bind fun _ => (h.tail connector).optional.bind fun _ => pure _

end LeavesGap

/-! What does not see white space at the end. -/

/-- White space at the end of a text changes nothing, and there is nothing in white space alone. -/
structure Blind (f : List Char → Option γ) : Prop where
  nil : f [] = none
  append : ∀ text {gap : List Char}, isBlank gap = true → f (text ++ gap) = f text

namespace Blind

lemma of_isBlank {f : List Char → Option γ} (h : Blind f) {text : List Char} (hb : isBlank text = true) :
    f text = none := by
  rw [← List.nil_append text, h.append [] hb, h.nil]

lemma outcome_eq_goingOn {r : Reader α} {next : α → List Char → Option γ} (h : ∀ a, Blind (next a))
    (text : List Char) : r.outcome next text = (goingOn (r text)).findSome? fun way => next way.1 way.2 := by
  rw [outcome, goingOn]
  induction r text with
  | nil => rfl
  | cons way ways ih =>
    rw [List.findSome?_cons, List.filter_cons, ih]
    split
    · next b hb =>
      rw [if_pos, List.findSome?_cons, hb]
      rw [Bool.not_eq_true', ← Bool.not_eq_true]
      intro hblank
      rw [(h way.1).of_isBlank hblank] at hb
      exact absurd hb (by simp)
    · next hb =>
      split
      · rw [List.findSome?_cons, hb]
      · rfl

lemma outcome {r : Reader α} (hr : LeavesGap r) {next : α → List Char → Option γ} (h : ∀ a, Blind (next a)) :
    Blind (r.outcome next) := by
  refine ⟨?_, fun text gap hgap => ?_⟩
  · rw [outcome_eq_goingOn h, goingOn_of_isBlank hr.takes rfl]
    rfl
  · rw [outcome_eq_goingOn h, outcome_eq_goingOn h, hr.same text hgap, List.findSome?_map]
    congr 1
    funext way
    exact (h way.1).append way.2 hgap

lemma bind {r : Reader α} (hr : LeavesGap r) {f : α → Reader β} {next : β → List Char → Option γ}
    (h : ∀ a, Blind ((f a).outcome next)) : Blind ((r >>= f).outcome next) := by
  rw [funext (outcome_bind next · r f)]
  exact outcome hr h

lemma behind_stop {f : Unit → Reader α} {next : α → List Char → Option γ}
    (h : ∀ text {gap : List Char}, isBlank gap = true → (f ()).outcome next (text ++ gap) = (f ()).outcome next text) :
    Blind ((literal ['.'] >>= f).outcome next) := by
  refine ⟨rfl, fun text gap hgap => ?_⟩
  rw [outcome_bind, outcome_bind]
  cases text with
  | nil =>
    have hc : '.' ∉ gap := not_mem_of_isBlank hgap isSpace_stop
    cases gap with
    | nil => rfl
    | cons c gap => simp_all
  | cons c text => simp [h text hgap]

lemma ending (a : α) : Blind ((Grammar.ending >>= fun _ => Pure.pure a).outcome ended) := by
  have hstop : Blind (Grammar.ending.outcome fun _ => ended a) := by
    refine behind_stop fun text gap hgap => ?_
    simp only [outcome_bind, outcome_span, outcome_pure]
    rw [List.dropWhile_append]
    cases text.dropWhile isSpace with
    | nil =>
      have hall : ∀ c ∈ gap, isSpace c = true := List.all_eq_true.mp hgap
      rw [List.isEmpty_nil, if_pos rfl, List.dropWhile_eq_nil_iff.mpr hall]
    | cons c rest => rfl
  have heq : (Grammar.ending >>= fun _ => Pure.pure a).outcome ended = Grammar.ending.outcome fun _ => ended a := by
    funext text
    simp only [outcome_bind, outcome_pure]
  rwa [heq]

lemma search? {r : Reader α} (h : Blind (first? r)) : Blind (Reader.search? r) := by
  refine ⟨h.nil, fun text gap hgap => ?_⟩
  induction text with
  | nil =>
    rw [List.nil_append]
    induction gap with
    | nil => rfl
    | cons c gap ih =>
      change (first? r (c :: gap)).or (Reader.search? r gap) = _
      rw [h.of_isBlank hgap, ih (isBlank_of_suffix (List.suffix_cons c gap) hgap)]
      rfl
  | cons c text ih => rw [List.cons_append, Reader.search?, Reader.search?, ih, ← List.cons_append, h.append _ hgap]

end Blind

end Reader

/-! Sentences and declarations. -/

/-- White space at the end does not make a line declare another root. -/
lemma blind_rootRole? : Blind rootRole? := by
  apply Blind.search?
  have hfirst (r : Reader String) : first? r = r.outcome fun role _ => some role := by
    funext text
    rw [first?, outcome]
    cases r text <;> rfl
  rw [hfirst]
  exact .bind (.phrase _) fun _ => .bind .blanks fun _ => .bind .article fun _ => .bind .quotedNonempty fun _ =>
    .behind_stop fun _ _ _ => by rw [outcome_pure, outcome_pure]

namespace Grammar

variable (g : Grammar)

lemma leavesGap_subject : LeavesGap g.subject :=
  (LeavesGap.literal _).bind fun _ => (LeavesGap.literal _).optional.bind fun _ => LeavesGap.blanks.bind fun _ =>
    (LeavesGap.oneOf _).bind fun _ => LeavesGap.blanks.bind fun _ => .pure _

lemma leavesGap_roleList (connector : String) : LeavesGap (g.roleList connector) :=
  (LeavesGap.list connector (LeavesGap.article.bind fun _ => LeavesGap.oneOf _)).withText.map _

lemma leavesGap_exclusion : LeavesGap g.exclusion :=
  (LeavesGap.phrase _).bind fun _ => LeavesGap.blanks.bind fun _ => (g.leavesGap_roleList _).bind fun _ =>
    LeavesGap.blanks.bind fun _ => .pure _

lemma leavesGap_constraintStart : LeavesGap g.constraintStart := by
  have hmodal : LeavesGap modal := by
    apply LeavesGap.firstOf
    simp only [List.forall_mem_cons]
    exact ⟨.keyword _ _, .keyword _ _, .keyword _ _, List.forall_mem_nil _⟩
  exact g.leavesGap_subject.bind fun _ => g.leavesGap_exclusion.optional.bind fun _ => hmodal.bind fun _ =>
    LeavesGap.blanks.bind fun _ => (LeavesGap.literal _).bind fun _ => LeavesGap.blanks.bind fun _ =>
      LeavesGap.article.bind fun _ => .pure _

lemma leavesGap_onlyOneStart : LeavesGap g.onlyOneStart :=
  g.leavesGap_subject.bind fun _ => (LeavesGap.phrase _).bind fun _ => LeavesGap.blanks.bind fun _ => .pure _

lemma leavesGap_quotedList (connector : String) {particle : Reader (List Char)} (h : LeavesGap particle) :
    LeavesGap (quotedList connector particle) :=
  (LeavesGap.list connector h).withText.map _

lemma leavesGap_keywords {α β : Type} (values : List β) (word : β → String) (value : β → α) :
    LeavesGap (firstOf (values.map fun b => keyword (word b) (value b))) := by
  apply LeavesGap.firstOf
  intro r hr
  obtain ⟨b, -, rfl⟩ := List.mem_map.mp hr
  exact .keyword _ _

lemma leavesGap_typePhrase : LeavesGap typePhrase :=
  (leavesGap_keywords _ _ _).bind fun _ => LeavesGap.blanks.bind fun _ => .pure _

lemma leavesGap_fieldNames : LeavesGap fieldNames := by
  refine (LeavesGap.phrase _).bind fun _ => LeavesGap.blanks.bind fun _ => LeavesGap.firstOf ?_
  simp only [List.forall_mem_cons]
  exact ⟨LeavesGap.quotedNonempty.map _, (LeavesGap.phrase _).bind fun _ => LeavesGap.blanks.bind fun _ =>
    (leavesGap_quotedList _ .quotedNonempty).bind fun _ => .pure _, List.forall_mem_nil _⟩

lemma leavesGap_predicate : LeavesGap predicate := by
  have htarget : LeavesGap (firstOf [Prod.snd <$> withText quoted, run1 fun c => !isSpace c]) := by
    apply LeavesGap.firstOf
    simp only [List.forall_mem_cons]
    exact ⟨LeavesGap.quoted.withText.map _, .run1 _, List.forall_mem_nil _⟩
  refine LeavesGap.blanks.bind fun _ => (LeavesGap.phrase _).bind fun _ => LeavesGap.blanks.bind fun _ =>
    LeavesGap.firstOf ?_
  simp only [List.forall_mem_cons]
  exact ⟨(leavesGap_keywords _ _ _).bind fun _ => LeavesGap.blanks.bind fun _ => htarget.bind fun _ => .pure _,
    (LeavesGap.phrase _).bind fun _ => LeavesGap.blanks.bind fun _ => (leavesGap_quotedList _ .quoted).bind fun _ =>
      .pure _, List.forall_mem_nil _⟩

lemma leavesGap_childClause : LeavesGap childClause := by
  have helement : LeavesGap (firstOf [literal (chars "field"), literal (chars "element")]) := by
    apply LeavesGap.firstOf
    simp only [List.forall_mem_cons]
    exact ⟨.literal _, .literal _, List.forall_mem_nil _⟩
  refine (LeavesGap.literal _).bind fun _ => LeavesGap.blanks.bind fun _ => (LeavesGap.firstOf ?_).bind fun _ =>
    LeavesGap.blanks.bind fun _ => (LeavesGap.literal _).bind fun _ => LeavesGap.blanks.bind fun _ =>
      LeavesGap.article.bind fun _ => LeavesGap.quotedNonempty.bind fun _ => .pure _
  simp only [List.forall_mem_cons]
  exact ⟨(LeavesGap.phrase _).bind fun _ => .pure _,
    (LeavesGap.literal _).bind fun _ => LeavesGap.blanks.bind fun _ => helement.bind fun _ => .pure _,
    List.forall_mem_nil _⟩

lemma leavesGap_condition : LeavesGap (firstOf [valueCondition, presenceCondition]) := by
  have htoken : LeavesGap (firstOf [Prod.snd <$> withText quoted, do
      let first ← char fun c => c ≠ '"' && !isSpace c
      let others ← span fun c => !isSpace c
      pure (first :: others)]) := by
    apply LeavesGap.firstOf
    simp only [List.forall_mem_cons]
    exact ⟨LeavesGap.quoted.withText.map _, (LeavesGap.char _).bind fun _ => (LeavesGap.span _).bind fun _ => .pure _,
      List.forall_mem_nil _⟩
  apply LeavesGap.firstOf
  simp only [List.forall_mem_cons]
  exact ⟨(LeavesGap.literal _).bind fun _ => LeavesGap.blanks.bind fun _ => LeavesGap.quotedNonempty.bind fun _ =>
      LeavesGap.blanks.bind fun _ => (LeavesGap.phrase _).bind fun _ => LeavesGap.blanks.bind fun _ =>
        htoken.bind fun _ => LeavesGap.blanks.bind fun _ => .pure _,
    (LeavesGap.literal _).bind fun _ => LeavesGap.blanks.bind fun _ => LeavesGap.article.bind fun _ =>
      LeavesGap.quotedNonempty.bind fun _ => LeavesGap.blanks.bind fun _ => (LeavesGap.literal _).bind fun _ =>
        LeavesGap.blanks.bind fun _ => .pure _,
    List.forall_mem_nil _⟩

theorem blind_constraint : Blind (whole? g.constraint) := by
  rw [funext (whole?_eq_outcome g.constraint)]
  exact .bind g.leavesGap_constraintStart fun _ => .bind leavesGap_typePhrase.optional fun _ =>
    .bind leavesGap_fieldNames fun _ => .bind leavesGap_predicate.optional fun _ =>
      .bind leavesGap_childClause.optional fun _ => .ending _

theorem blind_onlyOneOf : Blind (whole? g.onlyOneOf) := by
  rw [funext (whole?_eq_outcome g.onlyOneOf)]
  exact .bind g.leavesGap_onlyOneStart fun _ => .bind (.phrase _) fun _ => .bind .blanks fun _ =>
    .bind (leavesGap_quotedList _ .quotedNonempty) fun _ => .ending _

theorem blind_roleDefinition : Blind (whole? g.roleDefinition) := by
  rw [funext (whole?_eq_outcome g.roleDefinition)]
  exact .bind g.leavesGap_subject fun _ => .bind leavesGap_condition.optional fun _ => .bind (.literal _) fun _ =>
    .bind .blanks fun _ => .bind .article fun _ => .bind .quotedNonempty fun _ => .ending _

end Grammar

end ProseSchema
