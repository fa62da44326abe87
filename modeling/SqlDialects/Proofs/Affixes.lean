import SqlDialects.Proofs.ListSplitting

/-!
# How texts begin and end

A restriction to texts that begin or end with a given one is written as a pattern: the given text
with a wildcard behind or before it. Wildcards that the given text has itself stay what they are.
This module says which texts such a pattern matches, and when they are those that begin or end with
the given one.

Results:
1. `Text.isLike_append_iff`: a pattern in two parts matches what is in two parts.
2. `Wildcard.isLike_apply_iff`: what a pattern with a wildcard at an end matches.
3. `Wildcard.isLike_apply_iff_isPart`: when it matches exactly what begins or ends with the given
   text.
4. `BoundCondition.restrict_affix`: what a restriction to a begin or an end holds of;
   `five_hundred_begins_so`: not only of what begins so.
-/

namespace SqlDialects

/-! ## Patterns -/

namespace Text

/-- Whether a pattern matches a text. A percent sign stands for any run of characters and an
underscore for any one; nothing takes these meanings away. -/
def isLike : List Char → List Char → Bool
  | [], text => text.isEmpty
  | c :: pattern, text =>
    if c = '%' then text.tails.any (isLike pattern)
    else text.head?.any (fun d => c = '_' || c = d) && isLike pattern text.tail

/-- A text that, as a pattern, matches nothing else. -/
def IsPlain (text : List Char) : Prop := '%' ∉ text ∧ '_' ∉ text

variable {c : Char} {p q text : List Char}

theorem isLike_nil_iff : isLike [] text = true ↔ text = [] := by
  rw [isLike, List.isEmpty_iff]

theorem isLike_run_iff :
    isLike ('%' :: p) text = true ↔ ∃ u v, text = u ++ v ∧ isLike p v = true := by
  rw [isLike, if_pos rfl, List.any_eq_true]
  constructor
  · rintro ⟨v, hv, hp⟩
    obtain ⟨u, rfl⟩ := (List.mem_tails v text).1 hv
    exact ⟨u, v, rfl, hp⟩
  · rintro ⟨u, v, rfl, hp⟩
    exact ⟨v, (List.mem_tails v _).2 (List.suffix_append u v), hp⟩

theorem isLike_cons_iff (hc : c ≠ '%') : isLike (c :: p) text = true ↔
    ∃ d v, text = d :: v ∧ (c = '_' ∨ c = d) ∧ isLike p v = true := by
  rw [isLike, if_neg hc]
  cases text with
  | nil => simp
  | cons d rest => simp

/-- A pattern in two parts matches what is in two parts. -/
theorem isLike_append_iff : isLike (p ++ q) text = true ↔
    ∃ u v, text = u ++ v ∧ isLike p u = true ∧ isLike q v = true := by
  induction p generalizing text with
  | nil =>
    simp only [List.nil_append, isLike_nil_iff]
    exact ⟨fun h => ⟨[], text, rfl, rfl, h⟩, fun ⟨u, v, htext, hu, hv⟩ => by simpa [htext, hu]⟩
  | cons c p ih =>
    rw [List.cons_append]
    by_cases hc : c = '%'
    · subst hc
      simp only [isLike_run_iff, ih]
      constructor
      · rintro ⟨before, _, rfl, u, v, rfl, hu, hv⟩
        exact ⟨before ++ u, v, by simp, ⟨before, u, rfl, hu⟩, hv⟩
      · rintro ⟨_, v, rfl, ⟨before, u, rfl, hu⟩, hv⟩
        exact ⟨before, u ++ v, by simp, u, v, rfl, hu, hv⟩
    · simp only [isLike_cons_iff hc, ih]
      constructor
      · rintro ⟨d, _, rfl, hd, u, v, rfl, hu, hv⟩
        exact ⟨d :: u, v, rfl, ⟨d, u, rfl, hd, hu⟩, hv⟩
      · rintro ⟨_, v, rfl, ⟨d, u, rfl, hd, hu⟩, hv⟩
        exact ⟨d, u ++ v, rfl, hd, u, v, rfl, hu, hv⟩

theorem isLike_run (text : List Char) : isLike ['%'] text = true :=
  isLike_run_iff.2 ⟨text, [], (List.append_nil text).symm, rfl⟩

theorem isLike_self (text : List Char) : isLike text text = true := by
  induction text with
  | nil => rfl
  | cons c text ih =>
    by_cases hc : c = '%'
    · subst hc
      exact isLike_run_iff.2 ⟨['%'], text, rfl, ih⟩
    · exact (isLike_cons_iff hc).2 ⟨c, text, rfl, .inr rfl, ih⟩

theorem isLike_iff_of_isPlain (h : IsPlain p) : isLike p text = true ↔ text = p := by
  induction p generalizing text with
  | nil => exact isLike_nil_iff
  | cons c p ih =>
    obtain ⟨hrun, hone⟩ := h
    obtain ⟨hc, hrun⟩ := List.ne_and_not_mem_of_not_mem_cons hrun
    obtain ⟨hc', hone⟩ := List.ne_and_not_mem_of_not_mem_cons hone
    rw [isLike_cons_iff (Ne.symm hc)]
    simp only [ih ⟨hrun, hone⟩, Ne.symm hc', false_or]
    exact ⟨fun ⟨d, v, htext, hd, hv⟩ => by rw [htext, ← hd, hv],
      fun htext => ⟨c, p, htext, rfl, rfl⟩⟩

/-- A text with a wildcard matches another text of its length. -/
theorem exists_isLike_of_not_isPlain (h : ¬IsPlain p) :
    ∃ text, text.length = p.length ∧ text ≠ p ∧ isLike p text = true := by
  obtain ⟨c, hc, hmem⟩ : ∃ c, (c = '%' ∨ c = '_') ∧ c ∈ p := by
    unfold IsPlain at h
    grind
  obtain ⟨before, after, rfl⟩ := List.append_of_mem hmem
  -- A letter stands where the wildcard was, and the rest of the pattern for itself.
  have hletter : isLike [c] ['a'] = true := by
    rcases hc with rfl | rfl <;> decide
  refine ⟨before ++ ('a' :: after), by simp, ?_, ?_⟩
  · rintro heq
    rcases hc with rfl | rfl <;> simp at heq
  · refine isLike_append_iff.2 ⟨before, 'a' :: after, rfl, isLike_self before, ?_⟩
    exact isLike_append_iff (p := [c]).2 ⟨['a'], after, rfl, hletter, isLike_self after⟩

end Text

/-! ## Wildcards at an end -/

namespace Wildcard

open Text (isLike)

/-- Whether a text has a part where the wildcards of a pattern leave it. -/
def IsPart (part text : List Char) : Wildcard → Prop
  | .both => part <:+: text
  | .trailing => part <+: text
  | .leading => part <:+ text

variable {w : Wildcard}

/-- A whole text is a part of itself. -/
theorem isPart_self (text : List Char) : w.IsPart text text := by
  cases w with
  | both => exact List.infix_rfl
  | trailing => exact List.prefix_rfl
  | leading => exact List.suffix_rfl

/-- No other part of a text is as long. -/
theorem IsPart.eq_of_length {part text : List Char} (h : w.IsPart part text)
    (hlength : part.length = text.length) : part = text := by
  cases w with
  | both => exact List.IsInfix.eq_of_length h hlength
  | trailing => exact List.IsPrefix.eq_of_length h hlength
  | leading => exact List.IsSuffix.eq_of_length h hlength

/-- A pattern with wildcards matches what has, where these leave it, a part that the operand
matches. -/
theorem isLike_apply_iff {s text : String} : isLike (w.apply s).toList text.toList = true ↔
    ∃ part, isLike s.toList part = true ∧ w.IsPart part text.toList := by
  have hsign : "%".toList = ['%'] := by decide
  have happend {a b : String} {cs : List Char} : isLike (a ++ b).toList cs = true ↔
      ∃ u v, cs = u ++ v ∧ isLike a.toList u = true ∧ isLike b.toList v = true := by
    rw [String.toList_append]
    exact Text.isLike_append_iff
  cases w with
  | both =>
    simp only [apply, String.append_assoc, happend, hsign, Text.isLike_run, true_and, and_true]
    constructor
    · rintro ⟨u, _, htext, part, v, rfl, hpart⟩
      exact ⟨part, hpart, u, v, by rw [htext, List.append_assoc]⟩
    · rintro ⟨part, hpart, u, v, htext⟩
      exact ⟨u, part ++ v, by rw [← htext, List.append_assoc], part, v, rfl, hpart⟩
  | trailing =>
    simp only [apply, happend, hsign, Text.isLike_run, and_true]
    exact ⟨fun ⟨part, v, htext, hpart⟩ => ⟨part, hpart, v, htext.symm⟩,
      fun ⟨part, hpart, v, htext⟩ => ⟨part, v, htext.symm, hpart⟩⟩
  | leading =>
    simp only [apply, happend, hsign, Text.isLike_run, true_and]
    exact ⟨fun ⟨u, part, htext, hpart⟩ => ⟨part, hpart, u, htext.symm⟩,
      fun ⟨part, hpart, u, htext⟩ => ⟨u, part, htext.symm, hpart⟩⟩

/-- A pattern with wildcards matches exactly what has its operand where these leave it, if and only
if the operand has none. -/
theorem isLike_apply_iff_isPart {s : String} :
    (∀ text : String, isLike (w.apply s).toList text.toList = true ↔
      w.IsPart s.toList text.toList) ↔ Text.IsPlain s.toList := by
  constructor
  · intro h
    by_contra hplain
    obtain ⟨other, hlength, hne, hlike⟩ := Text.exists_isLike_of_not_isPlain hplain
    have hpart := (h (String.ofList other)).1
      (isLike_apply_iff.2 ⟨other, hlike, by rw [String.toList_ofList]; exact isPart_self other⟩)
    rw [String.toList_ofList] at hpart
    exact hne (hpart.eq_of_length hlength.symm).symm
  · intro hplain text
    rw [isLike_apply_iff]
    constructor
    · rintro ⟨part, hlike, hpart⟩
      rwa [← (Text.isLike_iff_of_isPlain hplain).1 hlike]
    · exact fun hpart => ⟨s.toList, Text.isLike_self s.toList, hpart⟩

end Wildcard

/-! ## Restrictions to a begin or an end -/

/-- The usual rules for restrictions to how a text begins or ends. -/
def affixRules : List ConditionRule :=
  [.like .beginsWith false .trailing, .like .notBeginWith true .trailing,
    .like .endsWith false .leading, .like .notEndWith true .leading]

/-- Whether a dialect has the usual rules for them. -/
def Dialect.HasUsualAffixes (d : Dialect) : Prop :=
  ∀ rule ∈ affixRules, d.conditionRule rule.restriction = rule

theorem Dialect.hasUsualAffixes_builtin (db : Database) : (builtin db).HasUsualAffixes := by
  unfold HasUsualAffixes
  cases db <;> decide +kernel

/-- Texts as they are compared elsewhere, and by patterns. -/
def Comparison.withPatterns (cmp : Comparison String) : Comparison String :=
  { cmp with isLike := fun text pattern => Text.isLike pattern.toList text.toList }

/-- What the restrictions of the usual rules have in common. -/
structure Restriction.IsAffix (r : Restriction) (negated : Bool) : Prop where
  arity : r.arity = .one
  isCompound : r.isCompound = false
  notList : ¬(r = .amongst ∨ r = .notAmongst)
  shown : r.shown = if negated then .notLike else .like

section Affix

variable {d : Dialect} {r : Restriction} {negated : Bool} {wildcard : Wildcard}

theorem isAffix_of_mem (h : .like r negated wildcard ∈ affixRules) : r.IsAffix negated := by
  simp only [affixRules, List.mem_cons, ConditionRule.like.injEq, List.not_mem_nil, or_false] at h
  obtain ⟨rfl, rfl, rfl⟩ | ⟨rfl, rfl, rfl⟩ | ⟨rfl, rfl, rfl⟩ | ⟨rfl, rfl, rfl⟩ := h <;>
    exact ⟨rfl, rfl, by decide, rfl⟩

/-- A restriction to a begin or an end is read as a test by a pattern. -/
theorem SearchCondition.ofRestriction_affix (h : r.IsAffix negated) (column : String) :
    ofRestriction d column r 1 =
      .test (if negated then .notLike else .like) (.name column) [.mark '?'] := by
  rw [ofRestriction, Dialect.runLengths, if_neg h.notList, h.shown]
  rfl

theorem BoundCondition.ofField_affix (h : r.IsAffix negated)
    (hrule : d.conditionRule r = .like r negated wildcard) (f : Field) :
    ofField d f r 1 = .ok (test d f r [1]) := by
  have hruns : d.runLengths r 1 = [1] := by rw [Dialect.runLengths, if_neg h.notList]
  refine ofField_eq_ok_iff.2 ⟨h.isCompound, ?_, by rw [hruns]⟩
  rw [hruns, hrule]
  refine List.forall_mem_singleton.2 ?_
  simp [ConditionRule.checkOperands, ConditionRule.restriction, h.arity, Arity.accepts,
    ConditionRule.leastOperands]

/-- What a test by a pattern gives. -/
theorem Comparison.holds_affix (cmp : Comparison String) (text pattern : String) (negated : Bool) :
    let truth := cmp.withPatterns.holds (if negated then .notLike else .like) (some text)
      [some pattern]
    (truth = .yes ↔ (negated = true ↔ ¬Text.isLike pattern.toList text.toList = true)) ∧
      (truth = .no ↔ (negated = true ↔ Text.isLike pattern.toList text.toList = true)) := by
  cases negated <;> cases h : Text.isLike pattern.toList text.toList <;>
    simp [Comparison.holds, Comparison.lift, withPatterns, Truth.not, h]

/-- With the usual rule, a restriction to a begin or an end is a test by a pattern. The pattern
matches what begins, or ends, with a text that the operand matches. It matches exactly what begins,
or ends, with the operand if and only if that has no wildcards. The restriction holds where the
pattern matches, and a negated one where it does not. -/
theorem BoundCondition.restrict_affix (hd : d.HasUsualAffixes)
    (hr : .like r negated wildcard ∈ affixRules) :
    (∀ s : String, ∃ pattern, (d.conditionRule r).operand (.text s) = .text pattern ∧
      (∀ text : String, Text.isLike pattern.toList text.toList = true ↔
        ∃ part, Text.isLike s.toList part = true ∧ wildcard.IsPart part text.toList) ∧
      ((∀ text : String, Text.isLike pattern.toList text.toList = true ↔
        wildcard.IsPart s.toList text.toList) ↔ Text.IsPlain s.toList)) ∧
    ∀ spec e field f, Entity.ofSpec d spec = .ok e → e.tableField field = .ok f →
      ∃ c, restrict d e field r 1 = .ok c ∧
        c.condition.text =
          f.column.written ++ (if negated then " NOT LIKE " else " LIKE ") ++ "?" ∧
        (d.naming.IsBuiltin → ∃ condition,
          SearchCondition.parse (d.naming.tokens c.condition.text) = some condition ∧
          ∀ (cmp : Comparison String) (value : Token → Option String) (text pattern : String),
            value (.name (d.naming.folded f.column.raw)) = some text →
            let truth := (condition.evaluate cmp.withPatterns value [some pattern]).1
            (truth = .yes ↔
              (negated = true ↔ ¬Text.isLike pattern.toList text.toList = true)) ∧
            (truth = .no ↔
              (negated = true ↔ Text.isLike pattern.toList text.toList = true))) := by
  have hrule : d.conditionRule r = .like r negated wildcard := hd _ hr
  have haffix := isAffix_of_mem hr
  refine ⟨fun s => ⟨wildcard.apply s, by rw [hrule]; rfl, fun _ => Wildcard.isLike_apply_iff,
    Wildcard.isLike_apply_iff_isPart⟩, fun spec e field f he hf => ?_⟩
  have hbuilt := ofField_affix haffix hrule f
  refine ⟨_, by rw [restrict, hf]; exact hbuilt, ?_, fun hnaming => ?_⟩
  · have hwords : " " ++ (ConditionRule.negation negated ++ ("LIKE " ++ "?")) =
        (if negated then " NOT LIKE " else " LIKE ") ++ "?" := by
      cases negated <;> decide
    have htext : (test d f r [1]).condition.text =
        f.column.written ++ " " ++ ConditionRule.negation negated ++ "LIKE " ++ "?" := by
      rw [test, hrule]
      rfl
    rw [htext]
    simp only [String.append_assoc, hwords]
  · obtain ⟨hfield, -⟩ := Entity.tableField_eq_ok_iff.1 hf
    have hwritten := Entity.written_of_ofSpec he f (Entity.field_eq_ok hfield).1
    have hfaithful : (d.conditionRule r).isFaithful = true := by
      rw [hrule, ConditionRule.isFaithful, haffix.arity, haffix.shown]
      simp
    refine ⟨_, parse_ofField hnaming hwritten hfaithful hbuilt,
      fun cmp value text pattern hvalue => ?_⟩
    rw [SearchCondition.ofRestriction_affix haffix, SearchCondition.evaluate, hvalue]
    exact cmp.holds_affix text pattern negated

end Affix

/-! ### Titles -/

/-- A book with a title. -/
def titledSpec : EntitySpec :=
  { EntitySpec.named "Book" with
    fields := [(FieldSpec.named "id" .long).asPrimaryKey, FieldSpec.named "title" .string] }

/-- Of two titles one does not begin as the restriction says that it must not. -/
theorem titles_not_begun : ∃ book title c condition,
    Entity.ofSpec (Dialect.builtin .hsqldb) titledSpec = .ok book ∧
    book.tableField "title" = .ok title ∧
    BoundCondition.restrict (Dialect.builtin .hsqldb) book "title" .notBeginWith 1 = .ok c ∧
    SearchCondition.parse
      ((Dialect.builtin .hsqldb).naming.tokens c.condition.text) = some condition ∧
    ((Dialect.builtin .hsqldb).conditionRule .notBeginWith).operand (.text "Jo") = .text "Jo%" ∧
    (condition.evaluate (Comparison.withPatterns ⟨(· == ·), (· < ·), fun _ _ => false⟩)
      (fun _ => some "Joseph") [some "Jo%"]).1 = .no ∧
    (condition.evaluate (Comparison.withPatterns ⟨(· == ·), (· < ·), fun _ _ => false⟩)
      (fun _ => some "The Joke") [some "Jo%"]).1 = .yes := by
  have hmem : ConditionRule.like .notBeginWith true .trailing ∈ affixRules := by decide
  obtain ⟨hpattern, hrestrict⟩ :=
    BoundCondition.restrict_affix (Dialect.hasUsualAffixes_builtin .hsqldb) hmem
  obtain ⟨pattern, hoperand, hlike, -⟩ := hpattern "Jo"
  have hactual : ((Dialect.builtin .hsqldb).conditionRule .notBeginWith).operand (.text "Jo") =
      .text "Jo%" := by decide +kernel
  obtain rfl : "Jo%" = pattern := Value.text.inj (hactual.symm.trans hoperand)
  obtain ⟨book, hbook, htest⟩ : ∃ book,
      Entity.ofSpec (Dialect.builtin .hsqldb) titledSpec = .ok book ∧
        ((book.tableField "title").toOption.any fun _ => true) = true :=
    exists_ok_of_any (by decide +kernel)
  obtain ⟨title, htitle, -⟩ := exists_ok_of_any htest
  obtain ⟨c, hc, -, hread⟩ := hrestrict _ _ _ _ hbook htitle
  obtain ⟨condition, hparse, heval⟩ := hread (Naming.isBuiltin .hsqldb)
  refine ⟨book, title, c, condition, hbook, htitle, hc, hparse, hoperand, ?_, ?_⟩
  · exact (heval _ (fun _ => some "Joseph") "Joseph" "Jo%" rfl).2.2 (by decide)
  · exact (heval _ (fun _ => some "The Joke") "The Joke" "Jo%" rfl).1.2 (by decide)

/-- The pattern for what begins with `50%` matches `500`, which does not begin so. -/
theorem five_hundred_begins_so :
    ((Dialect.builtin .hsqldb).conditionRule .beginsWith).operand (.text "50%") = .text "50%%" ∧
    Text.isLike "50%%".toList "500".toList = true ∧ ¬"50%".toList <+: "500".toList := by
  decide +kernel

end SqlDialects
