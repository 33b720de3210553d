import AgileAgent.DecisionDsl.ShortCircuit

/-! # What the parser reads is derived by the grammar

One lemma for each function of the parser says what it has read when it succeeds. The text after the
expression is not looked at, so that the evaluator accepts more than the grammar derives.
-/

namespace AgileAgent.DecisionDsl.Script

/-! ## Words -/

section

variable [Crates]

theorem consume_sound {s : String} {input rest : List Char} (found : consume s input = (true, rest)) :
    ∃ a, Blank a ∧ input = a ++ (s.toList ++ rest) := by
  obtain ⟨a, blank, whole⟩ := skipWs_split input
  exact ⟨a, blank, (consume_eq_true.mp found).1 ▸ whole⟩

theorem parseIdentifier_sound {input rest : List Char} {ident : String}
    (read : parseIdentifier input = .ok (ident, rest)) : ∃ a word, Blank a ∧ IsIdentifier word ∧
      ident = String.ofList word ∧ input = a ++ (word ++ rest) ∧ Stops isWordChar rest := by
  obtain ⟨a, blank, whole⟩ := skipWs_split input
  unfold parseIdentifier at read
  split at read
  · cases read
  · next c others start =>
      split at read
      · next starts =>
          rw [Except.ok.injEq, Prod.mk.injEq] at read
          obtain ⟨rfl, rfl⟩ := read
          refine ⟨a, c :: others.takeWhile isWordChar, blank, ⟨c, _, rfl, starts, fun _ => List.mem_takeWhile_imp⟩,
            rfl, ?_, stops_dropWhile _ _⟩
          rw [List.cons_append, List.takeWhile_append_dropWhile, ← start]
          exact whole
      · cases read

/-- A point that is not found leaves white space behind. -/
theorem consume_missed_sound {s : String} {input rest : List Char} (missed : consume s input = (false, rest)) :
    ∃ a, Blank a ∧ input = a ++ rest := by
  obtain ⟨a, blank, whole⟩ := skipWs_split input
  exact ⟨a, blank, consume_eq_false missed ▸ whole⟩

theorem parseIdentifier_skipWs (input : List Char) : parseIdentifier (skipWs input) = parseIdentifier input := by
  simp only [parseIdentifier, skipWs_skipWs]

/-- A point that is found is one of the points of the text. -/
theorem count_of_point {input rest : List Char} (found : consume "." input = (true, rest)) :
    rest.count '.' < input.count '.' := by
  obtain ⟨a, -, rfl⟩ := consume_sound found
  rw [List.count_append, List.count_append, show ".".toList.count '.' = 1 from rfl]
  omega

theorem parsePath_sound {bound : Nat} {input rest : List Char} {path : List String}
    (enough : input.count '.' ≤ bound) (read : parsePath bound input = .ok (path, rest)) :
    ∃ a p c, Blank a ∧ PathText p path ∧ Blank c ∧ input = a ++ (p ++ (c ++ rest)) := by
  induction bound generalizing input path rest with
  | zero =>
      rw [parsePath_zero, parseIdentifier_skipWs, andThen_eq_ok] at read
      obtain ⟨⟨ident, left⟩, first, result⟩ := read
      obtain ⟨a, word, blank, identifier, rfl, rfl, -⟩ := parseIdentifier_sound first
      rw [Except.ok.injEq, Prod.mk.injEq, consume_skipWs] at result
      obtain ⟨rfl, rfl⟩ := result
      rw [List.count_append, List.count_append] at enough
      cases point : consume "." left with
      | mk found rest =>
          cases found with
          | true =>
              have more := count_of_point point
              omega
          | false =>
              obtain ⟨c, after, rfl⟩ := consume_missed_sound point
              exact ⟨a, word ++ [], c, blank, .mk identifier .nil, after, by rw [List.append_nil]⟩
  | succ bound ih =>
      rw [parsePath_succ, parseIdentifier_skipWs, andThen_eq_ok] at read
      obtain ⟨⟨ident, left⟩, first, result⟩ := read
      obtain ⟨a, word, blank, identifier, rfl, rfl, -⟩ := parseIdentifier_sound first
      dsimp only at result
      rw [consume_skipWs] at result
      rw [List.count_append, List.count_append] at enough
      cases point : consume "." left with
      | mk found left' =>
          rw [point] at result
          cases found with
          | true =>
              have fewer := count_of_point point
              obtain ⟨⟨parts, rest'⟩, others, same⟩ := andThen_eq_ok.mp result
              rw [Except.ok.injEq, Prod.mk.injEq] at same
              obtain ⟨rfl, rfl⟩ := same
              obtain ⟨b, before, rfl⟩ := consume_sound point
              obtain ⟨d, p, c, after, written, behind, rfl⟩ := ih (by omega) others
              cases written with
              | @mk word' text more identifier' tail =>
                  refine ⟨a, _, c, blank, .mk identifier (.cons before after identifier' tail), behind, ?_⟩
                  simp
          | false =>
              rw [Except.ok.injEq, Prod.mk.injEq] at result
              obtain ⟨rfl, rfl⟩ := result
              obtain ⟨c, after, rfl⟩ := consume_missed_sound point
              exact ⟨a, word ++ [], c, blank, .mk identifier .nil, after, by rw [List.append_nil]⟩

theorem parseOperator_sound {input rest : List Char} {op : CompareOp} (read : parseOperator input = .ok (op, rest)) :
    ∃ a, Blank a ∧ input = a ++ (op.text.toList ++ rest) := by
  have go (ops : List CompareOp) (input : List Char) (read : parseOperator.go ops input = .ok (op, rest)) :
      ∃ a, Blank a ∧ input = a ++ (op.text.toList ++ rest) := by
    induction ops generalizing input with
    | nil => cases read
    | cons first ops ih =>
        rw [parseOperator.go] at read
        split at read
        · next left found =>
            rw [Except.ok.injEq, Prod.mk.injEq] at read
            obtain ⟨rfl, rfl⟩ := read
            exact consume_sound found
        · next left missed =>
            obtain ⟨a, blank, rfl⟩ := consume_missed_sound missed
            obtain ⟨b, blank', rfl⟩ := ih left read
            exact ⟨a ++ b, List.forall_mem_append.mpr ⟨blank, blank'⟩, (List.append_assoc ..).symm⟩
  exact go _ input read

/-! ## Literals -/

/-- What the loop has read: spelled characters, up to a quote or the end. -/
def ReadsChars (input : List Char) : Prop :=
  ∀ chars rest, parseStringChars input = .ok (chars, rest) →
    ∃ literal : List SpelledChar, literal.any SpelledChar.isUnicode = false ∧ chars = literal.map (·.char) ∧
      input = literal.flatMap SpelledChar.text ++ rest ∧ (rest = [] ∨ ∃ left, rest = '"' :: left)

omit [Crates] in
theorem ReadsChars.cons (c : SpelledChar) (readable : c.isUnicode = false) {input : List Char}
    (reads : parseStringChars (c.text ++ input) =
      (parseStringChars input).map fun (chars, rest) => (c.char :: chars, rest))
    (others : ReadsChars input) : ReadsChars (c.text ++ input) := by
  intro chars rest read
  rw [reads] at read
  cases later : parseStringChars input with
  | error error =>
      rw [later] at read
      cases read
  | ok left =>
      rw [later] at read
      obtain ⟨literal, readables, same, rfl, stops⟩ := others left.1 left.2 later
      obtain ⟨rfl, rfl⟩ := Prod.mk.inj (Except.ok.inj read)
      refine ⟨c :: literal, ?_, by rw [List.map_cons, ← same], ?_, stops⟩
      · rw [List.any_cons, readable, readables, Bool.or_false]
      · rw [List.flatMap_cons, List.append_assoc]

omit [Crates] in
theorem ReadsChars.escaped {letter : Char} (code : letter ≠ 'u') {input : List Char} (others : ReadsChars input) :
    ReadsChars ('\\' :: letter :: input) :=
  .cons ⟨unescape letter, .escaped letter, code, rfl⟩ rfl (parseStringChars_escaped code input) others

omit [Crates] in
theorem parseStringChars_sound (input : List Char) : ReadsChars input := by
  induction input using parseStringChars.induct with
  | case1 =>
      intro chars rest read
      obtain ⟨rfl, rfl⟩ := Prod.mk.inj (Except.ok.inj read)
      exact ⟨[], rfl, rfl, rfl, .inl rfl⟩
  | case2 left =>
      intro chars rest read
      obtain ⟨rfl, rfl⟩ := Prod.mk.inj (Except.ok.inj read)
      exact ⟨[], rfl, rfl, rfl, .inr ⟨left, rfl⟩⟩
  | case3 =>
      intro chars rest read
      cases read
  | case4 rest ih => exact ih.escaped (by decide)
  | case5 rest ih => exact ih.escaped (by decide)
  | case6 rest ih => exact ih.escaped (by decide)
  | case7 rest ih =>
      intro chars rest read
      cases read
  | case8 rest c n t r u ih => exact ih.escaped u
  | case9 c rest quote alone escape ih =>
      have backslash : c ≠ '\\' := by
        intro same
        cases rest with
        | nil => exact alone same rfl
        | cons d rest => exact escape d rest same rfl
      exact .cons ⟨c, .raw, quote, backslash⟩ rfl (parseStringChars_raw quote backslash rest) ih

theorem parseString_sound {input rest : List Char} {s : String} (read : parseString input = .ok (s, rest)) :
    ∃ a, ∃ literal : List SpelledChar, Blank a ∧ literal.any SpelledChar.isUnicode = false ∧
      s = literalValue literal ∧ input = a ++ (literalText literal ++ rest) := by
  rw [parseString, consume_skipWs] at read
  split at read
  · cases read
  · next left opened =>
      obtain ⟨a, blank, rfl⟩ := consume_sound opened
      obtain ⟨⟨chars, behind⟩, inside, closed⟩ := andThen_eq_ok.mp read
      obtain ⟨literal, readable, rfl, rfl, stops⟩ := parseStringChars_sound left chars behind inside
      dsimp only at closed
      split at closed
      · cases closed
      · next rest' close =>
          obtain ⟨rfl, rfl⟩ := Prod.mk.inj (Except.ok.inj closed)
          refine ⟨a, literal, blank, readable, rfl, ?_⟩
          have whole := (consume_eq_true.mp close).1
          rcases stops with rfl | ⟨left, rfl⟩
          · cases whole
          · rw [skipWs_visible rfl] at whole
            rw [whole]
            simp [literalText]

variable [CharTables]

theorem parseNumber_sound {c : Char} {others rest : List Char} {value : BlackboardValue}
    (starts : c.isDigit || c == '-') (read : parseNumber (c :: others) = .ok (value, rest)) :
    ∃ text, NumberText text value ∧ c :: others = text ++ rest ∧ Stops isNumberChar rest := by
  rw [Bool.or_eq_true, beq_iff_eq] at starts
  rw [parseNumber_eq, consume_skipWs] at read
  rcases starts with digit | rfl
  · have minus : c ≠ '-' := by
      rintro rfl
      cases digit
    have missed : consume "-" (c :: others) = (false, c :: others) :=
      consume_missed (digit_stops digit) (by simp [List.cons_prefix_cons, Ne.symm minus])
    have inNumber : isNumberChar c := by rw [isNumberChar, digit, Bool.true_or]
    rw [missed, if_neg Bool.false_ne_true, List.nil_append] at read
    dsimp only at read
    rw [List.takeWhile_cons_of_pos inNumber, List.dropWhile_cons_of_pos inNumber] at read
    cases reads : readNumber (String.ofList (c :: others.takeWhile isNumberChar)) with
    | error error =>
        rw [reads] at read
        cases read
    | ok parsed =>
        rw [reads] at read
        obtain ⟨rfl, rfl⟩ := Prod.mk.inj (Except.ok.inj read)
        refine ⟨_, .positive digit (fun _ => List.mem_takeWhile_imp) reads, ?_, stops_dropWhile _ _⟩
        rw [List.cons_append, List.takeWhile_append_dropWhile]
  · have found : consume "-" ('-' :: others) = (true, others) := consume_symbol (by simp [isWordChar_ascii]) rfl
    rw [found, if_pos rfl, List.singleton_append] at read
    dsimp only at read
    cases reads : readNumber (String.ofList ('-' :: others.takeWhile isNumberChar)) with
    | error error =>
        rw [reads] at read
        cases read
    | ok parsed =>
        rw [reads] at read
        obtain ⟨rfl, rfl⟩ := Prod.mk.inj (Except.ok.inj read)
        refine ⟨_, .negative (fun _ => List.mem_takeWhile_imp) reads, ?_, stops_dropWhile _ _⟩
        rw [List.cons_append, List.takeWhile_append_dropWhile]

theorem true_word : "true".toList.all isWordChar := by simp [isWordChar_ascii]

theorem false_word : "false".toList.all isWordChar := by simp [isWordChar_ascii]

theorem parseLiteral_sound {input rest : List Char} {value : BlackboardValue}
    (read : parseLiteral input = .ok (value, rest)) :
    ∃ a l literal, Blank a ∧ LiteralText l literal ∧ literal.refusal = none ∧ value = literal.value ∧
      input = a ++ (l ++ rest) ∧ literal.Closed rest := by
  rw [parseLiteral, consume_skipWs] at read
  split at read
  · next left found =>
      obtain ⟨rfl, rfl⟩ := Prod.mk.inj (Except.ok.inj read)
      obtain ⟨a, blank, rfl⟩ := consume_sound found
      exact ⟨a, _, .boolean true, blank, .yes, rfl, rfl, rfl, (consume_eq_true.mp found).2 true_word⟩
  · next left missed =>
      obtain ⟨a, blank, rfl⟩ := consume_missed_sound missed
      split at read
      · next left' found =>
          obtain ⟨rfl, rfl⟩ := Prod.mk.inj (Except.ok.inj read)
          obtain ⟨b, blank', rfl⟩ := consume_sound found
          exact ⟨a ++ b, _, .boolean false, List.forall_mem_append.mpr ⟨blank, blank'⟩, .no, rfl, rfl,
            (List.append_assoc ..).symm, (consume_eq_true.mp found).2 false_word⟩
      · cases read
      · next c others missed' =>
          obtain ⟨b, blank', rfl⟩ := consume_missed_sound missed'
          split at read
          · obtain ⟨⟨s, left'⟩, string, same⟩ := andThen_eq_ok.mp read
            obtain ⟨rfl, rfl⟩ := Prod.mk.inj (Except.ok.inj same)
            obtain ⟨d, chars, blank'', readable, rfl, whole⟩ := parseString_sound string
            refine ⟨a ++ (b ++ d), _, .string chars, ?_, .string chars, ?_, rfl, ?_, trivial⟩
            · exact List.forall_mem_append.mpr ⟨blank, List.forall_mem_append.mpr ⟨blank', blank''⟩⟩
            · rw [Literal.refusal, readable]
              rfl
            · rw [whole, List.append_assoc, List.append_assoc]
          · split at read
            · next starts =>
                obtain ⟨text, number, whole, closed⟩ := parseNumber_sound starts read
                refine ⟨a ++ b, text, .number value, List.forall_mem_append.mpr ⟨blank, blank'⟩, .number number,
                  rfl, rfl, ?_, closed⟩
                rw [whole, List.append_assoc]
            · cases read

/-! ## Comparisons -/

/-- What may follow the names `path` of a comparison, with the comparison that it completes. -/
inductive TailText (path : List String) : List Char → Comparison → Prop
  | compare {t a b l : List Char} {more : List String} {literal : Literal} (op : CompareOp)
      (names : PathTail t more) (noCall : "contains" ∉ more) (before : Blank a) (after : Blank b)
      (right : LiteralText l literal) (readable : literal.refusal = none) :
      TailText path (t ++ (a ++ (op.text.toList ++ (b ++ l)))) (.compare (path ++ more) op literal)
  | contains {t a b c d e : List Char} {more : List String} (needle : List SpelledChar) (names : PathTail t more)
      (noCall : "contains" ∉ more) (before : Blank a) (after : Blank b) (opens : Blank c) (inside : Blank d)
      (close : Blank e) (readable : (Literal.string needle).refusal = none) :
      TailText path (t ++ (a ++ '.' :: (b ++ ("contains".toList ++ (c ++ '(' :: (d ++ (literalText needle ++
        (e ++ [')'])))))))) (.contains (path ++ more) needle)

variable {bb : Blackboard}

omit [CharTables] in
theorem TailText.name {a b word text : List Char} {path : List String} {c : Comparison} (before : Blank a)
    (after : Blank b) (identifier : IsIdentifier word) (noCall : String.ofList word ≠ "contains")
    (tail : TailText (path ++ [String.ofList word]) text c) :
    TailText path (a ++ '.' :: (b ++ (word ++ text))) c := by
  cases tail with
  | compare op names noCalls before' after' right readable =>
      have longer : TailText path _ _ := .compare op (.cons before after identifier names)
        (by simp [Ne.symm noCall, noCalls]) before' after' right readable
      simpa using longer
  | contains needle names noCalls before' after' opens inside close readable =>
      have longer : TailText path _ _ := .contains needle (.cons before after identifier names)
        (by simp [Ne.symm noCall, noCalls]) before' after' opens inside close readable
      simpa using longer

/-- The operator and the literal after a path. -/
theorem compare_sound {bound : Nat} {path : List String} {input left rest : List Char} {b : Bool}
    (noPoint : consume "." input = (false, left)) (read : parseComparisonTail bb bound path input = .ok (b, rest)) :
    ∃ text c, TailText path text c ∧ input = text ++ rest ∧ c.value bb = .ok b ∧ c.Closed rest := by
  obtain ⟨a, blank, rfl⟩ := consume_missed_sound noPoint
  rw [parseComparisonTail.eq_2 _ _ _ _ _ _ (by simp) noPoint] at read
  obtain ⟨⟨op, left₁⟩, operator, read⟩ := andThen_eq_ok.mp read
  obtain ⟨⟨value, left₂⟩, literal, read⟩ := andThen_eq_ok.mp read
  obtain ⟨found, got, read⟩ := andThen_eq_ok.mp read
  obtain ⟨result, compared, read⟩ := andThen_eq_ok.mp read
  obtain ⟨rfl, rfl⟩ := Prod.mk.inj (Except.ok.inj read)
  obtain ⟨a', blank', rfl⟩ := parseOperator_sound operator
  rw [parseLiteral_skipWs] at literal
  obtain ⟨c, l, literal, after, written, readable, rfl, rfl, closed⟩ := parseLiteral_sound literal
  have before : Blank (a ++ a') := List.forall_mem_append.mpr ⟨blank, blank'⟩
  refine ⟨_, _, .compare op .nil (by simp) before after written readable, ?_, ?_, closed⟩
  · simp
  · rw [Comparison.value, List.append_nil, got, ok_bind, compared]

omit [CharTables] in
/-- The call after a path. -/
theorem contains_sound {path : List String} {input rest : List Char} {b : Bool}
    (read : (match consume "(" input with
      | (false, _) => .error (.filterError "expected '(' after contains")
      | (true, rest) => do
          let (needle, rest) ← parseString (skipWs rest)
          match consume ")" (skipWs rest) with
          | (false, _) => .error (.filterError "expected ')' after contains argument")
          | (true, rest) => do
              let s ← valueAsString (← getBbValue bb path)
              .ok (strContains s needle, rest) : Except RuntimeError (Bool × List Char)) = .ok (b, rest)) :
    ∃ c d e needle, Blank c ∧ Blank d ∧ Blank e ∧ (Literal.string needle).refusal = none ∧
      input = c ++ '(' :: (d ++ (literalText needle ++ (e ++ ')' :: rest))) ∧
      (Comparison.contains path needle).value bb = .ok b := by
  split at read
  · cases read
  · next left opened =>
      obtain ⟨c, opens, rfl⟩ := consume_sound opened
      obtain ⟨⟨s, left₁⟩, string, read⟩ := andThen_eq_ok.mp read
      dsimp only at read
      split at read
      · cases read
      · next left₂ closed =>
          rw [consume_skipWs] at closed
          obtain ⟨e, close, rfl⟩ := consume_sound closed
          obtain ⟨value, got, read⟩ := andThen_eq_ok.mp read
          obtain ⟨text, shown, read⟩ := andThen_eq_ok.mp read
          obtain ⟨rfl, rfl⟩ := Prod.mk.inj (Except.ok.inj read)
          obtain ⟨d₀, blank, whole⟩ := skipWs_split left
          obtain ⟨d, needle, inside, readable, rfl, start⟩ := parseString_sound string
          refine ⟨c, d₀ ++ d, e, needle, opens, List.forall_mem_append.mpr ⟨blank, inside⟩, close, ?_, ?_, ?_⟩
          · rw [Literal.refusal, readable]
            rfl
          · rw [whole, start]
            simp
          · rw [Comparison.value, got, ok_bind, shown]
            rfl

theorem parseComparisonTail_sound {bound : Nat} {path : List String} {input rest : List Char} {b : Bool}
    (enough : input.count '.' ≤ bound) (read : parseComparisonTail bb bound path input = .ok (b, rest)) :
    ∃ text c, TailText path text c ∧ input = text ++ rest ∧ c.value bb = .ok b ∧ c.Closed rest := by
  induction bound generalizing path input with
  | zero =>
      cases point : consume "." input with
      | mk found left =>
          cases found with
          | false => exact compare_sound point read
          | true =>
              have fewer := count_of_point point
              omega
  | succ bound ih =>
      cases point : consume "." input with
      | mk found left =>
          cases found with
          | false => exact compare_sound point read
          | true =>
              have fewer := count_of_point point
              obtain ⟨a, before, rfl⟩ := consume_sound point
              rw [parseComparisonTail.eq_1 _ _ _ _ _ point, parseIdentifier_skipWs] at read
              obtain ⟨⟨ident, left₁⟩, first, next⟩ := andThen_eq_ok.mp read
              obtain ⟨b', word, after, identifier, rfl, rfl, -⟩ := parseIdentifier_sound first
              dsimp only at next
              split at next
              · next call =>
                  rw [consume_skipWs] at next
                  obtain ⟨c, d, e, needle, opens, inside, close, readable, rfl, value⟩ := contains_sound next
                  have written : word = "contains".toList := by rw [← call, String.toList_ofList]
                  refine ⟨_, _, .contains needle .nil (by simp) before after opens inside close readable, ?_, ?_, trivial⟩
                  · simp [written]
                  · rw [List.append_nil, value]
              · next noCall =>
                  rw [parseComparisonTail_skipWs] at next
                  rw [List.count_append, List.count_append] at fewer
                  obtain ⟨text, c, tail, rfl, value, closed⟩ := ih (by omega) next
                  refine ⟨_, c, .name before after identifier noCall tail, ?_, value, closed⟩
                  simp

omit [CharTables] in
/-- A path and what follows it are a comparison of the grammar, which is not refused. -/
theorem TailText.comparison {word text : List Char} {c : Comparison} (identifier : IsIdentifier word)
    (noCall : String.ofList word ≠ "is_dangerous") (tail : TailText [String.ofList word] text c) :
    ComparisonText (word ++ text) c ∧ c.refusal = none := by
  have accepted {more : List String} (noCalls : "contains" ∉ more) :
      pathRefusal ([String.ofList word] ++ more) = none := by
    simp [pathRefusal, noCall, noCalls]
  cases tail with
  | compare op names noCalls before after right readable =>
      have left := PathText.mk identifier names
      refine ⟨?_, by rw [Comparison.refusal, accepted noCalls, Option.none_or, readable]⟩
      simpa using ComparisonText.compare op left before after right
  | contains needle names noCalls before after opens inside close readable =>
      have left := PathText.mk identifier names
      refine ⟨?_, by rw [Comparison.refusal, accepted noCalls, Option.none_or, readable]⟩
      simpa using ComparisonText.contains needle left before after opens inside close

/-- What the parser reads of a comparison when it succeeds. -/
structure ReadsComparison (bb : Blackboard) (input rest : List Char) (b : Bool) (a text : List Char)
    (c : Comparison) : Prop where
  blank : Blank a
  written : ComparisonText text c
  whole : input = a ++ (text ++ rest)
  accepted : c.refusal = none
  value : c.value bb = .ok b
  closed : c.Closed rest

theorem parseComparison_sound {input rest : List Char} {b : Bool} (read : parseComparison bb input = .ok (b, rest)) :
    ∃ a text c, ReadsComparison bb input rest b a text c := by
  rw [parseComparison, consume_skipWs] at read
  split at read
  · next left call =>
      obtain ⟨a, blank, rfl⟩ := consume_sound call
      rw [consume_skipWs] at read
      split at read
      · cases read
      · next left₁ opened =>
          obtain ⟨d, opens, rfl⟩ := consume_sound opened
          obtain ⟨e, inside, split⟩ := skipWs_split left₁
          obtain ⟨⟨path, left₂⟩, names, read⟩ := andThen_eq_ok.mp read
          obtain ⟨f, p, g, before, written, after, start⟩ := parsePath_sound List.count_le_length names
          dsimp only at read
          rw [consume_skipWs] at read
          split at read
          · cases read
          · next left₃ closed =>
              obtain ⟨h, close, rfl⟩ := consume_sound closed
              obtain ⟨value, got, read⟩ := andThen_eq_ok.mp read
              obtain ⟨s, shown, read⟩ := andThen_eq_ok.mp read
              obtain ⟨rfl, rfl⟩ := Prod.mk.inj (Except.ok.inj read)
              have inside' : Blank (e ++ f) := List.forall_mem_append.mpr ⟨inside, before⟩
              have close' : Blank (g ++ h) := List.forall_mem_append.mpr ⟨after, close⟩
              refine ⟨a, _, _, blank, .dangerous opens inside' written close', ?_, rfl, ?_, trivial⟩
              · rw [split, start]
                simp
              · rw [Comparison.value, got, ok_bind, shown]
                rfl
  · next left noCall =>
      obtain ⟨a, blank, rfl⟩ := consume_missed_sound noCall
      obtain ⟨⟨ident, left₁⟩, first, others⟩ := andThen_eq_ok.mp read
      obtain ⟨d, word, before, identifier, rfl, rfl, ends⟩ := parseIdentifier_sound first
      dsimp only at others
      rw [parseComparisonTail_skipWs] at others
      obtain ⟨text, c, tail, rfl, value, closed⟩ := parseComparisonTail_sound (count_skipWs left₁) others
      have other : String.ofList word ≠ "is_dangerous" := by
        intro call
        rw [← List.append_assoc, consume_blank (List.forall_mem_append.mpr ⟨blank, before⟩),
          consume_identifier identifier ends dangerous_word, if_pos call] at noCall
        cases noCall
      obtain ⟨written, accepted⟩ := tail.comparison identifier other
      refine ⟨a ++ d, _, c, List.forall_mem_append.mpr ⟨blank, before⟩, written, ?_, accepted, value, closed⟩
      simp

/-! ## Expressions -/

/-- What the parser reads of a chain when it succeeds. -/
structure ReadsTail (bb : Blackboard) (input rest text left : List Char) (list : List (Connective × Comparison)) :
    Prop where
  written : ExprTail text list
  whole : input = text ++ left
  rest : rest = skipWs left
  ends : ¬ GoesOn left
  fine : ∀ x ∈ list, x.2.parserFailure bb = none
  closed : ∀ c : Comparison, c.Closed input → (lastComparison c list).Closed left

omit [CharTables] in
theorem ReadsComparison.fine {input rest a text : List Char} {b : Bool} {c : Comparison}
    (reads : ReadsComparison bb input rest b a text c) : c.parserFailure bb = none := by
  rw [Comparison.parserFailure, reads.accepted, reads.value]
  rfl

omit [CharTables] in
/-- One more connective and one more comparison. -/
theorem ReadsTail.cons (connective : Connective) {input next rest left₁ text left : List Char} {b : Bool}
    {a₁ text₁ : List Char} {c : Comparison} {list : List (Connective × Comparison)}
    (found : consume connective.symbol input = (true, next)) (first : ReadsComparison bb next left₁ b a₁ text₁ c)
    (others : ReadsTail bb left₁ rest text left list) :
    ∃ text', ReadsTail bb input rest text' left ((connective, c) :: list) := by
  obtain ⟨a, before, rfl⟩ := consume_sound found
  refine ⟨_, .cons connective before first.blank first.written others.written, ?_, others.rest, others.ends, ?_, ?_⟩
  · rw [first.whole, others.whole]
    simp
  · rw [List.forall_mem_cons]
    exact ⟨first.fine, others.fine⟩
  · intro _ _
    exact others.closed c first.closed

/-- Neither connective is found. -/
theorem ReadsTail.nil {input : List Char} (noAnd : (consume "&&" input).1 = false)
    (noOr : (consume "||" input).1 = false) : ReadsTail bb input (skipWs input) [] input [] := by
  refine ⟨.nil, rfl, rfl, ?_, List.forall_mem_nil _, fun _ closed => closed⟩
  rintro (⟨rest, goes⟩ | ⟨rest, goes⟩)
  · have found : consume "&&" input = (true, rest) := consume_symbol (by simp [isWordChar_ascii]) goes.symm
    rw [found] at noAnd
    cases noAnd
  · have found : consume "||" input = (true, rest) := consume_symbol (by simp [isWordChar_ascii]) goes.symm
    rw [found] at noOr
    cases noOr

omit [CharTables] in
theorem ReadsComparison.shorter (connective : Connective) {input next rest a text : List Char} {b : Bool}
    {c : Comparison} (found : consume connective.symbol input = (true, next))
    (reads : ReadsComparison bb next rest b a text c) : rest.length < input.length := by
  obtain ⟨a', -, rfl⟩ := consume_sound found
  have symbol : connective.symbol.toList.length = 2 := by cases connective <;> rfl
  rw [reads.whole]
  simp only [List.length_append, symbol]
  omega

theorem parseExprTail_sound {bound : Nat} {result b : Bool} {input rest : List Char}
    (enough : input.length ≤ bound) (read : parseExprTail bb bound result input = .ok (b, rest)) :
    ∃ text list left, ReadsTail bb input rest text left list := by
  induction bound generalizing result input with
  | zero =>
      obtain rfl := List.eq_nil_of_length_eq_zero (Nat.le_zero.mp enough)
      obtain ⟨-, rfl⟩ := Prod.mk.inj (Except.ok.inj read)
      exact ⟨[], [], [], .nil rfl rfl⟩
  | succ bound ih =>
      cases both : consume "&&" input with
      | mk found left =>
          have both' := (consume_skipWs "&&" input).trans both
          cases found with
          | true =>
              rw [parseExprTail.eq_1 _ _ _ _ _ both'] at read
              obtain ⟨⟨rhs, left₁⟩, first, others⟩ := andThen_eq_ok.mp read
              obtain ⟨a, text, c, reads⟩ := parseComparison_sound first
              have shorter : left₁.length < input.length := reads.shorter .and both
              obtain ⟨text', list, left', tail⟩ := ih (by omega) others
              obtain ⟨text'', longer⟩ := ReadsTail.cons .and both reads tail
              exact ⟨text'', _, left', longer⟩
          | false =>
              rw [parseExprTail.eq_2 _ _ _ _ _ both', consume_eq_false both, consume_skipWs] at read
              cases either : consume "||" input with
              | mk found' left' =>
                  rw [either] at read
                  cases found' with
                  | true =>
                      obtain ⟨⟨rhs, left₁⟩, first, others⟩ := andThen_eq_ok.mp read
                      obtain ⟨a, text, c, reads⟩ := parseComparison_sound first
                      have shorter : left₁.length < input.length := reads.shorter .or either
                      obtain ⟨text', list, left'', tail⟩ := ih (by omega) others
                      obtain ⟨text'', longer⟩ := ReadsTail.cons .or either reads tail
                      exact ⟨text'', _, left'', longer⟩
                  | false =>
                      obtain ⟨-, rfl⟩ := Prod.mk.inj (Except.ok.inj read)
                      rw [consume_eq_false either]
                      exact ⟨[], [], input, .nil (by rw [both]) (by rw [either])⟩

/-- What the parser reads of an expression when it succeeds. -/
structure ReadsExpr (bb : Blackboard) (input rest a text left : List Char) (e : Expr) : Prop where
  blank : Blank a
  written : ExprText text e
  whole : input = a ++ (text ++ left)
  rest : rest = skipWs left
  ends : ¬ GoesOn left
  fine : ∀ c ∈ e.comparisons, c.parserFailure bb = none
  closed : e.last.Closed left

theorem parseExpr_sound {input rest : List Char} {b : Bool} (read : parseExpr bb input = .ok (b, rest)) :
    ∃ a text left e, ReadsExpr bb input rest a text left e := by
  obtain ⟨⟨result, left⟩, first, others⟩ := andThen_eq_ok.mp read
  obtain ⟨a, text, c, reads⟩ := parseComparison_sound first
  obtain ⟨text', list, left', tail⟩ := parseExprTail_sound (Nat.le_refl _) others
  refine ⟨a, _, left', ⟨c, list⟩, reads.blank, .mk reads.written tail.written, ?_, tail.rest, tail.ends, ?_,
    tail.closed c reads.closed⟩
  · rw [reads.whole, tail.whole]
    simp
  · rw [Expr.comparisons, List.forall_mem_cons, List.forall_mem_map]
    exact ⟨reads.fine, tail.fine⟩

/-! ## What is accepted -/

/-- An expression whose comparisons all have values on the blackboard, and more text after it. That
    text neither continues the last literal nor goes on with a connective. -/
def Extended (bb : Blackboard) (text : List Char) : Prop :=
  ∃ a front left e, Blank a ∧ ExprText front e ∧ text = a ++ (front ++ left) ∧
    (∀ c ∈ e.comparisons, c.parserFailure bb = none) ∧ e.last.Closed left ∧ ¬ GoesOn left ∧ ¬ Blank left

/-- What is accepted is derived by the grammar exactly if there is no text after an expression. -/
theorem evaluateScript_accepts (bb : Blackboard) (expr : String) :
    ((∃ b, evaluateScript expr bb = .ok b) → ∃ e, Derives expr.toList e) ↔ ¬ Extended bb expr.toList := by
  constructor
  · rintro accepted ⟨a, front, left, e, before, written, whole, fine, closed, ends, more⟩
    have parsed := parseExpr_text bb before written closed ends
    rw [← whole] at parsed
    cases strict : e.strict bb with
    | error error =>
        have failed := strict_failure bb e
        rw [strict, List.findSome?_eq_none_iff.mpr fine] at failed
        cases failed
    | ok b =>
        rw [strict] at parsed
        obtain ⟨e', derives⟩ := accepted ⟨b, by rw [evaluateScript, parsed]; rfl⟩
        have parsed' := parseExpr_derives bb derives
        rw [parsed] at parsed'
        -- the parser stops at one place only, before the text that is left
        cases strict' : e'.strict bb with
        | error error =>
            rw [strict'] at parsed'
            cases parsed'
        | ok b'' =>
            rw [strict'] at parsed'
            have same := (Prod.mk.inj (Except.ok.inj parsed')).2
            exact more (skipWs_eq_nil.mp same)
  · rintro complete ⟨b, accepted⟩
    rw [evaluateScript] at accepted
    cases read : parseExpr bb expr.toList with
    | error error =>
        rw [read] at accepted
        cases accepted
    | ok result =>
        obtain ⟨a, text, left, e, reads⟩ := parseExpr_sound read
        by_cases blank : Blank left
        · exact ⟨e, a, text, left, reads.blank, blank, reads.written, reads.whole⟩
        · exact absurd ⟨a, text, left, e, reads.blank, reads.written, reads.whole, reads.fine, reads.closed,
            reads.ends, blank⟩ complete

end

open Plain

theorem evaluateScript_accepts_sample :
    ¬ Extended {} ("reflection_round == 1 && " ++ "max_reflection_rounds" ++ " == 1").toList :=
  (evaluateScript_accepts {} _).mp fun _ => ⟨sampleExpr "max_reflection_rounds",
    sample_derives "max_reflection_rounds" ⟨'m', "ax_reflection_rounds".toList, rfl, by decide,
    List.all_eq_true.mp (by decide)⟩⟩

/-- `reflection_round == 0 junk` is accepted, and no expression of the grammar. -/
theorem trailing_text_accepted : evaluateScript "reflection_round == 0 junk" {} = .ok true ∧
    ¬ ∃ e, Derives "reflection_round == 0 junk".toList e := by
  refine ⟨by decide +kernel, ?_⟩
  rintro ⟨e, derives⟩
  have parsed := parseExpr_derives {} derives
  have stops : parseExpr {} "reflection_round == 0 junk".toList = .ok (true, "junk".toList) := by decide +kernel
  rw [stops] at parsed
  cases strict : e.strict {} with
  | error error =>
      rw [strict] at parsed
      cases parsed
  | ok b =>
      rw [strict] at parsed
      cases (Prod.mk.inj (Except.ok.inj parsed)).2

end AgileAgent.DecisionDsl.Script
