import Mathlib.Order.FixedPoints

/-!
# Grammars of texts that may end too soon

A grammar says of a text what is left of it behind a phrase, or that the text
ends inside a phrase. Grammars are composed, and recursive ones are least
solutions. A reader decides a grammar when its outcome says what the grammar
says; the rules follow the way readers are composed.
-/

namespace ProtobufSandbox

/-- `some rest` where a phrase stands in front of `rest`, and `none` where the
text ends inside a phrase. A text with neither does not begin a phrase. -/
abbrev Grammar (σ : Type u) := List σ → Option (List σ) → Prop

namespace Grammar

variable {σ : Type u}

/-- The phrase of no symbols. -/
def empty : Grammar σ := fun text result => result = some text

/-- No phrase. -/
def never : Grammar σ := fun _ _ => False

/-- A phrase behind some symbols, whatever they are. -/
def after (count : Nat) (grammar : Grammar σ) : Grammar σ :=
  fun text => grammar (text.drop count)

/-- A phrase of one of two grammars, as the symbol at an index tells. -/
def branch
    (index : Nat)
    (test : σ → Prop)
    (first second : Grammar σ) : Grammar σ :=
  fun text result =>
    (text[index]? = none ∧ result = none) ∨
      ∃ symbol, text[index]? = some symbol ∧
        ((test symbol ∧ first text result) ∨
          (¬ test symbol ∧ second text result))

/-- A symbol that may be missing. -/
def optional (test : σ → Prop) : Grammar σ :=
  branch 0 test (after 1 empty) empty

/-- A phrase of the first grammar and behind it one of the second. -/
def seq (first second : Grammar σ) : Grammar σ :=
  fun text result =>
    (first text none ∧ result = none) ∨
      ∃ rest, first text (some rest) ∧ second rest result

/-- A phrase of the second grammar, on a text that begins with one of the
first. -/
def ahead (first second : Grammar σ) : Grammar σ :=
  fun text result =>
    (first text none ∧ result = none) ∨
      ((∃ rest, first text (some rest)) ∧ second text result)

/-- A given word, and on texts that differ from it another grammar. -/
def word (letters : List σ) (other : Grammar σ) : Grammar σ :=
  fun text result =>
    (letters <+: text ∧ result = some (text.drop letters.length)) ∨
      (¬ letters <+: text ∧
        ((text <+: letters ∧ result = none) ∨
          (¬ text <+: letters ∧ other text result)))

/-- Phrases one behind the other, as long as the next symbol tells. -/
inductive loop (continues : σ → Prop) (turn : Grammar σ) : Grammar σ where
  | ended : loop continues turn [] none
  | done
      {symbol : σ}
      {text : List σ}
      (stops : ¬ continues symbol) :
      loop continues turn (symbol :: text) (some (symbol :: text))
  | cut
      {symbol : σ}
      {text : List σ}
      (goesOn : continues symbol)
      (inside : turn (symbol :: text) none) :
      loop continues turn (symbol :: text) none
  | again
      {symbol : σ}
      {text next : List σ}
      {result : Option (List σ)}
      (goesOn : continues symbol)
      (phrase : turn (symbol :: text) (some next))
      (others : loop continues turn next result) :
      loop continues turn (symbol :: text) result

/-- The longest run of some symbols. -/
def run (continues : σ → Prop) : Grammar σ :=
  loop continues (after 1 empty)

/-! ## What the grammars say -/

variable {index : Nat} {test continues : σ → Prop}
variable {first second other turn : Grammar σ}
variable {text : List σ} {result : Option (List σ)}

theorem branch_of_eq_none
    (missing : text[index]? = none) :
    branch index test first second text result ↔ result = none := by
  simp only [branch, missing, true_and, reduceCtorEq, false_and, exists_false,
    or_false]

theorem branch_of_pos
    {symbol : σ}
    (found : text[index]? = some symbol)
    (holds : test symbol) :
    branch index test first second text result ↔ first text result := by
  simp [branch, found, holds]

theorem branch_of_neg
    {symbol : σ}
    (found : text[index]? = some symbol)
    (fails : ¬ test symbol) :
    branch index test first second text result ↔ second text result := by
  simp [branch, found, fails]

theorem seq_branch_of_pos
    {behind : Grammar σ}
    {symbol : σ}
    (found : text[index]? = some symbol)
    (holds : test symbol) :
    seq (branch index test first second) behind text result ↔
      seq first behind text result := by
  simp only [seq, branch_of_pos found holds]

theorem seq_branch_of_neg
    {behind : Grammar σ}
    {symbol : σ}
    (found : text[index]? = some symbol)
    (fails : ¬ test symbol) :
    seq (branch index test first second) behind text result ↔
      seq second behind text result := by
  simp only [seq, branch_of_neg found fails]

theorem seq_assoc
    {third : Grammar σ} :
    seq (seq first second) third text result ↔
      seq first (seq second third) text result := by
  constructor
  · rintro (⟨inside | ⟨rest, phrase, inside⟩, rfl⟩ | ⟨next, phrases, behind⟩)
    · exact .inl ⟨inside.1, rfl⟩
    · exact .inr ⟨rest, phrase, .inl ⟨inside, rfl⟩⟩
    · obtain ⟨-, same⟩ | ⟨rest, phrase, middle⟩ := phrases
      · cases same
      · exact .inr ⟨rest, phrase, .inr ⟨next, middle, behind⟩⟩
  · rintro (⟨inside, rfl⟩ | ⟨rest, phrase, ⟨inside, rfl⟩ | ⟨next, middle, behind⟩⟩)
    · exact .inl ⟨.inl ⟨inside, rfl⟩, rfl⟩
    · exact .inl ⟨.inr ⟨rest, phrase, inside⟩, rfl⟩
    · exact .inr ⟨next, .inr ⟨rest, phrase, middle⟩, behind⟩

theorem seq_after_empty
    {count : Nat} :
    seq (after count empty) second text result ↔ second (text.drop count) result := by
  simp [seq, after, empty]

/-- A loop looks at the next symbol, and takes its turn or ends. -/
theorem loop_iff :
    loop continues turn text result ↔
      branch 0 continues (seq turn (loop continues turn)) empty text result := by
  cases text with
  | nil =>
      rw [branch_of_eq_none rfl]
      constructor
      · rintro ⟨⟩
        rfl
      · rintro rfl
        exact .ended
  | cons symbol text =>
      by_cases goesOn : continues symbol
      · rw [branch_of_pos rfl goesOn]
        constructor
        · intro phrases
          cases phrases with
          | done stops => exact absurd goesOn stops
          | cut goesOn inside => exact .inl ⟨inside, rfl⟩
          | again goesOn phrase others => exact .inr ⟨_, phrase, others⟩
        · rintro (⟨inside, rfl⟩ | ⟨next, phrase, others⟩)
          · exact .cut goesOn inside
          · exact .again goesOn phrase others
      · rw [branch_of_neg rfl goesOn]
        constructor
        · intro phrases
          cases phrases with
          | done stops => rfl
          | cut goesOn' inside => exact absurd goesOn' goesOn
          | again goesOn' phrase others => exact absurd goesOn' goesOn
        · rintro rfl
          exact .done goesOn

theorem loop_nil : loop continues turn [] result ↔ result = none :=
  loop_iff.trans (branch_of_eq_none rfl)

theorem loop_cons_of_pos
    {symbol : σ}
    (goesOn : continues symbol) :
    loop continues turn (symbol :: text) result ↔
      seq turn (loop continues turn) (symbol :: text) result :=
  loop_iff.trans (branch_of_pos rfl goesOn)

theorem loop_cons_of_neg
    {symbol : σ}
    (stops : ¬ continues symbol) :
    loop continues turn (symbol :: text) result ↔
      result = some (symbol :: text) :=
  loop_iff.trans (branch_of_neg rfl stops)

theorem run_nil : run continues [] result ↔ result = none :=
  loop_nil

theorem run_cons_of_pos
    {symbol : σ}
    (goesOn : continues symbol) :
    run continues (symbol :: text) result ↔ run continues text result :=
  (loop_cons_of_pos goesOn).trans seq_after_empty

theorem run_cons_of_neg
    {symbol : σ}
    (stops : ¬ continues symbol) :
    run continues (symbol :: text) result ↔ result = some (symbol :: text) :=
  loop_cons_of_neg stops

/-! ## Recursive grammars -/

variable {first' second' other' turn' : Grammar σ}

theorem after_mono
    (count : Nat)
    (le : first ≤ first') :
    after count first ≤ after count first' :=
  fun text => le (text.drop count)

theorem branch_mono
    (leFirst : first ≤ first')
    (leSecond : second ≤ second') :
    branch index test first second ≤ branch index test first' second' := by
  rintro text result (missing | ⟨symbol, found, ⟨holds, phrase⟩ | ⟨fails, phrase⟩⟩)
  · exact .inl missing
  · exact .inr ⟨symbol, found, .inl ⟨holds, leFirst text result phrase⟩⟩
  · exact .inr ⟨symbol, found, .inr ⟨fails, leSecond text result phrase⟩⟩

theorem seq_mono
    (leFirst : first ≤ first')
    (leSecond : second ≤ second') :
    seq first second ≤ seq first' second' := by
  rintro text result (⟨inside, none⟩ | ⟨rest, phrase, behind⟩)
  · exact .inl ⟨leFirst text _ inside, none⟩
  · exact .inr ⟨rest, leFirst text _ phrase, leSecond rest result behind⟩

theorem word_mono
    (letters : List σ)
    (le : other ≤ other') :
    word letters other ≤ word letters other' := by
  rintro text result (same | ⟨differs, ended | ⟨stays, phrase⟩⟩)
  · exact .inl same
  · exact .inr ⟨differs, .inl ended⟩
  · exact .inr ⟨differs, .inr ⟨stays, le text result phrase⟩⟩

theorem loop_mono
    (le : turn ≤ turn') :
    loop continues turn ≤ loop continues turn' := by
  intro text result phrases
  induction phrases with
  | ended => exact .ended
  | done stops => exact .done stops
  | cut goesOn inside => exact .cut goesOn (le _ _ inside)
  | again goesOn phrase _ inductionHypothesis =>
      exact .again goesOn (le _ _ phrase) inductionHypothesis

/-- The least grammar that solves a recursive description. -/
def least
    (step : Grammar σ → Grammar σ)
    (monotone : Monotone step) : Grammar σ :=
  OrderHom.lfp ⟨step, monotone⟩

theorem least_eq
    {step : Grammar σ → Grammar σ}
    (monotone : Monotone step) :
    least step monotone = step (least step monotone) :=
  (OrderHom.map_lfp ⟨step, monotone⟩).symm

theorem least_le
    {step : Grammar σ → Grammar σ}
    (monotone : Monotone step)
    (solves : step other ≤ other) :
    least step monotone ≤ other :=
  OrderHom.lfp_le ⟨step, monotone⟩ solves

/-! ## What is left -/

/-- What is left is not longer than the text. -/
def shorter : Grammar σ :=
  fun text result => ∀ rest, result = some rest → rest.length ≤ text.length

theorem empty_le_shorter : (empty : Grammar σ) ≤ shorter := by
  rintro text _ rfl rest same
  cases same
  exact le_rfl

theorem never_le_shorter : (never : Grammar σ) ≤ shorter :=
  fun _ _ phrase => phrase.elim

theorem after_le_shorter
    (count : Nat)
    (le : first ≤ shorter) :
    after count first ≤ shorter := by
  intro text result phrase rest same
  have within := le _ _ phrase rest same
  rw [List.length_drop] at within
  omega

theorem branch_le_shorter
    (leFirst : first ≤ shorter)
    (leSecond : second ≤ shorter) :
    branch index test first second ≤ shorter := by
  rintro text result (⟨-, rfl⟩ | ⟨symbol, -, ⟨-, phrase⟩ | ⟨-, phrase⟩⟩)
  · exact fun rest same => nomatch same
  · exact leFirst text result phrase
  · exact leSecond text result phrase

theorem optional_le_shorter : optional test ≤ shorter :=
  branch_le_shorter (after_le_shorter 1 empty_le_shorter) empty_le_shorter

theorem seq_le_shorter
    (leFirst : first ≤ shorter)
    (leSecond : second ≤ shorter) :
    seq first second ≤ shorter := by
  rintro text result (⟨-, rfl⟩ | ⟨middle, phrase, behind⟩) rest same
  · cases same
  · exact (leSecond middle result behind rest same).trans
      (leFirst text _ phrase middle rfl)

theorem ahead_le_shorter
    (le : second ≤ shorter) :
    ahead first second ≤ shorter := by
  rintro text result (⟨-, rfl⟩ | ⟨-, phrase⟩)
  · exact fun rest same => nomatch same
  · exact le text result phrase

theorem word_le_shorter
    (letters : List σ)
    (le : other ≤ shorter) :
    word letters other ≤ shorter := by
  rintro text result (⟨-, rfl⟩ | ⟨-, ⟨-, rfl⟩ | ⟨-, phrase⟩⟩) rest same
  · cases same
    exact (List.drop_sublist _ text).length_le
  · cases same
  · exact le text result phrase rest same

theorem loop_le_shorter
    (le : turn ≤ shorter) :
    loop continues turn ≤ shorter := by
  intro text result phrases
  induction phrases with
  | ended => exact fun rest same => nomatch same
  | done => exact fun rest same => (congrArg List.length (Option.some.inj same)).ge
  | cut => exact fun rest same => nomatch same
  | again _ phrase _ inductionHypothesis =>
      intro rest same
      exact (inductionHypothesis rest same).trans (le _ _ phrase _ rfl)

theorem run_le_shorter : run continues ≤ shorter :=
  loop_le_shorter (after_le_shorter 1 empty_le_shorter)

/-- What is left begins with a symbol. -/
def nonempty : Grammar σ :=
  fun _ result => ∀ rest, result = some rest → rest ≠ []

theorem run_le_nonempty : run continues ≤ nonempty := by
  intro text result phrase rest same
  subst same
  induction text with
  | nil => cases run_nil.mp phrase
  | cons symbol text inductionHypothesis =>
      by_cases goesOn : continues symbol
      · exact inductionHypothesis ((run_cons_of_pos goesOn).mp phrase)
      · cases (run_cons_of_neg goesOn).mp phrase
        exact List.cons_ne_nil symbol text

theorem never_le_nonempty : (never : Grammar σ) ≤ nonempty :=
  fun _ _ phrase => phrase.elim

theorem after_le_nonempty
    (count : Nat)
    (le : first ≤ nonempty) :
    after count first ≤ nonempty :=
  fun text => le (text.drop count)

theorem branch_le_nonempty
    (leFirst : first ≤ nonempty)
    (leSecond : second ≤ nonempty) :
    branch index test first second ≤ nonempty := by
  rintro text result (⟨-, rfl⟩ | ⟨symbol, -, ⟨-, phrase⟩ | ⟨-, phrase⟩⟩)
  · exact fun rest same => nomatch same
  · exact leFirst text result phrase
  · exact leSecond text result phrase

/-- The last phrase leaves a symbol. -/
theorem seq_le_nonempty
    (leSecond : second ≤ nonempty) :
    seq first second ≤ nonempty := by
  rintro text result (⟨-, rfl⟩ | ⟨middle, -, behind⟩)
  · exact fun rest same => nomatch same
  · exact leSecond middle result behind

/-! ## Readers -/

/-- An outcome says what the grammar says of the text: what is left, that the
text ends, or by another error that no phrase is there. -/
def Decides
    (isEnd : ε → Prop)
    (rest : α → List σ)
    (phrase : Option (List σ) → Prop) : Except ε α → Prop
  | .ok value => ∀ result, phrase result ↔ result = some (rest value)
  | .error error => ∀ result, phrase result ↔ result = none ∧ isEnd error

section Readers

variable {ε : Type v} {α β : Type w} {isEnd : ε → Prop}
variable {rest : α → List σ} {rest' : β → List σ}
variable {phrase phrase' : Option (List σ) → Prop}

theorem Decides.congr
    {outcome : Except ε α}
    (decides : Decides isEnd rest phrase outcome)
    (same : ∀ result, phrase' result ↔ phrase result) :
    Decides isEnd rest phrase' outcome := by
  cases outcome with
  | ok value => exact fun result => (same result).trans (decides result)
  | error error => exact fun result => (same result).trans (decides result)

/-- A choice between two outcomes. -/
theorem Decides.split
    {test : Prop}
    [Decidable test]
    {yes no : Except ε α}
    (positive : test → Decides isEnd rest phrase yes)
    (negative : ¬ test → Decides isEnd rest phrase no) :
    Decides isEnd rest phrase (if test then yes else no) := by
  split
  · next holds => exact positive holds
  · next fails => exact negative fails

theorem Decides.error_iff
    {outcome : Except ε α}
    (decides : Decides isEnd rest phrase outcome) :
    phrase none ↔ ∃ error, outcome = .error error ∧ isEnd error := by
  cases outcome with
  | ok value => simpa using decides none
  | error error => simpa using decides none

theorem Decides.bind
    {reader : Except ε α}
    {next : α → Except ε β}
    (decides : Decides isEnd rest (first text) reader)
    (behind : ∀ value, first text (some (rest value)) →
      Decides isEnd rest' (second (rest value)) (next value)) :
    Decides isEnd rest' (seq first second text) (reader >>= next) := by
  cases reader with
  | ok value =>
      refine (behind value ((decides _).mpr rfl)).congr fun result => ?_
      simp [seq, decides _]
  | error error =>
      intro result
      simp [seq, decides _, and_comm]

/-- The value is computed from what the reader returns. -/
theorem Decides.bind_ok
    {reader : Except ε α}
    {value : α → β}
    (decides : Decides isEnd rest phrase reader)
    (same : ∀ before, rest' (value before) = rest before) :
    Decides isEnd rest' phrase (reader >>= fun before => .ok (value before)) := by
  cases reader with
  | ok before =>
      intro result
      rw [same]
      exact decides result
  | error error => exact decides

/-- A value that does not tell what is left. -/
theorem Decides.map
    {outcome : Except ε α}
    {text : List σ}
    {function : α → β}
    (decides : Decides isEnd (fun _ => text) phrase outcome) :
    Decides isEnd (fun _ => text) phrase (outcome.map function) := by
  cases outcome with
  | ok value => exact decides
  | error error => exact decides

theorem Decides.ahead
    {reader : Except ε α}
    {next : α → Except ε β}
    (decides : Decides isEnd rest (first text) reader)
    (behind : ∀ value, reader = .ok value →
      Decides isEnd rest' (second text) (next value)) :
    Decides isEnd rest' (ahead first second text) (reader >>= next) := by
  cases reader with
  | ok value =>
      refine (behind value rfl).congr fun result => ?_
      simp [Grammar.ahead, decides _]
  | error error =>
      intro result
      simp [Grammar.ahead, decides _, and_comm]

/-- A reader of the symbol at an index. -/
def ReadsAt
    (isEnd : ε → Prop)
    (index : Nat)
    (text : List σ)
    (reader : Except ε σ) : Prop :=
  match text[index]? with
  | some symbol => reader = .ok symbol
  | none => ∃ error, reader = .error error ∧ isEnd error

end Readers

section Symbols

variable {σ : Type w} {ε : Type v} {α : Type w} {isEnd : ε → Prop}
variable {rest : α → List σ}
variable {first second : Grammar σ} {text : List σ}
variable {index : Nat} {test : σ → Prop}
variable {reader : Except ε σ} {next : σ → Except ε α}

/-- A symbol is read where the text has to have one. -/
theorem Decides.read
    {phrase : Option (List σ) → Prop}
    (reads : ReadsAt isEnd index text reader)
    (missing : text[index]? = none → ∀ result, phrase result ↔ result = none)
    (behind : ∀ symbol, text[index]? = some symbol →
      Decides isEnd rest phrase (next symbol)) :
    Decides isEnd rest phrase (reader >>= next) := by
  rw [ReadsAt] at reads
  split at reads
  · next symbol found =>
      subst reads
      exact behind symbol found
  · next ended =>
      obtain ⟨error, rfl, ends⟩ := reads
      intro result
      exact (missing ended result).trans ⟨fun none => ⟨none, ends⟩, And.left⟩

theorem Decides.branch
    (reads : ReadsAt isEnd index text reader)
    (behind : ∀ symbol, text[index]? = some symbol →
      Decides isEnd rest (branch index test first second text) (next symbol)) :
    Decides isEnd rest (branch index test first second text)
      (reader >>= next) :=
  Decides.read reads (fun missing _ => branch_of_eq_none missing) behind

/-- The choice follows the symbol. -/
theorem Decides.ite
    [DecidablePred test]
    {symbol : σ}
    {yes no : Except ε α}
    (found : text[index]? = some symbol)
    (positive : test symbol → Decides isEnd rest (first text) yes)
    (negative : ¬ test symbol → Decides isEnd rest (second text) no) :
    Decides isEnd rest (Grammar.branch index test first second text)
      (if test symbol then yes else no) :=
  Decides.split
    (fun holds => (positive holds).congr fun _ => branch_of_pos found holds)
    (fun fails => (negative fails).congr fun _ => branch_of_neg found fails)

/-- A symbol that may be missing is passed over. -/
theorem Decides.optional
    [DecidablePred test]
    (reads : ReadsAt isEnd 0 text reader)
    (behind : ∀ symbol, text[0]? = some symbol →
      Decides isEnd rest (second (if test symbol then text.drop 1 else text))
        (next symbol)) :
    Decides isEnd rest (seq (Grammar.optional test) second text) (reader >>= next) := by
  refine Decides.read reads (fun missing result => ?_) fun symbol found => ?_
  · simp [seq, Grammar.optional, branch_of_eq_none missing]
  · refine (behind symbol found).congr fun result => ?_
    split
    · next holds => simp [seq, Grammar.optional, branch_of_pos found holds, after, empty]
    · next fails => simp [seq, Grammar.optional, branch_of_neg found fails, empty]

end Symbols

end Grammar
end ProtobufSandbox
