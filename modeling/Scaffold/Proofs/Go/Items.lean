import Scaffold.Proofs.Go.Depth

/-!
# What stands at file level

The words `package` and `import` open declarations at file level and occur
nowhere else.  Whatever is read before such a word does not depend on what
follows it, so a file can be read from one of them on without what stands
before.
-/

namespace Scaffold

namespace Go

namespace Rule

variable {Name : Type} {grammar : Name → Rule Name}

/-- The rule never looks for a terminal, if some named rules do not either. -/
def avoids (wanted : Terminal) (free : Name → Bool) : Rule Name → Bool
  | token terminal => terminal != wanted
  | notBefore terminal => terminal != wanted
  | both first second => avoids wanted free first && avoids wanted free second
  | either first second => avoids wanted free first && avoids wanted free second
  | many item => avoids wanted free item
  | group _ body => avoids wanted free body
  | refer name => free name
  | under _ body => avoids wanted free body
  | ahead body => avoids wanted free body
  | _ => true

/-- The rule looks for a terminal at most in its first token. -/
def opensWith (wanted : Terminal) (free : Name → Bool) : Rule Name → Bool
  | both first second => opensWith wanted free first && avoids wanted free second
  | either first second => opensWith wanted free first && opensWith wanted free second
  | many item => avoids wanted free item
  | group _ body => opensWith wanted free body
  | refer name => free name
  | under _ body => opensWith wanted free body
  | ahead body => opensWith wanted free body
  | _ => true

/-- A reading that stops before a barrier, whatever stands behind the barrier. -/
def StopsBefore (barrier : Token) (reading : List Token → Option (List Tree × List Token)) :
    Prop :=
  ∃ result : Option (List Tree × List Token), ∀ rest,
    reading rest = result.map fun found => (found.1, found.2 ++ barrier :: rest)

namespace StopsBefore

variable {barrier : Token} {reading : List Token → Option (List Tree × List Token)}

theorem nothing : StopsBefore barrier fun _ => none :=
  ⟨none, fun _ => rfl⟩

theorem found (trees : List Tree) (front : List Token) :
    StopsBefore barrier fun rest => some (trees, front ++ barrier :: rest) :=
  ⟨some (trees, front), fun _ => rfl⟩

/-- What is done with a reading stops before the barrier if it does so behind any
beginning. -/
theorem andThen (first : StopsBefore barrier reading)
    {otherwise : List Token → Option (List Tree × List Token)}
    {next : List Tree → List Token → Option (List Tree × List Token)}
    (failed : StopsBefore barrier otherwise)
    (second : ∀ trees front, StopsBefore barrier fun rest => next trees (front ++ barrier :: rest)) :
    StopsBefore barrier fun rest =>
      match reading rest with
      | none => otherwise rest
      | some (trees, behind) => next trees behind := by
  obtain ⟨one, ones⟩ := first
  cases one with
  | none =>
      obtain ⟨other, others⟩ := failed
      exact ⟨other, fun rest => by simp [ones, others]⟩
  | some found =>
      obtain ⟨two, twos⟩ := second found.1 found.2
      exact ⟨two, fun rest => by simp [ones, twos]⟩

theorem orElse (first : StopsBefore barrier reading)
    {otherwise : List Token → Option (List Tree × List Token)}
    (second : StopsBefore barrier otherwise) :
    StopsBefore barrier fun rest =>
      match reading rest with
      | none => otherwise rest
      | some found => some found := by
  obtain ⟨one, ones⟩ := first
  obtain ⟨two, twos⟩ := second
  refine ⟨one.or two, fun rest => ?_⟩
  cases one <;> simp [ones, twos]

/-- A reading that is tried out. -/
theorem trial (first : StopsBefore barrier reading) (front : List Token) :
    StopsBefore barrier fun rest =>
      match reading rest with
      | none => none
      | some _ => some ([], front ++ barrier :: rest) := by
  obtain ⟨one, ones⟩ := first
  refine ⟨one.map fun _ => ([], front), fun rest => ?_⟩
  cases one <;> simp [ones]

end StopsBefore

variable {wanted : Terminal} {free : Name → Bool} {barrier : Token}

/-- A rule that does not look for a terminal stops before it. -/
theorem stopsBefore_of_avoids
    (known : ∀ name, free name = true → avoids wanted free (grammar name) = true)
    (isWanted : barrier.terminal = wanted) :
    ∀ (fuel : Nat) {layout : Layout} {rule : Rule Name} (front : List Token),
      avoids wanted free rule = true →
        StopsBefore barrier fun rest =>
          read grammar fuel layout rule (front ++ barrier :: rest) := by
  intro fuel
  induction fuel with
  | zero => exact fun _ _ => .nothing
  | succ fuel induction =>
      intro layout rule front avoided
      cases rule with
      | both first second =>
          rw [avoids, Bool.and_eq_true] at avoided
          simp only [read]
          refine (induction front avoided.1).andThen .nothing fun trees middle => ?_
          refine (induction middle avoided.2).andThen .nothing fun others last => ?_
          exact .found _ _
      | either first second =>
          rw [avoids, Bool.and_eq_true] at avoided
          simp only [read]
          exact (induction front avoided.1).orElse (induction front avoided.2)
      | many item =>
          simp only [read]
          refine (induction front (by rwa [avoids] at avoided)).andThen (.found _ _) ?_
          intro trees middle
          refine (induction middle avoided).andThen .nothing fun others last => ?_
          exact .found _ _
      | group kind body =>
          simp only [read]
          refine (induction front (by rwa [avoids] at avoided)).andThen .nothing ?_
          exact fun trees last => .found _ _
      | refer name =>
          simp only [read]
          exact induction front (known name (by rwa [avoids] at avoided))
      | under inner body =>
          simp only [read]
          exact induction front (by rwa [avoids] at avoided)
      | ahead body =>
          simp only [read]
          exact (induction front (by rwa [avoids] at avoided)).trial front
      | token terminal =>
          rw [avoids, bne_iff_ne, ne_eq, ← isWanted, eq_comm] at avoided
          cases front with
          | nil => simpa [read, avoided] using StopsBefore.nothing
          | cons head others =>
              by_cases fits : head.terminal = terminal
              · simpa [read, fits] using StopsBefore.found [.leaf head] others
              · simpa [read, fits] using StopsBefore.nothing
      | notBefore terminal =>
          rw [avoids, bne_iff_ne, ne_eq, ← isWanted, eq_comm] at avoided
          cases front with
          | nil => simpa [read, avoided] using StopsBefore.found [] []
          | cons head others =>
              by_cases fits : head.terminal = terminal
              · simpa [read, fits] using StopsBefore.nothing
              · simpa [read, fits] using StopsBefore.found [] (head :: others)
      | sameLine =>
          cases layout with
          | flowing => exact .found [] front
          | header => exact .found [] front
          | lines =>
              cases front with
              | nil =>
                  cases breaks : barrier.onNewLine
                  · simpa [read, breaks] using StopsBefore.found [] []
                  · simpa [read, breaks] using StopsBefore.nothing
              | cons head others =>
                  cases breaks : head.onNewLine
                  · simpa [read, breaks] using StopsBefore.found [] (head :: others)
                  · simpa [read, breaks] using StopsBefore.nothing
      | newLine =>
          cases front with
          | nil =>
              cases breaks : barrier.onNewLine
              · simpa [read, breaks] using StopsBefore.nothing
              · simpa [read, breaks] using StopsBefore.found [] []
          | cons head others =>
              cases breaks : head.onNewLine
              · simpa [read, breaks] using StopsBefore.nothing
              · simpa [read, breaks] using StopsBefore.found [] (head :: others)
      | empty => exact .found [] front
      | outsideHeader =>
          cases layout with
          | header => exact .nothing
          | lines => exact .found [] front
          | flowing => exact .found [] front

/-- Behind some token a rule that looks for a terminal only first stops before
it. -/
theorem stopsBefore_of_opensWith
    (known : ∀ name, free name = true → avoids wanted free (grammar name) = true)
    (isWanted : barrier.terminal = wanted) :
    ∀ (fuel : Nat) {layout : Layout} {rule : Rule Name} {front : List Token}, front ≠ [] →
      opensWith wanted free rule = true →
        StopsBefore barrier fun rest =>
          read grammar fuel layout rule (front ++ barrier :: rest) := by
  intro fuel
  induction fuel with
  | zero => exact fun _ _ => .nothing
  | succ fuel induction =>
      intro layout rule front something opened
      cases rule with
      | both first second =>
          rw [opensWith, Bool.and_eq_true] at opened
          simp only [read]
          refine (induction something opened.1).andThen .nothing fun trees middle => ?_
          refine (stopsBefore_of_avoids known isWanted fuel middle opened.2).andThen .nothing ?_
          exact fun others last => .found _ _
      | either first second =>
          rw [opensWith, Bool.and_eq_true] at opened
          simp only [read]
          exact (induction something opened.1).orElse (induction something opened.2)
      | group kind body =>
          simp only [read]
          refine (induction something (by rwa [opensWith] at opened)).andThen .nothing ?_
          exact fun trees last => .found _ _
      | under inner body =>
          simp only [read]
          exact induction something (by rwa [opensWith] at opened)
      | ahead body =>
          simp only [read]
          exact (induction something (by rwa [opensWith] at opened)).trial front
      | token terminal =>
          obtain ⟨head, others, rfl⟩ := List.exists_cons_of_ne_nil something
          by_cases fits : head.terminal = terminal
          · simpa [read, fits] using StopsBefore.found [.leaf head] others
          · simpa [read, fits] using StopsBefore.nothing
      | notBefore terminal =>
          obtain ⟨head, others, rfl⟩ := List.exists_cons_of_ne_nil something
          by_cases fits : head.terminal = terminal
          · simpa [read, fits] using StopsBefore.nothing
          · simpa [read, fits] using StopsBefore.found [] (head :: others)
      | many | refer =>
          exact stopsBefore_of_avoids known isWanted _ front (by rwa [opensWith] at opened)
      | empty | sameLine | newLine | outsideHeader =>
          exact stopsBefore_of_avoids known isWanted _ front rfl

end Rule

/-- The words that open declarations at file level and stand nowhere else. -/
def Keyword.opensFile (word : Keyword) : Bool :=
  word == .packageWord || word == .importWord

namespace Grammar

open Rule

/-- The phrases that occur inside what stands at file level. -/
def isInner : Phrase → Bool
  | .topLevel => false
  | _ => true

theorem avoids_table {word : Keyword} (opens : word.opensFile = true) (name : Phrase)
    (inner : isInner name = true) : avoids (.keyword word) isInner (table name) = true := by
  cases word <;> first
    | exact absurd opens (by decide)
    | (cases name <;> first | rfl | exact absurd inner (by decide))

theorem opensWith_topLevel (word : Keyword) :
    opensWith (.keyword word) isInner (table .topLevel) = true := by
  cases word <;> rfl

variable {layout : Layout} {rule : Rule Phrase} {word : Keyword} {barrier : Token}

/-- The fuel with which a rule is read does not matter for where it stops. -/
private theorem stopsBefore_parse {front : List Token} (within : IsWithin rule)
    (reads : ∀ fuel, StopsBefore barrier fun rest =>
      Rule.read table fuel layout rule (front ++ barrier :: rest)) :
    StopsBefore barrier fun rest => parse layout rule (front ++ barrier :: rest) := by
  obtain ⟨result, results⟩ := reads (SourceFile.depthBound (front ++ [barrier]).length)
  refine ⟨result, fun rest => ?_⟩
  -- Both texts are read with the fuel of the longer one.
  obtain ⟨other, others⟩ := reads (SourceFile.depthBound (front ++ barrier :: rest).length)
  have short : 256 * (front ++ [barrier]).length + depthLimit ≤
      SourceFile.depthBound (front ++ barrier :: rest).length := by
    simp only [SourceFile.depthBound, depthLimit, List.length_append, List.length_cons,
      List.length_nil]
    omega
  have same : parse layout rule (front ++ [barrier]) =
      other.map fun found => (found.1, found.2 ++ [barrier]) :=
    (read_eq_parse within short).symm.trans (others [])
  have equal : result = other := by
    refine Option.map_injective ?_ ((results []).symm.trans same)
    intro left right pairs
    simp only [Prod.mk.injEq, List.append_cancel_right_eq] at pairs
    exact Prod.ext pairs.1 pairs.2
  rw [equal]
  exact others rest

theorem stopsBefore_parse_of_avoids (opens : word.opensFile = true)
    (isWord : barrier.terminal = .keyword word) (within : IsWithin rule)
    (avoided : avoids (.keyword word) isInner rule = true) (front : List Token) :
    StopsBefore barrier fun rest => parse layout rule (front ++ barrier :: rest) :=
  stopsBefore_parse within fun fuel =>
    stopsBefore_of_avoids (avoids_table opens) isWord fuel front avoided

theorem stopsBefore_topLevel (opens : word.opensFile = true)
    (isWord : barrier.terminal = .keyword word) {front : List Token} (something : front ≠ []) :
    StopsBefore barrier fun rest => parse .lines (refer .topLevel) (front ++ barrier :: rest) := by
  simp only [parse_refer]
  exact stopsBefore_parse (isBounded_table.within .topLevel) fun fuel =>
    stopsBefore_of_opensWith (avoids_table opens) isWord fuel something (opensWith_topLevel word)

theorem parse_eq_none_of_avoids (opens : word.opensFile = true)
    (isWord : barrier.terminal = .keyword word) (within : IsWithin rule)
    (avoided : avoids (.keyword word) isInner rule = true) (takes : rule.takes sure = true)
    (rest : List Token) : parse layout rule (barrier :: rest) = none := by
  obtain ⟨result, results⟩ :=
    stopsBefore_parse_of_avoids opens isWord within avoided []
  have here : parse layout rule (barrier :: rest) =
      result.map fun found => (found.1, found.2 ++ barrier :: rest) := results rest
  cases result with
  | none => exact here
  | some found =>
      have less := length_lt_of_takes isBounded_table _ takes here
      simp only [List.length_append, List.length_cons] at less
      omega

end Grammar

namespace SourceFile

open Grammar Rule

/-! ## Files -/

/-- The trees at file level of a file with some tokens. -/
def items? (tokens : List Token) : Option (List Tree) :=
  match parse .lines file tokens with
  | some (items, []) => some items
  | _ => none

theorem ofText?_eq (source : Text) :
    ofText? source =
      (tokens? source).bind fun tokens => (items? tokens).map (SourceFile.mk source) := by
  rw [ofText?]
  cases tokens? source with
  | none => rfl
  | some tokens =>
      simp only [items?, parse, Option.bind_some]
      generalize Rule.read table (depthBound tokens.length) .lines file tokens = outcome
      rcases outcome with _ | ⟨items, _ | _⟩ <;> rfl

theorem exists_tokens_of_ofText? {source : Text} {file : SourceFile}
    (result : ofText? source = some file) :
    ∃ tokens, tokens? source = some tokens ∧ items? tokens = some file.items := by
  rw [ofText?_eq] at result
  obtain ⟨tokens, cut, made⟩ := Option.bind_eq_some_iff.mp result
  obtain ⟨items, parsed, rfl⟩ := Option.map_eq_some_iff.mp made
  exact ⟨tokens, cut, parsed⟩

theorem tokensOfAll_of_items? {tokens : List Token} {items : List Tree}
    (result : items? tokens = some items) : Tree.tokensOfAll items = tokens := by
  unfold items? at result
  split at result
  · rename_i read
    rw [← Option.some.inj result, ← tokens_of_read _ read, List.append_nil]
  · simp at result

/-- The trees of a file, if only its end is left. -/
def finished? (trees : List Tree) : List Token → Option (List Tree)
  | [last] => if last.terminal = .finish then some (trees ++ [.leaf last]) else none
  | _ => none

theorem finished?_append (trees others : List Tree) (rest : List Token) :
    finished? (trees ++ others) rest = (finished? others rest).map (trees ++ ·) := by
  match rest with
  | [] => rfl
  | [last] =>
      simp only [finished?]
      split <;> simp
  | last :: next :: behind => rfl

theorem items?_eq (tokens : List Token) :
    items? tokens =
      (parse .lines (many (refer .topLevel)) tokens).bind fun found =>
        finished? found.1 found.2 := by
  have shape : file = under .lines (both (many (refer .topLevel)) (token .finish)) := rfl
  rw [items?, shape, parse_under (by decide), parse_both (by decide)]
  cases parse .lines (many (refer .topLevel)) tokens with
  | none => rfl
  | some found =>
      obtain ⟨front, behind⟩ := found
      match behind with
      | [] => rfl
      | last :: others =>
          simp only [Option.bind_some, parse_token_cons]
          by_cases ends : last.terminal = .finish
          · cases others <;> simp [ends, finished?]
          · cases others <;> simp [ends, finished?]

theorem items?_of_topLevel {tokens rest : List Token} {trees : List Tree}
    (first : parse .lines (refer .topLevel) tokens = some (trees, rest)) :
    items? tokens = (items? rest).map (trees ++ ·) := by
  rw [items?_eq, items?_eq, parse_many (by decide), first]
  cases many : parse .lines (many (refer .topLevel)) rest with
  | none => simp [many]
  | some found => simp [many, finished?_append]

theorem items?_eq_none {tokens : List Token}
    (failed : parse .lines (refer .topLevel) tokens = none)
    (unfinished : ∀ last, tokens = [last] → last.terminal ≠ .finish) :
    items? tokens = none := by
  rw [items?_eq, parse_many (by decide), failed, Option.bind_some]
  match tokens with
  | [] => rfl
  | [last] => exact if_neg (unfinished last rfl)
  | last :: next :: others => rfl

variable {word : Keyword} {barrier : Token}

/-- A file can be read from a word that opens a declaration on. -/
theorem items?_append (opens : word.opensFile = true)
    (isWord : barrier.terminal = .keyword word) (front : List Token) :
    ∃ outcome : Option (List Tree),
      (∀ before, outcome = some before → Tree.tokensOfAll before = front) ∧
      ∀ rest, items? (front ++ barrier :: rest) =
        outcome.bind fun before => (items? (barrier :: rest)).map (before ++ ·) := by
  by_cases something : front = []
  · subst something
    refine ⟨some [], fun before known => ?_, fun rest => ?_⟩
    · rw [← Option.some.inj known]
      rfl
    · cases found : items? (barrier :: rest) <;> simp [found]
  · obtain ⟨result, results⟩ := stopsBefore_topLevel opens isWord something
    cases result with
    | none =>
        refine ⟨none, fun _ none => by simp at none, fun rest => ?_⟩
        refine items?_eq_none (results rest) fun last single => ?_
        have sizes := congrArg List.length single
        simp only [List.length_append, List.length_cons, List.length_nil] at sizes
        exact absurd (List.length_eq_zero_iff.mp (by omega)) something
    | some found =>
        obtain ⟨trees, middle⟩ := found
        have first (rest : List Token) :
            parse .lines (refer .topLevel) (front ++ barrier :: rest) =
              some (trees, middle ++ barrier :: rest) := results rest
        have whole : Tree.tokensOfAll trees ++ middle = front := by
          have tokens := tokens_of_read _ (first [])
          rwa [← List.append_assoc, List.append_cancel_right_eq] at tokens
        have shorter : middle.length < front.length := by
          have less := length_lt_of_takes isBounded_table _ rfl (first [])
          simp only [List.length_append, List.length_cons, List.length_nil] at less
          omega
        obtain ⟨outcome, tokens, outcomes⟩ := items?_append opens isWord middle
        refine ⟨outcome.map (trees ++ ·), ?_, fun rest => ?_⟩
        · intro before known
          obtain ⟨behind, same, rfl⟩ := Option.map_eq_some_iff.mp known
          rw [Tree.tokensOfAll_append, tokens behind same, whole]
        · rw [items?_of_topLevel (first rest), outcomes rest]
          cases outcome with
          | none => rfl
          | some behind => cases items? (barrier :: rest) <;> simp
termination_by front.length

/-- What stands behind a declaration: on a new line, behind a semicolon or at the
end of the file. -/
def after? : List Token → Option (List Tree)
  | [] => none
  | head :: rest =>
    if head.onNewLine then items? (head :: rest)
    else if head.terminal = .operator .semicolon then (items? rest).map (.leaf head :: ·)
    else if head.terminal = .finish then items? (head :: rest)
    else none

/-- What a word opens is a declaration, and the rest of the file follows it. -/
theorem items?_cons (opens : word.opensFile = true)
    (isWord : barrier.terminal = .keyword word) (rest : List Token) :
    items? (barrier :: rest) =
      (parse .lines fileDeclaration (barrier :: rest)).bind fun front =>
        (after? front.2).map (front.1 ++ ·) := by
  have noStatement : parse .lines (refer .statement) (barrier :: rest) = none := by
    apply parse_eq_none_of_avoids opens isWord (by decide) rfl rfl
  have noClosable : parse .lines (refer .closableDeclaration) (barrier :: rest) = none := by
    apply parse_eq_none_of_avoids opens isWord (by decide) rfl rfl
  have shape : table .topLevel =
      either (both (either fileDeclaration (refer .statement)) terminator)
        (both (either fileDeclaration (refer .closableDeclaration)) (ahead (token .finish))) :=
    rfl
  have unfinished : ∀ last, barrier :: rest = [last] → last.terminal ≠ .finish := by
    intro last single
    rw [← (List.cons.inj single).1, isWord]
    simp
  have finishes (tokens : List Token) : parse .lines (ahead (token .finish)) tokens =
      (parse .lines (token .finish) tokens).map fun _ => ([], tokens) :=
    parse_ahead (by decide)
  have read : parse .lines (refer .topLevel) (barrier :: rest) =
      (parse .lines fileDeclaration (barrier :: rest)).bind fun front =>
        ((parse .lines terminator front.2).or
          ((parse .lines (token .finish) front.2).map fun _ => ([], front.2))).map
            fun back => (front.1 ++ back.1, back.2) := by
    rw [parse_refer, shape, parse_either (by decide), parse_both (by decide),
      parse_both (by decide), parse_either (by decide), parse_either (by decide), noStatement,
      noClosable]
    cases parse .lines fileDeclaration (barrier :: rest) with
    | none => rfl
    | some front =>
        simp only [Option.or_none, Option.bind_some, finishes]
        cases parse .lines terminator front.2 <;> rfl
  cases declared : parse .lines fileDeclaration (barrier :: rest) with
  | none =>
      rw [declared] at read
      exact items?_eq_none read unfinished
  | some front =>
      obtain ⟨trees, behind⟩ := front
      rw [declared, Option.bind_some] at read
      rw [Option.bind_some]
      have ended : terminator = either newLine (token (.operator .semicolon)) := rfl
      rw [ended, parse_either (by decide)] at read
      match behind with
      | [] => exact items?_eq_none read unfinished
      | head :: others =>
          rw [parse_newLine_cons, parse_token_cons, parse_token_cons] at read
          rw [after?]
          cases breaks : head.onNewLine with
          | true => simpa [breaks] using items?_of_topLevel (by simpa [breaks] using read)
          | false =>
              by_cases semicolon : head.terminal = .operator .semicolon
              · have first : parse .lines (refer .topLevel) (barrier :: rest) =
                    some (trees ++ [.leaf head], others) := by
                  simpa [breaks, semicolon] using read
                rw [items?_of_topLevel first]
                cases items? others <;> simp [semicolon]
              · by_cases ends : head.terminal = .finish
                · simpa [breaks, ends] using
                    items?_of_topLevel (by simpa [breaks, ends] using read)
                · simpa [breaks, semicolon, ends] using
                    items?_eq_none (by simpa [breaks, semicolon, ends] using read) unfinished

end SourceFile

end Go

end Scaffold
