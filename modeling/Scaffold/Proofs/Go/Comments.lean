import Mathlib.Data.List.Pairwise
import Scaffold.Proofs.Go.BlockReading
import Scaffold.Proofs.Go.Layout
import Scaffold.Proofs.Sorting

/-!
# The comments of an import section

A comment among the imports of a file is moved behind an import or to a row of
its own.  It is skipped there as well: a block comment ends by itself, and a
comment to the end of its line is the last one of the line, so nothing with a
line feed is put behind it.
-/

namespace Scaffold

namespace Text

/-! ## Trimming -/

theorem trimStart_of_head? {text : Text} {character : Char} (solid : isBlank character = false)
    (starts : text.head? = some character) : trimStart text = text := by
  obtain ⟨others, rfl⟩ := List.head?_eq_some_iff.mp starts
  exact List.dropWhile_cons_of_neg (by simp [solid])

theorem trimEnd_of_getLast? {text : Text} {character : Char} (solid : isBlank character = false)
    (ends : text.getLast? = some character) : trimEnd text = text := by
  rw [trimEnd, ← List.head?_reverse] at *
  rw [show text.reverse.dropWhile isBlank = text.reverse from trimStart_of_head? solid ends,
    List.reverse_reverse]

theorem trimEnd_append_cons {character : Char} (solid : isBlank character = false)
    (front rest : Text) :
    trimEnd (front ++ character :: rest) = front ++ character :: trimEnd rest := by
  have apart (blanks : Text) : (blanks ++ character :: front.reverse).dropWhile isBlank =
      blanks.dropWhile isBlank ++ character :: front.reverse := by
    induction blanks with
    | nil => exact List.dropWhile_cons_of_neg (by simp [solid])
    | cons first others induction =>
        cases blank : isBlank first <;> simp [blank, induction]
  have turned : (front ++ character :: rest).reverse =
      rest.reverse ++ character :: front.reverse := by simp
  rw [trimEnd, turned, apart, trimEnd]
  simp

theorem trimEnd_subset (text : Text) : trimEnd text ⊆ text := by
  intro character member
  rw [trimEnd, List.mem_reverse] at member
  exact List.mem_reverse.mp ((List.dropWhile_sublist isBlank).subset member)

end Text

namespace Go

open Token (commentsFrom)

/-! ## Remarks -/

/-- A text is skipped wherever it stands. -/
def IsPassed (text : Text) : Prop :=
  ∀ breaks more, scan? breaks (text ++ more) = scan? breaks more

theorem isPassed_nil : IsPassed [] := fun _ _ => rfl

theorem isPassed_blank : IsPassed [' '] := by
  intro breaks more
  rw [List.singleton_append, scan?_cons_of_isSpace (by decide)]
  simp

theorem IsPassed.append {text other : Text} (first : IsPassed text) (second : IsPassed other) :
    IsPassed (text ++ other) := by
  intro breaks more
  rw [List.append_assoc, first, second]

/-- Comments that end by themselves. -/
structure IsClosed (text : Text) : Prop where
  starts : text.head? = some '/'
  ends : text.getLast? = some '/'
  isPassed : IsPassed text

/-- A comment to the end of the line, perhaps behind closed ones. -/
structure IsOpen (text : Text) : Prop where
  starts : text.head? = some '/'
  exists_line : ∃ front rest, text = front ++ '/' :: '/' :: rest ∧ IsPassed front ∧ '\n' ∉ rest

theorem IsClosed.isSkipped {text : Text} (closed : IsClosed text) : IsSkipped text := by
  intro breaks more
  rw [closed.isPassed, scan?_newline]

theorem IsOpen.isSkipped {text : Text} (isOpen : IsOpen text) : IsSkipped text := by
  obtain ⟨front, rest, rfl, isPassed, inLine⟩ := isOpen.exists_line
  intro breaks more
  have whole : ('/' :: '/' :: (rest ++ '\n' :: more)).takeWhile (· ≠ '\n') =
      '/' :: '/' :: rest := by
    have all : ∀ character ∈ '/' :: '/' :: rest, (decide (character ≠ '\n')) = true := by
      simp only [List.mem_cons, decide_eq_true_eq]
      rintro character (rfl | rfl | member)
      · decide
      · decide
      · exact ne_of_mem_of_not_mem member inLine
    have run := @List.takeWhile_append_of_pos _ _ _ ('\n' :: more) all
    simpa using run
  rw [List.append_assoc, isPassed, List.cons_append, List.cons_append,
    scan?_of_trivia ((piece?_line _).trans (by rw [whole])) (by simp [Trivia.text])]
  have behind : ('/' :: '/' :: (rest ++ '\n' :: more)).drop ('/' :: '/' :: rest).length =
      '\n' :: more := @List.drop_left _ ('/' :: '/' :: rest) _
  rw [show (Trivia.comment ('/' :: '/' :: rest)).text = '/' :: '/' :: rest from rfl, behind,
    scan?_newline]

theorem exists_of_blockCommentRest {text rest : Text} (found : blockCommentRest text = some rest) :
    ∃ front, text = front ++ '*' :: '/' :: rest := by
  induction text using blockCommentRest.induct with
  | case1 => simp [blockCommentRest] at found
  | case2 behind =>
      rw [blockCommentRest, Option.some.injEq] at found
      exact ⟨[], by rw [found, List.nil_append]⟩
  | case3 character others goesOn induction =>
      rw [blockCommentRest.eq_3 _ _ goesOn] at found
      obtain ⟨front, rfl⟩ := induction found
      exact ⟨character :: front, rfl⟩

/-- A text that begins with a comment: the comment is closed, or it goes to the
end of the line. -/
theorem closed_or_line {text comment : Text}
    (found : piece? text = some (.trivia (.comment comment))) :
    IsClosed comment ∨
      ∃ rest behind, comment = '/' :: '/' :: rest ∧ '\n' ∉ rest ∧ text = comment ++ behind ∧
        ∀ character, behind.head? = some character → character = '\n' := by
  rcases comment_or_other text with
    rfl | ⟨rest, rfl⟩ | ⟨rest, rfl⟩ | ⟨character, rest, rfl, here, _⟩
  · simp at found
  · right
    rw [piece?_line, Option.some.injEq, Piece.trivia.injEq, Trivia.comment.injEq] at found
    subst found
    refine ⟨rest.takeWhile (· ≠ '\n'), rest.dropWhile (· ≠ '\n'), by simp, ?_, by simp, ?_⟩
    · intro member
      simpa using List.all_eq_true.mp List.all_takeWhile _ member
    · intro character first
      have stops := List.head?_dropWhile_not (fun character => decide (character ≠ '\n')) rest
      rw [first] at stops
      simpa using stops
  · left
    rw [piece?_block] at found
    obtain ⟨after, read, same⟩ := Option.map_eq_some_iff.mp found
    obtain ⟨taken, rfl, settled⟩ := settles_blockCommentRest rest after read
    have text (behind : Text) :
        upTo ('/' :: '*' :: (taken ++ behind)) behind = '/' :: '*' :: taken :=
      upTo_append ('/' :: '*' :: taken) behind
    rw [text, Piece.trivia.injEq, Trivia.comment.injEq] at same
    subst same
    obtain ⟨front, whole⟩ := exists_of_blockCommentRest read
    have ending : '/' :: '*' :: taken = ('/' :: '*' :: front ++ ['*']) ++ ['/'] := by
      refine List.append_cancel_right (congrArg (fun text => '/' :: '*' :: text) whole |>.trans ?_)
      simp
    refine ⟨rfl, by rw [ending, List.getLast?_concat], fun breaks more => ?_⟩
    have still : piece? ('/' :: '*' :: (taken ++ more)) =
        some (.trivia (.comment ('/' :: '*' :: taken))) := by
      rw [piece?_block, settled, Option.map_some, text]
    have behind : ('/' :: '*' :: (taken ++ more)).drop ('/' :: '*' :: taken).length = more :=
      @List.drop_left _ ('/' :: '*' :: taken) _
    rw [List.cons_append, List.cons_append, scan?_of_trivia still (by simp [Trivia.text])]
    rw [show (Trivia.comment ('/' :: '*' :: taken)).text = '/' :: '*' :: taken from rfl, behind]
    simp [Trivia.breaksLine]
  · rw [here] at found
    rcases blank_or_lexeme found with same | ⟨_, _, same⟩ <;> simp at same

/-! ## Comments put together -/

private theorem exists_front {comment text : Text} (known : comment = [] ∨ IsClosed comment)
    (starts : text.head? = some '/') :
    ∃ front, Text.trimStart (comment ++ [' '] ++ text) = front ++ text ∧ IsPassed front ∧
      (front ++ text).head? = some '/' := by
  have solid : Text.isBlank '/' = false := by decide
  rcases known with rfl | closed
  · refine ⟨[], ?_, isPassed_nil, starts⟩
    rw [List.nil_append, List.nil_append]
    exact Text.trimStart_of_head? solid starts
  · have first : (comment ++ [' '] ++ text).head? = some '/' := by
      simp [closed.starts]
    exact ⟨comment ++ [' '], Text.trimStart_of_head? solid first,
      closed.isPassed.append isPassed_blank, first⟩

theorem IsClosed.attach {comment text : Text} (known : comment = [] ∨ IsClosed comment)
    (closed : IsClosed text) : IsClosed (Text.trim (comment ++ [' '] ++ text)) := by
  obtain ⟨front, same, isPassed, starts⟩ := exists_front known closed.starts
  have ends : (front ++ text).getLast? = some '/' := by
    rw [List.getLast?_append, closed.ends, Option.some_or]
  rw [Text.trim, same, Text.trimEnd_of_getLast? (by decide) ends]
  exact ⟨starts, ends, isPassed.append closed.isPassed⟩

theorem IsOpen.trimEnd {text : Text} (isOpen : IsOpen text) : IsOpen (Text.trimEnd text) := by
  have solid : Text.isBlank '/' = false := by decide
  obtain ⟨starts, front, rest, rfl, isPassed, inLine⟩ := isOpen
  have same : Text.trimEnd (front ++ '/' :: '/' :: rest) =
      front ++ '/' :: '/' :: Text.trimEnd rest := by
    rw [Text.trimEnd_append_cons solid, ← List.nil_append ('/' :: rest),
      Text.trimEnd_append_cons solid, List.nil_append]
  rw [same]
  refine ⟨?_, front, Text.trimEnd rest, rfl, isPassed, ?_⟩
  · rwa [List.head?_append] at starts ⊢
  · exact fun member => inLine (Text.trimEnd_subset rest member)

theorem IsOpen.of_line {comment rest : Text} (known : comment = [] ∨ IsClosed comment)
    (inLine : '\n' ∉ rest) : IsOpen (Text.trim (comment ++ [' '] ++ '/' :: '/' :: rest)) := by
  obtain ⟨front, same, isPassed, starts⟩ := @exists_front _ ('/' :: '/' :: rest) known rfl
  rw [Text.trim, same]
  exact IsOpen.trimEnd ⟨starts, front, rest, rfl, isPassed, inLine⟩

theorem IsOpen.attach {comment text : Text} (isOpen : IsOpen comment) (inLine : '\n' ∉ text) :
    IsOpen (Text.trim (comment ++ [' '] ++ text)) := by
  obtain ⟨starts, front, rest, rfl, isPassed, clean⟩ := isOpen
  have first : ((front ++ '/' :: '/' :: rest) ++ [' '] ++ text).head? = some '/' := by
    rw [List.append_assoc, List.head?_append, starts, Option.some_or]
  rw [Text.trim, Text.trimStart_of_head? (by decide) first]
  refine IsOpen.trimEnd ⟨first, front, rest ++ ' ' :: text, by simp, isPassed, ?_⟩
  simpa using ⟨clean, inLine⟩

/-! ## Behind which import a comment is put -/

namespace SourceFile

theorem exists_end_of_owner? {ends : List SpecEnd} {line position index : Nat}
    (owned : owner? ends line position = some index) :
    ∃ place, ends[index]? = some place ∧ place.line = line := by
  obtain ⟨⟨place, other⟩, kept, rfl⟩ := List.mem_map.mp (List.mem_of_getLast? owned)
  obtain ⟨listed, here⟩ := List.mem_filter.mp kept
  simp only [Bool.and_eq_true, decide_eq_true_eq] at here
  exact ⟨place, List.mk_mem_zipIdx_iff_getElem?.mp listed, here.1⟩

variable {file : SourceFile} {ends : List SpecEnd}

/-- What may stand behind the import with an index while comments are to come. -/
def IsAttachable (file : SourceFile) (ends : List SpecEnd) (coming : List (Nat × Text))
    (index : Nat) (comment : Text) : Prop :=
  (comment = [] ∨ IsClosed comment) ∨
    (IsOpen comment ∧ ∀ later ∈ coming,
      owner? ends (file.lineOf later.1) later.1 = some index → '\n' ∉ later.2)

theorem IsAttachable.isSkipped {coming : List (Nat × Text)} {index : Nat} {comment : Text}
    (attachable : IsAttachable file ends coming index comment) : IsSkipped comment := by
  rcases attachable with (rfl | closed) | ⟨isOpen, _⟩
  · exact isSkipped_nil
  · exact closed.isSkipped
  · exact isOpen.isSkipped

theorem IsAttachable.tail {first : Nat × Text} {coming : List (Nat × Text)} {index : Nat}
    {comment : Text} (attachable : IsAttachable file ends (first :: coming) index comment) :
    IsAttachable file ends coming index comment :=
  attachable.imp_right fun isOpen =>
    ⟨isOpen.1, fun later member => isOpen.2 later (List.mem_cons_of_mem first member)⟩

/-- A comment by itself or to the end of the line. -/
def IsComment (text : Text) : Prop :=
  IsClosed text ∨ ∃ rest, text = '/' :: '/' :: rest ∧ '\n' ∉ rest

theorem IsComment.isSkipped {text : Text} (isComment : IsComment text) : IsSkipped text := by
  rcases isComment with closed | ⟨rest, rfl, inLine⟩
  · exact closed.isSkipped
  · exact IsOpen.isSkipped ⟨rfl, [], rest, rfl, isPassed_nil, inLine⟩

theorem IsComment.ne_nil {text : Text} (isComment : IsComment text) : text ≠ [] := by
  rintro rfl
  rcases isComment with closed | ⟨rest, same, _⟩
  · exact absurd closed.starts (by simp)
  · simp at same

/-- No comment with a line feed begins behind one that goes to the end of its line. -/
def EndsLine (file : SourceFile) (comment later : Nat × Text) : Prop :=
  IsClosed comment.2 ∨ (file.lineOf comment.1 = file.lineOf later.1 → '\n' ∉ later.2)

/-- A comment is put behind an import. -/
theorem isAttachable_attach {comment : Nat × Text} {coming : List (Nat × Text)} {index : Nat}
    {line : ImportLine} (isComment : IsComment comment.2)
    (behind : ∀ later ∈ coming, file.EndsLine comment later)
    (owned : owner? ends (file.lineOf comment.1) comment.1 = some index)
    (attachable : IsAttachable file ends (comment :: coming) index line.comment) :
    IsAttachable file ends coming index (attach comment.2 line).comment := by
  rcases attachable with before | ⟨isOpen, inLine⟩
  · by_cases closed : IsClosed comment.2
    · exact .inl (.inr (closed.attach before))
    · right
      obtain ⟨rest, same, inLine⟩ := isComment.resolve_left closed
      refine ⟨?_, fun later member ownedLater => ?_⟩
      · rw [attach, same]
        exact IsOpen.of_line before inLine
      · obtain ⟨place, known, here⟩ := exists_end_of_owner? owned
        obtain ⟨other, knownLater, there⟩ := exists_end_of_owner? ownedLater
        obtain rfl := Option.some.inj (known.symm.trans knownLater)
        exact (behind later member).resolve_left closed (here.symm.trans there)
  · exact .inr ⟨isOpen.attach (inLine comment List.mem_cons_self owned), fun later member =>
      inLine later (List.mem_cons_of_mem comment member)⟩

/-- Comments that are put behind imports or collected are skipped there. -/
theorem isSkipped_attachComments {comments : List (Nat × Text)}
    (all : ∀ comment ∈ comments, IsComment comment.2)
    (ordered : comments.Pairwise file.EndsLine) :
    ∀ lines, (∀ index line, lines[index]? = some line →
        IsAttachable file ends comments index line.comment) →
      (∀ line ∈ (file.attachComments ends comments lines).1, IsSkipped line.comment) ∧
        ∀ text ∈ (file.attachComments ends comments lines).2, IsSkipped text := by
  induction ordered with
  | nil =>
      intro lines attachable
      refine ⟨fun line member => ?_, by simp [attachComments]⟩
      obtain ⟨index, found⟩ := List.mem_iff_getElem?.mp member
      exact (attachable index line found).isSkipped
  | @cons comment rest behind _ induction =>
      intro lines attachable
      obtain ⟨first, later⟩ := List.forall_mem_cons.mp all
      rw [attachComments]
      split
      · rename_i index owned
        refine induction later _ fun place line found => ?_
        rw [List.getElem?_modify] at found
        obtain ⟨old, known, rfl⟩ := Option.map_eq_some_iff.mp found
        split
        · rename_i same
          subst same
          exact isAttachable_attach first behind owned (attachable _ old known)
        · exact (attachable _ old known).tail
      · obtain ⟨attached, alone⟩ :=
          induction later lines fun index line known => (attachable index line known).tail
        exact ⟨attached, List.forall_mem_cons.mpr ⟨first.isSkipped, alone⟩⟩

end SourceFile

/-! ## The comments of a source -/

/-- The comments among some pieces, the first of which starts at a position. -/
def pieceComments : Nat → List Piece → List (Nat × Text)
  | _, [] => []
  | position, .trivia (.comment text) :: rest =>
    (position, text) :: pieceComments (position + text.length) rest
  | position, piece :: rest => pieceComments (position + piece.text.length) rest

theorem commentsFrom_append (left right : List Trivia) :
    ∀ position, commentsFrom position (left ++ right) =
      commentsFrom position left ++
        commentsFrom (position + (left.flatMap Trivia.text).length) right := by
  induction left with
  | nil => intro position; rfl
  | cons trivia rest induction =>
      intro position
      cases trivia <;> simp [commentsFrom, induction, Trivia.text, Nat.add_assoc]

theorem comments_assemble (pieces : List Piece) :
    ∀ start lead, (assemble (start + (lead.flatMap Trivia.text).length) lead pieces).flatMap
        Token.comments =
      commentsFrom start lead ++
        pieceComments (start + (lead.flatMap Trivia.text).length) pieces := by
  induction pieces with
  | nil =>
      intro start lead
      simp [assemble, Token.comments, pieceComments]
  | cons piece rest induction =>
      intro start lead
      cases piece with
      | trivia trivia =>
          have next : start + (lead.flatMap Trivia.text).length + trivia.text.length =
              start + ((lead ++ [trivia]).flatMap Trivia.text).length := by
            simp [Nat.add_assoc]
          rw [assemble, next, induction, commentsFrom_append, List.append_assoc, ← next]
          cases trivia <;> rfl
      | lexeme terminal text =>
          have later := induction (start + (lead.flatMap Trivia.text).length + text.length) []
          rw [assemble, List.flatMap_cons]
          simp only [List.flatMap_nil, List.length_nil, Nat.add_zero, commentsFrom,
            List.nil_append] at later
          rw [later]
          simp [Token.comments, pieceComments, Piece.text]

/-- The comment stands in the source at its position. -/
def IsCommentAt (source : Text) (comment : Nat × Text) : Prop :=
  piece? (source.drop comment.1) = some (.trivia (.comment comment.2))

/-- The comment ends before the other one begins. -/
def IsBefore (comment later : Nat × Text) : Prop :=
  comment.1 + comment.2.length ≤ later.1

theorem isCommentAt_of_cuts {source : Text} {pieces : List Piece} {text rest : Text}
    (cuts : Cuts text pieces rest) :
    ∀ position, source.drop position = text →
      (∀ comment ∈ pieceComments position pieces,
        position ≤ comment.1 ∧ IsCommentAt source comment) ∧
        (pieceComments position pieces).Pairwise IsBefore := by
  induction cuts with
  | done => intro position _; simp [pieceComments]
  | @piece text rest piece pieces found something later induction =>
      intro position here
      obtain ⟨inside, ordered⟩ := induction (position + piece.text.length)
        (by rw [← List.drop_drop, here])
      have behind : ∀ comment ∈ pieceComments (position + piece.text.length) pieces,
          position ≤ comment.1 ∧ IsCommentAt source comment := fun comment member =>
        ⟨Nat.le_trans (Nat.le_add_right _ _) (inside comment member).1, (inside comment member).2⟩
      match piece with
      | .trivia (.comment comment) =>
          refine ⟨List.forall_mem_cons.mpr ⟨⟨Nat.le_refl _, ?_⟩, behind⟩,
            .cons (fun other member => (inside other member).1) ordered⟩
          rw [IsCommentAt, here, found]
      | .trivia (.blank _) => exact ⟨behind, ordered⟩
      | .lexeme _ _ => exact ⟨behind, ordered⟩

theorem isCommentAt_of_tokens? {source : Text} {tokens : List Token}
    (cut : tokens? source = some tokens) :
    (∀ comment ∈ tokens.flatMap Token.comments, IsCommentAt source comment) ∧
      (tokens.flatMap Token.comments).Pairwise IsBefore := by
  obtain ⟨pieces, lead, found, rfl, text, _, nothing⟩ := exists_pieces_of_tokens? cut
  have comments := comments_assemble pieces 0 lead
  rw [Nat.zero_add, nothing, List.nil_append] at comments
  have here : source.drop (lead.flatMap Trivia.text).length = markless source := by
    rw [text, List.drop_left, ← text]
  obtain ⟨all, ordered⟩ := isCommentAt_of_cuts (cuts_of_pieces? _ found) _ here
  rw [comments]
  exact ⟨fun comment member => (all comment member).2, ordered⟩

theorem IsCommentAt.isComment {source : Text} {comment : Nat × Text}
    (stands : IsCommentAt source comment) : SourceFile.IsComment comment.2 :=
  (closed_or_line stands).imp_right fun ⟨rest, _, same, inLine, _⟩ => ⟨rest, same, inLine⟩

namespace SourceFile

theorem lineOf_lt (file : SourceFile) {start stop : Nat} {front behind : Text}
    (text : file.source.drop start = front ++ '\n' :: behind)
    (later : start + front.length < stop) : file.lineOf start < file.lineOf stop := by
  have parts : file.source.take stop =
      file.source.take start ++ (front ++ '\n' :: behind).take (stop - start) := by
    rw [← text, ← List.take_add]
    congr 1
    omega
  have line : front ++ ['\n'] <+: (front ++ '\n' :: behind).take (stop - start) := by
    rw [List.prefix_take_iff]
    refine ⟨⟨behind, by simp⟩, ?_⟩
    rw [List.length_append, List.length_singleton]
    omega
  have feed := List.count_pos_iff.mpr (line.subset (List.mem_append_right front
    (List.mem_singleton.mpr rfl)))
  rw [lineOf, lineOf, parts, List.count_append]
  omega

theorem endsLine_of_isBefore {file : SourceFile} {comment later : Nat × Text}
    (stands : IsCommentAt file.source comment) (follows : IsCommentAt file.source later)
    (apart : comment = later ∨ IsBefore comment later) : file.EndsLine comment later := by
  rcases closed_or_line stands with closed | ⟨rest, behind, same, inLine, text, newline⟩
  · exact .inl closed
  · right
    intro line
    rcases apart with rfl | before
    · rw [same]
      simpa using inLine
    · obtain ⟨gap, reached⟩ := Nat.exists_eq_add_of_le before
      have left : file.source.drop later.1 = behind.drop gap := by
        rw [reached, ← List.drop_drop, ← List.drop_drop, text, List.drop_left]
      rw [IsCommentAt, left] at follows
      cases behind with
      | nil => simp at follows
      | cons character more =>
          obtain rfl := newline character rfl
          cases gap with
          | zero =>
              rw [List.drop_zero, piece?_of_isSpace (by decide)] at follows
              simp at follows
          | succ gap =>
              have lower := @lineOf_lt file _ later.1 _ _ text (by omega)
              omega

theorem mem_comments_of_mem_sectionComments {file : SourceFile} {declarations : List Tree}
    {start stop : Nat} (known : declarations ⊆ file.items) {comment : Nat × Text}
    (listed : comment ∈ file.sectionComments declarations start stop) :
    comment ∈ (Tree.tokensOfAll file.items).flatMap Token.comments := by
  have inside {tree : Tree} (member : tree ∈ file.items) :
      tree.tokens ⊆ Tree.tokensOfAll file.items :=
    Tree.tokens_subset_of_mem_subtreesOfAll _
      (Tree.mem_subtreesOfAll.mpr ⟨tree, member, Tree.mem_subtrees_self tree⟩)
  rw [sectionComments, Sorting.mem_sort, List.mem_append] at listed
  rcases listed with outer | inner
  · obtain ⟨tree, member, leads⟩ := List.mem_flatMap.mp (List.mem_of_mem_filter outer)
    rw [Tree.leadingComments] at leads
    split at leads
    · simp at leads
    · rename_i first rest same
      refine List.mem_flatMap.mpr ⟨first, inside member ?_, leads⟩
      rw [same]
      exact List.mem_cons_self
  · obtain ⟨tree, member, within⟩ := List.mem_flatMap.mp inner
    obtain ⟨token, later, has⟩ := List.mem_flatMap.mp within
    exact List.mem_flatMap.mpr ⟨token, inside (known member) (List.mem_of_mem_tail later), has⟩

theorem pairwise_sectionComments {file : SourceFile} (read : ofText? file.source = some file)
    {declarations : List Tree} {start stop : Nat} (known : declarations ⊆ file.items) :
    (∀ comment ∈ file.sectionComments declarations start stop, IsComment comment.2) ∧
      (file.sectionComments declarations start stop).Pairwise file.EndsLine := by
  obtain ⟨tokens, cut, parsed⟩ := exists_tokens_of_ofText? read
  have whole : Tree.tokensOfAll file.items = tokens := tokensOfAll_of_items? parsed
  obtain ⟨stand, ordered⟩ := isCommentAt_of_tokens? cut
  have among {comment : Nat × Text}
      (listed : comment ∈ file.sectionComments declarations start stop) :
      comment ∈ tokens.flatMap Token.comments :=
    whole ▸ mem_comments_of_mem_sectionComments known listed
  refine ⟨fun comment listed => (stand comment (among listed)).isComment, ?_⟩
  have ascends : (file.sectionComments declarations start stop).Pairwise
      fun left right => left.1 ≤ right.1 := Sorting.pairwise_sort_by Prod.fst _
  refine ascends.imp_of_mem fun {comment later} listed follows low => ?_
  refine endsLine_of_isBefore (stand comment (among listed)) (stand later (among follows)) ?_
  refine (eq_or_ne comment later).imp_right fun different => ?_
  have apart : (tokens.flatMap Token.comments).Pairwise fun one other =>
      IsBefore one other ∨ IsBefore other one := ordered.imp .inl
  have symmetric : Std.Symm fun one other => IsBefore one other ∨ IsBefore other one :=
    ⟨fun _ _ => Or.symm⟩
  refine (apart.forall (among listed) (among follows) different).resolve_right fun before => ?_
  have something := List.length_pos_of_ne_nil (stand later (among follows)).isComment.ne_nil
  rw [IsBefore] at before
  omega

/-- In the block of a cut file the comments are skipped. -/
theorem isSkipped_of_cut {file : SourceFile} {layout : FileLayout}
    (read : ofText? file.source = some file) (accepted : file.cut = .ok layout) :
    (∀ line ∈ layout.lines, IsSkipped line.comment) ∧
      ∀ comment ∈ layout.comments, IsSkipped comment := by
  unfold cut at accepted
  cases opened : file.packageClause? with
  | none => simp [opened] at accepted
  | some clause =>
      cases closed : (file.topLevel .importDeclaration).getLast? with
      | none =>
          simp only [opened, closed, Except.ok.injEq] at accepted
          subst accepted
          simp
      | some last =>
          simp only [opened, closed] at accepted
          split at accepted
          · simp at accepted
          · simp only [Except.ok.injEq] at accepted
            subst accepted
            have known : file.topLevel .importDeclaration ⊆ file.items :=
              fun _ => List.mem_of_mem_filter
            obtain ⟨all, ordered⟩ := pairwise_sectionComments read known
            refine isSkipped_attachComments all ordered _ fun index line found => .inl (.inl ?_)
            obtain ⟨spec, _, rfl⟩ := List.mem_map.mp (List.mem_of_getElem? found)
            rfl

end SourceFile

end Go

end Scaffold
