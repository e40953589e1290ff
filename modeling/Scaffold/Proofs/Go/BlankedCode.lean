import Scaffold.Go.Capture
import Scaffold.Proofs.Go.Layout
import Scaffold.Proofs.Merge.Comments
import Scaffold.Proofs.Text.Marked

/-!
# The code of captured trees

The tokens of a tree follow each other in the file, so the tree is a piece of the
source, and the comments within this piece are those between its tokens.  The code of
the tree is the piece with each of them blanked out.
-/

namespace Scaffold

namespace Go

namespace Trivia

/-- What separates tokens, as a text with its comment marked. -/
def marked : Trivia → Marked Char
  | blank text => text.map .inl
  | comment text => [.inr text]

@[simp] theorem whole_marked (trivia : Trivia) : trivia.marked.whole = trivia.text := by
  cases trivia with
  | blank text => exact Marked.whole_map_inl text
  | comment text => exact List.append_nil text

@[simp] theorem blanked_marked (trivia : Trivia) :
    trivia.marked.blanked ' ' = trivia.code := by
  cases trivia with
  | blank text => exact Marked.blanked_map_inl ' ' text
  | comment text => rfl

end Trivia

namespace Token

/-- What stands before a token, with its comments marked. -/
def markedLead (token : Token) : Marked Char :=
  token.lead.flatMap Trivia.marked

/-- A token with what stands before it, with its comments marked. -/
def marked (token : Token) : Marked Char :=
  token.markedLead ++ token.text.map .inl

theorem whole_trivia (lead : List Trivia) :
    Marked.whole (lead.flatMap Trivia.marked) = lead.flatMap Trivia.text := by
  induction lead with
  | nil => rfl
  | cons trivia rest induction =>
      rw [List.flatMap_cons, List.flatMap_cons, Marked.whole_append, Trivia.whole_marked,
        induction]

theorem blanked_trivia (lead : List Trivia) :
    Marked.blanked ' ' (lead.flatMap Trivia.marked) = lead.flatMap Trivia.code := by
  induction lead with
  | nil => rfl
  | cons trivia rest induction =>
      rw [List.flatMap_cons, List.flatMap_cons, Marked.blanked_append, Trivia.blanked_marked,
        induction]

theorem parts_trivia (lead : List Trivia) :
    ∀ place, Marked.parts place (lead.flatMap Trivia.marked) = commentsFrom place lead := by
  induction lead with
  | nil => exact fun _ => rfl
  | cons trivia rest induction =>
      intro place
      rw [List.flatMap_cons, Marked.parts_append, induction, Trivia.whole_marked]
      cases trivia with
      | blank text => rw [Trivia.marked, Marked.parts_map_inl]; rfl
      | comment text => rfl

variable {tokens front behind : List Token} {source : Text}

theorem whole_marked (tokens : List Token) :
    Marked.whole (tokens.flatMap marked) = tokens.flatMap fullText := by
  induction tokens with
  | nil => rfl
  | cons token rest induction =>
      rw [List.flatMap_cons, List.flatMap_cons, Marked.whole_append, induction, marked,
        Marked.whole_append, markedLead, whole_trivia, Marked.whole_map_inl, fullText]

theorem blanked_marked (tokens : List Token) :
    Marked.blanked ' ' (tokens.flatMap marked) = tokens.flatMap fullCode := by
  induction tokens with
  | nil => rfl
  | cons token rest induction =>
      rw [List.flatMap_cons, List.flatMap_cons, Marked.blanked_append, induction, marked,
        Marked.blanked_append, markedLead, blanked_trivia, Marked.blanked_map_inl, fullCode]

theorem parts_marked (cut : tokens? source = some (front ++ (tokens ++ behind))) :
    Marked.parts (front.flatMap fullText).length (tokens.flatMap marked) =
      tokens.flatMap comments := by
  induction tokens generalizing front with
  | nil => rfl
  | cons token rest induction =>
      have next : tokens? source = some ((front ++ [token]) ++ (rest ++ behind)) := by
        rw [cut, List.append_assoc, List.singleton_append, List.cons_append]
      have start := (place_of_tokens? cut).1
      have lead : token.start - (token.lead.flatMap Trivia.text).length =
          (front.flatMap fullText).length := by
        rw [start, List.length_append, Nat.add_sub_cancel]
      have stop : (front.flatMap fullText).length + (Marked.whole token.marked).length =
          ((front ++ [token]).flatMap fullText).length := by
        have same := whole_marked [token]
        rw [List.flatMap_singleton] at same
        rw [same, List.flatMap_append, List.length_append]
      rw [List.flatMap_cons, List.flatMap_cons, Marked.parts_append, stop, induction next,
        comments, lead, marked, Marked.parts_append, Marked.parts_map_inl, List.append_nil,
        markedLead, parts_trivia]

end Token

namespace Tree

/-- A tree from its first token on, with the comments inside of it marked. -/
def marked (tree : Tree) : Marked Char :=
  match tree.tokens with
  | [] => []
  | first :: rest => first.text.map .inl ++ rest.flatMap Token.marked

theorem blanked_marked (tree : Tree) : tree.marked.blanked ' ' = tree.code := by
  unfold marked code
  cases tree.tokens with
  | nil => rfl
  | cons first rest =>
      rw [Marked.blanked_append, Marked.blanked_map_inl, Token.blanked_marked]

theorem stop_of_tokens? {source : Text} {tree : Tree} {front behind : List Token}
    (cut : tokens? source = some (front ++ (tree.tokens ++ behind))) (some : tree.tokens ≠ []) :
    tree.stop = ((front ++ tree.tokens).flatMap Token.fullText).length := by
  obtain ⟨others, last, split⟩ := (List.eq_nil_or_concat' _).resolve_left some
  have whole : front ++ (tree.tokens ++ behind) = (front ++ others) ++ last :: behind := by
    rw [split]
    simp
  have stops : tree.stop = last.stop := by
    rw [stop, split, List.getLast?_concat]
  rw [stops, split, Go.stop_of_tokens? (whole ▸ cut), List.append_assoc]

/-- A tree is a stretch of the source that goes from its start to its stop. -/
theorem isStretch_marked {source : Text} {tokens : List Token} {tree : Tree}
    (cut : tokens? source = some tokens) (inside : tree.tokens <:+: tokens) :
    Marked.IsStretch (tokens.flatMap Token.marked) tree.start tree.stop tree.marked := by
  obtain ⟨front, behind, split⟩ := inside
  rw [List.append_assoc] at split
  cases own : tree.tokens with
  | nil =>
      refine ⟨[], tokens.flatMap Token.marked, ?_, ?_, ?_⟩ <;> simp [marked, start, stop, own]
  | cons first rest =>
      have stops := stop_of_tokens? (by rw [cut, split]) (by rw [own]; exact List.cons_ne_nil _ _)
      rw [own] at split stops
      have starts := (place_of_tokens? (by rw [cut, ← split, List.cons_append])).1
      have lead : Marked.whole (front.flatMap Token.marked ++ first.markedLead) =
          front.flatMap Token.fullText ++ first.lead.flatMap Trivia.text := by
        rw [Marked.whole_append, Token.whole_marked, Token.markedLead, Token.whole_trivia]
      have same : tree.marked = first.text.map .inl ++ rest.flatMap Token.marked := by
        rw [marked, own]
      have here : tree.start = first.start := by
        rw [start, own]
      refine ⟨front.flatMap Token.marked ++ first.markedLead, behind.flatMap Token.marked,
        ?_, ?_, ?_⟩
      · rw [same, ← split]
        simp [Token.marked]
      · rw [lead, ← starts, here]
      · rw [here, starts, stops, same, Marked.whole_append, Marked.whole_map_inl,
          Token.whole_marked]
        simp [Token.fullText, Nat.add_assoc]

theorem parts_marked {source : Text} {tokens : List Token} {tree : Tree}
    (cut : tokens? source = some tokens) (inside : tree.tokens <:+: tokens) :
    tree.marked.parts tree.start = tree.innerComments := by
  obtain ⟨front, behind, split⟩ := inside
  unfold marked start innerComments
  cases own : tree.tokens with
  | nil => rfl
  | cons first rest =>
      rw [own] at split
      have cut : tokens? source = some ((front ++ [first]) ++ (rest ++ behind)) := by
        rw [cut, ← split]
        simp
      have stops : first.stop = ((front ++ [first]).flatMap Token.fullText).length :=
        Go.stop_of_tokens? (by rw [cut, List.append_assoc, List.singleton_append])
      rw [Marked.parts_append, Marked.parts_map_inl, Marked.whole_map_inl, List.nil_append,
        List.tail_cons]
      change Marked.parts first.stop (rest.flatMap Token.marked) = rest.flatMap Token.comments
      rw [stops]
      exact Token.parts_marked cut

theorem mem_subtreesOfAll_of_mem_parts {kind : Kind} {tree part : Tree} {trees : List Tree}
    (inside : tree ∈ subtreesOfAll trees) (member : part ∈ tree.parts kind) :
    part ∈ subtreesOfAll trees := by
  cases tree with
  | leaf token => exact absurd (List.mem_filter.mp member).1 List.not_mem_nil
  | node outer children =>
      exact children_mem_subtreesOfAll (List.mem_filter.mp member).1 _ inside

end Tree

namespace SourceFile

/-- A file with its comments marked. -/
def marked (file : SourceFile) : Marked Char :=
  (Tree.tokensOfAll file.items).flatMap Token.marked

variable {file : SourceFile}

theorem whole_marked (read : ofText? file.source = some file) :
    file.marked.whole = file.source := by
  obtain ⟨tokens, cut, parsed⟩ := exists_tokens_of_ofText? read
  rw [marked, tokensOfAll_of_items? parsed, Token.whole_marked, flatMap_fullText_of_tokens? cut]

theorem parts_marked (read : ofText? file.source = some file) :
    file.marked.parts 0 = file.comments := by
  obtain ⟨tokens, cut, parsed⟩ := exists_tokens_of_ofText? read
  rw [marked, comments, tokensOfAll_of_items? parsed]
  refine @Token.parts_marked tokens [] [] file.source ?_
  rw [List.append_nil, List.nil_append, cut]

theorem ne_nil_of_mem_comments (read : ofText? file.source = some file) :
    ∀ comment ∈ file.comments, comment.2 ≠ [] := fun comment member =>
  ((isCommentAt_comments read).1 comment member).isComment.ne_nil

theorem isStretch_of_mem_subtrees (read : ofText? file.source = some file) {tree : Tree}
    (inside : tree ∈ Tree.subtreesOfAll file.items) :
    Marked.IsStretch file.marked tree.start tree.stop tree.marked := by
  obtain ⟨tokens, cut, parsed⟩ := exists_tokens_of_ofText? read
  have same := tokensOfAll_of_items? parsed
  rw [marked, same]
  exact Tree.isStretch_marked cut (same ▸ Tree.tokens_infix_of_mem_subtreesOfAll _ inside)

theorem innerComments_eq (read : ofText? file.source = some file) {tree : Tree}
    (inside : tree ∈ Tree.subtreesOfAll file.items) :
    tree.innerComments = Marked.within tree.start tree.stop file.comments := by
  obtain ⟨tokens, cut, parsed⟩ := exists_tokens_of_ofText? read
  have within := Tree.tokens_infix_of_mem_subtreesOfAll _ inside
  rw [tokensOfAll_of_items? parsed] at within
  rw [← Tree.parts_marked cut within, ← parts_marked read]
  refine (isStretch_of_mem_subtrees read inside).parts_eq ?_
  rw [parts_marked read]
  exact ne_nil_of_mem_comments read

/-! ## Captures -/

/-- The capture is one of a tree inside the file. -/
def IsOfTree (file : SourceFile) (capture : Capture) : Prop :=
  ∃ tree ∈ Tree.subtreesOfAll file.items, ∃ label, capture = Capture.ofTree label tree

theorem mem_subtreesOfAll_of_inside {kind : Kind} {tree : Tree} (member : tree ∈ file.inside kind) :
    tree ∈ Tree.subtreesOfAll file.items := by
  obtain ⟨item, listed, below⟩ := List.mem_flatMap.mp member
  exact Tree.mem_subtreesOfAll.mpr ⟨item, listed, (List.mem_filter.mp below).1⟩

theorem mem_subtreesOfAll_of_topLevel {kind : Kind} {tree : Tree}
    (member : tree ∈ file.topLevel kind) : tree ∈ Tree.subtreesOfAll file.items :=
  Tree.mem_subtreesOfAll.mpr ⟨tree, (List.mem_filter.mp member).1, Tree.mem_subtrees_self tree⟩

theorem isOfTree_of_mem_map {kind : Kind} {tree : Tree} {label : Label} {capture : Capture}
    (inside : tree ∈ Tree.subtreesOfAll file.items)
    (member : capture ∈ (tree.parts kind).map (Capture.ofTree label)) : file.IsOfTree capture := by
  obtain ⟨part, below, rfl⟩ := List.mem_map.mp member
  exact ⟨part, Tree.mem_subtreesOfAll_of_mem_parts inside below, label, rfl⟩

theorem isOfTree_of_mem_packageCaptures {capture : Capture}
    (member : capture ∈ file.packageCaptures) : file.IsOfTree capture := by
  obtain ⟨clause, top, named⟩ := List.mem_flatMap.mp member
  exact isOfTree_of_mem_map (mem_subtreesOfAll_of_topLevel top) named

theorem isOfTree_of_mem_methodCaptures {element : Tree} {capture : Capture}
    (inside : element ∈ Tree.subtreesOfAll file.items)
    (member : capture ∈ methodCaptures element) : file.IsOfTree capture := by
  rcases List.mem_append.mp member with either | result
  · rcases List.mem_append.mp either with name | parameters
    · exact isOfTree_of_mem_map inside name
    · exact isOfTree_of_mem_map inside parameters
  · exact isOfTree_of_mem_map inside result

theorem isOfTree_of_mem_contractTypeCaptures {spec : Tree} {capture : Capture}
    (inside : spec ∈ Tree.subtreesOfAll file.items)
    (member : capture ∈ contractTypeCaptures spec) : file.IsOfTree capture := by
  unfold contractTypeCaptures at member
  split at member
  · rename_i elements last
    obtain ⟨name, named, either⟩ := List.mem_flatMap.mp member
    have below := (List.mem_filter.mp named).1
    rcases List.mem_cons.mp either with rfl | method
    · exact ⟨name, Tree.mem_subtreesOfAll_of_mem_parts inside below, _, rfl⟩
    · obtain ⟨element, listed, captured⟩ := List.mem_flatMap.mp method
      have interface : Tree.node .interfaceType elements ∈ Tree.subtreesOfAll file.items := by
        cases spec with
        | leaf token => cases last
        | node kind children =>
            exact Tree.children_mem_subtreesOfAll (List.mem_of_getLast? last) _ inside
      exact isOfTree_of_mem_methodCaptures
        (Tree.children_mem_subtreesOfAll (List.mem_filter.mp listed).1 _ interface) captured
  · cases member

theorem isOfTree_of_mem_backingMethodCaptures {method : Tree} {capture : Capture}
    (inside : method ∈ Tree.subtreesOfAll file.items)
    (member : capture ∈ backingMethodCaptures method) : file.IsOfTree capture := by
  unfold backingMethodCaptures at member
  split at member
  · cases member
  · rcases List.mem_append.mp member with receiver | name
    · obtain ⟨type, listed, rfl⟩ := List.mem_map.mp receiver
      obtain ⟨parameter, own, found⟩ := List.mem_flatMap.mp listed
      obtain ⟨list, outer, below⟩ := List.mem_flatMap.mp own
      obtain ⟨part, direct, deeper⟩ := List.mem_flatMap.mp outer
      have first := Tree.mem_subtreesOfAll_of_mem_parts inside direct
      have second := Tree.mem_subtreesOfAll_of_mem_parts first deeper
      have third := Tree.mem_subtreesOfAll_of_mem_parts second below
      exact ⟨type, Tree.mem_subtreesOfAll_of_mem_parts third (List.mem_filter.mp found).1, _, rfl⟩
    · exact isOfTree_of_mem_map inside name

theorem isOfTree_of_mem_captures {capture : Capture}
    (member : capture ∈ file.contractCaptures ∨ capture ∈ file.implementationCaptures) :
    file.IsOfTree capture := by
  rcases member with contract | implementation
  · rcases List.mem_append.mp ((Sorting.mem_sort _).mp contract) with package | declared
    · exact isOfTree_of_mem_packageCaptures package
    · obtain ⟨spec, inner, captured⟩ := List.mem_flatMap.mp declared
      exact isOfTree_of_mem_contractTypeCaptures (mem_subtreesOfAll_of_inside inner) captured
  · rcases List.mem_append.mp ((Sorting.mem_sort _).mp implementation) with either | method
    · rcases List.mem_append.mp either with package | declared
      · exact isOfTree_of_mem_packageCaptures package
      · obtain ⟨spec, inner, captured⟩ := List.mem_flatMap.mp declared
        obtain ⟨name, named, rfl⟩ := List.mem_map.mp captured
        exact ⟨name, Tree.mem_subtreesOfAll_of_mem_parts (mem_subtreesOfAll_of_inside inner)
          (List.mem_filter.mp named).1, _, rfl⟩
    · obtain ⟨declaration, top, captured⟩ := List.mem_flatMap.mp method
      exact isOfTree_of_mem_backingMethodCaptures (mem_subtreesOfAll_of_topLevel top) captured

end SourceFile

end Go

end Scaffold
