import Scaffold.Go.FileLayout

/-!
# How a file is cut

The head of a layout ends with the line of the package clause.  The tail begins
right behind the head if the file has no import declaration, and right behind
the last import declaration otherwise.  The imports of the layout are those of
the file: comments move between its lines, imports do not.
-/

namespace Scaffold

namespace Go

/-- A text cut behind the line in which a position stands.  Only the last line
may lack the line feed. -/
structure LineCut (text : Text) (position : Nat) (head rest : Text) : Prop where
  whole : head ++ rest = text
  line : ∃ line ending, head = text.take position ++ line ++ ending ∧ '\n' ∉ line ∧
    (ending = ['\n'] ∨ ending = [] ∧ rest = [])

namespace SourceFile

/-- A text is its first line and what the search for a line feed leaves. -/
private theorem exists_line (text : Text) :
    ∃ line, text = line ++ text.dropWhile (· ≠ '\n') ∧ '\n' ∉ line ∧
      (text.dropWhile (· ≠ '\n') = [] ∨
        ∃ behind, text.dropWhile (· ≠ '\n') = '\n' :: behind) := by
  induction text with
  | nil => exact ⟨[], rfl, List.not_mem_nil, .inl rfl⟩
  | cons character rest induction =>
      by_cases feed : character = '\n'
      · subst feed
        exact ⟨[], rfl, List.not_mem_nil, .inr ⟨rest, rfl⟩⟩
      · obtain ⟨line, split, clean, ending⟩ := induction
        rw [List.dropWhile_cons_of_pos (by simpa using feed)]
        refine ⟨character :: line, ?_, ?_, ending⟩
        · rw [List.cons_append, ← split]
        · rintro (_ | ⟨_, member⟩)
          · exact feed rfl
          · exact clean member

theorem lineCut_lineStop (file : SourceFile) (position : Nat) :
    LineCut file.source position (file.source.take (file.lineStop position))
      (file.source.drop (file.lineStop position)) := by
  refine ⟨List.take_append_drop _ _, ?_⟩
  obtain ⟨line, split, clean, ending⟩ := exists_line (file.source.drop position)
  have whole := List.take_append_drop position file.source
  rcases ending with nothing | ⟨behind, feed⟩
  · have stop : file.lineStop position = file.source.length := by
      simp only [lineStop, nothing, List.length_nil, Nat.zero_sub, Nat.sub_zero]
    rw [nothing, List.append_nil] at split
    refine ⟨line, [], ?_, clean, .inr ⟨rfl, ?_⟩⟩
    · rw [stop, List.take_length, List.append_nil, ← split, whole]
    · rw [stop, List.drop_length]
  · rw [feed] at split
    have parts :
        file.source = (file.source.take position ++ line ++ ['\n']) ++ behind := by
      calc
        file.source = file.source.take position ++ (line ++ '\n' :: behind) := by
          rw [← split, whole]
        _ = (file.source.take position ++ line ++ ['\n']) ++ behind := by simp
    have stop : file.lineStop position =
        (file.source.take position ++ line ++ ['\n']).length := by
      have sizes := congrArg List.length parts
      rw [List.length_append] at sizes
      simp only [lineStop, feed, List.length_cons]
      omega
    have head : file.source.take (file.lineStop position) =
        file.source.take position ++ line ++ ['\n'] := by
      rw [stop]
      exact (congrArg (List.take _) parts).trans List.take_left
    exact ⟨line, ['\n'], head, clean, .inl rfl⟩

/-! ## The imports of a layout -/

theorem map_spec_modify_attach (text : Text) (index : Nat) (lines : List ImportLine) :
    (lines.modify index (attach text)).map ImportLine.spec = lines.map ImportLine.spec := by
  induction lines generalizing index with
  | nil => simp
  | cons line rest induction =>
      cases index with
      | zero => rfl
      | succ index => simp [induction]

theorem map_spec_attachComments
    (file : SourceFile) (ends : List SpecEnd) (comments : List (Nat × Text)) :
    ∀ lines, (file.attachComments ends comments lines).1.map ImportLine.spec =
      lines.map ImportLine.spec := by
  induction comments with
  | nil => intro lines; rfl
  | cons comment rest induction =>
      intro lines
      rw [attachComments]
      split
      · rw [induction, map_spec_modify_attach]
      · exact induction lines

/-! ## What a layout keeps -/

/-- A layout as the cut of a file. -/
inductive CutAs (file : SourceFile) (layout : FileLayout) : Prop where
  | withoutSection (clause : Tree)
      (opened : file.packageClause? = some clause)
      (noImport : (file.topLevel .importDeclaration).getLast? = none)
      (cut : LineCut file.source clause.stop layout.head layout.tail)
      (noLine : layout.lines = [])
      (noSection : layout.hasSection = false)
  | withSection (clause last : Tree) (rest : Text)
      (opened : file.packageClause? = some clause)
      (closed : (file.topLevel .importDeclaration).getLast? = some last)
      (cut : LineCut file.source clause.stop layout.head rest)
      (tail : layout.tail = file.source.drop last.stop)
      (hasSection : layout.hasSection = true)

theorem cutAs_of_cut {file : SourceFile} {layout : FileLayout}
    (accepted : file.cut = .ok layout) : file.CutAs layout := by
  unfold cut at accepted
  cases opened : file.packageClause? with
  | none => simp [opened] at accepted
  | some clause =>
      have behind := file.lineCut_lineStop clause.stop
      cases closed : (file.topLevel .importDeclaration).getLast? with
      | none =>
          simp only [opened, closed, Except.ok.injEq] at accepted
          subst accepted
          exact .withoutSection clause opened closed behind rfl rfl
      | some last =>
          simp only [opened, closed] at accepted
          split at accepted
          · simp at accepted
          · simp only [Except.ok.injEq] at accepted
            subst accepted
            exact .withSection clause last _ opened closed behind rfl rfl

theorem imports_of_cut {file : SourceFile} {layout : FileLayout}
    (accepted : file.cut = .ok layout) : layout.imports = file.imports := by
  unfold cut at accepted
  cases opened : file.packageClause? with
  | none => simp [opened] at accepted
  | some clause =>
      cases closed : (file.topLevel .importDeclaration).getLast? with
      | none =>
          simp only [opened, closed, Except.ok.injEq] at accepted
          subst accepted
          have nothing : file.topLevel .importDeclaration = [] :=
            List.getLast?_eq_none_iff.mp closed
          simp [FileLayout.imports, imports, nothing]
      | some last =>
          simp only [opened, closed] at accepted
          split at accepted
          · simp at accepted
          · simp only [Except.ok.injEq] at accepted
            subst accepted
            rw [FileLayout.imports, map_spec_attachComments, List.map_map, imports,
              List.map_flatMap]
            rfl

end SourceFile

namespace FileLayout

theorem exists_file_of_ofSource {source : Bytes} {layout : FileLayout}
    (accepted : ofSource source = .ok layout) :
    ∃ file, SourceFile.ofBytes source = .ok file ∧ file.cut = .ok layout := by
  unfold ofSource at accepted
  split at accepted
  · simp at accepted
  · rename_i file read
    exact ⟨file, read, accepted⟩

end FileLayout

namespace SourceFile

theorem text_of_ofBytes {bytes : Bytes} {file : SourceFile} (read : ofBytes bytes = .ok file) :
    Utf8.decode bytes = .ok file.source ∧ ofText? file.source = some file := by
  unfold ofBytes at read
  split at read
  · simp at read
  · rename_i source decoded
    split at read
    · simp at read
    · rename_i known found
      have same : known = file := Except.ok.inj read
      subst same
      have source : source = known.source := by
        unfold ofText? at found
        split at found
        · simp at found
        · split at found
          · rw [← Option.some.inj found]
          · simp at found
      exact ⟨source ▸ decoded, source ▸ found⟩

end SourceFile

end Go

end Scaffold
