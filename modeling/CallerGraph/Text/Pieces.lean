/-!
# Cutting a text at a separator

`pieces` cuts a text at every place where a separator stands. There is one
piece more than there are separators, and the pieces with the separators
between them are the text.
-/

namespace CallerGraph.Text

/-- The pieces between separators. -/
def pieces (separator : Char) : List Char → List (List Char)
  | [] => [[]]
  | c :: cs =>
      if c = separator then [] :: pieces separator cs
      else
        match pieces separator cs with
        | [] => [[c]]
        | piece :: others => (c :: piece) :: others

/-- There is at least one piece. -/
theorem pieces_ne_nil (separator : Char) (cs : List Char) : pieces separator cs ≠ [] := by
  cases cs with
  | nil => simp [pieces]
  | cons c cs =>
      simp only [pieces]
      split
      · simp
      · split <;> simp

/-- The pieces with the separators between them are the text. -/
theorem intercalate_pieces (separator : Char) (cs : List Char) :
    [separator].intercalate (pieces separator cs) = cs := by
  induction cs with
  | nil => rfl
  | cons c cs ih =>
      obtain ⟨piece, others, h⟩ := List.exists_cons_of_ne_nil (pieces_ne_nil separator cs)
      simp only [pieces, h]
      rw [h] at ih
      split
      case isTrue hc => rw [List.intercalate_cons_cons, ih, hc]; rfl
      case isFalse =>
        cases others with
        | nil => simpa using ih
        | cons next others =>
            rw [List.intercalate_cons_cons] at ih ⊢
            rw [← ih]
            rfl

end CallerGraph.Text
